import DbPivot.System.Run

/-!
# Copying between two connections

A copying loop reads a chunk, writes it and starts over. What it has read, what it has in hand and
what it has written are three parts of one sequence: nothing is lost, duplicated or reordered
before the loop stops, and what it had in hand by then is all that is lost.

A pipe is two such loops in opposite directions between two connections. Whichever of them stops,
and anyone else who holds the connections, may close both; from then on neither loop moves.
-/

namespace DbPivot.System

variable {α : Type}

/-- One direction of a pipe. -/
structure Copy (α : Type) where
  unread : List α
  pending : List α
  written : List α
  running : Bool

namespace Copy

/-- Everything this direction has carried and may still carry. -/
def total (c : Copy α) : List α := c.written ++ c.pending ++ c.unread

/-- A loop about to start. -/
def start (source : List α) : Copy α := ⟨source, [], [], true⟩

/-- The loop ends, with the source or on an error. -/
def stop (c : Copy α) : Copy α := { c with running := false }

/-- A read returns some of the source; a write gets some of the chunk out. -/
inductive Step (c : Copy α) : Copy α → Prop where
  | read {chunk rest : List α} (hrunning : c.running) (hpending : c.pending = [])
      (hchunk : chunk ≠ []) (hunread : c.unread = chunk ++ rest) :
      Step c { c with unread := rest, pending := chunk }
  | write {part rest : List α} (hrunning : c.running) (hpart : part ≠ [])
      (hpending : c.pending = part ++ rest) :
      Step c { c with pending := rest, written := c.written ++ part }

theorem total_step {c c' : Copy α} (hstep : Step c c') : c'.total = c.total := by
  cases hstep with
  | read hrunning hpending hchunk hunread =>
    simp only [total, hpending, hunread, List.append_nil, List.append_assoc]
  | write hrunning hpart hpending =>
    simp only [total, hpending, List.append_assoc]

theorem unread_step {c c' : Copy α} (hstep : Step c c') : c'.unread <:+ c.unread := by
  cases hstep with
  | read hrunning hpending hchunk hunread =>
    rw [hunread]
    exact List.suffix_append _ _
  | write => exact List.suffix_rfl

/-- What is written stays written. -/
theorem written_step {c c' : Copy α} (hstep : Step c c') : c.written <+: c'.written := by
  cases hstep with
  | read => exact List.prefix_rfl
  | write => exact List.prefix_append _ _

theorem written_isPrefix (c : Copy α) : c.written <+: c.total := by
  rw [total, List.append_assoc]
  exact List.prefix_append _ _

/-- Between two chunks, what was written is all that was read. -/
theorem written_eq {c : Copy α} (hpending : c.pending = []) {before source consumed : List α}
    (htotal : c.total = before ++ source) (hsource : source = consumed ++ c.unread) :
    c.written = before ++ consumed := by
  rw [total, hpending, List.append_nil, hsource, ← List.append_assoc] at htotal
  exact List.append_cancel_right htotal

/-- The same loop after something was written. -/
def behind (before : List α) (c : Copy α) : Copy α := { c with written := before ++ c.written }

/-- What was written before makes no difference to a loop. -/
theorem step_behind {before : List α} {c d : Copy α} (hstep : (c.behind before).Step d) :
    ∃ c', c.Step c' ∧ d = c'.behind before := by
  cases hstep with
  | read hrunning hpending hchunk hunread =>
    exact ⟨_, .read hrunning hpending hchunk hunread, rfl⟩
  | write hrunning hpart hpending =>
    refine ⟨_, .write hrunning hpart hpending, ?_⟩
    simp only [behind, List.append_assoc]

end Copy

/-- The two directions between a client and an upstream. -/
structure Pipe (α : Type) where
  toUp : Copy α
  toClient : Copy α
  closed : Bool

namespace Pipe

inductive Event where
  | toUp
  | toClient
  | stopUp
  | stopClient
  | close

/-- One step of a pipe. -/
inductive Step (p : Pipe α) : Event → Pipe α → Prop where
  | toUp {c : Copy α} (hopen : p.closed = false) (hstep : p.toUp.Step c) :
      Step p .toUp { p with toUp := c }
  | toClient {c : Copy α} (hopen : p.closed = false) (hstep : p.toClient.Step c) :
      Step p .toClient { p with toClient := c }
  | stopUp : Step p .stopUp { p with toUp := p.toUp.stop }
  | stopClient : Step p .stopClient { p with toClient := p.toClient.stop }
  | close : Step p .close { p with closed := true }

/-- Whatever a pipe does, each direction carries the same sequence. -/
theorem total_step {p p' : Pipe α} {event : Event} (hstep : Step p event p') :
    p'.toUp.total = p.toUp.total ∧ p'.toClient.total = p.toClient.total := by
  cases hstep with
  | toUp hopen hstep => exact ⟨Copy.total_step hstep, rfl⟩
  | toClient hopen hstep => exact ⟨rfl, Copy.total_step hstep⟩
  | stopUp => exact ⟨rfl, rfl⟩
  | stopClient => exact ⟨rfl, rfl⟩
  | close => exact ⟨rfl, rfl⟩

theorem written_step {p p' : Pipe α} {event : Event} (hstep : Step p event p') :
    p.toUp.written <+: p'.toUp.written ∧ p.toClient.written <+: p'.toClient.written := by
  cases hstep with
  | toUp hopen hstep => exact ⟨Copy.written_step hstep, List.prefix_rfl⟩
  | toClient hopen hstep => exact ⟨List.prefix_rfl, Copy.written_step hstep⟩
  | stopUp => exact ⟨List.prefix_rfl, List.prefix_rfl⟩
  | stopClient => exact ⟨List.prefix_rfl, List.prefix_rfl⟩
  | close => exact ⟨List.prefix_rfl, List.prefix_rfl⟩

theorem unread_step {p p' : Pipe α} {event : Event} (hstep : Step p event p') :
    p'.toUp.unread <:+ p.toUp.unread ∧ p'.toClient.unread <:+ p.toClient.unread := by
  cases hstep with
  | toUp hopen hstep => exact ⟨Copy.unread_step hstep, List.suffix_rfl⟩
  | toClient hopen hstep => exact ⟨List.suffix_rfl, Copy.unread_step hstep⟩
  | stopUp => exact ⟨List.suffix_rfl, List.suffix_rfl⟩
  | stopClient => exact ⟨List.suffix_rfl, List.suffix_rfl⟩
  | close => exact ⟨List.suffix_rfl, List.suffix_rfl⟩

/-- The same pipe after something was written in both directions. -/
def behind (toUp toClient : List α) (p : Pipe α) : Pipe α :=
  { p with toUp := p.toUp.behind toUp, toClient := p.toClient.behind toClient }

theorem step_behind {toUp toClient : List α} {p q : Pipe α} {event : Event}
    (hstep : (p.behind toUp toClient).Step event q) :
    ∃ p', p.Step event p' ∧ q = p'.behind toUp toClient := by
  cases hstep with
  | toUp hopen hstep =>
    obtain ⟨c, hcopy, rfl⟩ := Copy.step_behind hstep
    exact ⟨_, .toUp hopen hcopy, rfl⟩
  | toClient hopen hstep =>
    obtain ⟨c, hcopy, rfl⟩ := Copy.step_behind hstep
    exact ⟨_, .toClient hopen hcopy, rfl⟩
  | stopUp => exact ⟨_, .stopUp, rfl⟩
  | stopClient => exact ⟨_, .stopClient, rfl⟩
  | close => exact ⟨_, .close, rfl⟩

end Pipe

end DbPivot.System
