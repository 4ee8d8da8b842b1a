import DbPivot.System.Program

/-!
# Processes that share a state

A machine has ended, or it makes one call and goes on from the reply. Several machines of one kind
run as processes: each of them may take the next step, the replies depend on the state that they
share and on who asks, and each may be killed at any time. One that has ended is gone a moment
later, and so is what it held.

A program is a machine whose states are what is left of it. Where the rest of a program can be given
by a position in it, the positions are a machine as well, and its processes take the same steps. So
a property of all runs of a program can be proved by cases on the positions.
-/

namespace DbPivot.System

variable {I : Interface} {P Q Pid σ ε α : Type}

/-- A machine: what it does next, unless it has ended, and its state once it was killed. -/
structure Machine (I : Interface) (P : Type) where
  view : P → Option (Σ c : I.Call, I.Reply c → P)
  dead : P

/-- What is left of a program. -/
def Program.view : Program I ε α → Option (Σ c : I.Call, I.Reply c → Program I ε α)
  | .done _ => none
  | .call c next => some ⟨c, next⟩

/-- Programs as machines, with the result of one that was killed. -/
def Program.machine (killed : Except ε α) : Machine I (Program I ε α) where
  view := Program.view
  dead := .done killed

/-- What processes run on: the replies they may get, with the shared state after them, and the
shared state without what a process held. -/
structure Platform (I : Interface) (Pid σ : Type) where
  reply : σ → Pid → (c : I.Call) → I.Reply c → σ → Prop
  release : Pid → σ → σ

/-- Processes and the state they share. -/
structure Processes (Pid σ P : Type) where
  shared : σ
  state : Pid → P

namespace Processes

/-- Who takes a step, is killed, or is gone. -/
inductive Event (Pid : Type) where
  | move (b : Pid)
  | kill (b : Pid)
  | exit (b : Pid)

variable [DecidableEq Pid]

/-- One step of one process. -/
inductive Step (M : Machine I P) (W : Platform I Pid σ) :
    Processes Pid σ P → Event Pid → Processes Pid σ P → Prop where
  | move {s : Processes Pid σ P} {b : Pid} {c : I.Call} {next : I.Reply c → P} {reply : I.Reply c}
      {shared : σ} (hview : M.view (s.state b) = some ⟨c, next⟩)
      (hreply : W.reply s.shared b c reply shared) :
      Step M W s (.move b) ⟨shared, Function.update s.state b (next reply)⟩
  | kill {s : Processes Pid σ P} {b : Pid} (hview : (M.view (s.state b)).isSome) :
      Step M W s (.kill b) ⟨W.release b s.shared, Function.update s.state b M.dead⟩
  | exit {s : Processes Pid σ P} {b : Pid} (hview : M.view (s.state b) = none) :
      Step M W s (.exit b) ⟨W.release b s.shared, s.state⟩

/-- The same processes seen in another way. -/
def map (f : P → Q) (s : Processes Pid σ P) : Processes Pid σ Q where
  shared := s.shared
  state b := f (s.state b)

end Processes

/-- One machine in terms of another that makes the same calls. -/
structure Machine.Tracks (M : Machine I P) (N : Machine I Q) (f : P → Q) : Prop where
  view : ∀ p, N.view (f p) = (M.view p).map fun step ↦ ⟨step.1, fun reply ↦ f (step.2 reply)⟩
  dead : N.dead = f M.dead

namespace Machine.Tracks

open Processes

variable {M : Machine I P} {N : Machine I Q} {f : P → Q}

theorem view_of_some (h : M.Tracks N f) {p : P} {c : I.Call} {next : I.Reply c → P}
    (hview : M.view p = some ⟨c, next⟩) : N.view (f p) = some ⟨c, fun reply ↦ f (next reply)⟩ := by
  rw [h.view, hview]
  rfl

theorem isSome_view (h : M.Tracks N f) (p : P) : (N.view (f p)).isSome ↔ (M.view p).isSome := by
  rw [h.view, Option.isSome_map]

theorem view_eq_none (h : M.Tracks N f) (p : P) : N.view (f p) = none ↔ M.view p = none := by
  rw [h.view, Option.map_eq_none_iff]

variable [DecidableEq Pid] {W : Platform I Pid σ} {s s' : Processes Pid σ P}

theorem map_update (s : Processes Pid σ P) (shared : σ) (b : Pid) (p : P) :
    map f ⟨shared, Function.update s.state b p⟩ =
      ⟨shared, Function.update (s.map f).state b (f p)⟩ := by
  have hstate : (fun b' ↦ f (Function.update s.state b p b')) =
      Function.update (fun b' ↦ f (s.state b')) b (f p) :=
    funext (Function.apply_update (fun _ ↦ f) s.state b p)
  rw [map, hstate]
  rfl

/-- A step of the one is a step of the other. -/
theorem map_step (h : M.Tracks N f) {event : Event Pid} (hstep : Step M W s event s') :
    Step N W (s.map f) event (s'.map f) := by
  cases hstep with
  | move hview hreply =>
    rw [map_update]
    exact .move (s := s.map f) (h.view_of_some hview) hreply
  | kill hview =>
    rw [map_update, ← h.dead]
    exact .kill (s := s.map f) ((h.isSome_view _).mpr hview)
  | exit hview => exact .exit (s := s.map f) ((h.view_eq_none _).mpr hview)

/-- The other takes no other steps. -/
theorem step_map (h : M.Tracks N f) {event : Event Pid} {t : Processes Pid σ Q}
    (hstep : Step N W (s.map f) event t) : ∃ s', Step M W s event s' ∧ t = s'.map f := by
  generalize hs : s.map f = t₀ at hstep
  cases hstep with
  | @move b c next reply shared hview hreply =>
    subst hs
    cases hpos : M.view (s.state b) with
    | none => exact absurd (hview.symm.trans ((h.view_eq_none _).mpr hpos)) (Option.some_ne_none _)
    | some step =>
      obtain ⟨c', next'⟩ := step
      have hsame := Option.some.inj (hview.symm.trans (h.view_of_some hpos))
      obtain ⟨rfl, hnext⟩ := Sigma.mk.inj hsame
      obtain rfl := eq_of_heq hnext
      exact ⟨_, .move hpos hreply, (map_update s shared b (next' reply)).symm⟩
  | kill hview =>
    subst hs
    refine ⟨_, .kill ((h.isSome_view _).mp hview), ?_⟩
    rw [map_update, ← h.dead]
    rfl
  | exit hview =>
    subst hs
    exact ⟨_, .exit ((h.view_eq_none _).mp hview), rfl⟩

/-- A run of the one is a run of the other. -/
theorem map_run (h : M.Tracks N f) (hrun : Run (Step M W) s s') :
    Run (Step N W) (s.map f) (s'.map f) := by
  induction hrun with
  | refl => exact .refl
  | step event _ hstep ih => exact ih.step event (h.map_step hstep)

/-- The other has no other runs. -/
theorem run_map (h : M.Tracks N f) {t : Processes Pid σ Q} (hrun : Run (Step N W) (s.map f) t) :
    ∃ s', Run (Step M W) s s' ∧ t = s'.map f := by
  induction hrun with
  | refl => exact ⟨s, .refl, rfl⟩
  | step event _ hstep ih =>
    obtain ⟨s', hrun, rfl⟩ := ih
    obtain ⟨s'', hnext, rfl⟩ := h.step_map hstep
    exact ⟨s'', hrun.step event hnext, rfl⟩

end Machine.Tracks

end DbPivot.System
