import DbPivot.System.Run
import Mathlib.Logic.Relation

/-!
# Programs over an interface

A program makes calls and goes on with their replies until it ends with a value or an exception. It
says nothing about what a call does: that is the part of a world, which answers calls and changes
its own state, in any of several ways and also while a call is in progress. One program can so be
run against a recording of everything that could happen, against connections, and against a peer
that reacts to what it is sent.

`Ensures` is the precondition under which a program keeps a property of the state at every moment
and meets a postcondition at its end. It is computed along the program, and it is sound for every
run.
-/

namespace DbPivot.System

/-- The calls a program can make, and what each of them returns. -/
structure Interface where
  Call : Type
  Reply : Call → Type

/-- A program that ends with a value or an exception. -/
inductive Program (I : Interface) (ε α : Type) where
  | done (result : Except ε α)
  | call (c : I.Call) (next : I.Reply c → Program I ε α)

variable {I : Interface} {ε σ α β γ : Type}

namespace Program

/-- Go on with the result of a program, whatever it is. -/
def andThen (first : Program I ε α) (next : Except ε α → Program I ε β) : Program I ε β :=
  match first with
  | .done result => next result
  | .call c rest => .call c fun reply ↦ (rest reply).andThen next

/-- Go on with the value of a program. -/
def bindValue (next : α → Program I ε β) : Except ε α → Program I ε β
  | .ok value => next value
  | .error fault => .done (.error fault)

instance : Monad (Program I ε) where
  pure value := .done (.ok value)
  bind first next := first.andThen (bindValue next)

/-- One call, with its reply as the result. -/
def perform (c : I.Call) : Program I ε (I.Reply c) := .call c fun reply ↦ .done (.ok reply)

/-- A computation that makes no call. -/
def lift (result : Except ε α) : Program I ε α := .done result

theorem bind_eq (first : Program I ε α) (next : α → Program I ε β) :
    first >>= next = first.andThen (bindValue next) := rfl

@[simp]
theorem done_andThen (result : Except ε α) (next : Except ε α → Program I ε β) :
    (done result : Program I ε α).andThen next = next result := rfl

@[simp]
theorem call_andThen (c : I.Call) (rest : I.Reply c → Program I ε α)
    (next : Except ε α → Program I ε β) :
    (call c rest).andThen next = call c fun reply ↦ (rest reply).andThen next := rfl

@[simp]
theorem done_ok_bind (value : α) (next : α → Program I ε β) :
    (done (.ok value) : Program I ε α) >>= next = next value := rfl

@[simp]
theorem done_error_bind (fault : ε) (next : α → Program I ε β) :
    (done (.error fault) : Program I ε α) >>= next = done (.error fault) := rfl

@[simp]
theorem call_bind (c : I.Call) (rest : I.Reply c → Program I ε α) (next : α → Program I ε β) :
    call c rest >>= next = call c fun reply ↦ rest reply >>= next := rfl

theorem andThen_assoc (first : Program I ε α) (second : Except ε α → Program I ε β)
    (third : Except ε β → Program I ε γ) :
    (first.andThen second).andThen third = first.andThen fun result ↦ (second result).andThen third := by
  induction first with
  | done result => rfl
  | call c rest ih => exact congrArg (call c) (funext ih)

theorem andThen_done (program : Program I ε α) : program.andThen done = program := by
  induction program with
  | done result => rfl
  | call c rest ih => exact congrArg (call c) (funext ih)

theorem bindValue_pure : bindValue (fun value ↦ done (.ok value)) = (done : _ → Program I ε α) := by
  funext result
  cases result <;> rfl

theorem bindValue_andThen (next : α → Program I ε β) (third : β → Program I ε γ) :
    (fun result ↦ (bindValue next result).andThen (bindValue third)) =
      bindValue fun value ↦ (next value).andThen (bindValue third) := by
  funext result
  cases result <;> rfl

instance : LawfulMonad (Program I ε) := LawfulMonad.mk' (Program I ε)
  (fun program ↦ by
    change program.andThen (bindValue fun value ↦ done (.ok value)) = program
    rw [bindValue_pure, andThen_done])
  (fun _ _ ↦ rfl)
  (fun first second third ↦ by
    change (first.andThen _).andThen _ = first.andThen _
    rw [andThen_assoc, bindValue_andThen]
    rfl)

end Program

/-! ## Worlds -/

/-- What a program runs in: how the state may move while a call is in progress, and which replies it
may get, with the state after it. -/
structure World (I : Interface) (σ : Type) where
  progress : σ → I.Call → σ → Prop
  reply : σ → (c : I.Call) → I.Reply c → σ → Prop

/-- A world that answers every call in one way. -/
abbrev Handler (I : Interface) (σ : Type) := (c : I.Call) → σ → I.Reply c × σ

/-- Nothing happens between a call and its reply. -/
def World.still (reply : σ → (c : I.Call) → I.Reply c → σ → Prop) : World I σ where
  progress _ _ _ := False
  reply := reply

def Handler.world (handler : Handler I σ) : World I σ :=
  .still fun s c reply s' ↦ handler c s = (reply, s')

/-- The result of a program and the state after it, when every call has one answer. -/
def Program.exec (handler : Handler I σ) : Program I ε α → σ → Except ε α × σ
  | .done result, s => (result, s)
  | .call c next, s => (next (handler c s).1).exec handler (handler c s).2

/-- One step of a program in a world, labelled with the call in progress. -/
inductive World.Step (W : World I σ) :
    Program I ε α × σ → I.Call → Program I ε α × σ → Prop where
  | progress {s s' : σ} {c : I.Call} {next : I.Reply c → Program I ε α}
      (hprogress : W.progress s c s') : W.Step (.call c next, s) c (.call c next, s')
  | reply {s s' : σ} {c : I.Call} {next : I.Reply c → Program I ε α} {reply : I.Reply c}
      (hreply : W.reply s c reply s') : W.Step (.call c next, s) c (next reply, s')

/-- The states a call in progress can lead to before its reply. -/
def World.During (W : World I σ) (c : I.Call) : σ → σ → Prop :=
  Relation.ReflTransGen fun s s' ↦ W.progress s c s'

theorem World.during_still {reply : σ → (c : I.Call) → I.Reply c → σ → Prop} {c : I.Call}
    {s s' : σ} : (World.still reply).During c s s' ↔ s = s' := by
  constructor
  · intro h
    induction h with
    | refl => rfl
    | tail _ hstep => exact hstep.elim
  · rintro rfl
    exact Relation.ReflTransGen.refl

theorem World.during_refl (W : World I σ) (c : I.Call) (s : σ) : W.During c s s :=
  Relation.ReflTransGen.refl

/-! ## Preconditions -/

/-- The program keeps `always` at every moment of every run from this state and ends with
`post`. -/
def Ensures (W : World I σ) (always : σ → Prop) (post : Except ε α → σ → Prop) :
    Program I ε α → σ → Prop
  | .done result, s => always s ∧ post result s
  | .call c next, s => ∀ s', W.During c s s' → always s' ∧
      ∀ reply s'', W.reply s' c reply s'' → Ensures W always post (next reply) s''

variable {W : World I σ} {always : σ → Prop}

theorem Ensures.mono {post post' : Except ε α → σ → Prop} {program : Program I ε α} {s : σ}
    (h : Ensures W always post program s) (hpost : ∀ result s, post result s → post' result s) :
    Ensures W always post' program s := by
  induction program generalizing s with
  | done result => exact ⟨h.1, hpost _ _ h.2⟩
  | call c next ih =>
    intro s' hduring
    exact ⟨(h s' hduring).1, fun reply s'' hreply ↦ ih reply ((h s' hduring).2 reply s'' hreply)⟩

theorem Ensures.weaken {always' : σ → Prop} {post : Except ε α → σ → Prop}
    {program : Program I ε α} {s : σ} (h : Ensures W always post program s)
    (halways : ∀ s, always s → always' s) : Ensures W always' post program s := by
  induction program generalizing s with
  | done result => exact ⟨halways s h.1, h.2⟩
  | call c next ih =>
    intro s' hduring
    exact ⟨halways s' (h s' hduring).1,
      fun reply s'' hreply ↦ ih reply ((h s' hduring).2 reply s'' hreply)⟩

/-- The property holds at the end too. -/
theorem Ensures.and_always {post : Except ε α → σ → Prop} {program : Program I ε α} {s : σ}
    (h : Ensures W always post program s) :
    Ensures W always (fun result s ↦ always s ∧ post result s) program s := by
  induction program generalizing s with
  | done result => exact ⟨h.1, h⟩
  | call c next ih =>
    intro s' hduring
    exact ⟨(h s' hduring).1, fun reply s'' hreply ↦ ih reply ((h s' hduring).2 reply s'' hreply)⟩

/-- The rule for a program that goes on with the result of another. -/
theorem Ensures.andThen {first : Program I ε α} {next : Except ε α → Program I ε β}
    {post : Except ε β → σ → Prop} {s : σ}
    (h : Ensures W always (fun result s ↦ Ensures W always post (next result) s) first s) :
    Ensures W always post (first.andThen next) s := by
  induction first generalizing s with
  | done result => exact h.2
  | call c rest ih =>
    intro s' hduring
    exact ⟨(h s' hduring).1, fun reply s'' hreply ↦ ih reply ((h s' hduring).2 reply s'' hreply)⟩

/-- The rule for a sequence: an exception of the first part ends the whole. -/
theorem Ensures.bind {first : Program I ε α} {next : α → Program I ε β}
    {post : Except ε β → σ → Prop} {s : σ}
    (h : Ensures W always (fun result s ↦ match result with
      | .ok value => Ensures W always post (next value) s
      | .error fault => post (.error fault) s) first s) :
    Ensures W always post (first >>= next) s := by
  induction first generalizing s with
  | done result =>
    cases result with
    | ok value => exact h.2
    | error fault => exact h
  | call c rest ih =>
    intro s' hduring
    exact ⟨(h s' hduring).1, fun reply s'' hreply ↦ ih reply ((h s' hduring).2 reply s'' hreply)⟩

/-- The rule for one call in a world where nothing happens before the reply. -/
theorem Ensures.call {reply : σ → (c : I.Call) → I.Reply c → σ → Prop} {c : I.Call}
    {next : I.Reply c → Program I ε α} {post : Except ε α → σ → Prop} {s : σ} (halways : always s)
    (hnext : ∀ r s', reply s c r s' → Ensures (.still reply) always post (next r) s') :
    Ensures (.still reply) always post (.call c next) s := by
  intro s' hduring
  rw [World.during_still] at hduring
  subst hduring
  exact ⟨halways, hnext⟩

/-- The rule for one call in a world with one answer to every call. -/
theorem Ensures.callHandler {handler : Handler I σ} {c : I.Call} {next : I.Reply c → Program I ε α}
    {post : Except ε α → σ → Prop} {s : σ} (halways : always s)
    (hnext : Ensures handler.world always post (next (handler c s).1) (handler c s).2) :
    Ensures handler.world always post (.call c next) s := by
  apply Ensures.call halways
  intro reply s' hreply
  rw [hreply] at hnext
  exact hnext

/-- A postcondition on the value of a program; nothing is asked of an exception. -/
def OnValue (post : α → σ → Prop) : Except ε α → σ → Prop
  | .ok value, s => post value s
  | .error _, _ => True

/-- The rule for a sequence whose exceptions are not followed further. -/
theorem Ensures.bindValue {first : Program I ε α} {next : α → Program I ε β} {post : β → σ → Prop}
    {s : σ}
    (h : Ensures W always (OnValue fun value s ↦ Ensures W always (OnValue post) (next value) s)
      first s) :
    Ensures W always (OnValue post) (first >>= next) s := by
  apply Ensures.bind
  apply h.mono
  intro result s hresult
  cases result with
  | ok value => exact hresult
  | error fault => trivial

theorem Ensures.lift {result : Except ε α} {post : α → σ → Prop} {s : σ} (halways : always s)
    (hpost : ∀ value, result = .ok value → post value s) :
    Ensures W always (OnValue post) (Program.lift result : Program I ε α) s := by
  refine ⟨halways, ?_⟩
  cases result with
  | ok value => exact hpost value rfl
  | error fault => trivial

theorem Ensures.liftBind {result : Except ε α} {next : α → Program I ε β} {post : β → σ → Prop}
    {s : σ} (halways : always s)
    (hnext : ∀ value, result = .ok value → Ensures W always (OnValue post) (next value) s) :
    Ensures W always (OnValue post) (Program.lift result >>= next) s :=
  Ensures.bindValue (Ensures.lift halways hnext)

/-- Every call the program can make has the property. -/
def Program.Calls (P : I.Call → Prop) : Program I ε α → Prop
  | .done _ => True
  | .call c next => P c ∧ ∀ reply, Program.Calls P (next reply)

theorem Program.Calls.andThen {P : I.Call → Prop} {first : Program I ε α}
    {next : Except ε α → Program I ε β} (hfirst : first.Calls P)
    (hnext : ∀ result, (next result).Calls P) : (first.andThen next).Calls P := by
  induction first with
  | done result => exact hnext result
  | call c rest ih => exact ⟨hfirst.1, fun reply ↦ ih reply (hfirst.2 reply)⟩

theorem Program.Calls.bind {P : I.Call → Prop} {first : Program I ε α} {next : α → Program I ε β}
    (hfirst : first.Calls P) (hnext : ∀ value, (next value).Calls P) :
    (first >>= next).Calls P := by
  apply Program.Calls.andThen hfirst
  intro result
  cases result with
  | ok value => exact hnext value
  | error fault => trivial

theorem Program.Calls.mono {P Q : I.Call → Prop} {program : Program I ε α} (h : program.Calls P)
    (himp : ∀ c, P c → Q c) : program.Calls Q := by
  induction program with
  | done result => trivial
  | call c next ih => exact ⟨himp c h.1, fun reply ↦ ih reply (h.2 reply)⟩

/-- A program whose calls all keep a property keeps it. -/
theorem Ensures.of_calls {P : I.Call → Prop} {K : σ → Prop} {program : Program I ε α} {s : σ}
    (halways : ∀ s, K s → always s)
    (hprogress : ∀ s c s', P c → K s → W.progress s c s' → K s')
    (hreply : ∀ s c reply s', P c → K s → W.reply s c reply s' → K s')
    (hcalls : program.Calls P) (hs : K s) : Ensures W always (fun _ s ↦ K s) program s := by
  induction program generalizing s with
  | done result => exact ⟨halways s hs, hs⟩
  | call c next ih =>
    intro s' hduring
    have hs' : K s' := by
      induction hduring with
      | refl => exact hs
      | tail _ hstep ih => exact hprogress _ c _ hcalls.1 ih hstep
    exact ⟨halways s' hs', fun reply s'' hr ↦
      ih reply (hcalls.2 reply) (hreply s' c reply s'' hcalls.1 hs' hr)⟩

/-- What one step keeps. -/
theorem Ensures.step {post : Except ε α → σ → Prop} {before after : Program I ε α × σ} {c : I.Call}
    (h : Ensures W always post before.1 before.2) (hstep : W.Step before c after) :
    Ensures W always post after.1 after.2 := by
  cases hstep with
  | progress hprogress => exact fun s'' hduring ↦ h s'' (Relation.ReflTransGen.head hprogress hduring)
  | reply hreply => exact (h _ (W.during_refl c _)).2 _ _ hreply

theorem Ensures.holds {post : Except ε α → σ → Prop} {program : Program I ε α} {s : σ}
    (h : Ensures W always post program s) : always s := by
  cases program with
  | done result => exact h.1
  | call c next => exact (h s (W.during_refl c s)).1

/-- Soundness: along every run the property holds, and a program that has ended has met its
postcondition. -/
theorem Ensures.sound {post : Except ε α → σ → Prop} {start state : Program I ε α × σ}
    (h : Ensures W always post start.1 start.2) (hrun : Run W.Step start state) :
    always state.2 ∧ ∀ result, state.1 = .done result → post result state.2 := by
  let Kept (state : Program I ε α × σ) : Prop := Ensures W always post state.1 state.2
  have hstart : Kept start := h
  have hstep (before : Program I ε α × σ) (c : I.Call) (after : Program I ε α × σ)
      (hbefore : Kept before) (hstep : W.Step before c after) : Kept after :=
    Ensures.step hbefore hstep
  have hstate : Ensures W always post state.1 state.2 := Run.invariant hstart hstep hrun
  refine ⟨hstate.holds, fun result hdone ↦ ?_⟩
  rw [hdone] at hstate
  exact hstate.2

/-! ## Execution -/

namespace Program

variable {handler : Handler I σ}

@[simp]
theorem exec_done (result : Except ε α) (s : σ) :
    (done result : Program I ε α).exec handler s = (result, s) := rfl

@[simp]
theorem exec_call (c : I.Call) (next : I.Reply c → Program I ε α) (s : σ) :
    (call c next).exec handler s = (next (handler c s).1).exec handler (handler c s).2 := rfl

theorem exec_andThen (first : Program I ε α) (next : Except ε α → Program I ε β) (s : σ) :
    (first.andThen next).exec handler s =
      (next (first.exec handler s).1).exec handler (first.exec handler s).2 := by
  induction first generalizing s with
  | done result => rfl
  | call c rest ih => exact ih (handler c s).1 (handler c s).2

theorem exec_bind_of_ok {first : Program I ε α} {next : α → Program I ε β} {s s' : σ} {value : α}
    (h : first.exec handler s = (.ok value, s')) :
    (first >>= next).exec handler s = (next value).exec handler s' := by
  rw [bind_eq, exec_andThen, h]
  rfl

theorem exec_bind_congr {first : Program I ε α} {next next' : α → Program I ε β}
    (h : ∀ value s, (next value).exec handler s = (next' value).exec handler s) (s : σ) :
    (first >>= next).exec handler s = (first >>= next').exec handler s := by
  rw [bind_eq, exec_andThen, bind_eq, exec_andThen]
  rcases first.exec handler s with ⟨fault | value, middle⟩
  · rfl
  · exact h value middle

theorem exec_bind_eq_ok {first : Program I ε α} {next : α → Program I ε β} {s s' : σ} {result : β} :
    (first >>= next).exec handler s = (.ok result, s') ↔ ∃ value middle,
      first.exec handler s = (.ok value, middle) ∧ (next value).exec handler middle = (.ok result, s') := by
  rw [bind_eq, exec_andThen]
  rcases first.exec handler s with ⟨fault | value, middle⟩
  · constructor
    · intro h
      exact nomatch congrArg Prod.fst h
    · rintro ⟨_, _, h, -⟩
      exact nomatch congrArg Prod.fst h
  · constructor
    · exact fun h ↦ ⟨value, middle, rfl, h⟩
    · rintro ⟨_, _, hfirst, hnext⟩
      obtain ⟨hvalue, rfl⟩ := Prod.mk.inj hfirst
      obtain rfl := Except.ok.inj hvalue
      exact hnext

/-- A program whose calls all keep a property keeps it. -/
theorem Calls.exec {P : I.Call → Prop} {K : σ → Prop} {program : Program I ε α} {s : σ}
    (hcalls : program.Calls P) (hhandler : ∀ s c, P c → K s → K (handler c s).2) (hs : K s) :
    K (program.exec handler s).2 := by
  induction program generalizing s with
  | done result => exact hs
  | call c next ih => exact ih _ (hcalls.2 _) (hhandler s c hcalls.1 hs)

end Program

/-- Executing a program is one of its runs, when the world allows the answers. -/
theorem Program.run_exec {handler : Handler I σ}
    (hreply : ∀ s c, W.reply s c (handler c s).1 (handler c s).2) (program : Program I ε α) (s : σ) :
    Run W.Step (program, s) (.done (program.exec handler s).1, (program.exec handler s).2) := by
  induction program generalizing s with
  | done result => exact .refl
  | call c next ih => exact (Run.single (.reply (hreply s c))).trans (ih _ _)

/-- A program that ensures a postcondition in a world with one answer to every call meets it. -/
theorem Ensures.exec {handler : Handler I σ} {post : Except ε α → σ → Prop}
    {program : Program I ε α} {s : σ} (h : Ensures handler.world always post program s) :
    always (program.exec handler s).2 ∧ post (program.exec handler s).1 (program.exec handler s).2 := by
  induction program generalizing s with
  | done result => exact h
  | call c next ih => exact ih _ ((h s (World.during_refl _ c s)).2 _ _ rfl)

end DbPivot.System
