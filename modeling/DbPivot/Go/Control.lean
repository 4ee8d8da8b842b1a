import DbPivot.Go.Fault
import DbPivot.System.Program

/-!
# Errors and deferred calls

A Go function that makes calls is a program whose exceptions are faults. Its errors are wrapped,
ignored, or returned after some cleaning up, and a deferred call comes last whatever happened
before. `OnReturn` is a postcondition on what such a program returns, with one part for its value
and one for its errors; a panic does not return, and neither does a loop that has not ended yet.

For each way to handle errors there is a rule for `Ensures`.
-/

namespace DbPivot.Go

open DbPivot.System

variable {I : Interface} {σ α β : Type}

/-- A Go function over an interface. -/
abbrev Proc (I : Interface) (α : Type) := Program I (Fault GoError) α

/-- `fmt.Errorf` around the error of a program. -/
def onError (change : GoError → GoError) (program : Proc I α) : Proc I α :=
  program.andThen fun result ↦ .done (mapErr change result)

/-- `_ = program`: the error is ignored. -/
def ignoring (program : Proc I Unit) : Proc I Unit :=
  program.andThen fun
    | .error (.err _) => .done (.ok ())
    | result => .done result

/-- `if err != nil`: clean up and return the error. -/
def orElse (program : Proc I α) (cleanup : GoError → Proc I Unit) : Proc I α :=
  program.andThen fun
    | .error (.err error) => ignoring (cleanup error) >>= fun _ ↦ .done (fail error)
    | result => .done result

/-- `defer`: the call comes after the program, also when it panics. A program that has not ended yet
has not come to it. -/
def deferring (cleanup program : Proc I Unit) : Proc I Unit :=
  program.andThen fun
    | .error .outOfFuel => .done (.error .outOfFuel)
    | result => cleanup.andThen fun _ ↦ .done result

/-! ## What a program returns -/

/-- A postcondition on what a program returns. -/
def OnReturn (value : α → σ → Prop) (error : σ → Prop) : GoM GoError α → σ → Prop
  | .ok result, s => value result s
  | .error (.err _), s => error s
  | .error .panic, _ => True
  | .error .outOfFuel, _ => True

variable {W : World I σ} {always error : σ → Prop} {s : σ}

theorem onReturn_of_forall {value : α → σ → Prop} (result : GoM GoError α)
    (hvalue : ∀ v, result = .ok v → value v s) (herror : ∀ e, result = fail e → error s) :
    OnReturn value error result s := by
  match result with
  | .ok v => exact hvalue v rfl
  | .error (.err e) => exact herror e rfl
  | .error .panic => trivial
  | .error .outOfFuel => trivial

/-- A weaker postcondition. -/
theorem ensures_mono {program : Proc I α} {value value' : α → σ → Prop} {error' : σ → Prop}
    (h : Ensures W always (OnReturn value error) program s)
    (hvalue : ∀ v s, value v s → value' v s) (herror : ∀ s, error s → error' s) :
    Ensures W always (OnReturn value' error') program s := by
  apply h.mono
  intro result s hresult
  match result, hresult with
  | .ok v, hresult => exact hvalue v s hresult
  | .error (.err _), hresult => exact herror s hresult
  | .error .panic, _ => trivial
  | .error .outOfFuel, _ => trivial

/-- What holds whatever the result is. -/
theorem ensures_onReturn {P : σ → Prop} {program : Proc I α}
    (h : Ensures W always (fun _ s ↦ P s) program s) :
    Ensures W always (OnReturn (fun _ ↦ P) P) program s :=
  h.mono fun result _ hs ↦ onReturn_of_forall result (fun _ _ ↦ hs) fun _ _ ↦ hs

theorem ensures_lift {result : GoM GoError α} {value : α → σ → Prop} (halways : always s)
    (hvalue : ∀ v, result = .ok v → value v s) (herror : error s) :
    Ensures W always (OnReturn value error) (Program.lift result : Proc I α) s :=
  ⟨halways, onReturn_of_forall result hvalue fun _ _ ↦ herror⟩

/-- The rule for a sequence. -/
theorem ensures_bind {first : Proc I α} {next : α → Proc I β} {middle : α → σ → Prop}
    {value : β → σ → Prop} (hfirst : Ensures W always (OnReturn middle error) first s)
    (hnext : ∀ v s, always s → middle v s → Ensures W always (OnReturn value error) (next v) s) :
    Ensures W always (OnReturn value error) (first >>= next) s := by
  apply Ensures.bind
  apply hfirst.and_always.mono
  intro result s hresult
  match result, hresult with
  | .ok v, hresult => exact hnext v s hresult.1 hresult.2
  | .error (.err _), hresult => exact hresult.2
  | .error .panic, _ => trivial
  | .error .outOfFuel, _ => trivial

/-- The rule for a computation that may fail, with what holds when it does. -/
theorem ensures_liftBind_of {result : GoM GoError α} {next : α → Proc I β} {value : β → σ → Prop}
    (halways : always s) (herror : ∀ e, result = fail e → error s)
    (hnext : ∀ v, result = .ok v → Ensures W always (OnReturn value error) (next v) s) :
    Ensures W always (OnReturn value error) (Program.lift result >>= next) s := by
  match result with
  | .ok v => exact hnext v rfl
  | .error (.err e) => exact ⟨halways, herror e rfl⟩
  | .error .panic => exact ⟨halways, trivial⟩
  | .error .outOfFuel => exact ⟨halways, trivial⟩

theorem ensures_liftBind {result : GoM GoError α} {next : α → Proc I β} {value : β → σ → Prop}
    (halways : always s) (herror : error s)
    (hnext : ∀ v, result = .ok v → Ensures W always (OnReturn value error) (next v) s) :
    Ensures W always (OnReturn value error) (Program.lift result >>= next) s :=
  ensures_liftBind_of halways (fun _ _ ↦ herror) hnext

theorem ensures_onError {change : GoError → GoError} {program : Proc I α} {value : α → σ → Prop}
    (h : Ensures W always (OnReturn value error) program s) :
    Ensures W always (OnReturn value error) (onError change program) s := by
  apply Ensures.andThen
  apply h.and_always.mono
  intro result s hresult
  match result, hresult with
  | .ok _, hresult => exact hresult
  | .error (.err _), hresult => exact hresult
  | .error .panic, hresult => exact hresult
  | .error .outOfFuel, hresult => exact hresult

theorem ensures_ignoring {program : Proc I Unit} {P : σ → Prop}
    (h : Ensures W always (OnReturn (fun _ ↦ P) P) program s) :
    Ensures W always (OnReturn (fun _ ↦ P) error) (ignoring program) s := by
  apply Ensures.andThen
  apply h.and_always.mono
  intro result s hresult
  match result, hresult with
  | .ok (), hresult => exact hresult
  | .error (.err _), hresult => exact hresult
  | .error .panic, hresult => exact hresult
  | .error .outOfFuel, hresult => exact hresult

/-- The rule for an error that is returned after some cleaning up, with what holds when there is one
to clean up after. -/
theorem ensures_orElse_of {program : Proc I α} {cleanup : GoError → Proc I Unit}
    {value : α → σ → Prop} {failed : GoError → σ → Prop}
    (h : Ensures W always (fun (result : GoM GoError α) s ↦
      (∀ v, result = .ok v → value v s) ∧ ∀ e, result = fail e → failed e s) program s)
    (hcleanup : ∀ e s, always s → failed e s →
      Ensures W always (OnReturn (fun _ ↦ error) error) (cleanup e) s) :
    Ensures W always (OnReturn value error) (orElse program cleanup) s := by
  apply Ensures.andThen
  apply h.and_always.mono
  intro result s hresult
  match result, hresult with
  | .ok v, hresult => exact ⟨hresult.1, hresult.2.1 v rfl⟩
  | .error (.err e), hresult =>
    apply ensures_bind (ensures_ignoring (hcleanup e s hresult.1 (hresult.2.2 e rfl)))
    intro _ s hs herror
    exact ⟨hs, herror⟩
  | .error .panic, hresult => exact ⟨hresult.1, trivial⟩
  | .error .outOfFuel, hresult => exact ⟨hresult.1, trivial⟩

theorem ensures_orElse {program : Proc I α} {cleanup : GoError → Proc I Unit}
    {value : α → σ → Prop} {failed : σ → Prop}
    (h : Ensures W always (OnReturn value failed) program s)
    (hcleanup : ∀ e s, always s → failed s →
      Ensures W always (OnReturn (fun _ ↦ error) error) (cleanup e) s) :
    Ensures W always (OnReturn value error) (orElse program cleanup) s := by
  refine ensures_orElse_of (h.mono fun result s hresult ↦ ⟨?_, ?_⟩) hcleanup
  · rintro v rfl
    exact hresult
  · rintro e rfl
    exact hresult

theorem ensures_deferring {cleanup program : Proc I Unit} {value : Unit → σ → Prop}
    (h : Ensures W always (fun (result : GoM GoError Unit) s ↦ result ≠ .error .outOfFuel →
      Ensures W always (fun _ s ↦ OnReturn value error result s) cleanup s) program s) :
    Ensures W always (OnReturn value error) (deferring cleanup program) s := by
  apply Ensures.andThen
  apply h.and_always.mono
  intro result s hresult
  match result, hresult with
  | .ok (), hresult => exact Ensures.andThen (hresult.2 nofun).and_always
  | .error (.err _), hresult => exact Ensures.andThen (hresult.2 nofun).and_always
  | .error .panic, hresult => exact Ensures.andThen (hresult.2 nofun).and_always
  | .error .outOfFuel, hresult => exact ⟨hresult.1, trivial⟩

/-! ## The calls of a program -/

section Calls

variable {P : I.Call → Prop}

theorem calls_onError {change : GoError → GoError} {program : Proc I α} (h : program.Calls P) :
    (onError change program).Calls P :=
  h.andThen fun _ ↦ trivial

theorem calls_ignoring {program : Proc I Unit} (h : program.Calls P) :
    (ignoring program).Calls P := by
  apply h.andThen
  intro result
  match result with
  | .ok () => trivial
  | .error (.err _) => trivial
  | .error .panic => trivial
  | .error .outOfFuel => trivial

theorem calls_orElse {program : Proc I α} {cleanup : GoError → Proc I Unit} (h : program.Calls P)
    (hcleanup : ∀ e, (cleanup e).Calls P) : (orElse program cleanup).Calls P := by
  apply h.andThen
  intro result
  match result with
  | .ok _ => trivial
  | .error (.err e) => exact (calls_ignoring (hcleanup e)).bind fun _ ↦ trivial
  | .error .panic => trivial
  | .error .outOfFuel => trivial

theorem calls_deferring {cleanup program : Proc I Unit} (h : program.Calls P)
    (hcleanup : cleanup.Calls P) : (deferring cleanup program).Calls P := by
  apply h.andThen
  intro result
  match result with
  | .ok () => exact hcleanup.andThen fun _ ↦ trivial
  | .error (.err _) => exact hcleanup.andThen fun _ ↦ trivial
  | .error .panic => exact hcleanup.andThen fun _ ↦ trivial
  | .error .outOfFuel => trivial

end Calls

end DbPivot.Go
