import DbPivot.Go.Control

/-!
# Two programs in lockstep

Two functions that were written apart may do the same to a part of the state that both use, while
they handle errors in their own ways. They are in lockstep if, run from related states, both return
the same value or both fail, and the states are related again. There is a rule for each way to put
programs together and to handle errors, and a program that makes only calls of one side can be left
out.
-/

namespace DbPivot.Go

open DbPivot.System

variable {I : Interface} {σ α β : Type} {handler : Handler I σ} {R : σ → σ → Prop} {s t : σ}

/-- Both programs return the same value or both fail, and the states after them are related. -/
structure Lockstep (handler : Handler I σ) (R : σ → σ → Prop) (p : Proc I α) (s : σ) (q : Proc I α)
    (t : σ) : Prop where
  value : (p.exec handler s).1.toOption = (q.exec handler t).1.toOption
  state : R (p.exec handler s).2 (q.exec handler t).2

theorem lockstep_lift (result : GoM GoError α) (h : R s t) :
    Lockstep handler R (.lift result) s (.lift result) t := ⟨rfl, h⟩

/-- The rule for a call that both programs make and that gets the same reply. -/
theorem lockstep_call {c : I.Call} {next next' : I.Reply c → Proc I α}
    (hreply : (handler c s).1 = (handler c t).1)
    (hnext : Lockstep handler R (next (handler c s).1) (handler c s).2 (next' (handler c s).1)
      (handler c t).2) :
    Lockstep handler R (.call c next) s (.call c next') t := by
  constructor
  · rw [Program.exec_call, Program.exec_call, ← hreply]
    exact hnext.value
  · rw [Program.exec_call, Program.exec_call, ← hreply]
    exact hnext.state

/-- The rule for a sequence. -/
theorem Lockstep.bind {p q : Proc I α} {f g : α → Proc I β} (h : Lockstep handler R p s q t)
    (hnext : ∀ v s' t', R s' t' → Lockstep handler R (f v) s' (g v) t') :
    Lockstep handler R (p >>= f) s (q >>= g) t := by
  obtain ⟨hvalue, hstate⟩ := h
  rcases hp : p.exec handler s with ⟨resultP, s'⟩
  rcases hq : q.exec handler t with ⟨resultQ, t'⟩
  rw [hp, hq] at hvalue hstate
  have hexecP : (p >>= f).exec handler s = (Program.bindValue f resultP).exec handler s' := by
    rw [Program.bind_eq, Program.exec_andThen, hp]
  have hexecQ : (q >>= g).exec handler t = (Program.bindValue g resultQ).exec handler t' := by
    rw [Program.bind_eq, Program.exec_andThen, hq]
  match resultP, resultQ, hvalue with
  | .ok v, .ok _, rfl =>
    obtain ⟨hvalue', hstate'⟩ := hnext v s' t' hstate
    refine ⟨?_, ?_⟩
    · rw [hexecP, hexecQ]
      exact hvalue'
    · rw [hexecP, hexecQ]
      exact hstate'
  | .error _, .error _, _ =>
    refine ⟨?_, ?_⟩
    · rw [hexecP, hexecQ]
      rfl
    · rw [hexecP, hexecQ]
      exact hstate

/-! ## Errors -/

theorem toOption_mapErr (change : GoError → GoError) (result : GoM GoError α) :
    (mapErr change result).toOption = result.toOption := by
  match result with
  | .ok _ => rfl
  | .error (.err _) => rfl
  | .error .panic => rfl
  | .error .outOfFuel => rfl

theorem exec_onError (change : GoError → GoError) (p : Proc I α) (s : σ) :
    (onError change p).exec handler s = (mapErr change (p.exec handler s).1, (p.exec handler s).2) :=
  Program.exec_andThen p _ s

theorem returns_exec_bind {p : Proc I α} {f : α → Proc I β} (hp : Returns (p.exec handler s).1)
    (hf : ∀ v s', p.exec handler s = (.ok v, s') → Returns ((f v).exec handler s').1) :
    Returns ((p >>= f).exec handler s).1 := by
  rw [Program.bind_eq, Program.exec_andThen]
  rcases hexec : p.exec handler s with ⟨result, s'⟩
  rw [hexec] at hp
  match result, hp with
  | .ok v, _ => exact hf v s' hexec
  | .error (.err _), _ => trivial

theorem exec_onError_eq_ok {change : GoError → GoError} {p : Proc I α} {value : α} :
    (onError change p).exec handler s = (.ok value, t) ↔ p.exec handler s = (.ok value, t) := by
  rw [exec_onError, Prod.ext_iff, Prod.ext_iff, mapErr_eq_ok]

theorem Lockstep.onError_right {p q : Proc I α} (h : Lockstep handler R p s q t)
    (change : GoError → GoError) : Lockstep handler R p s (onError change q) t := by
  constructor
  · rw [exec_onError, toOption_mapErr]
    exact h.value
  · rw [exec_onError]
    exact h.state

theorem exec_ignoring_state (p : Proc I Unit) (s : σ) :
    ((ignoring p).exec handler s).2 = (p.exec handler s).2 := by
  rw [ignoring, Program.exec_andThen]
  match (p.exec handler s).1 with
  | .ok _ => rfl
  | .error (.err _) => rfl
  | .error .panic => rfl
  | .error .outOfFuel => rfl

/-- After an error, the cleaning up is all that happens. -/
theorem exec_orElse_of_error {p : Proc I α} (cleanup : GoError → Proc I Unit) {e : GoError} {s' : σ}
    (h : p.exec handler s = (fail e, s')) :
    ((orElse p cleanup).exec handler s).1.toOption = none ∧
      ((orElse p cleanup).exec handler s).2 = ((cleanup e).exec handler s').2 := by
  have hexec : (orElse p cleanup).exec handler s =
      ((ignoring (cleanup e)) >>= fun _ ↦ (.done (fail e) : Proc I α)).exec handler s' := by
    rw [orElse, Program.exec_andThen, h]
    rfl
  rw [hexec, Program.bind_eq, Program.exec_andThen, exec_ignoring_state]
  match ((ignoring (cleanup e)).exec handler s').1 with
  | .ok _ => exact ⟨rfl, rfl⟩
  | .error _ => exact ⟨rfl, rfl⟩

theorem exec_orElse_of_forall {p : Proc I α} (cleanup : GoError → Proc I Unit)
    (h : ∀ e, (p.exec handler s).1 ≠ fail e) :
    (orElse p cleanup).exec handler s = p.exec handler s := by
  rw [orElse, Program.exec_andThen]
  match hresult : (p.exec handler s).1 with
  | .ok _ => exact Prod.ext hresult.symm rfl
  | .error (.err e) => exact absurd hresult (h e)
  | .error .panic => exact Prod.ext hresult.symm rfl
  | .error .outOfFuel => exact Prod.ext hresult.symm rfl

/-- The rule for cleaning up that keeps the states related. -/
theorem Lockstep.orElse_left {p q : Proc I α} {cleanup : GoError → Proc I Unit}
    (h : Lockstep handler R p s q t)
    (hcleanup : ∀ e s' t', R s' t' → R ((cleanup e).exec handler s').2 t') :
    Lockstep handler R (orElse p cleanup) s q t := by
  by_cases herror : ∃ e, (p.exec handler s).1 = fail e
  · obtain ⟨e, he⟩ := herror
    obtain ⟨hvalue, hstate⟩ := exec_orElse_of_error cleanup (Prod.ext he rfl)
    constructor
    · rw [hvalue, ← h.value, he]
      rfl
    · rw [hstate]
      exact hcleanup e _ _ h.state
  · rw [not_exists] at herror
    have hexec := exec_orElse_of_forall cleanup herror
    constructor
    · rw [hexec]
      exact h.value
    · rw [hexec]
      exact h.state

end DbPivot.Go
