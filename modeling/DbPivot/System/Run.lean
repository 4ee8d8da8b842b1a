import Mathlib.Tactic.Common

/-!
# Runs of labelled transition relations

A concurrent program is a relation between states, labelled with the event that moves it: any
thread may take the next step. A run is a finite sequence of steps, and what every step preserves
holds along every run. A guard restricts the events to those that are enabled in a condition of
interest.
-/

namespace DbPivot.System

variable {σ ε : Type}

/-- A finite run from one state to another. -/
inductive Run (step : σ → ε → σ → Prop) (start : σ) : σ → Prop where
  | refl : Run step start start
  | step {s s' : σ} (event : ε) (hrun : Run step start s) (hstep : step s event s') :
      Run step start s'

/-- The steps whose event meets the guard in the state where it happens. -/
def Guarded (guard : σ → ε → Prop) (step : σ → ε → σ → Prop) : σ → ε → σ → Prop :=
  fun s event s' ↦ guard s event ∧ step s event s'

variable {step : σ → ε → σ → Prop} {start : σ}

/-- What holds at the start and is kept by every step holds in every state of every run. -/
theorem Run.invariant {Inv : σ → Prop} (hstart : Inv start)
    (hstep : ∀ s event s', Inv s → step s event s' → Inv s') {s : σ} (hrun : Run step start s) :
    Inv s := by
  induction hrun with
  | refl => exact hstart
  | step event _ hnext ih => exact hstep _ event _ ih hnext

theorem Run.trans {middle s : σ} (hfirst : Run step start middle) (hsecond : Run step middle s) :
    Run step start s := by
  induction hsecond with
  | refl => exact hfirst
  | step event _ hnext ih => exact ih.step event hnext

theorem Run.single {s : σ} {event : ε} (hstep : step start event s) : Run step start s :=
  .step event .refl hstep

/-- A guard may be replaced by one that admits more. -/
theorem Run.mono_guard {guard guard' : σ → ε → Prop} (h : ∀ s event, guard s event → guard' s event)
    {s : σ} (hrun : Run (Guarded guard step) start s) : Run (Guarded guard' step) start s := by
  induction hrun with
  | refl => exact .refl
  | step event _ hnext ih => exact ih.step event ⟨h _ _ hnext.1, hnext.2⟩

/-- A guarded run is a run. -/
theorem Run.unguard {guard : σ → ε → Prop} {s : σ} (hrun : Run (Guarded guard step) start s) :
    Run step start s := by
  induction hrun with
  | refl => exact .refl
  | step event _ hnext ih => exact ih.step event hnext.2

end DbPivot.System
