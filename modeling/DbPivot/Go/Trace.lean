import DbPivot.Go.Lockstep

/-!
# The calls of a run

When every call has one answer a program has one run, and a call of a given kind is made in it or
not. Along a sequence, and where errors are handled, the calls of the whole are those of its parts,
so which calls are made can be calculated part by part.
-/

namespace DbPivot.System

variable {I : Interface} {ε σ α β : Type}

/-- The run of the program makes a call of the given kind. -/
def Program.Makes (handler : Handler I σ) (kind : I.Call → Prop) : Program I ε α → σ → Prop
  | .done _, _ => False
  | .call c next, s => kind c ∨ (next (handler c s).1).Makes handler kind (handler c s).2

namespace Program

variable {handler : Handler I σ} {kind : I.Call → Prop} {s : σ}

theorem makes_andThen {first : Program I ε α} {next : Except ε α → Program I ε β} :
    (first.andThen next).Makes handler kind s ↔ first.Makes handler kind s ∨
      (next (first.exec handler s).1).Makes handler kind (first.exec handler s).2 := by
  induction first generalizing s with
  | done result => exact (or_iff_right id).symm
  | call c rest ih => exact (or_congr_right (ih _)).trans or_assoc.symm

theorem makes_bind {first : Program I ε α} {next : α → Program I ε β} :
    (first >>= next).Makes handler kind s ↔ first.Makes handler kind s ∨
      ∃ value s', first.exec handler s = (.ok value, s') ∧ (next value).Makes handler kind s' := by
  rw [bind_eq, makes_andThen]
  refine or_congr_right ?_
  rcases first.exec handler s with ⟨fault | value, middle⟩
  · refine iff_of_false id ?_
    rintro ⟨_, _, hvalue, -⟩
    cases (Prod.mk.inj hvalue).1
  · constructor
    · exact fun h ↦ ⟨value, middle, rfl, h⟩
    · rintro ⟨_, _, hvalue, h⟩
      obtain ⟨hvalue', rfl⟩ := Prod.mk.inj hvalue
      obtain rfl := Except.ok.inj hvalue'
      exact h

/-- A computation without calls, and what comes behind it. -/
theorem makes_lift_bind {result : Except ε α} {next : α → Program I ε β} :
    ((lift result : Program I ε α) >>= next).Makes handler kind s ↔
      ∃ value, result = .ok value ∧ (next value).Makes handler kind s := by
  cases result with
  | error fault =>
    refine iff_of_false id ?_
    rintro ⟨_, hvalue, -⟩
    cases hvalue
  | ok value =>
    constructor
    · exact fun h ↦ ⟨value, rfl, h⟩
    · rintro ⟨_, hvalue, h⟩
      obtain rfl := Except.ok.inj hvalue
      exact h

/-- A program that has no such call makes none. -/
theorem Calls.not_makes {program : Program I ε α} (h : program.Calls fun c ↦ ¬ kind c) :
    ¬ program.Makes handler kind s := by
  induction program generalizing s with
  | done result => exact id
  | call c next ih => exact not_or.mpr ⟨h.1, ih _ (h.2 _)⟩

/-- Some call of a kind is one particular call. -/
theorem makes_iff_exists {program : Program I ε α} :
    program.Makes handler kind s ↔ ∃ c, kind c ∧ program.Makes handler (· = c) s := by
  induction program generalizing s with
  | done result =>
    refine iff_of_false id ?_
    rintro ⟨_, -, h⟩
    exact h
  | call c next ih =>
    constructor
    · rintro (h | h)
      · exact ⟨c, h, .inl rfl⟩
      · obtain ⟨c', hc', hmakes⟩ := ih _ |>.mp h
        exact ⟨c', hc', .inr hmakes⟩
    · rintro ⟨c', hc', rfl | h⟩
      · exact .inl hc'
      · exact .inr ((ih _).mpr ⟨c', hc', h⟩)

end Program

end DbPivot.System

namespace DbPivot.Go

open DbPivot.System

variable {I : Interface} {σ α β : Type} {handler : Handler I σ} {kind : I.Call → Prop} {s : σ}

theorem makes_onError {change : GoError → GoError} {program : Proc I α} :
    (onError change program).Makes handler kind s ↔ program.Makes handler kind s := by
  rw [onError, Program.makes_andThen]
  exact or_iff_left id

theorem makes_ignoring {program : Proc I Unit} :
    (ignoring program).Makes handler kind s ↔ program.Makes handler kind s := by
  rw [ignoring, Program.makes_andThen]
  refine or_iff_left ?_
  rcases (program.exec handler s).1 with (_ | _ | _) | _
  all_goals exact id

theorem exec_orElse_eq_ok {p : Proc I α} {cleanup : GoError → Proc I Unit} {value : α} {t : σ} :
    (orElse p cleanup).exec handler s = (.ok value, t) ↔ p.exec handler s = (.ok value, t) := by
  by_cases herror : ∃ e, (p.exec handler s).1 = fail e
  · obtain ⟨e, he⟩ := herror
    have hnone := (exec_orElse_of_error cleanup (Prod.ext he rfl)).1
    refine iff_of_false (fun h ↦ ?_) fun h ↦ ?_
    · rw [h] at hnone
      cases hnone
    · rw [h] at he
      cases he
  · rw [exec_orElse_of_forall cleanup (not_exists.mp herror)]

/-- The calls of a program and those of the cleaning up after its error. -/
theorem makes_orElse {program : Proc I α} {cleanup : GoError → Proc I Unit} :
    (orElse program cleanup).Makes handler kind s ↔ program.Makes handler kind s ∨
      ∃ error s', program.exec handler s = (fail error, s') ∧
        (cleanup error).Makes handler kind s' := by
  rw [orElse, Program.makes_andThen]
  refine or_congr_right ?_
  rcases program.exec handler s with ⟨(_ | _ | error) | value, s'⟩
  · refine iff_of_false id ?_
    rintro ⟨_, _, herror, -⟩
    cases (Prod.mk.inj herror).1
  · refine iff_of_false id ?_
    rintro ⟨_, _, herror, -⟩
    cases (Prod.mk.inj herror).1
  · have hmakes : (ignoring (cleanup error) >>= fun _ ↦ (.done (fail error) : Proc I α)).Makes
        handler kind s' ↔ (cleanup error).Makes handler kind s' := by
      rw [Program.makes_bind, makes_ignoring]
      refine or_iff_left ?_
      rintro ⟨_, _, -, h⟩
      exact h
    refine hmakes.trans ⟨fun h ↦ ⟨error, s', rfl, h⟩, ?_⟩
    rintro ⟨_, _, herror, h⟩
    obtain ⟨herror', rfl⟩ := Prod.mk.inj herror
    obtain rfl := Fault.err.inj (Except.error.inj herror')
    exact h
  · refine iff_of_false id ?_
    rintro ⟨_, _, herror, -⟩
    cases (Prod.mk.inj herror).1

end DbPivot.Go
