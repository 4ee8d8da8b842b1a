import Mathlib.Logic.Function.Basic
import Mathlib.Tactic.Common

/-!
# Tokens that threads take and give back

A lock, or the right to run a piece of code that runs only once, is a token: at most one thread has
it, and where a thread is in its program says whether that is the one. The two stay in agreement
when every step of a thread leaves the token alone, takes it while it is free, or gives it back.

Threads that wait for each other do not wait forever when every wait is for a thread further on in
some order: then there is one that can move.
-/

namespace DbPivot.System

variable {τ π : Type}

/-- The owner of the token is the thread whose position holds it. -/
def Owned (holds : π → Prop) (owner : Option τ) (pc : τ → π) : Prop :=
  ∀ t, owner = some t ↔ holds (pc t)

/-- How a step of a thread from one position to another treats a token. -/
inductive Exchange (holds : π → Prop) (t : τ) (owner owner' : Option τ) (p p' : π) : Prop where
  | keep (howner : owner' = owner) (hholds : holds p' ↔ holds p)
  | take (hfree : owner = none) (howner : owner' = some t) (hholds : holds p')
  | give (hholds : holds p) (howner : owner' = none) (hafter : ¬ holds p')

variable {holds : π → Prop} {t : τ} {owner owner' : Option τ} {pc : τ → π} {p' : π}

theorem Owned.exchange [DecidableEq τ] (h : Owned holds owner pc)
    (hstep : Exchange holds t owner owner' (pc t) p') :
    Owned holds owner' (Function.update pc t p') := by
  intro u
  by_cases hsame : u = t
  · subst hsame
    rw [Function.update_self]
    cases hstep with
    | keep howner hholds => rw [howner, hholds, h u]
    | take hfree howner hholds => simp only [howner, hholds]
    | give hholds howner hafter => simp only [howner, hafter, reduceCtorEq]
  · rw [Function.update_of_ne hsame]
    cases hstep with
    | keep howner hholds => rw [howner, h u]
    | take hfree howner hholds =>
      have hother : ¬ holds (pc u) := by
        rw [← h u, hfree]
        exact Option.some_ne_none u ∘ Eq.symm
      have hne : ¬ owner' = some u := by
        rw [howner]
        exact fun heq ↦ hsame (Option.some.inj heq).symm
      exact iff_of_false hne hother
    | give hholds howner hafter =>
      have hother : ¬ holds (pc u) := by
        rw [← h u, (h t).mpr hholds]
        exact fun heq ↦ hsame (Option.some.inj heq).symm
      have hne : ¬ owner' = some u := by
        rw [howner]
        exact Option.some_ne_none u ∘ Eq.symm
      exact iff_of_false hne hother

/-- Waiting in order: when everyone who cannot move waits for someone of lower rank, someone can
move. -/
theorem exists_enabled {unfinished enabled : τ → Prop} (rank : τ → ℕ)
    (hwait : ∀ t, unfinished t → enabled t ∨ ∃ u, unfinished u ∧ rank u < rank t) {t : τ}
    (ht : unfinished t) : ∃ u, unfinished u ∧ enabled u := by
  induction hrank : rank t using Nat.strongRecOn generalizing t with
  | ind n ih =>
    rcases hwait t ht with henabled | ⟨u, hu, hlt⟩
    · exact ⟨t, ht, henabled⟩
    · exact ih (rank u) (hrank ▸ hlt) hu rfl

end DbPivot.System
