import DbPivot.Go.Bytes

/-!
# Decimal numbers

`strconv.Itoa` writes the digits of a number without leading zeros, and `strconv.ParseInt` reads
them back if the number fits into 64 bits.
-/

namespace DbPivot.Go

def isDigit (c : UInt8) : Bool := 48 ≤ c && c ≤ 57

/-- The number with these decimal digits. -/
def digitsValue (digits : Bytes) : ℕ := digits.foldl (fun n c ↦ 10 * n + (c.toNat - 48)) 0

/-- `strconv.ParseUint` in base 10, without a bound. -/
def parseDigits (digits : Bytes) : Option ℕ :=
  if digits ≠ [] ∧ digits.all isDigit then some (digitsValue digits) else none

/-- `strconv.ParseInt` in base 10 for 64 bits. -/
def parseInt (s : Bytes) : Option Int64 :=
  if s.head? = some 45 then
    match parseDigits s.tail with
    | none => none
    | some n => if n ≤ 2 ^ 63 then some (Int64.ofInt (-n)) else none
  else
    match parseDigits (if s.head? = some 43 then s.tail else s) with
    | none => none
    | some n => if n < 2 ^ 63 then some (Int64.ofInt n) else none

/-! ## The digits of a number -/

theorem toNat_digit {n : ℕ} {digit : Char} (h : digit ∈ Nat.toDigits 10 n) :
    48 ≤ digit.toNat ∧ digit.toNat ≤ 57 := by
  have hrange := Nat.isDigit_of_mem_toDigits (by omega) le_rfl h
  simp only [Char.isDigit, Bool.and_eq_true, decide_eq_true_eq] at hrange
  exact hrange

theorem isDigit_of_mem_itoa {n : ℕ} {c : UInt8} (h : c ∈ itoa n) : isDigit c := by
  obtain ⟨digit, hdigit, rfl⟩ := List.mem_map.mp h
  obtain ⟨hlow, hhigh⟩ := toNat_digit hdigit
  simp only [isDigit, Bool.and_eq_true, decide_eq_true_eq, UInt8.le_iff_toNat_le,
    UInt8.toNat_ofNat_of_lt' (show digit.toNat < UInt8.size by simp only [UInt8.size]; omega)]
  exact ⟨hlow, hhigh⟩

theorem itoa_ne_nil (n : ℕ) : itoa n ≠ [] := by
  rw [itoa, Ne, List.map_eq_nil_iff]
  exact Nat.toDigits_ne_nil

/-- Only zero is written with a leading zero. -/
theorem head_itoa_ne_zero {n : ℕ} (hn : 0 < n) : (itoa n).head? ≠ some 48 := by
  induction n using Nat.strong_induction_on with
  | _ n ih =>
    rcases Nat.lt_or_ge n 10 with hlt | hge
    · rw [itoa, Nat.toDigits_of_lt_base hlt]
      interval_cases n <;> decide
    · have hdigits : itoa n = itoa (n / 10) ++ itoa (n % 10) := by
        rw [itoa, itoa, itoa, ← List.map_append, Nat.toDigits_append_toDigits (by omega) (by omega)
          (by omega), Nat.div_add_mod]
      rw [hdigits, List.head?_append_of_ne_nil _ (itoa_ne_nil _)]
      exact ih (n / 10) (by omega) (by omega)

theorem digitsValue_itoa (n : ℕ) : digitsValue (itoa n) = n := by
  calc
    digitsValue (itoa n) = Nat.ofDigitChars 10 (Nat.toDigits 10 n) 0 := by
      rw [digitsValue, itoa, Nat.ofDigitChars, List.foldl_map]
      apply List.foldl_ext
      intro value digit hdigit
      have hrange := toNat_digit hdigit
      rw [UInt8.toNat_ofNat_of_lt' (show digit.toNat < UInt8.size by simp only [UInt8.size]; omega)]
      rfl
    _ = n := Nat.ofDigitChars_toDigits (by omega) le_rfl

theorem parseDigits_itoa (n : ℕ) : parseDigits (itoa n) = some n := by
  rw [parseDigits, if_pos ⟨itoa_ne_nil n, List.all_eq_true.mpr fun _ ↦ isDigit_of_mem_itoa⟩,
    digitsValue_itoa]

theorem head_itoa_ne {n : ℕ} {c : UInt8} (hc : isDigit c = false) : (itoa n).head? ≠ some c := by
  intro h
  have hdigit := isDigit_of_mem_itoa (List.mem_of_head? h)
  rw [hc] at hdigit
  cases hdigit

/-- Every `int` is read back. -/
theorem parseInt_itoaInt (n : Int64) : parseInt (itoaInt n.toInt) = some n := by
  have hlow := n.le_toInt
  have hhigh := n.toInt_lt
  unfold itoaInt
  split
  next hneg =>
    have habs : -(n.toInt.natAbs : ℤ) = n.toInt := by omega
    rw [parseInt, if_pos List.head?_cons, List.tail_cons, parseDigits_itoa]
    dsimp only
    rw [if_pos (by omega), habs, Int64.ofInt_toInt]
  next hneg =>
    have habs : (n.toInt.natAbs : ℤ) = n.toInt := by omega
    rw [parseInt, if_neg (head_itoa_ne (by decide)), if_neg (head_itoa_ne (by decide)),
      parseDigits_itoa]
    dsimp only
    rw [if_pos (by omega), habs, Int64.ofInt_toInt]

end DbPivot.Go
