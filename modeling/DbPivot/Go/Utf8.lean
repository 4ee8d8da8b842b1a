import DbPivot.Go.Format

/-!
# The runes of a string

A Go string is any sequence of bytes. A loop over its runes decodes one after another and takes a
byte that begins no valid encoding for a rune of its own, which it reads as U+FFFD.

Decoding is local: what is read off the front is the encoding of one valid rune or one stray byte,
whatever follows. So a string is a list of runes and stray bytes, and writing U+FFFD for each stray
byte is the nearest string in UTF-8.
-/

namespace DbPivot.Go

/-- What a loop over the runes of a string finds. -/
inductive Rune where
  | rune (r : ℕ)
  | stray (byte : UInt8)
deriving DecidableEq

namespace Rune

/-- The value of the loop variable. -/
def value : Rune → ℕ
  | rune r => r
  | stray _ => runeError

def bytes : Rune → Bytes
  | rune r => encodeRune r
  | stray byte => [byte]

def isStray : Rune → Bool
  | rune _ => false
  | stray _ => true

end Rune

/-- The loop over the runes; every round takes a byte at least. -/
def decodeRunes : ℕ → Bytes → List Rune
  | 0, _ => []
  | _ + 1, [] => []
  | fuel + 1, first :: rest =>
    let (r, width) := decodeRune first rest
    (if r = runeError ∧ width = 1 then .stray first else .rune r) ::
      decodeRunes fuel ((first :: rest).drop width)

/-- The runes of a string. -/
def runes (s : Bytes) : List Rune := decodeRunes s.length s

/-- `utf8.ValidString`. -/
def validString (s : Bytes) : Bool := (runes s).all fun r ↦ !r.isStray

/-- The string with U+FFFD for each stray byte. -/
def toValid (s : Bytes) : Bytes := (runes s).flatMap fun r ↦ encodeRune r.value

/-! ## One rune -/

theorem length_encodeRune_pos (r : ℕ) : 0 < (encodeRune r).length := by
  unfold encodeRune
  repeat' split
  all_goals exact Nat.succ_pos _

/-- An ASCII character is its own encoding. -/
theorem encodeRune_ascii {r : ℕ} (hr : r < 0x80) : encodeRune r = [UInt8.ofNat r] := if_pos hr

theorem high_of_mem_encodeRune {r : ℕ} (hr : 0x80 ≤ r) {c : UInt8} (hc : c ∈ encodeRune r) :
    0x80 ≤ c.toNat := by
  have hbyte {n : ℕ} (hlow : 0x80 ≤ n) (hn : n < 256) : 0x80 ≤ (UInt8.ofNat n).toNat := by
    rw [UInt8.toNat_ofNat_of_lt' hn]
    exact hlow
  unfold encodeRune at hc
  rw [if_neg (by omega)] at hc
  split at hc
  · simp only [List.mem_cons, List.not_mem_nil, or_false] at hc
    rcases hc with rfl | rfl <;> exact hbyte (by omega) (by omega)
  split at hc
  · simp only [List.mem_cons, List.not_mem_nil, or_false] at hc
    rcases hc with rfl | rfl | rfl <;> decide
  next hvalid =>
    have hmax : r ≤ 0x10FFFF := by
      unfold ValidRune at hvalid
      omega
    split at hc
    · simp only [List.mem_cons, List.not_mem_nil, or_false] at hc
      rcases hc with rfl | rfl | rfl <;> exact hbyte (by omega) (by omega)
    · simp only [List.mem_cons, List.not_mem_nil, or_false] at hc
      rcases hc with rfl | rfl | rfl | rfl <;> exact hbyte (by omega) (by omega)

theorem decodeRune_ascii {first : UInt8} (hfirst : first.toNat < 0x80) (rest : Bytes) :
    decodeRune first rest = (first.toNat, 1) := if_pos hfirst

/-- Decoding a complete sequence. -/
theorem decodeRune_sequence {first second : UInt8} (others tail : Bytes) {size low high : ℕ}
    (hfirst : ¬ first.toNat < 0x80) (hseq : sequenceOf first.toNat = some (size, low, high))
    (hsize : size = others.length + 2) (hsecond : low ≤ second.toNat ∧ second.toNat ≤ high)
    (hothers : ∀ byte ∈ others, 0x80 ≤ byte.toNat ∧ byte.toNat ≤ 0xBF) :
    decodeRune first (second :: (others ++ tail)) =
      ((second :: others).foldl (fun r byte ↦ r * 64 + byte.toNat % 64)
        (first.toNat % 2 ^ (7 - size)), size) := by
  have htake : (second :: (others ++ tail)).take (size - 1) = second :: others := by
    rw [hsize, ← List.cons_append]
    exact List.take_left' rfl
  rw [decodeRune, if_neg hfirst, hseq]
  simp only [htake]
  refine if_pos ⟨?_, hsecond.1, hsecond.2, hothers⟩
  rw [List.length_cons]
  omega

theorem sequenceOf_eq_some {first size low high : ℕ} (h : sequenceOf first = some (size, low, high)) :
    (size = 2 ∧ low = 0x80 ∧ high = 0xBF ∧ 0xC2 ≤ first ∧ first ≤ 0xDF) ∨
    (size = 3 ∧ low = 0xA0 ∧ high = 0xBF ∧ first = 0xE0) ∨
    (size = 3 ∧ low = 0x80 ∧ high = 0x9F ∧ first = 0xED) ∨
    (size = 3 ∧ low = 0x80 ∧ high = 0xBF ∧ 0xE1 ≤ first ∧ first ≤ 0xEF ∧ first ≠ 0xED) ∨
    (size = 4 ∧ low = 0x90 ∧ high = 0xBF ∧ first = 0xF0) ∨
    (size = 4 ∧ low = 0x80 ∧ high = 0xBF ∧ 0xF1 ≤ first ∧ first ≤ 0xF3) ∨
    (size = 4 ∧ low = 0x80 ∧ high = 0x8F ∧ first = 0xF4) := by
  unfold sequenceOf at h
  repeat' split at h
  all_goals
    cases h
  all_goals omega

theorem exists_sequenceOf (first size : ℕ)
    (h : size = 2 ∧ 0xC2 ≤ first ∧ first ≤ 0xDF ∨ size = 3 ∧ 0xE0 ≤ first ∧ first ≤ 0xEF ∨
      size = 4 ∧ 0xF0 ≤ first ∧ first ≤ 0xF4) :
    ∃ low high, sequenceOf first = some (size, low, high) := by
  unfold sequenceOf
  repeat' split
  all_goals
    first
    | exact ⟨_, _, congrArg (fun size ↦ some (size, _, _)) (by omega)⟩
    | omega

section Sequences

variable {a b c d : UInt8} {low high : ℕ}

theorem encodeRune_two (hseq : sequenceOf a.toNat = some (2, low, high))
    (hb : low ≤ b.toNat ∧ b.toNat ≤ high) :
    ValidRune (a.toNat % 32 * 64 + b.toNat % 64) ∧
      encodeRune (a.toNat % 32 * 64 + b.toNat % 64) = [a, b] := by
  have hrange := sequenceOf_eq_some hseq
  generalize hr : a.toNat % 32 * 64 + b.toNat % 64 = r
  have ha' : 0xC0 + r / 64 = a.toNat := by omega
  have hb' : 0x80 + r % 64 = b.toNat := by omega
  refine ⟨.inl (by omega), ?_⟩
  rw [encodeRune, if_neg (by omega), if_pos (by omega), ha', hb', UInt8.ofNat_toNat,
    UInt8.ofNat_toNat]

theorem encodeRune_three (hseq : sequenceOf a.toNat = some (3, low, high))
    (hb : low ≤ b.toNat ∧ b.toNat ≤ high) (hc : 0x80 ≤ c.toNat ∧ c.toNat ≤ 0xBF) :
    ValidRune ((a.toNat % 16 * 64 + b.toNat % 64) * 64 + c.toNat % 64) ∧
      encodeRune ((a.toNat % 16 * 64 + b.toNat % 64) * 64 + c.toNat % 64) = [a, b, c] := by
  have hrange := sequenceOf_eq_some hseq
  generalize hr : (a.toNat % 16 * 64 + b.toNat % 64) * 64 + c.toNat % 64 = r
  have hvalid : ValidRune r := by
    unfold ValidRune
    omega
  have ha' : 0xE0 + r / 4096 = a.toNat := by omega
  have hb' : 0x80 + r / 64 % 64 = b.toNat := by omega
  have hc' : 0x80 + r % 64 = c.toNat := by omega
  refine ⟨hvalid, ?_⟩
  rw [encodeRune, if_neg (by omega), if_neg (by omega), if_neg (not_not_intro hvalid),
    if_pos (by omega), ha', hb', hc']
  simp only [UInt8.ofNat_toNat]

theorem encodeRune_four (hseq : sequenceOf a.toNat = some (4, low, high))
    (hb : low ≤ b.toNat ∧ b.toNat ≤ high) (hc : 0x80 ≤ c.toNat ∧ c.toNat ≤ 0xBF)
    (hd : 0x80 ≤ d.toNat ∧ d.toNat ≤ 0xBF) :
    ValidRune (((a.toNat % 8 * 64 + b.toNat % 64) * 64 + c.toNat % 64) * 64 + d.toNat % 64) ∧
      encodeRune (((a.toNat % 8 * 64 + b.toNat % 64) * 64 + c.toNat % 64) * 64 + d.toNat % 64) =
        [a, b, c, d] := by
  have hrange := sequenceOf_eq_some hseq
  generalize hr : ((a.toNat % 8 * 64 + b.toNat % 64) * 64 + c.toNat % 64) * 64 + d.toNat % 64 = r
  have hvalid : ValidRune r := by
    unfold ValidRune
    omega
  have ha' : 0xF0 + r / 262144 = a.toNat := by omega
  have hb' : 0x80 + r / 4096 % 64 = b.toNat := by omega
  have hc' : 0x80 + r / 64 % 64 = c.toNat := by omega
  have hd' : 0x80 + r % 64 = d.toNat := by omega
  refine ⟨hvalid, ?_⟩
  rw [encodeRune, if_neg (by omega), if_neg (by omega), if_neg (not_not_intro hvalid),
    if_neg (by omega), ha', hb', hc', hd']
  simp only [UInt8.ofNat_toNat]

variable {r : ℕ} (tail : Bytes)

theorem decodeRune_two (hr : 0x80 ≤ r ∧ r < 0x800) (ha : a.toNat = 0xC0 + r / 64)
    (hb : b.toNat = 0x80 + r % 64) : decodeRune a (b :: tail) = (r, 2) := by
  obtain ⟨low, high, hseq⟩ := exists_sequenceOf a.toNat 2 (by omega)
  have hrange := sequenceOf_eq_some hseq
  calc
    decodeRune a (b :: tail) = (a.toNat % 2 ^ (7 - 2) * 64 + b.toNat % 64, 2) :=
      decodeRune_sequence [] tail (by omega) hseq rfl (by omega) (by simp)
    _ = (r, 2) := by
      rw [Prod.mk.injEq]
      omega

theorem decodeRune_three (hr : 0x800 ≤ r ∧ r < 0x10000) (hvalid : ValidRune r)
    (ha : a.toNat = 0xE0 + r / 4096) (hb : b.toNat = 0x80 + r / 64 % 64)
    (hc : c.toNat = 0x80 + r % 64) : decodeRune a (b :: c :: tail) = (r, 3) := by
  obtain ⟨low, high, hseq⟩ := exists_sequenceOf a.toNat 3 (by omega)
  have hrange := sequenceOf_eq_some hseq
  unfold ValidRune at hvalid
  calc
    decodeRune a (b :: c :: tail) =
        ((a.toNat % 2 ^ (7 - 3) * 64 + b.toNat % 64) * 64 + c.toNat % 64, 3) :=
      decodeRune_sequence [c] tail (by omega) hseq rfl (by omega) (by simp; omega)
    _ = (r, 3) := by
      rw [Prod.mk.injEq]
      omega

theorem decodeRune_four (hr : 0x10000 ≤ r ∧ r ≤ 0x10FFFF) (ha : a.toNat = 0xF0 + r / 262144)
    (hb : b.toNat = 0x80 + r / 4096 % 64) (hc : c.toNat = 0x80 + r / 64 % 64)
    (hd : d.toNat = 0x80 + r % 64) : decodeRune a (b :: c :: d :: tail) = (r, 4) := by
  obtain ⟨low, high, hseq⟩ := exists_sequenceOf a.toNat 4 (by omega)
  have hrange := sequenceOf_eq_some hseq
  calc
    decodeRune a (b :: c :: d :: tail) =
        (((a.toNat % 2 ^ (7 - 4) * 64 + b.toNat % 64) * 64 + c.toNat % 64) * 64 + d.toNat % 64, 4) :=
      decodeRune_sequence [c, d] tail (by omega) hseq rfl (by omega) (by simp; omega)
    _ = (r, 4) := by
      rw [Prod.mk.injEq]
      omega

end Sequences

/-- A first byte that is not ASCII is stray or begins a complete sequence. -/
theorem stray_or_sequence {first : UInt8} (hfirst : ¬ first.toNat < 0x80) (rest : Bytes) :
    decodeRune first rest = (runeError, 1) ∨
      ∃ size low high second others tail, sequenceOf first.toNat = some (size, low, high) ∧
        rest = second :: (others ++ tail) ∧ size = others.length + 2 ∧
        (low ≤ second.toNat ∧ second.toNat ≤ high) ∧
        ∀ byte ∈ others, 0x80 ≤ byte.toNat ∧ byte.toNat ≤ 0xBF := by
  rcases hseq : sequenceOf first.toNat with _ | ⟨size, low, high⟩
  · left
    rw [decodeRune, if_neg hfirst, hseq]
  have hsize : 2 ≤ size := by
    have := sequenceOf_eq_some hseq
    omega
  rw [decodeRune, if_neg hfirst, hseq]
  dsimp only
  split
  next hcomplete =>
    right
    obtain ⟨hlength, hlow, hhigh, hothers⟩ := hcomplete
    rcases hsequence : rest.take (size - 1) with _ | ⟨second, others⟩
    · rw [hsequence, List.length_nil] at hlength
      omega
    rw [hsequence] at hlength hlow hhigh hothers
    rw [List.length_cons] at hlength
    refine ⟨size, low, high, second, others, rest.drop (size - 1), rfl, ?_, by omega,
      ⟨hlow, hhigh⟩, hothers⟩
    calc
      rest = rest.take (size - 1) ++ rest.drop (size - 1) := (List.take_append_drop _ _).symm
      _ = second :: (others ++ rest.drop (size - 1)) := by rw [hsequence, List.cons_append]
  next => exact .inl rfl

/-- What is read off the front of a string is a stray byte or the encoding of a valid rune. -/
theorem decodeRune_cases (first : UInt8) (rest : Bytes) :
    decodeRune first rest = (runeError, 1) ∨
      ∃ r tail, ValidRune r ∧ first :: rest = encodeRune r ++ tail ∧
        decodeRune first rest = (r, (encodeRune r).length) := by
  by_cases hfirst : first.toNat < 0x80
  · refine .inr ⟨first.toNat, rest, .inl (by omega), ?_, ?_⟩
    · rw [encodeRune_ascii hfirst, UInt8.ofNat_toNat]
      rfl
    · rw [decodeRune_ascii hfirst, encodeRune_ascii hfirst]
      rfl
  rcases stray_or_sequence hfirst rest with hstray | hsequence
  · exact .inl hstray
  right
  obtain ⟨size, low, high, second, others, tail, hseq, rfl, hsize, hsecond, hothers⟩ := hsequence
  have hdecode : decodeRune first (second :: (others ++ tail)) = _ :=
    decodeRune_sequence others tail hfirst hseq hsize hsecond hothers
  have hencode {r : ℕ} (h : ValidRune r ∧ encodeRune r = first :: second :: others)
      (hr : (second :: others).foldl (fun r byte ↦ r * 64 + byte.toNat % 64)
        (first.toNat % 2 ^ (7 - size)) = r) :
      ∃ r rest, ValidRune r ∧ first :: second :: (others ++ tail) = encodeRune r ++ rest ∧
        decodeRune first (second :: (others ++ tail)) = (r, (encodeRune r).length) := by
    refine ⟨r, tail, h.1, ?_, ?_⟩
    · rw [h.2]
      rfl
    · rw [hdecode, hr, h.2, hsize]
      rfl
  -- A sequence has two, three or four bytes.
  have hlengths := sequenceOf_eq_some hseq
  rcases others with _ | ⟨third, _ | ⟨fourth, _ | ⟨fifth, others⟩⟩⟩
  · subst hsize
    exact hencode (encodeRune_two hseq hsecond) rfl
  · subst hsize
    exact hencode (encodeRune_three hseq hsecond (hothers third (by simp))) rfl
  · subst hsize
    exact hencode (encodeRune_four hseq hsecond (hothers third (by simp))
      (hothers fourth (by simp))) rfl
  · simp only [List.length_cons] at hsize
    omega

/-- The encoding of a valid rune is read back, whatever follows it. -/
theorem decodeRune_encodeRune {r : ℕ} (hr : ValidRune r) {first : UInt8} {rest tail : Bytes}
    (h : first :: rest = encodeRune r ++ tail) :
    decodeRune first rest = (r, (encodeRune r).length) := by
  have hmax : r ≤ 0x10FFFF := by
    unfold ValidRune at hr
    omega
  have hbyte {n : ℕ} (hn : n < 256) : (UInt8.ofNat n).toNat = n := UInt8.toNat_ofNat_of_lt' hn
  unfold encodeRune at h ⊢
  split at h
  next hone =>
    obtain ⟨rfl, rfl⟩ := List.cons.inj h
    rw [if_pos hone, decodeRune_ascii (by rw [hbyte (by omega)]; exact hone), hbyte (by omega)]
    rfl
  next hone =>
    rw [if_neg hone]
    split at h
    next htwo =>
      obtain ⟨rfl, rfl⟩ := List.cons.inj h
      rw [if_pos htwo]
      exact decodeRune_two tail (by omega) (hbyte (by omega)) (hbyte (by omega))
    next htwo =>
      rw [if_neg htwo, if_neg (not_not_intro hr)]
      split at h
      next hthree =>
        obtain ⟨rfl, rfl⟩ := List.cons.inj h
        rw [if_pos hthree]
        exact decodeRune_three tail (by omega) hr (hbyte (by omega)) (hbyte (by omega))
          (hbyte (by omega))
      next hthree =>
        obtain ⟨rfl, rfl⟩ := List.cons.inj h
        rw [if_neg hthree]
        exact decodeRune_four tail (by omega) (hbyte (by omega)) (hbyte (by omega))
          (hbyte (by omega)) (hbyte (by omega))

/-! ## All runes -/

theorem width_pos (first : UInt8) (rest : Bytes) : 0 < (decodeRune first rest).2 := by
  rcases decodeRune_cases first rest with h | ⟨r, tail, -, -, h⟩
  · rw [h]
    exact Nat.one_pos
  · rw [h]
    exact length_encodeRune_pos r

theorem length_drop_width (first : UInt8) (rest : Bytes) :
    ((first :: rest).drop (decodeRune first rest).2).length ≤ rest.length := by
  have hwidth := width_pos first rest
  rw [List.length_drop, List.length_cons]
  omega

/-- Any bound on the length is enough. -/
theorem decodeRunes_congr {fuel fuel' : ℕ} {s : Bytes} (hfuel : s.length ≤ fuel)
    (hfuel' : s.length ≤ fuel') : decodeRunes fuel s = decodeRunes fuel' s := by
  induction fuel generalizing fuel' s with
  | zero =>
    obtain rfl := List.length_eq_zero_iff.mp (Nat.le_zero.mp hfuel)
    cases fuel' <;> rfl
  | succ fuel ih =>
    cases s with
    | nil => cases fuel' <;> rfl
    | cons first rest =>
      cases fuel' with
      | zero => exact absurd hfuel' (Nat.not_succ_le_zero _)
      | succ fuel' =>
        have hrest := length_drop_width first rest
        rw [List.length_cons] at hfuel hfuel'
        simp only [decodeRunes]
        rw [ih (by omega : _ ≤ fuel) (by omega : _ ≤ fuel')]

@[simp]
theorem runes_nil : runes [] = [] := rfl

theorem runes_cons (first : UInt8) (rest : Bytes) :
    runes (first :: rest) =
      (if (decodeRune first rest).1 = runeError ∧ (decodeRune first rest).2 = 1 then .stray first
        else .rune (decodeRune first rest).1) ::
      runes ((first :: rest).drop (decodeRune first rest).2) := by
  exact congrArg (_ :: ·) (decodeRunes_congr (length_drop_width first rest) le_rfl)

theorem runes_of_stray {byte : UInt8} {rest : Bytes} (h : decodeRune byte rest = (runeError, 1)) :
    runes (byte :: rest) = .stray byte :: runes rest := by
  rw [runes_cons, h, if_pos ⟨rfl, rfl⟩]
  rfl

/-- The runes of a string that begins with a valid rune. -/
theorem runes_encodeRune {r : ℕ} (hr : ValidRune r) (rest : Bytes) :
    runes (encodeRune r ++ rest) = .rune r :: runes rest := by
  rcases hencode : encodeRune r with _ | ⟨first, others⟩
  · exact absurd hencode (List.ne_nil_of_length_pos (length_encodeRune_pos r))
  have hdecode : decodeRune first (others ++ rest) = (r, (encodeRune r).length) :=
    decodeRune_encodeRune hr (by rw [hencode]; rfl)
  have hwidth : ¬ (r = runeError ∧ (encodeRune r).length = 1) := by
    rintro ⟨rfl, h⟩
    exact absurd h (by decide)
  rw [List.cons_append, runes_cons, hdecode, if_neg hwidth, hencode, ← List.cons_append,
    List.drop_left]

/-- Every string is built from valid runes and stray bytes. -/
theorem runes_induction {motive : Bytes → Prop} (nil : motive [])
    (rune : ∀ r rest, ValidRune r → motive rest → motive (encodeRune r ++ rest))
    (stray : ∀ byte rest, decodeRune byte rest = (runeError, 1) → motive rest →
      motive (byte :: rest)) (s : Bytes) : motive s := by
  induction hlen : s.length using Nat.strong_induction_on generalizing s with
  | _ n ih =>
    cases s with
    | nil => exact nil
    | cons first rest =>
      rw [List.length_cons] at hlen
      rcases decodeRune_cases first rest with h | ⟨r, tail, hr, hs, -⟩
      · exact stray first rest h (ih rest.length (by omega) rest rfl)
      · rw [hs]
        have hlength := congrArg List.length hs
        have hpos := length_encodeRune_pos r
        rw [List.length_cons, List.length_append] at hlength
        exact rune r tail hr (ih tail.length (by omega) tail rfl)

/-- The runes are the string. -/
theorem flatMap_bytes_runes (s : Bytes) : (runes s).flatMap Rune.bytes = s := by
  induction s using runes_induction with
  | nil => rfl
  | rune r rest hr ih => rw [runes_encodeRune hr, List.flatMap_cons, ih, Rune.bytes]
  | stray byte rest h ih =>
    rw [runes_of_stray h, List.flatMap_cons, ih]
    rfl

theorem validRune_of_mem_runes {s : Bytes} {r : ℕ} (h : .rune r ∈ runes s) : ValidRune r := by
  induction s using runes_induction with
  | nil => exact absurd h List.not_mem_nil
  | rune r' rest hr ih =>
    rw [runes_encodeRune hr, List.mem_cons] at h
    rcases h with h | h
    · cases h
      exact hr
    · exact ih h
  | stray byte rest hstray ih =>
    rw [runes_of_stray hstray, List.mem_cons] at h
    rcases h with h | h
    · cases h
    · exact ih h

/-! ## Strings in UTF-8 -/

theorem validRune_runeError : ValidRune runeError := by decide

theorem toValid_encodeRune {r : ℕ} (hr : ValidRune r) (rest : Bytes) :
    toValid (encodeRune r ++ rest) = encodeRune r ++ toValid rest := by
  rw [toValid, runes_encodeRune hr, List.flatMap_cons]
  rfl

theorem toValid_of_stray {byte : UInt8} {rest : Bytes} (h : decodeRune byte rest = (runeError, 1)) :
    toValid (byte :: rest) = encodeRune runeError ++ toValid rest := by
  rw [toValid, runes_of_stray h, List.flatMap_cons]
  rfl

@[simp]
theorem toValid_toValid (s : Bytes) : toValid (toValid s) = toValid s := by
  induction s using runes_induction with
  | nil => rfl
  | rune r rest hr ih => rw [toValid_encodeRune hr, toValid_encodeRune hr, ih]
  | stray byte rest h ih => rw [toValid_of_stray h, toValid_encodeRune validRune_runeError, ih]

/-- A string gets longer with every stray byte. -/
theorem length_le_toValid (s : Bytes) : s.length ≤ (toValid s).length := by
  induction s using runes_induction with
  | nil => exact le_rfl
  | rune r rest hr ih =>
    rw [toValid_encodeRune hr, List.length_append, List.length_append]
    omega
  | stray byte rest h ih =>
    have hwidth : (encodeRune runeError).length = 3 := by decide
    rw [toValid_of_stray h, List.length_cons, List.length_append]
    omega

/-- Only a string in UTF-8 stays as it is. -/
theorem toValid_eq_self_iff {s : Bytes} : toValid s = s ↔ validString s := by
  unfold validString
  induction s using runes_induction with
  | nil => exact iff_of_true rfl rfl
  | rune r rest hr ih =>
    rw [toValid_encodeRune hr, List.append_cancel_left_eq, ih, runes_encodeRune hr, List.all_cons]
    rfl
  | stray byte rest h ih =>
    have hlength := length_le_toValid rest
    have hwidth : (encodeRune runeError).length = 3 := by decide
    rw [runes_of_stray h, List.all_cons, toValid_of_stray h]
    refine iff_of_false (fun heq ↦ ?_) Bool.false_ne_true
    have hlengths := congrArg List.length heq
    rw [List.length_append, List.length_cons] at hlengths
    omega

theorem validString_toValid (s : Bytes) : validString (toValid s) :=
  toValid_eq_self_iff.mp (toValid_toValid s)

end DbPivot.Go
