import Mathlib

/-!
# Byte strings and fixed-width words

A Go `string` and a Go `[]byte` are both finite byte sequences, so one type serves for the two.
The `encoding/binary` little-endian codecs are stated once for an arbitrary width and then
specialised to the 32-bit and 64-bit words of a wire format. Decoding is a left inverse of
encoding on every word, and encoding is a left inverse of decoding on every string of the right
length, so a fixed-width field neither loses nor invents a bit.
-/

namespace DbPivot.Go

abbrev Bytes := List UInt8

instance : LawfulBEq Bytes := inferInstance

/-- The bytes of a string literal. -/
def str (text : String) : Bytes := text.toUTF8.data.toList

/-- The `width` low-order bytes of a number, least significant first. -/
def leBytes : ℕ → ℕ → Bytes
  | 0, _ => []
  | width + 1, n => UInt8.ofNat n :: leBytes width (n / 256)

/-- The number whose least significant byte comes first. -/
def leNat : Bytes → ℕ
  | [] => 0
  | byte :: rest => byte.toNat + 256 * leNat rest

@[simp] theorem length_leBytes (width n : ℕ) : (leBytes width n).length = width := by
  induction width generalizing n with
  | zero => rfl
  | succ width ih => simp [leBytes, ih]

theorem leNat_lt (bytes : Bytes) : leNat bytes < 256 ^ bytes.length := by
  induction bytes with
  | nil => simp [leNat]
  | cons byte rest ih =>
    have hbyte : byte.toNat < 256 := byte.toNat_lt
    simp only [leNat, List.length_cons, pow_succ]
    omega

theorem leNat_leBytes (width n : ℕ) : leNat (leBytes width n) = n % 256 ^ width := by
  induction width generalizing n with
  | zero => simp [leBytes, leNat, Nat.mod_one]
  | succ width ih =>
    have hbyte : (UInt8.ofNat n).toNat = n % 256 := rfl
    simp only [leBytes, leNat, ih, hbyte, pow_succ']
    rw [Nat.mod_mul]

theorem leBytes_leNat (bytes : Bytes) : leBytes bytes.length (leNat bytes) = bytes := by
  induction bytes with
  | nil => rfl
  | cons byte rest ih =>
    have hbyte : byte.toNat < 256 := byte.toNat_lt
    have hdiv : (byte.toNat + 256 * leNat rest) / 256 = leNat rest := by omega
    have hmod : UInt8.ofNat (byte.toNat + 256 * leNat rest) = byte := by
      apply UInt8.toNat_inj.mp
      rw [UInt8.toNat_ofNat']
      omega
    simp only [List.length_cons, leBytes, leNat, hdiv, ih, hmod]

/-- `binary.LittleEndian.AppendUint16` on an empty slice. -/
def le16 (word : UInt16) : Bytes := leBytes 2 word.toNat

/-- `binary.LittleEndian.Uint16`; the callers below only apply it to two bytes. -/
def uint16LE (bytes : Bytes) : UInt16 := UInt16.ofNat (leNat bytes)

@[simp] theorem length_le16 (word : UInt16) : (le16 word).length = 2 := length_leBytes 2 _

@[simp] theorem uint16LE_le16 (word : UInt16) : uint16LE (le16 word) = word := by
  apply UInt16.toNat_inj.mp
  have hword : word.toNat < 65536 := word.toNat_lt
  rw [uint16LE, le16, leNat_leBytes, UInt16.toNat_ofNat']
  omega

/-- `binary.LittleEndian.AppendUint32` on an empty slice. -/
def le32 (word : UInt32) : Bytes := leBytes 4 word.toNat

/-- `binary.LittleEndian.AppendUint64` on an empty slice. -/
def le64 (word : UInt64) : Bytes := leBytes 8 word.toNat

/-- `binary.LittleEndian.Uint32`; the callers below only apply it to four bytes. -/
def uint32LE (bytes : Bytes) : UInt32 := UInt32.ofNat (leNat bytes)

/-- `binary.LittleEndian.Uint64`; the callers below only apply it to eight bytes. -/
def uint64LE (bytes : Bytes) : UInt64 := UInt64.ofNat (leNat bytes)

@[simp] theorem length_le32 (word : UInt32) : (le32 word).length = 4 := length_leBytes 4 _

@[simp] theorem length_le64 (word : UInt64) : (le64 word).length = 8 := length_leBytes 8 _

@[simp] theorem uint32LE_le32 (word : UInt32) : uint32LE (le32 word) = word := by
  apply UInt32.toNat_inj.mp
  have hword : word.toNat < 4294967296 := word.toNat_lt
  rw [uint32LE, le32, leNat_leBytes, UInt32.toNat_ofNat']
  omega

@[simp] theorem uint64LE_le64 (word : UInt64) : uint64LE (le64 word) = word := by
  apply UInt64.toNat_inj.mp
  have hword : word.toNat < 18446744073709551616 := word.toNat_lt
  rw [uint64LE, le64, leNat_leBytes, UInt64.toNat_ofNat']
  omega

theorem le32_uint32LE (bytes : Bytes) (hlength : bytes.length = 4) :
    le32 (uint32LE bytes) = bytes := by
  have hbound := leNat_lt bytes
  rw [hlength] at hbound
  have hword : (uint32LE bytes).toNat = leNat bytes := by
    rw [uint32LE, UInt32.toNat_ofNat']
    omega
  rw [le32, hword, ← hlength]
  exact leBytes_leNat bytes

theorem le64_uint64LE (bytes : Bytes) (hlength : bytes.length = 8) :
    le64 (uint64LE bytes) = bytes := by
  have hbound := leNat_lt bytes
  rw [hlength] at hbound
  have hword : (uint64LE bytes).toNat = leNat bytes := by
    rw [uint64LE, UInt64.toNat_ofNat']
    omega
  rw [le64, hword, ← hlength]
  exact leBytes_leNat bytes

/-- `binary.BigEndian.PutUint32` on four bytes. -/
def be32 (word : UInt32) : Bytes := (le32 word).reverse

/-- `binary.BigEndian.Uint32`; the callers below only apply it to four bytes. -/
def uint32BE (bytes : Bytes) : UInt32 := uint32LE bytes.reverse

@[simp] theorem length_be32 (word : UInt32) : (be32 word).length = 4 := by
  rw [be32, List.length_reverse, length_le32]

@[simp] theorem uint32BE_be32 (word : UInt32) : uint32BE (be32 word) = word := by
  rw [uint32BE, be32, List.reverse_reverse, uint32LE_le32]

theorem be32_uint32BE (bytes : Bytes) (hlength : bytes.length = 4) :
    be32 (uint32BE bytes) = bytes := by
  rw [be32, uint32BE, le32_uint32LE _ (by rw [List.length_reverse, hlength]), List.reverse_reverse]

/-- `int(int32(word))`: the two's-complement reading of a 32-bit word. -/
def int32 (word : UInt32) : ℤ := word.toInt32.toInt

theorem int32_eq (word : UInt32) :
    int32 word = if word.toNat < 2 ^ 31 then (word.toNat : ℤ) else (word.toNat : ℤ) - 2 ^ 32 := by
  have hword : word.toNat < 2 ^ 32 := word.toNat_lt
  have hint : int32 word = word.toBitVec.toInt := rfl
  have hnat : word.toBitVec.toNat = word.toNat := rfl
  rw [hint, BitVec.toInt_eq_toNat_cond, hnat]
  split <;> split <;> omega

/-- A length that fits the positive half of an int32 is read back as itself. -/
theorem int32_ofNat (n : ℕ) (hn : n < 2 ^ 31) : int32 (UInt32.ofNat n) = n := by
  have hword : (UInt32.ofNat n).toNat = n := by
    rw [UInt32.toNat_ofNat']
    omega
  rw [int32_eq, hword, if_pos hn]

/-- A non-negative int32 reading determines the word. -/
theorem eq_ofNat_of_int32 (word : UInt32) (n : ℕ) (hword : int32 word = n) :
    n < 2 ^ 31 ∧ word = UInt32.ofNat n := by
  have hbound : word.toNat < 2 ^ 32 := word.toNat_lt
  rw [int32_eq] at hword
  split at hword
  · have hn : word.toNat = n := by omega
    refine ⟨by omega, ?_⟩
    apply UInt32.toNat_inj.mp
    rw [UInt32.toNat_ofNat']
    omega
  · omega

/-! ## Searching -/

/-- `strings.IndexByte`, with `none` for -1. -/
def indexByte (s : Bytes) (c : UInt8) : Option ℕ := s.findIdx? fun byte ↦ byte = c

theorem indexByte_eq_none {s : Bytes} {c : UInt8} : indexByte s c = none ↔ c ∉ s := by
  rw [indexByte, List.findIdx?_eq_none_iff]
  constructor
  · intro h hmem
    simpa using h c hmem
  · intro h byte hbyte
    simp only [decide_eq_false_iff_not]
    exact fun hsame ↦ h (hsame ▸ hbyte)

theorem indexByte_append {before : Bytes} {c : UInt8} (hbefore : c ∉ before) (after : Bytes) :
    indexByte (before ++ c :: after) c = some before.length := by
  rw [indexByte, List.findIdx?_append]
  have hnone : before.findIdx? (fun byte ↦ byte = c) = none := indexByte_eq_none.mpr hbefore
  simp [hnone, List.findIdx?_cons]

theorem indexByte_eq_some {s : Bytes} {c : UInt8} {position : ℕ}
    (h : indexByte s c = some position) :
    ∃ before after, s = before ++ c :: after ∧ c ∉ before ∧ position = before.length := by
  rw [indexByte, List.findIdx?_eq_some_iff_getElem] at h
  obtain ⟨hposition, hfound, hbefore⟩ := h
  refine ⟨s.take position, s.drop (position + 1), ?_, ?_, ?_⟩
  · have hbyte : s[position] = c := by simpa using hfound
    rw [← hbyte, List.getElem_cons_drop, List.take_append_drop]
  · intro hmem
    obtain ⟨index, hindex, hsame⟩ := List.mem_take_iff_getElem.mp hmem
    have hother := hbefore index (by omega)
    simp [hsame] at hother
  · rw [List.length_take]
    omega

/-- `bytes.TrimRight` with a NUL as the cutset. -/
def trimNuls (s : Bytes) : Bytes := s.rdropWhile fun byte ↦ byte = 0

theorem trimNuls_append_zero (s : Bytes) : trimNuls (s ++ [0]) = trimNuls s := by
  rw [trimNuls, List.rdropWhile_concat_pos _ _ _ (by simp), trimNuls]

theorem trimNuls_of_getLast? {s : Bytes} (hs : s.getLast? ≠ some 0) : trimNuls s = s := by
  rw [trimNuls, List.rdropWhile_eq_self_iff]
  intro hne hlast
  rw [List.getLast?_eq_some_getLast hne, of_decide_eq_true hlast] at hs
  exact hs rfl

theorem trimNuls_of_notMem {s : Bytes} (hs : 0 ∉ s) : trimNuls s = s :=
  trimNuls_of_getLast? fun hlast ↦ hs (List.mem_of_getLast? hlast)

/-! ## Decimal numbers -/

/-- The decimal digits of a natural number. -/
def itoa (n : ℕ) : Bytes := (Nat.toDigits 10 n).map fun digit ↦ UInt8.ofNat digit.toNat

/-- `strconv.Itoa`. -/
def itoaInt (n : ℤ) : Bytes := if n < 0 then 45 :: itoa n.natAbs else itoa n.natAbs

/-- A decimal number never contains a NUL. -/
theorem zero_notMem_itoa (n : ℕ) : (0 : UInt8) ∉ itoa n := by
  intro hmem
  obtain ⟨digit, hdigit, hzero⟩ := List.mem_map.mp hmem
  have hrange := Nat.isDigit_of_mem_toDigits (by omega) le_rfl hdigit
  simp only [Char.isDigit, Bool.and_eq_true, decide_eq_true_eq] at hrange
  have hlow : 48 ≤ digit.toNat := hrange.1
  have hhigh : digit.toNat ≤ 57 := hrange.2
  have hnat := congrArg UInt8.toNat hzero
  rw [UInt8.toNat_ofNat'] at hnat
  simp only [UInt8.toNat_zero] at hnat
  omega

/-! ## Joining -/

/-- `strings.Join`. -/
def join (parts : List Bytes) (separator : Bytes) : Bytes := (parts.intersperse separator).flatten

end DbPivot.Go
