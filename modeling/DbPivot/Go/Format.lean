import DbPivot.Go.Fault

/-!
# The texts of errors

`fmt` replaces each verb of a format by a printed operand. Most verbs print what is harmless in a
NUL-terminated field: numbers in decimal, and strings and bytes quoted with every control character
escaped. Two do not: `%s` copies a string as it is, and `%c` prints the character with the given
number, which for the number zero is a NUL.

Which runes count as printable is a table of `strconv` and enters as a parameter.
-/

namespace DbPivot.Go

/-! ## Runes -/

def runeError : ℕ := 0xFFFD

/-- `utf8.ValidRune`. -/
def ValidRune (r : ℕ) : Prop := r < 0xD800 ∨ 0xE000 ≤ r ∧ r ≤ 0x10FFFF

instance (r : ℕ) : Decidable (ValidRune r) :=
  inferInstanceAs (Decidable (r < 0xD800 ∨ 0xE000 ≤ r ∧ r ≤ 0x10FFFF))

/-- `utf8.AppendRune`. -/
def encodeRune (r : ℕ) : Bytes :=
  if r < 0x80 then [UInt8.ofNat r]
  else if r < 0x800 then [UInt8.ofNat (0xC0 + r / 64), UInt8.ofNat (0x80 + r % 64)]
  else if ¬ ValidRune r then [0xEF, 0xBF, 0xBD]
  else if r < 0x10000 then
    [UInt8.ofNat (0xE0 + r / 4096), UInt8.ofNat (0x80 + r / 64 % 64), UInt8.ofNat (0x80 + r % 64)]
  else
    [UInt8.ofNat (0xF0 + r / 262144), UInt8.ofNat (0x80 + r / 4096 % 64),
      UInt8.ofNat (0x80 + r / 64 % 64), UInt8.ofNat (0x80 + r % 64)]

/-- The length of a sequence with this first byte, and the range of its second byte. -/
def sequenceOf (first : ℕ) : Option (ℕ × ℕ × ℕ) :=
  if 0xC2 ≤ first ∧ first ≤ 0xDF then some (2, 0x80, 0xBF)
  else if first = 0xE0 then some (3, 0xA0, 0xBF)
  else if first = 0xED then some (3, 0x80, 0x9F)
  else if 0xE1 ≤ first ∧ first ≤ 0xEF then some (3, 0x80, 0xBF)
  else if first = 0xF0 then some (4, 0x90, 0xBF)
  else if 0xF1 ≤ first ∧ first ≤ 0xF3 then some (4, 0x80, 0xBF)
  else if first = 0xF4 then some (4, 0x80, 0x8F)
  else none

/-- `utf8.DecodeRuneInString` of a string that is not empty: the rune and its width. -/
def decodeRune (first : UInt8) (rest : Bytes) : ℕ × ℕ :=
  if first.toNat < 0x80 then (first.toNat, 1)
  else
    match sequenceOf first.toNat with
    | none => (runeError, 1)
    | some (size, low, high) =>
      let tail := rest.take (size - 1)
      if tail.length = size - 1 ∧ low ≤ (tail.headD 0).toNat ∧ (tail.headD 0).toNat ≤ high ∧
          ∀ byte ∈ tail.drop 1, 0x80 ≤ byte.toNat ∧ byte.toNat ≤ 0xBF then
        (tail.foldl (fun r byte ↦ r * 64 + byte.toNat % 64) (first.toNat % 2 ^ (7 - size)), size)
      else (runeError, 1)

/-! ## Quoting -/

def hexDigit (n : ℕ) : UInt8 := UInt8.ofNat (if n < 10 then 48 + n else 87 + n)

/-- The last digits of a number in lower-case hexadecimal. -/
def hexDigits : ℕ → ℕ → Bytes
  | 0, _ => []
  | width + 1, n => hexDigits width (n / 16) ++ [hexDigit (n % 16)]

/-- The character behind the backslash for the control characters that have one. -/
def controlEscape (r : ℕ) : Option UInt8 :=
  if r = 7 then some 97
  else if r = 8 then some 98
  else if r = 12 then some 102
  else if r = 10 then some 110
  else if r = 13 then some 114
  else if r = 9 then some 116
  else if r = 11 then some 118
  else none

section Quote

variable (isPrint : ℕ → Bool)

/-- `appendEscapedRune`. -/
def escapeRune (quote : UInt8) (r : ℕ) : Bytes :=
  if r = quote.toNat ∨ r = 0x5C then [0x5C, UInt8.ofNat r]
  else if isPrint r then encodeRune r
  else
    match controlEscape r with
    | some letter => [0x5C, letter]
    | none =>
      if r < 0x20 ∨ r = 0x7F then str "\\x" ++ hexDigits 2 r
      else if ¬ ValidRune r then str "\\u" ++ hexDigits 4 runeError
      else if r < 0x10000 then str "\\u" ++ hexDigits 4 r
      else str "\\U" ++ hexDigits 8 r

/-- The loop of `appendQuotedWith`; a byte that is not UTF-8 is written in hexadecimal. -/
def quoteRunes (quote : UInt8) : ℕ → Bytes → Bytes
  | 0, _ => []
  | _ + 1, [] => []
  | fuel + 1, first :: rest =>
    let (r, width) := decodeRune first rest
    (if width = 1 ∧ r = runeError then str "\\x" ++ hexDigits 2 first.toNat
      else escapeRune isPrint quote r) ++
      quoteRunes quote fuel ((first :: rest).drop width)

/-- `strconv.Quote`. Every round takes a byte at least. -/
def quote (s : Bytes) : Bytes := [0x22] ++ quoteRunes isPrint 0x22 s.length s ++ [0x22]

/-- `strconv.QuoteRune`. -/
def quoteRune (r : ℕ) : Bytes :=
  [0x27] ++ escapeRune isPrint 0x27 (if ValidRune r then r else runeError) ++ [0x27]

/-! ## Formats -/

/-- A character of a format that is copied, or a verb; `hex` is `%x` with leading zeros. -/
inductive Piece where
  | literal (c : Char)
  | verb (v : Char)
  | hex (width : ℕ)
deriving DecidableEq

/-- The pieces of a format. -/
def pieces : List Char → List Piece
  | [] => []
  | '%' :: '0' :: width :: 'x' :: rest => .hex (width.toNat - 48) :: pieces rest
  | '%' :: v :: rest => .verb v :: pieces rest
  | c :: rest => .literal c :: pieces rest

/-- What a verb prints for its operand, for the verbs and operands that the program has. -/
def printOperand : Char → Option Operand → Bytes
  | 's', some (.text value) => value
  | 'v', some (.text value) => value
  | 'q', some (.text value) => quote isPrint value
  | 'd', some (.number value) => itoaInt value
  | 'v', some (.number value) => itoaInt value
  | 'c', some (.number value) => encodeRune value.toNat
  | 'q', some (.number value) => quoteRune isPrint value.toNat
  | 'v', some (.texts values) => str "[" ++ join values (str " ") ++ str "]"
  | _, _ => []

def printHex (width : ℕ) : Option Operand → Bytes
  | some (.number value) => hexDigits width value.toNat
  | _ => []

/-- The text of the wrapped error at a verb that stands for it. -/
def wrappedAt (cause : Option Bytes) (v : Char) : Option Bytes :=
  if v = 'w' ∨ v = 'v' then cause else none

/-- The loop of `doPrintf`. The wrapped error is not one of the operands. -/
def printPieces (cause : Option Bytes) : List Piece → List Operand → Bytes
  | [], _ => []
  | .literal c :: rest, operands => encodeRune c.toNat ++ printPieces cause rest operands
  | .hex width :: rest, operands =>
    printHex width operands.head? ++ printPieces cause rest operands.tail
  | .verb v :: rest, operands =>
    match wrappedAt cause v with
    | some text => text ++ printPieces cause rest operands
    | none => printOperand isPrint v operands.head? ++ printPieces cause rest operands.tail

/-- `err.Error()`. -/
def errorText : GoError → Bytes
  | .errorf format operands none => printPieces isPrint none (pieces format.toList) operands
  | .errorf format operands (some cause) =>
    printPieces isPrint (some (errorText cause)) (pieces format.toList) operands

end Quote

/-! ## What cannot print a NUL -/

theorem ofNat_ne_zero {n : ℕ} (hpos : 0 < n) (hlt : n < 256) : UInt8.ofNat n ≠ 0 := by
  intro h
  have hnat := congrArg UInt8.toNat h
  rw [UInt8.toNat_ofNat_of_lt' hlt] at hnat
  exact hpos.ne' hnat

theorem zero_mem_encodeRune {r : ℕ} : (0 : UInt8) ∈ encodeRune r ↔ r = 0 := by
  constructor
  · intro h
    by_contra hr
    have hvalid : ¬ (¬ ValidRune r) → r ≤ 0x10FFFF := by
      unfold ValidRune
      omega
    unfold encodeRune at h
    split at h
    · rw [List.mem_singleton] at h
      exact ofNat_ne_zero (by omega) (by omega) h.symm
    · split at h
      · simp only [List.mem_cons, List.not_mem_nil, or_false] at h
        rcases h with h | h <;> exact ofNat_ne_zero (by omega) (by omega) h.symm
      · split at h
        · revert h
          decide
        · have hr' := hvalid ‹_›
          split at h
          · simp only [List.mem_cons, List.not_mem_nil, or_false] at h
            rcases h with h | h | h <;> exact ofNat_ne_zero (by omega) (by omega) h.symm
          · simp only [List.mem_cons, List.not_mem_nil, or_false] at h
            rcases h with h | h | h | h <;> exact ofNat_ne_zero (by omega) (by omega) h.symm
  · rintro rfl
    decide

theorem zero_notMem_hexDigits (width n : ℕ) : (0 : UInt8) ∉ hexDigits width n := by
  induction width generalizing n with
  | zero => exact List.not_mem_nil
  | succ width ih =>
    rw [hexDigits, List.mem_append, List.mem_singleton, not_or]
    refine ⟨ih _, fun h ↦ ?_⟩
    unfold hexDigit at h
    split at h <;> exact ofNat_ne_zero (by omega) (by omega) h.symm

theorem zero_notMem_itoaInt (n : ℤ) : (0 : UInt8) ∉ itoaInt n := by
  unfold itoaInt
  split
  · rw [List.mem_cons, not_or]
    exact ⟨by decide, zero_notMem_itoa _⟩
  · exact zero_notMem_itoa _

theorem controlEscape_ne_zero {r : ℕ} {letter : UInt8} (h : controlEscape r = some letter) :
    letter ≠ 0 := by
  unfold controlEscape at h
  repeat' split at h
  all_goals
    cases h
  all_goals decide

section Quote

variable {isPrint : ℕ → Bool} (hprint : isPrint 0 = false)
include hprint

theorem zero_notMem_escapeRune {quote : UInt8} (hquote : quote ≠ 0) (r : ℕ) :
    (0 : UInt8) ∉ escapeRune isPrint quote r := by
  have hhex (before : Bytes) (hbefore : (0 : UInt8) ∉ before) (width n : ℕ) :
      (0 : UInt8) ∉ before ++ hexDigits width n := by
    rw [List.mem_append, not_or]
    exact ⟨hbefore, zero_notMem_hexDigits width n⟩
  unfold escapeRune
  split
  next hspecial =>
    have hquote' : quote.toNat ≠ 0 := fun h ↦ hquote (UInt8.toNat_inj.mp h)
    have hlt := quote.toNat_lt
    intro h
    simp only [List.mem_cons, List.not_mem_nil, or_false] at h
    rcases h with h | h
    · exact absurd h (by decide)
    · exact ofNat_ne_zero (by omega) (by omega) h.symm
  next =>
    split
    next hr =>
      rw [zero_mem_encodeRune]
      rintro rfl
      rw [hprint] at hr
      cases hr
    next =>
      split
      next letter hletter =>
        simp only [List.mem_cons, List.not_mem_nil, or_false, not_or]
        exact ⟨by decide, (controlEscape_ne_zero hletter).symm⟩
      next =>
        repeat' split
        all_goals exact hhex _ (by decide) _ _

theorem zero_notMem_quoteRunes (fuel : ℕ) (s : Bytes) :
    (0 : UInt8) ∉ quoteRunes isPrint 0x22 fuel s := by
  induction fuel generalizing s with
  | zero => exact List.not_mem_nil
  | succ fuel ih =>
    cases s with
    | nil => exact List.not_mem_nil
    | cons first rest =>
      rw [quoteRunes, List.mem_append, not_or]
      refine ⟨?_, ih _⟩
      split
      · rw [List.mem_append, not_or]
        exact ⟨by decide, zero_notMem_hexDigits 2 _⟩
      · exact zero_notMem_escapeRune hprint (by decide) _

theorem zero_notMem_quote (s : Bytes) : (0 : UInt8) ∉ quote isPrint s := by
  simp only [quote, List.mem_append, List.mem_singleton, not_or]
  exact ⟨⟨by decide, zero_notMem_quoteRunes hprint _ _⟩, by decide⟩

theorem zero_notMem_quoteRune (r : ℕ) : (0 : UInt8) ∉ quoteRune isPrint r := by
  simp only [quoteRune, List.mem_append, List.mem_singleton, not_or]
  exact ⟨⟨by decide, zero_notMem_escapeRune hprint (by decide) _⟩, by decide⟩

end Quote

/-- Controls, runes that are not printable and bytes that are not UTF-8, with ASCII alone printable. -/
example : quote (fun r ↦ 0x20 ≤ r ∧ r < 0x7F) [0x61, 0x22, 0x0A, 0x00, 0xC3, 0xA9, 0xFF] =
    str "\"a\\\"\\n\\x00\\u00e9\\xff\"" := by decide +kernel

/-! ## The verbs of a format -/

/-- The piece is not a literal. -/
def Piece.isVerb : Piece → Bool
  | .literal _ => false
  | _ => true

/-- Only the verbs of a format can print a NUL. -/
theorem zero_mem_printPieces {isPrint : ℕ → Bool} {cause : Option Bytes} {format : List Piece}
    (hformat : Piece.literal '\x00' ∉ format) (operands : List Operand) :
    (0 : UInt8) ∈ printPieces isPrint cause format operands ↔
      (0 : UInt8) ∈ printPieces isPrint cause (format.filter Piece.isVerb) operands := by
  induction format generalizing operands with
  | nil => rfl
  | cons piece rest ih =>
    rw [List.mem_cons, not_or] at hformat
    replace ih := ih hformat.2
    cases piece with
    | literal c =>
      have hc : (0 : UInt8) ∉ encodeRune c.toNat := by
        rw [zero_mem_encodeRune]
        intro hzero
        exact hformat.1 (congrArg Piece.literal (Char.toNat_inj.mp hzero.symm))
      rw [printPieces, List.mem_append, or_iff_right hc, ih]
      rfl
    | verb v =>
      rw [List.filter_cons_of_pos rfl, printPieces, printPieces]
      cases wrappedAt cause v with
      | none =>
        simp only [List.mem_append, ih]
      | some text =>
        simp only [List.mem_append, ih]
    | hex width =>
      rw [List.filter_cons_of_pos rfl, printPieces, printPieces, List.mem_append, List.mem_append, ih]

/-- The verbs of a format that has no NUL itself. -/
def Verbs (format : String) (verbs : List Piece) : Prop :=
  Piece.literal '\x00' ∉ pieces format.toList ∧ (pieces format.toList).filter Piece.isVerb = verbs

instance (format : String) (verbs : List Piece) : Decidable (Verbs format verbs) :=
  inferInstanceAs (Decidable (_ ∧ _))

section Text

variable {isPrint : ℕ → Bool} {format : String}

/-- A format without verbs is a text without a NUL. -/
theorem zero_notMem_errorText (hformat : Verbs format []) :
    (0 : UInt8) ∉ errorText isPrint (errorf format []) := by
  rw [errorf, errorText, zero_mem_printPieces hformat.1, hformat.2]
  exact List.not_mem_nil

/-- A format with one verb. -/
theorem zero_mem_errorText {v : Char} (hformat : Verbs format [.verb v]) (operand : Operand) :
    (0 : UInt8) ∈ errorText isPrint (errorf format [operand]) ↔
      (0 : UInt8) ∈ printOperand isPrint v (some operand) := by
  have hnone : wrappedAt none v = none := by
    unfold wrappedAt
    split <;> rfl
  rw [errorf, errorText, zero_mem_printPieces hformat.1, hformat.2, printPieces, hnone]
  simp only [printPieces, List.append_nil, List.head?_cons]

/-- An error that wraps another. -/
theorem zero_mem_errorText_wrapf {v : Char} (hformat : Verbs format [.verb v])
    (hv : v = 'w' ∨ v = 'v') (cause : GoError) :
    (0 : UInt8) ∈ errorText isPrint (wrapf format [] cause) ↔
      (0 : UInt8) ∈ errorText isPrint cause := by
  rw [wrapf, errorText, zero_mem_printPieces hformat.1, hformat.2, printPieces, wrappedAt, if_pos hv]
  simp only [printPieces, List.append_nil]

theorem zero_notMem_errorText_number (hformat : Verbs format [.verb 'd']) (n : ℤ) :
    (0 : UInt8) ∉ errorText isPrint (errorf format [.number n]) := by
  rw [zero_mem_errorText hformat]
  exact zero_notMem_itoaInt n

theorem zero_mem_errorText_char (hformat : Verbs format [.verb 'c']) (n : ℕ) :
    (0 : UInt8) ∈ errorText isPrint (errorf format [.number n]) ↔ n = 0 := by
  rw [zero_mem_errorText hformat]
  exact zero_mem_encodeRune

theorem zero_mem_errorText_text (hformat : Verbs format [.verb 's']) (value : Bytes) :
    (0 : UInt8) ∈ errorText isPrint (errorf format [.text value]) ↔ (0 : UInt8) ∈ value := by
  rw [zero_mem_errorText hformat]
  rfl

theorem zero_notMem_errorText_quote (hprint : isPrint 0 = false) (hformat : Verbs format [.verb 'q'])
    (value : Bytes) : (0 : UInt8) ∉ errorText isPrint (errorf format [.text value]) := by
  rw [zero_mem_errorText hformat]
  exact zero_notMem_quote hprint value

theorem zero_notMem_errorText_quoteRune (hprint : isPrint 0 = false)
    (hformat : Verbs format [.verb 'q']) (n : ℤ) :
    (0 : UInt8) ∉ errorText isPrint (errorf format [.number n]) := by
  rw [zero_mem_errorText hformat]
  exact zero_notMem_quoteRune hprint n.toNat

end Text

end DbPivot.Go
