import DbPivot.Go.Strconv
import DbPivot.Go.Utf8

/-!
# The texts of `encoding/json`

A value is written without blanks, and a string with every control character, quote, backslash and
HTML character escaped, so a written value is one line. Reading follows the grammar of the scanner:
blanks around the tokens, numbers with fractions and exponents, strings with escapes, and at most
`maxNestingDepth` arrays and objects within each other.

What is read is what was written, except that a byte that is not UTF-8 comes back as U+FFFD. Strings
carry the bytes of the program's values; a number keeps its text.
-/

namespace DbPivot.Go

inductive Json where
  | null
  | bool (value : Bool)
  | number (text : Bytes)
  | string (value : Bytes)
  | array (items : List Json)
  | object (members : List (Bytes × Json))

namespace Json

/-! ## Writing -/

/-- `htmlSafeSet`, for the characters of ASCII. -/
def htmlSafe (r : ℕ) : Bool :=
  0x20 ≤ r && r ≠ 0x22 && r ≠ 0x5C && r ≠ 0x3C && r ≠ 0x3E && r ≠ 0x26

/-- The character behind the backslash for the characters that have one. -/
def shortEscape (r : ℕ) : Option UInt8 :=
  if r = 0x22 then some 0x22
  else if r = 0x5C then some 0x5C
  else if r = 8 then some 98
  else if r = 12 then some 102
  else if r = 10 then some 110
  else if r = 13 then some 114
  else if r = 9 then some 116
  else none

/-- One round of `appendString`. -/
def escape : Rune → Bytes
  | .stray _ => str "\\ufffd"
  | .rune r =>
    if r < 0x80 then
      if htmlSafe r then [UInt8.ofNat r]
      else
        match shortEscape r with
        | some letter => [0x5C, letter]
        | none => str "\\u00" ++ hexDigits 2 r
    else if r = 0x2028 ∨ r = 0x2029 then str "\\u202" ++ hexDigits 1 r
    else encodeRune r

/-- `appendString`, between its quotes. -/
def escapeString (s : Bytes) : Bytes := (runes s).flatMap escape

def renderString (s : Bytes) : Bytes := 0x22 :: (escapeString s ++ [0x22])

/-- The parts with a comma in front of every one but the first. -/
def commas : List Bytes → Bytes
  | [] => []
  | first :: rest => first ++ rest.flatMap (0x2C :: ·)

mutual

/-- What the encoders write. -/
def render : Json → Bytes
  | .null => str "null"
  | .bool value => if value then str "true" else str "false"
  | .number text => text
  | .string value => renderString value
  | .array items => 0x5B :: (commas (renderItems items) ++ [0x5D])
  | .object members => 0x7B :: (commas (renderMembers members) ++ [0x7D])

def renderItems : List Json → List Bytes
  | [] => []
  | item :: rest => render item :: renderItems rest

def renderMembers : List (Bytes × Json) → List Bytes
  | [] => []
  | (key, value) :: rest => (renderString key ++ 0x3A :: render value) :: renderMembers rest

end

/-! ## Scanning -/

def isSpace (c : UInt8) : Bool := c == 0x20 || c == 0x09 || c == 0x0D || c == 0x0A

/-- The next byte that is not a blank, and what follows it. -/
def next (input : Bytes) : Option (UInt8 × Bytes) :=
  match input.dropWhile isSpace with
  | [] => none
  | c :: rest => some (c, rest)

def isHex (c : UInt8) : Bool := isDigit c || 97 ≤ c && c ≤ 102 || 65 ≤ c && c ≤ 70

/-- Where the scanner is in a string: `stateInString`, `stateInStringEsc`, or at the given number of
hexadecimal digits before the last one. -/
inductive InString where
  | plain
  | escape
  | hex (before : ℕ)

/-- The scanner in a string: the bytes up to the closing quote, and what follows it. -/
def scanString : InString → Bytes → Option (Bytes × Bytes)
  | _, [] => none
  | .plain, c :: rest =>
    if c = 0x22 then some ([], rest)
    else if c = 0x5C then (scanString .escape rest).map (Prod.map (c :: ·) id)
    else if c < 0x20 then none
    else (scanString .plain rest).map (Prod.map (c :: ·) id)
  | .escape, c :: rest =>
    if c ∈ str "bfnrt\\/\"" then (scanString .plain rest).map (Prod.map (c :: ·) id)
    else if c = 117 then (scanString (.hex 3) rest).map (Prod.map (c :: ·) id)
    else none
  | .hex 0, c :: rest =>
    if isHex c then (scanString .plain rest).map (Prod.map (c :: ·) id) else none
  | .hex (before + 1), c :: rest =>
    if isHex c then (scanString (.hex before) rest).map (Prod.map (c :: ·) id) else none

/-- At least one digit. -/
def scanDigits (input : Bytes) : Option (Bytes × Bytes) :=
  if input.takeWhile isDigit = [] then none
  else some (input.takeWhile isDigit, input.dropWhile isDigit)

/-- The byte if the input begins with one of the given ones, and what follows. -/
def scanOne (options : Bytes) : Bytes → Bytes × Bytes
  | [] => ([], [])
  | c :: rest => if c ∈ options then ([c], rest) else ([], c :: rest)

/-- A part that is there if the input begins with one of the given bytes. -/
def scanPart (options : Bytes) (part : Bytes → Option (Bytes × Bytes)) (input : Bytes) :
    Option (Bytes × Bytes) :=
  match scanOne options input with
  | ([], _) => some ([], input)
  | (start, rest) => (part rest).map (Prod.map (start ++ ·) id)

/-- The part of a number before the fraction: zero, or digits that begin with another one. -/
def scanInteger (input : Bytes) : Option (Bytes × Bytes) :=
  match scanOne [48] input with
  | ([], _) => scanDigits input
  | (zero, rest) => some (zero, rest)

/-- A number: a sign, an integer, a fraction and an exponent. -/
def scanNumber (input : Bytes) : Option (Bytes × Bytes) := do
  let (sign, input) := scanOne [45] input
  let (integer, input) ← scanInteger input
  let (fraction, input) ← scanPart [46] scanDigits input
  let (exponent, input) ← scanPart [101, 69]
    (fun input ↦ (scanDigits (scanOne [43, 45] input).2).map
      (Prod.map ((scanOne [43, 45] input).1 ++ ·) id)) input
  pure (sign ++ integer ++ fraction ++ exponent, input)

/-! ## Unquoting -/

def hexValue (c : UInt8) : Option ℕ :=
  if isDigit c then some (c.toNat - 48)
  else if 97 ≤ c ∧ c ≤ 102 then some (c.toNat - 87)
  else if 65 ≤ c ∧ c ≤ 70 then some (c.toNat - 55)
  else none

/-- `getu4`: the number of an escape with four hexadecimal digits at the front. -/
def getu4 : Bytes → Option ℕ
  | backslash :: u :: a :: b :: c :: d :: _ =>
    if backslash = 0x5C ∧ u = 117 then do
      let a ← hexValue a
      let b ← hexValue b
      let c ← hexValue c
      let d ← hexValue d
      pure (((a * 16 + b) * 16 + c) * 16 + d)
    else none
  | _ => none

/-- `utf16.IsSurrogate`. -/
def isSurrogate (r : ℕ) : Bool := 0xD800 ≤ r && r < 0xE000

/-- `utf16.DecodeRune`. -/
def decodeSurrogates (high low : ℕ) : ℕ :=
  if 0xD800 ≤ high ∧ high < 0xDC00 ∧ 0xDC00 ≤ low ∧ low < 0xE000 then
    (high - 0xD800) * 1024 + (low - 0xDC00) + 0x10000
  else runeError

/-- The rune of an escape with hexadecimal digits at the front, and how many bytes it takes. -/
def unquoteHex (s : Bytes) : Option (ℕ × ℕ) :=
  match getu4 s with
  | none => none
  | some r =>
    if isSurrogate r then
      match getu4 (s.drop 6) with
      | none => some (runeError, 6)
      | some low =>
        if decodeSurrogates r low = runeError then some (runeError, 6)
        else some (decodeSurrogates r low, 12)
    else some (r, 6)

/-- The character for the letter behind a backslash. -/
def unescape (letter : UInt8) : Option UInt8 :=
  if letter ∈ str "\"\\/'" then some letter
  else if letter = 98 then some 8
  else if letter = 102 then some 12
  else if letter = 110 then some 10
  else if letter = 114 then some 13
  else if letter = 116 then some 9
  else none

/-- One round of `unquoteBytes`: the bytes an escape or a rune at the front stands for, and how many
bytes it takes. -/
def unquoteOne (first : UInt8) (rest : Bytes) : Option (Bytes × ℕ) :=
  if first = 0x5C then
    match rest.head?.bind unescape with
    | some c => some ([c], 2)
    | none => (unquoteHex (first :: rest)).map (Prod.map encodeRune id)
  else some (Prod.map encodeRune id (decodeRune first rest))

/-- The loop of `unquoteBytes`. In a string the scanner has accepted no round fails. -/
def unquoteLoop : ℕ → Bytes → Bytes
  | 0, _ => []
  | _ + 1, [] => []
  | fuel + 1, first :: rest =>
    match unquoteOne first rest with
    | none => []
    | some (bytes, width) => bytes ++ unquoteLoop fuel ((first :: rest).drop width)

/-- `unquoteBytes`, between the quotes. -/
def unquote (s : Bytes) : Bytes := unquoteLoop s.length s

/-! ## Reading -/

section Sequence

variable {α : Type} (close : UInt8) (item : Bytes → Option (α × Bytes))

/-- Items with commas between them, up to the closing bracket. -/
def sequence : ℕ → Bytes → Option (List α × Bytes)
  | 0, _ => none
  | fuel + 1, input => do
    let (first, input) ← item input
    let (c, input) ← next input
    if c = close then some ([first], input)
    else if c = 0x2C then (sequence fuel input).map (Prod.map (first :: ·) id)
    else none

/-- What stands between two brackets; every item takes a byte at least. -/
def bracketed (input : Bytes) : Option (List α × Bytes) := do
  let (c, rest) ← next input
  if c = close then some ([], rest) else sequence close item input.length input

end Sequence

/-- A string after its opening quote. -/
def stringValue (input : Bytes) : Option (Bytes × Bytes) :=
  (scanString .plain input).map (Prod.map unquote id)

/-- A key and its value. -/
def member (value : Bytes → Option (Json × Bytes)) (input : Bytes) :
    Option ((Bytes × Json) × Bytes) := do
  let (opening, input) ← next input
  if opening = 0x22 then
    let (key, input) ← stringValue input
    let (colon, input) ← next input
    if colon = 0x3A then
      let (value, input) ← value input
      pure ((key, value), input)
    else none
  else none

/-- One of the three words; its first letter has been read. -/
def word (text : String) (value : Json) (input : Bytes) : Option (Json × Bytes) :=
  if str text <+: input then some (value, input.drop (str text).length) else none

/-- A value that is no array and no object, with its first byte. -/
def scalar (c : UInt8) (input : Bytes) : Option (Json × Bytes) :=
  if c = 0x22 then (stringValue input).map (Prod.map .string id)
  else if c = 116 then word "rue" (.bool true) input
  else if c = 102 then word "alse" (.bool false) input
  else if c = 110 then word "ull" .null input
  else (scanNumber (c :: input)).map (Prod.map .number id)

/-- A value with at most the given number of brackets around its parts. -/
def value : ℕ → Bytes → Option (Json × Bytes)
  | 0, input => do
    let (c, input) ← next input
    if c = 0x5B ∨ c = 0x7B then none else scalar c input
  | depth + 1, input => do
    let (c, input) ← next input
    if c = 0x5B then (bracketed 0x5D (value depth) input).map (Prod.map .array id)
    else if c = 0x7B then (bracketed 0x7D (member (value depth)) input).map (Prod.map .object id)
    else scalar c input

def maxNestingDepth : ℕ := 10000

/-- A text that is one value with blanks around it. -/
def parse (text : Bytes) : Option Json :=
  match value maxNestingDepth text with
  | none => none
  | some (j, rest) => if (next rest).isNone then some j else none

/-! ## Strings are read back -/

/-- The three ways to write a rune in a string. -/
inductive Chunk : Bytes → ℕ → Prop where
  | plain {r : ℕ} (hr : ValidRune r)
      (hplain : ∀ c ∈ encodeRune r, c ≠ 0x22 ∧ c ≠ 0x5C ∧ ¬ c < 0x20) : Chunk (encodeRune r) r
  | short {letter : UInt8} {r : ℕ} (hr : r < 0x80) (hletter : letter ∈ str "bfnrt\\/\"")
      (hprintable : ¬ letter < 0x20) (hunescape : unescape letter = some (UInt8.ofNat r)) :
      Chunk [0x5C, letter] r
  | hex {r : ℕ} (hr : r < 0x10000) (hsurrogate : isSurrogate r = false) :
      Chunk (0x5C :: 117 :: hexDigits 4 r) r

theorem hexDigits_two {r : ℕ} (hr : r < 0x100) : str "00" ++ hexDigits 2 r = hexDigits 4 r := by
  have hhigh : r / 16 / 16 = 0 := by omega
  simp only [hexDigits, hhigh, List.nil_append]
  rfl

theorem chunk_shortEscape {r : ℕ} {letter : UInt8} (h : shortEscape r = some letter) :
    Chunk [0x5C, letter] r := by
  unfold shortEscape at h
  repeat' split at h
  all_goals
    cases h
  all_goals
    subst r
    exact .short (by decide) (by decide) (by decide) (by decide)

/-- Every rune of a string is written in one of the three ways. -/
theorem chunk_escape {u : Rune} (hu : ∀ r, u = .rune r → ValidRune r) :
    Chunk (escape u) u.value := by
  rcases u with r | byte
  · have hr := hu r rfl
    rw [escape, Rune.value]
    split
    next hascii =>
      split
      next hsafe =>
        rw [← encodeRune_ascii hascii]
        refine .plain hr fun c hc ↦ ?_
        rw [encodeRune_ascii hascii, List.mem_singleton] at hc
        subst hc
        simp only [htmlSafe, Bool.and_eq_true, decide_eq_true_eq] at hsafe
        have hbyte : (UInt8.ofNat r).toNat = r := UInt8.toNat_ofNat_of_lt' (show r < 256 by omega)
        simp only [Ne, ← UInt8.toNat_inj, UInt8.lt_iff_toNat_lt, hbyte]
        exact ⟨hsafe.1.1.1.1.2, hsafe.1.1.1.2, Nat.not_lt.mpr hsafe.1.1.1.1.1⟩
      next =>
        split
        next letter hletter => exact chunk_shortEscape hletter
        next =>
          have hhex := Chunk.hex (show r < 0x10000 by omega) (by simp [isSurrogate]; omega)
          rw [← hexDigits_two (by omega)] at hhex
          exact hhex
    next hascii =>
      split
      next hseparator =>
        rcases hseparator with rfl | rfl
        · exact Chunk.hex (show 0x2028 < 0x10000 by decide) (by decide)
        · exact Chunk.hex (show 0x2029 < 0x10000 by decide) (by decide)
      next =>
        refine .plain hr fun c hc ↦ ?_
        have hhigh := high_of_mem_encodeRune (by omega) hc
        simp only [Ne, ← UInt8.toNat_inj, UInt8.lt_iff_toNat_lt]
        refine ⟨?_, ?_, ?_⟩ <;> simp <;> omega
  · exact Chunk.hex (show runeError < 0x10000 by decide) (by decide)

section Chunk

variable {chunk rest : Bytes} {r : ℕ}

theorem Chunk.ne_nil (h : Chunk chunk r) : chunk ≠ [] := by
  cases h with
  | plain hr hplain => exact List.ne_nil_of_length_pos (length_encodeRune_pos r)
  | short hr hletter hprintable hunescape => exact List.cons_ne_nil _ _
  | hex hr hsurrogate => exact List.cons_ne_nil _ _

theorem scanString_plain (hplain : ∀ c ∈ chunk, c ≠ 0x22 ∧ c ≠ 0x5C ∧ ¬ c < 0x20) :
    scanString .plain (chunk ++ rest) =
      (scanString .plain rest).map (Prod.map (chunk ++ ·) id) := by
  induction chunk with
  | nil =>
    rw [List.nil_append]
    cases scanString .plain rest <;> rfl
  | cons c chunk ih =>
    obtain ⟨hquote, hbackslash, hcontrol⟩ := hplain c List.mem_cons_self
    rw [List.cons_append, scanString, if_neg hquote, if_neg hbackslash, if_neg hcontrol,
      ih fun c hc ↦ hplain c (List.mem_cons_of_mem _ hc), Option.map_map]
    rfl

theorem isHex_hexDigit {n : ℕ} (hn : n < 16) : isHex (hexDigit n) := by
  revert n
  decide

theorem hexValue_hexDigit {n : ℕ} (hn : n < 16) : hexValue (hexDigit n) = some n := by
  revert n
  decide

theorem hexDigits_four (r : ℕ) :
    hexDigits 4 r = [hexDigit (r / 16 / 16 / 16 % 16), hexDigit (r / 16 / 16 % 16),
      hexDigit (r / 16 % 16), hexDigit (r % 16)] := rfl

/-- The scanner goes over a rune without ending the string. -/
theorem Chunk.scanString (h : Chunk chunk r) (rest : Bytes) :
    scanString .plain (chunk ++ rest) =
      (Json.scanString .plain rest).map (Prod.map (chunk ++ ·) id) := by
  cases h with
  | plain hr hplain => exact scanString_plain hplain
  | short hr hletter hprintable hunescape =>
    rw [List.cons_append, Json.scanString, if_neg (by decide), if_pos rfl, List.cons_append,
      Json.scanString, if_pos hletter, Option.map_map]
    rfl
  | hex hr hsurrogate =>
    have hdigit (n : ℕ) : isHex (hexDigit (n % 16)) := isHex_hexDigit (Nat.mod_lt _ (by decide))
    rw [hexDigits_four]
    simp only [List.cons_append, List.nil_append]
    rw [Json.scanString, if_neg (by decide), if_pos rfl, Json.scanString, if_neg (by decide),
      if_pos rfl, Json.scanString, if_pos (hdigit _), Json.scanString, if_pos (hdigit _),
      Json.scanString, if_pos (hdigit _), Json.scanString, if_pos (hdigit _)]
    simp only [Option.map_map]
    rfl

theorem getu4_hexDigits {r : ℕ} (hr : r < 0x10000) :
    getu4 (0x5C :: 117 :: hexDigits 4 r ++ rest) = some r := by
  have hdigit (n : ℕ) : hexValue (hexDigit (n % 16)) = some (n % 16) :=
    hexValue_hexDigit (Nat.mod_lt _ (by decide))
  rw [hexDigits_four]
  simp only [List.cons_append, List.nil_append, getu4, hdigit]
  simp
  omega

/-- Unquoting gives the rune back. -/
theorem Chunk.unquoteOne (h : Chunk chunk r) {first : UInt8} {others : Bytes}
    (hchunk : chunk = first :: others) (rest : Bytes) :
    unquoteOne first (others ++ rest) = some (encodeRune r, chunk.length) := by
  cases h with
  | plain hr hplain =>
    have hdecode : decodeRune first (others ++ rest) = (r, (encodeRune r).length) :=
      decodeRune_encodeRune hr (by rw [hchunk]; rfl)
    have hfirst := (hplain first (hchunk ▸ List.mem_cons_self)).2.1
    rw [Json.unquoteOne, if_neg hfirst, hdecode]
    rfl
  | short hr hletter hprintable hunescape =>
    obtain ⟨rfl, rfl⟩ := List.cons.inj hchunk
    rw [Json.unquoteOne, if_pos rfl, List.cons_append, List.head?_cons, Option.bind_some, hunescape,
      encodeRune_ascii hr]
    rfl
  | hex hr hsurrogate =>
    obtain ⟨rfl, rfl⟩ := List.cons.inj hchunk
    have hu : unescape 117 = none := by decide
    rw [Json.unquoteOne, if_pos rfl, List.cons_append, List.head?_cons, Option.bind_some, hu,
      ← List.cons_append, ← List.cons_append, unquoteHex, getu4_hexDigits hr]
    simp only [hsurrogate]
    rfl

theorem unquoteLoop_flatMap {rs : List Rune} (hrs : ∀ r, .rune r ∈ rs → ValidRune r) {fuel : ℕ}
    (hfuel : (rs.flatMap escape).length ≤ fuel) :
    unquoteLoop fuel (rs.flatMap escape) = rs.flatMap fun u ↦ encodeRune u.value := by
  induction rs generalizing fuel with
  | nil => cases fuel <;> rfl
  | cons u rs ih =>
    have hchunk : Chunk (escape u) u.value := chunk_escape fun r hr ↦ hrs r (hr ▸ List.mem_cons_self)
    rcases hescape : escape u with _ | ⟨first, others⟩
    · exact absurd hescape hchunk.ne_nil
    rw [List.flatMap_cons, hescape, List.length_append, List.length_cons] at hfuel
    obtain ⟨fuel, rfl⟩ := Nat.exists_eq_add_of_lt (show 0 < fuel by omega)
    rw [List.flatMap_cons, hescape, List.cons_append, Nat.zero_add, unquoteLoop,
      hchunk.unquoteOne hescape]
    simp only
    rw [hescape, ← List.cons_append, List.drop_left, List.flatMap_cons,
      ih (fun r hr ↦ hrs r (List.mem_cons_of_mem _ hr)) (by omega)]

theorem scanString_flatMap {rs : List Rune} (hrs : ∀ r, .rune r ∈ rs → ValidRune r)
    (rest : Bytes) :
    scanString .plain (rs.flatMap escape ++ 0x22 :: rest) = some (rs.flatMap escape, rest) := by
  induction rs with
  | nil => rfl
  | cons u rs ih =>
    have hchunk : Chunk (escape u) u.value := chunk_escape fun r hr ↦ hrs r (hr ▸ List.mem_cons_self)
    rw [List.flatMap_cons, List.append_assoc, hchunk.scanString,
      ih fun r hr ↦ hrs r (List.mem_cons_of_mem _ hr)]
    rfl

end Chunk

/-- A string that was written is read up to its own closing quote, in UTF-8. -/
theorem stringValue_escapeString (s rest : Bytes) :
    stringValue (escapeString s ++ 0x22 :: rest) = some (toValid s, rest) := by
  rw [stringValue, escapeString, scanString_flatMap fun r hr ↦ validRune_of_mem_runes hr,
    Option.map_some, Prod.map, unquote,
    unquoteLoop_flatMap (fun r hr ↦ validRune_of_mem_runes hr) le_rfl]
  rfl

/-! ## Values are read back -/

/-- A comma, the closing brackets and the end of a line. -/
def terminators : Bytes := [0x2C, 0x5D, 0x7D, 0x0A]

/-- What may follow a value: nothing, or a byte that ends it. -/
def Ends (rest : Bytes) : Prop := ∀ c ∈ rest.head?, c ∈ terminators

theorem ends_cons {c : UInt8} (hc : c ∈ terminators) (rest : Bytes) : Ends (c :: rest) := by
  intro first hfirst
  rw [List.head?_cons, Option.mem_some_iff] at hfirst
  exact hfirst ▸ hc

theorem next_cons {c : UInt8} (hc : isSpace c = false) (rest : Bytes) :
    next (c :: rest) = some (c, rest) := by
  rw [next, List.dropWhile_cons_of_neg (by rw [hc]; exact Bool.false_ne_true)]

theorem scanOne_of_ends {options rest : Bytes} (hrest : Ends rest)
    (hoptions : ∀ c ∈ terminators, c ∉ options) : scanOne options rest = ([], rest) := by
  cases rest with
  | nil => rfl
  | cons c rest => exact if_neg (hoptions c (hrest c rfl))

theorem scanPart_of_ends {options rest : Bytes} (part : Bytes → Option (Bytes × Bytes))
    (hrest : Ends rest) (hoptions : ∀ c ∈ terminators, c ∉ options) :
    scanPart options part rest = some ([], rest) := by
  rw [scanPart, scanOne_of_ends hrest hoptions]

theorem scanDigits_itoa (n : ℕ) {rest : Bytes} (hrest : Ends rest) :
    scanDigits (itoa n ++ rest) = some (itoa n, rest) := by
  have hdigits : ∀ c ∈ itoa n, isDigit c := fun c hc ↦ isDigit_of_mem_itoa hc
  have hend : rest.takeWhile isDigit = [] ∧ rest.dropWhile isDigit = rest := by
    cases rest with
    | nil => exact ⟨rfl, rfl⟩
    | cons c rest =>
      have hends : ∀ c ∈ terminators, ¬ isDigit c := by simp [terminators, isDigit]
      have hc := hends c (hrest c rfl)
      exact ⟨List.takeWhile_cons_of_neg hc, List.dropWhile_cons_of_neg hc⟩
  have htake : (itoa n ++ rest).takeWhile isDigit = itoa n := by
    rw [List.takeWhile_append_of_pos hdigits, hend.1, List.append_nil]
  have hdrop : (itoa n ++ rest).dropWhile isDigit = rest := by
    rw [List.dropWhile_append_of_pos hdigits, hend.2]
  rw [scanDigits, htake, hdrop, if_neg (itoa_ne_nil n)]

theorem scanInteger_itoa (n : ℕ) {rest : Bytes} (hrest : Ends rest) :
    scanInteger (itoa n ++ rest) = some (itoa n, rest) := by
  rcases Nat.eq_zero_or_pos n with rfl | hn
  · rfl
  · have hzero : scanOne [48] (itoa n ++ rest) = ([], itoa n ++ rest) := by
      rcases hitoa : itoa n with _ | ⟨c, digits⟩
      · exact absurd hitoa (itoa_ne_nil n)
      · have hhead := head_itoa_ne_zero hn
        rw [hitoa, List.head?_cons, Ne, Option.some_inj] at hhead
        exact if_neg fun h ↦ hhead (List.mem_singleton.mp h)
    rw [scanInteger, hzero]
    exact scanDigits_itoa n hrest

/-- A number that was written is read up to its end. -/
theorem scanNumber_itoaInt (n : ℤ) {rest : Bytes} (hrest : Ends rest) :
    scanNumber (itoaInt n ++ rest) = some (itoaInt n, rest) := by
  have hfraction : scanPart [46] scanDigits rest = some ([], rest) :=
    scanPart_of_ends _ hrest (by simp [terminators])
  have hexponent (part : Bytes → Option (Bytes × Bytes)) :
      scanPart [101, 69] part rest = some ([], rest) :=
    scanPart_of_ends part hrest (by simp [terminators])
  have hread (sign : Bytes) (hsign : scanOne [45] (sign ++ (itoa n.natAbs ++ rest)) =
      (sign, itoa n.natAbs ++ rest)) :
      scanNumber (sign ++ (itoa n.natAbs ++ rest)) = some (sign ++ itoa n.natAbs, rest) := by
    rw [scanNumber, hsign]
    simp only [scanInteger_itoa _ hrest, hfraction, hexponent, bind, pure, Option.bind_some,
      List.append_nil]
  unfold itoaInt
  split
  · exact hread [45] rfl
  · refine hread [] ?_
    rcases hitoa : itoa n.natAbs with _ | ⟨c, digits⟩
    · exact absurd hitoa (itoa_ne_nil _)
    · have hhead := head_itoa_ne (show isDigit 45 = false by decide) (n := n.natAbs)
      rw [hitoa, List.head?_cons, Ne, Option.some_inj] at hhead
      exact if_neg fun h ↦ hhead (List.mem_singleton.mp h)

/-! ## Brackets -/

section Brackets

variable {α : Type} {close : UInt8} {item : Bytes → Option (α × Bytes)}

/-- The text is read as the value wherever a value may end. -/
def Reads (item : Bytes → Option (α × Bytes)) (text : Bytes) (a : α) : Prop :=
  ∀ rest, Ends rest → item (text ++ rest) = some (a, rest)

/-- The text begins with a byte that is no blank and ends no value. -/
def Begins (text : Bytes) : Prop :=
  ∃ c rest, text = c :: rest ∧ isSpace c = false ∧ c ∉ terminators

theorem sequence_commas (hclose : close ∈ terminators) (hspace : isSpace close = false)
    (hcomma : close ≠ 0x2C) {first : Bytes} {texts : List Bytes} {a : α} {values : List α}
    (hfirst : Reads item first a) (htexts : List.Forall₂ (Reads item) texts values) {fuel : ℕ}
    (hfuel : texts.length < fuel) (rest : Bytes) :
    sequence close item fuel (commas (first :: texts) ++ close :: rest) =
      some (a :: values, rest) := by
  induction htexts generalizing first a fuel with
  | nil =>
    obtain ⟨fuel, rfl⟩ := Nat.exists_eq_succ_of_ne_zero (Nat.ne_zero_of_lt hfuel)
    rw [commas, List.flatMap_nil, List.append_nil, sequence, hfirst _ (ends_cons hclose rest)]
    simp only [bind, Option.bind_some, next_cons hspace, if_true]
  | @cons second b texts values hsecond htexts ih =>
    obtain ⟨fuel, rfl⟩ := Nat.exists_eq_succ_of_ne_zero (Nat.ne_zero_of_lt hfuel)
    have hmore : commas (first :: second :: texts) ++ close :: rest =
        first ++ 0x2C :: (commas (second :: texts) ++ close :: rest) := by
      simp [commas, List.append_assoc]
    have hread := hfirst _ (ends_cons (show 0x2C ∈ terminators by decide)
      (commas (second :: texts) ++ close :: rest))
    rw [hmore, sequence, hread]
    simp only [bind, Option.bind_some, next_cons (show isSpace 0x2C = false by decide),
      if_neg hcomma.symm, if_true]
    rw [ih hsecond (by rw [List.length_cons] at hfuel; omega)]
    rfl

/-- What was written between brackets is read up to the closing one. -/
theorem bracketed_commas (hclose : close ∈ terminators) (hspace : isSpace close = false)
    (hcomma : close ≠ 0x2C) {texts : List Bytes} {values : List α}
    (hbegins : ∀ text ∈ texts, Begins text) (htexts : List.Forall₂ (Reads item) texts values)
    (rest : Bytes) :
    bracketed close item (commas texts ++ close :: rest) = some (values, rest) := by
  cases htexts with
  | nil =>
    rw [bracketed, commas, List.nil_append, next_cons hspace]
    simp only [bind, Option.bind_some, if_true]
  | @cons first a texts values hfirst htexts =>
    have hlength : texts.length < (commas (first :: texts) ++ close :: rest).length := by
      have hmore : texts.length ≤ (texts.flatMap (0x2C :: ·)).length := by
        have hsum := List.length_le_sum_of_one_le (texts.map fun text ↦ (0x2C :: text).length)
          (by simp)
        rwa [List.length_map, ← List.length_flatMap] at hsum
      rw [commas, List.length_append, List.length_append, List.length_cons]
      omega
    obtain ⟨c, others, rfl, hc, hterminator⟩ := hbegins first List.mem_cons_self
    have hnext : next (commas ((c :: others) :: texts) ++ close :: rest) =
        some (c, others ++ texts.flatMap (0x2C :: ·) ++ close :: rest) := next_cons hc _
    rw [bracketed, hnext]
    simp only [bind, Option.bind_some]
    rw [if_neg fun h : c = close ↦ hterminator (h ▸ hclose)]
    exact sequence_commas hclose hspace hcomma hfirst htexts hlength rest

end Brackets

mutual

/-- The value with every string in UTF-8. -/
def coerce : Json → Json
  | .null => .null
  | .bool value => .bool value
  | .number text => .number text
  | .string value => .string (toValid value)
  | .array items => .array (coerceItems items)
  | .object members => .object (coerceMembers members)

def coerceItems : List Json → List Json
  | [] => []
  | item :: rest => item.coerce :: coerceItems rest

def coerceMembers : List (Bytes × Json) → List (Bytes × Json)
  | [] => []
  | (key, value) :: rest => (toValid key, value.coerce) :: coerceMembers rest

end

/-- What the encoders produce: whole numbers, and at most the given number of brackets around
anything. -/
def Writable : ℕ → Json → Prop
  | _, .null => True
  | _, .bool _ => True
  | _, .number text => ∃ n, text = itoaInt n
  | _, .string _ => True
  | 0, .array _ => False
  | 0, .object _ => False
  | depth + 1, .array items => ∀ item ∈ items, Writable depth item
  | depth + 1, .object members => ∀ m ∈ members, Writable depth m.2

theorem renderItems_eq (items : List Json) : renderItems items = items.map render := by
  induction items with
  | nil => rfl
  | cons item rest ih => rw [renderItems, ih, List.map_cons]

/-- A member as it is written. -/
def renderMember (m : Bytes × Json) : Bytes := renderString m.1 ++ 0x3A :: render m.2

theorem renderMembers_eq (members : List (Bytes × Json)) :
    renderMembers members = members.map renderMember := by
  induction members with
  | nil => rfl
  | cons m rest ih => rw [renderMembers, ih, List.map_cons, renderMember]

theorem coerceItems_eq (items : List Json) : coerceItems items = items.map coerce := by
  induction items with
  | nil => rfl
  | cons item rest ih => rw [coerceItems, ih, List.map_cons]

theorem coerceMembers_eq (members : List (Bytes × Json)) :
    coerceMembers members = members.map (Prod.map toValid coerce) := by
  induction members with
  | nil => rfl
  | cons m rest ih => rw [coerceMembers, ih, List.map_cons, Prod.map]

theorem begins_itoaInt (n : ℤ) : Begins (itoaInt n) := by
  have hdigit {c : UInt8} (hc : isDigit c) : isSpace c = false ∧ c ∉ terminators := by
    simp only [isDigit, Bool.and_eq_true, decide_eq_true_eq, UInt8.le_iff_toNat_le] at hc
    simp only [isSpace, terminators, List.mem_cons, List.not_mem_nil, or_false, 
      Bool.or_eq_false_iff, beq_eq_false_iff_ne, Ne, ← UInt8.toNat_inj]
    simp at hc ⊢
    omega
  unfold itoaInt
  split
  · exact ⟨45, _, rfl, by decide, by decide⟩
  · rcases hitoa : itoa n.natAbs with _ | ⟨c, rest⟩
    · exact absurd hitoa (itoa_ne_nil _)
    · exact ⟨c, rest, rfl, hdigit (isDigit_of_mem_itoa (hitoa ▸ List.mem_cons_self))⟩

theorem begins_render {depth : ℕ} {j : Json} (h : Writable depth j) : Begins (render j) := by
  cases j with
  | null => exact ⟨_, _, rfl, by decide, by decide⟩
  | bool value => cases value <;> exact ⟨_, _, rfl, by decide, by decide⟩
  | number text =>
    obtain ⟨n, rfl⟩ : ∃ n, text = itoaInt n := by cases depth <;> exact h
    exact begins_itoaInt n
  | string value => exact ⟨0x22, _, rfl, by decide, by decide⟩
  | array items => exact ⟨0x5B, _, rfl, by decide, by decide⟩
  | object members => exact ⟨0x7B, _, rfl, by decide, by decide⟩

/-- The text begins with `c` and is read as `j` without looking into brackets. -/
def ReadsScalar (text : Bytes) (j : Json) : Prop :=
  ∃ c others, text = c :: others ∧ isSpace c = false ∧ c ≠ 0x5B ∧ c ≠ 0x7B ∧
    ∀ rest, Ends rest → scalar c (others ++ rest) = some (j, rest)

theorem readsScalar_itoaInt (n : ℤ) : ReadsScalar (itoaInt n) (.number (itoaInt n)) := by
  obtain ⟨c, others, htext, hspace, -⟩ := begins_itoaInt n
  have hc : c = 45 ∨ isDigit c := by
    unfold itoaInt at htext
    split at htext
    · exact .inl (List.cons.inj htext).1.symm
    · exact .inr (isDigit_of_mem_itoa (htext ▸ List.mem_cons_self))
  have hne {b : UInt8} (hb : b ≠ 45) (hdigit : isDigit b = false) : c ≠ b := by
    rintro rfl
    rcases hc with rfl | hc
    · exact hb rfl
    · rw [hdigit] at hc
      cases hc
  refine ⟨c, others, htext, hspace, hne (by decide) (by decide), hne (by decide) (by decide), ?_⟩
  intro rest hrest
  have hread := scanNumber_itoaInt n hrest
  rw [htext, List.cons_append] at hread
  rw [scalar, if_neg (hne (by decide) (by decide)), if_neg (hne (by decide) (by decide)),
    if_neg (hne (by decide) (by decide)), if_neg (hne (by decide) (by decide)), hread, htext]
  rfl

theorem readsScalar_string (s : Bytes) : ReadsScalar (renderString s) (.string (toValid s)) := by
  refine ⟨0x22, _, rfl, by decide, by decide, by decide, fun rest _ ↦ ?_⟩
  rw [scalar, if_pos rfl, List.append_assoc, List.singleton_append, stringValue_escapeString]
  rfl

theorem ReadsScalar.reads {text : Bytes} {j : Json} (h : ReadsScalar text j) (depth : ℕ) :
    Reads (value depth) text j := by
  obtain ⟨c, others, rfl, hspace, hbracket, hbrace, hread⟩ := h
  intro rest hrest
  rw [← hread rest hrest, List.cons_append]
  cases depth with
  | zero =>
    rw [value, next_cons hspace]
    exact if_neg (not_or.mpr ⟨hbracket, hbrace⟩)
  | succ depth =>
    rw [value, next_cons hspace]
    simp only [bind, Option.bind_some]
    rw [if_neg hbracket, if_neg hbrace]

/-- A key and a value that were written are read up to the end of the value. -/
theorem reads_renderMember {depth : ℕ} {m : Bytes × Json}
    (h : Reads (value depth) (render m.2) m.2.coerce) :
    Reads (member (value depth)) (renderMember m) (Prod.map toValid coerce m) := by
  intro rest hrest
  have hquote (rest : Bytes) : next (0x22 :: rest) = some (0x22, rest) := next_cons (by decide) rest
  have hcolon (rest : Bytes) : next (0x3A :: rest) = some (0x3A, rest) := next_cons (by decide) rest
  simp only [renderMember, renderString, List.append_assoc, List.cons_append, List.nil_append,
    member, hquote, bind, Option.bind_some, if_true, stringValue_escapeString, hcolon,
    h rest hrest]
  rfl

/-- What was written is read back, with its strings in UTF-8. -/
theorem value_render {depth : ℕ} {j : Json} (h : Writable depth j) :
    Reads (value depth) (render j) j.coerce := by
  -- The induction is on the brackets that are left; a value without brackets needs none.
  induction depth generalizing j with
  | zero =>
    cases j with
    | null => exact fun _ _ ↦ rfl
    | bool b => cases b <;> exact fun _ _ ↦ rfl
    | number text =>
      obtain ⟨n, rfl⟩ := h
      exact (readsScalar_itoaInt n).reads 0
    | string s => exact (readsScalar_string s).reads 0
    | array items => exact absurd h id
    | object members => exact absurd h id
  | succ depth ih =>
    cases j with
    | null => exact fun _ _ ↦ rfl
    | bool b => cases b <;> exact fun _ _ ↦ rfl
    | number text =>
      obtain ⟨n, rfl⟩ := h
      exact (readsScalar_itoaInt n).reads _
    | string s => exact (readsScalar_string s).reads _
    | array items =>
      intro rest _
      have hitems : List.Forall₂ (Reads (value depth)) (items.map render) (items.map coerce) := by
        rw [List.forall₂_map_left_iff, List.forall₂_map_right_iff, List.forall₂_same]
        exact fun item hitem ↦ ih (h item hitem)
      have hbegins : ∀ text ∈ items.map render, Begins text := by
        intro text htext
        obtain ⟨item, hitem, rfl⟩ := List.mem_map.mp htext
        exact begins_render (h item hitem)
      rw [render, renderItems_eq, List.cons_append, List.append_assoc, List.singleton_append, value,
        next_cons (by decide)]
      simp only [bind, Option.bind_some, if_true]
      rw [bracketed_commas (by decide) (by decide) (by decide) hbegins hitems, coerce,
        coerceItems_eq]
      rfl
    | object members =>
      intro rest _
      have hmembers : List.Forall₂ (Reads (member (value depth))) (members.map renderMember)
          (members.map (Prod.map toValid coerce)) := by
        rw [List.forall₂_map_left_iff, List.forall₂_map_right_iff, List.forall₂_same]
        exact fun m hm ↦ reads_renderMember (ih (h m hm))
      have hbegins : ∀ text ∈ members.map renderMember, Begins text := by
        intro text htext
        obtain ⟨m, -, rfl⟩ := List.mem_map.mp htext
        exact ⟨0x22, _, rfl, by decide, by decide⟩
      rw [render, renderMembers_eq, List.cons_append, List.append_assoc, List.singleton_append,
        value, next_cons (by decide)]
      simp only [bind, Option.bind_some]
      rw [if_neg (by decide), if_pos trivial, bracketed_commas (by decide) (by decide) (by decide)
        hbegins hmembers, coerce, coerceMembers_eq]
      rfl

/-- A value on a line of its own is read back. -/
theorem parse_render {j : Json} (h : Writable maxNestingDepth j) :
    parse (render j ++ [0x0A]) = some j.coerce := by
  rw [parse, value_render h [0x0A] (ends_cons (by decide) [])]
  rfl

/-! ## One line -/

/-- A text without control characters. -/
def Printable (text : Bytes) : Prop := ∀ c ∈ text, ¬ c < 0x20

instance (text : Bytes) : Decidable (Printable text) :=
  List.decidableBAll _ text

theorem printable_append {left right : Bytes} :
    Printable (left ++ right) ↔ Printable left ∧ Printable right := List.forall_mem_append

theorem printable_cons {c : UInt8} {text : Bytes} :
    Printable (c :: text) ↔ ¬ c < 0x20 ∧ Printable text := List.forall_mem_cons

theorem Chunk.printable {chunk : Bytes} {r : ℕ} (h : Chunk chunk r) : Printable chunk := by
  cases h with
  | plain hr hplain => exact fun c hc ↦ (hplain c hc).2.2
  | short hr hletter hprintable hunescape =>
    exact printable_cons.mpr ⟨by decide, printable_cons.mpr ⟨hprintable, by decide⟩⟩
  | hex hr hsurrogate =>
    have hdigit (n : ℕ) : ¬ hexDigit (n % 16) < 0x20 := by
      have hlt := Nat.mod_lt n (show 16 > 0 by decide)
      revert hlt
      generalize n % 16 = digit
      revert digit
      decide
    rw [hexDigits_four]
    simp only [printable_cons, hdigit]
    decide

theorem printable_renderString (s : Bytes) : Printable (renderString s) := by
  have hchunks : Printable (escapeString s) := by
    intro c hc
    obtain ⟨u, hu, hc⟩ := List.mem_flatMap.mp hc
    have hchunk : Chunk (escape u) u.value :=
      chunk_escape fun r hr ↦ validRune_of_mem_runes (hr ▸ hu)
    exact hchunk.printable c hc
  rw [renderString, printable_cons, printable_append]
  exact ⟨by decide, hchunks, by decide⟩

theorem printable_commas {texts : List Bytes} (h : ∀ text ∈ texts, Printable text) :
    Printable (commas texts) := by
  cases texts with
  | nil => exact fun c hc ↦ absurd hc List.not_mem_nil
  | cons first rest =>
    rw [commas, printable_append]
    refine ⟨h first List.mem_cons_self, fun c hc ↦ ?_⟩
    obtain ⟨text, htext, hc⟩ := List.mem_flatMap.mp hc
    exact (printable_cons.mpr ⟨by decide, h text (List.mem_cons_of_mem _ htext)⟩) c hc

theorem printable_itoaInt (n : ℤ) : Printable (itoaInt n) := by
  have hdigits : Printable (itoa n.natAbs) := by
    intro c hc
    have hdigit := isDigit_of_mem_itoa hc
    simp only [isDigit, Bool.and_eq_true, decide_eq_true_eq] at hdigit
    exact UInt8.not_lt.mpr (UInt8.le_trans (by decide) hdigit.1)
  unfold itoaInt
  split
  · exact printable_cons.mpr ⟨by decide, hdigits⟩
  · exact hdigits

/-- A value is written without control characters, so it is one line. -/
theorem printable_render {depth : ℕ} {j : Json} (h : Writable depth j) : Printable (render j) := by
  have hbrackets {opening closing : UInt8} {texts : List Bytes} (hopening : ¬ opening < 0x20)
      (hclosing : ¬ closing < 0x20) (htexts : ∀ text ∈ texts, Printable text) :
      Printable (opening :: (commas texts ++ [closing])) := by
    rw [printable_cons, printable_append, printable_cons]
    exact ⟨hopening, printable_commas htexts, hclosing, fun c hc ↦ absurd hc List.not_mem_nil⟩
  induction depth generalizing j with
  | zero =>
    cases j with
    | null => exact (by decide : Printable (str "null"))
    | bool b => cases b <;> decide
    | number text =>
      obtain ⟨n, rfl⟩ := h
      exact printable_itoaInt n
    | string s => exact printable_renderString s
    | array items => exact absurd h id
    | object members => exact absurd h id
  | succ depth ih =>
    cases j with
    | null => decide
    | bool b => cases b <;> decide
    | number text =>
      obtain ⟨n, rfl⟩ := h
      exact printable_itoaInt n
    | string s => exact printable_renderString s
    | array items =>
      rw [render, renderItems_eq]
      refine hbrackets (by decide) (by decide) fun text htext ↦ ?_
      obtain ⟨item, hitem, rfl⟩ := List.mem_map.mp htext
      exact ih (h item hitem)
    | object members =>
      rw [render, renderMembers_eq]
      refine hbrackets (by decide) (by decide) fun text htext ↦ ?_
      obtain ⟨m, hm, rfl⟩ := List.mem_map.mp htext
      rw [renderMember, printable_append, printable_cons]
      exact ⟨printable_renderString _, by decide, ih (h m hm)⟩

end Json

end DbPivot.Go
