import DbPivot.Mongo.Bson

/-!
# The language the BSON decoder accepts

The wire format is given by an inductive grammar: a document is its length, a sequence of elements
and one terminating NUL; an element is a type byte, a NUL-terminated key and a value of that type.
Each reader of the decoder that does not recurse is characterised by one equivalence between a
successful read at a position and the piece of the input that starts there.
-/

namespace DbPivot.Mongo

open DbPivot.Go

/-! ## Grammar -/

mutual

/-- The bytes of a whole document, its length prefix and terminator included. -/
inductive IsDocument : Bytes → BSON → Prop
  | intro {body : Bytes} {d : BSON} (elements : IsElements body d)
      (fits : body.length + 5 < 2 ^ 31) :
      IsDocument (le32 (UInt32.ofNat (body.length + 5)) ++ body ++ [0]) d

/-- A sequence of elements. -/
inductive IsElements : Bytes → BSON → Prop
  | nil : IsElements [] []
  | cons {tag : UInt8} {key piece body : Bytes} {value : BSONValue} {d : BSON}
      (keyed : 0 ∉ key) (valued : IsValue tag piece value) (rest : IsElements body d) :
      IsElements (tag :: (key ++ [0] ++ piece) ++ body) ((key, value) :: d)

/-- The value of an element with the given type byte. -/
inductive IsValue : UInt8 → Bytes → BSONValue → Prop
  | double (bits : UInt64) : IsValue BSONType.double.byte (le64 bits) (.double bits)
  | string (text : Bytes) (fits : text.length + 1 < 2 ^ 31) :
      IsValue BSONType.string.byte (le32 (UInt32.ofNat (text.length + 1)) ++ text ++ [0])
        (.string text)
  | document {piece : Bytes} {d : BSON} (sub : IsDocument piece d) :
      IsValue BSONType.document.byte piece (.document d)
  | array {piece : Bytes} {d : BSON} (sub : IsDocument piece d) :
      IsValue BSONType.array.byte piece (.array (d.map Prod.snd))
  | binary (subtype : UInt8) (data : Bytes) (fits : data.length < 2 ^ 31) :
      IsValue BSONType.binary.byte (le32 (UInt32.ofNat data.length) ++ [subtype] ++ data)
        (.binary subtype data)
  | objectID (id : BSONObjectID) : IsValue BSONType.objectID.byte id.bytes (.objectID id)
  | bool (byte : UInt8) : IsValue BSONType.bool.byte [byte] (.bool (byte ≠ 0))
  | dateTime (word : UInt64) : IsValue BSONType.dateTime.byte (le64 word) (.dateTime word.toInt64)
  | null : IsValue BSONType.null.byte [] .null
  | int32 (word : UInt32) : IsValue BSONType.int32.byte (le32 word) (.int32 word.toInt32)
  | timestamp (seconds increment : UInt32) :
      IsValue BSONType.timestamp.byte (le32 increment ++ le32 seconds)
        (.timestamp seconds increment)
  | int64 (word : UInt64) : IsValue BSONType.int64.byte (le64 word) (.int64 word.toInt64)

end

theorem IsValue.tag_ne_zero {tag : UInt8} {piece : Bytes} {value : BSONValue}
    (hvalue : IsValue tag piece value) : tag ≠ 0 := by
  cases hvalue <;> exact BSONType.byte_ne_zero _

/-! ## Readers without recursion -/

/-- A prefix of the input at a position lies inside the input. -/
theorem add_length_le_of_isPrefix {b piece : Bytes} {pos : ℕ} (hpos : pos ≤ b.length)
    (hpiece : piece <+: b.drop pos) : pos + piece.length ≤ b.length := by
  have hlength := hpiece.length_le
  rw [List.length_drop] at hlength
  omega

theorem slice_eq_ok_iff_isPrefix {b part : Bytes} {pos width : ℕ} (hpos : pos + width ≤ b.length) :
    (slice b pos (pos + width) : GoM GoError Bytes) = .ok part ↔
      part.length = width ∧ part <+: b.drop pos := by
  rw [slice_eq_ok, List.drop_take, Nat.add_sub_cancel_left]
  constructor
  · rintro ⟨-, -, rfl⟩
    refine ⟨?_, List.take_prefix _ _⟩
    rw [List.length_take, List.length_drop]
    omega
  · rintro ⟨hwidth, hpre⟩
    refine ⟨by omega, hpos, ?_⟩
    rw [List.prefix_iff_eq_take.mp hpre, hwidth]

theorem prefix_append {b first second : Bytes} {pos : ℕ} :
    first ++ second <+: b.drop pos ↔
      first <+: b.drop pos ∧ second <+: b.drop (pos + first.length) := by
  rw [← List.drop_drop]
  constructor
  · rintro ⟨rest, hrest⟩
    refine ⟨⟨second ++ rest, by rw [← hrest, List.append_assoc]⟩, rest, ?_⟩
    rw [← hrest, List.append_assoc, List.drop_left]
  · rintro ⟨⟨tail, htail⟩, rest, hrest⟩
    refine ⟨rest, ?_⟩
    rw [← htail, List.drop_left] at hrest
    rw [List.append_assoc, hrest, htail]

theorem index_eq_ok_iff_isPrefix {b : Bytes} {pos : ℕ} {byte : UInt8} :
    (index b pos : GoM GoError UInt8) = .ok byte ↔ [byte] <+: b.drop pos := by
  rw [index_eq_ok, ← List.head?_drop]
  cases b.drop pos with
  | nil => simp
  | cons head rest => simp [eq_comm]

theorem readFixed_eq_ok {width : ℕ} {truncated : String} {b field : Bytes} {pos next : ℕ}
    (hpos : pos ≤ b.length) :
    readFixed width truncated b pos = .ok (field, next) ↔
      field.length = width ∧ next = pos + width ∧ field <+: b.drop pos := by
  unfold readFixed
  split
  · rename_i hshort
    constructor
    · intro h
      exact absurd h (fail_ne_ok _ _)
    · rintro ⟨hwidth, -, hpre⟩
      have := add_length_le_of_isPrefix hpos hpre
      omega
  · rename_i hlong
    simp only [bind_eq_ok, slice_eq_ok_iff_isPrefix (show pos + width ≤ b.length by omega)]
    constructor
    · rintro ⟨part, ⟨hwidth, hpre⟩, hpure⟩
      cases hpure
      exact ⟨hwidth, rfl, hpre⟩
    · rintro ⟨hwidth, rfl, hpre⟩
      exact ⟨field, ⟨hwidth, hpre⟩, rfl⟩

theorem returns_readFixed (width : ℕ) (truncated : String) (b : Bytes) (pos : ℕ) :
    Returns (readFixed width truncated b pos) := by
  unfold readFixed
  split
  · simp
  · rw [slice_of_le (by omega) (by omega)]
    simp

/-- The scan stops at the first NUL at or after `i`; `pos` only marks where the text starts. -/
theorem readCStringFrom_eq {b : Bytes} {pos : ℕ} (remaining i : ℕ)
    (hremaining : i + remaining = b.length) (hpos : pos ≤ i) :
    (∃ tail rest, b.drop i = tail ++ 0 :: rest ∧ 0 ∉ tail ∧
      readCStringFrom b pos remaining i =
        .ok ((b.take (i + tail.length)).drop pos, i + tail.length + 1)) ∨
    (0 ∉ b.drop i ∧ readCStringFrom b pos remaining i =
      fail (errorf "bson: unterminated cstring at %d" [.number pos])) := by
  induction remaining generalizing i with
  | zero =>
    right
    have hnil : b.drop i = [] := List.drop_eq_nil_of_le (by omega)
    exact ⟨by simp [hnil], rfl⟩
  | succ remaining ih =>
    have hi : i < b.length := by omega
    have hdrop : b.drop i = b[i] :: b.drop (i + 1) := List.drop_eq_getElem_cons hi
    rw [readCStringFrom, index_of_lt hi, ok_bind]
    by_cases hzero : b[i] = 0
    · left
      refine ⟨[], b.drop (i + 1), by rw [hdrop, hzero]; rfl, by simp, ?_⟩
      rw [if_pos hzero, slice_of_le hpos (by omega)]
      rfl
    · rw [if_neg hzero]
      have hhead : (0 : UInt8) ≠ b[i] := fun h ↦ hzero h.symm
      rcases ih (i + 1) (by omega) (by omega) with
        ⟨tail, rest, htail, hfree, hread⟩ | ⟨hfree, hread⟩
      · left
        refine ⟨b[i] :: tail, rest, by rw [hdrop, htail]; rfl, ?_, ?_⟩
        · exact List.not_mem_cons_of_ne_of_not_mem hhead hfree
        · have hnext : i + 1 + tail.length = i + (b[i] :: tail).length := by
            rw [List.length_cons]
            omega
          rw [hread, hnext]
      · right
        rw [hdrop]
        exact ⟨List.not_mem_cons_of_ne_of_not_mem hhead hfree, hread⟩

/-- Either there is a NUL ahead and the text up to it is returned, or there is none. -/
theorem readCString_cases {b : Bytes} {pos : ℕ} (hpos : pos ≤ b.length) :
    (∃ key rest, b.drop pos = key ++ 0 :: rest ∧ 0 ∉ key ∧
      readCString b pos = .ok (key, pos + key.length + 1)) ∨
    (0 ∉ b.drop pos ∧ readCString b pos =
      fail (errorf "bson: unterminated cstring at %d" [.number pos])) := by
  have hlength : pos + (b.length - pos) = b.length := by omega
  rcases readCStringFrom_eq (b.length - pos) pos hlength le_rfl with
    ⟨key, rest, hdrop, hfree, hread⟩ | hnone
  · left
    refine ⟨key, rest, hdrop, hfree, ?_⟩
    rw [readCString, hread, List.drop_take, Nat.add_sub_cancel_left, hdrop, List.take_left]
  · exact Or.inr hnone

theorem returns_readCString (b : Bytes) (pos : ℕ) (hpos : pos ≤ b.length) :
    Returns (readCString b pos) := by
  rcases readCString_cases hpos with ⟨key, rest, -, -, hread⟩ | ⟨-, hread⟩ <;> rw [hread] <;> simp

theorem append_zero_cons_inj {left right leftRest rightRest : Bytes} (hleft : 0 ∉ left)
    (hright : 0 ∉ right) (h : left ++ 0 :: leftRest = right ++ 0 :: rightRest) :
    left = right ∧ leftRest = rightRest := by
  induction left generalizing right with
  | nil =>
    cases right with
    | nil => simpa using h
    | cons byte right =>
      simp only [List.nil_append, List.cons_append, List.cons.injEq] at h
      exact absurd (h.1 ▸ List.mem_cons_self) hright
  | cons byte left ih =>
    cases right with
    | nil =>
      simp only [List.nil_append, List.cons_append, List.cons.injEq] at h
      exact absurd (h.1 ▸ List.mem_cons_self) hleft
    | cons other right =>
      simp only [List.cons_append, List.cons.injEq] at h
      obtain ⟨hrest, htail⟩ := ih (List.not_mem_of_not_mem_cons hleft)
        (List.not_mem_of_not_mem_cons hright) h.2
      exact ⟨by rw [h.1, hrest], htail⟩

theorem readCString_eq_ok {b key : Bytes} {pos next : ℕ} (hpos : pos ≤ b.length) :
    readCString b pos = .ok (key, next) ↔
      0 ∉ key ∧ next = pos + key.length + 1 ∧ key ++ [0] <+: b.drop pos := by
  rcases readCString_cases hpos with ⟨found, rest, hdrop, hfree, hread⟩ | ⟨hfree, hread⟩
  · rw [hread, hdrop]
    constructor
    · intro h
      cases h
      exact ⟨hfree, rfl, rest, by simp⟩
    · rintro ⟨hkey, rfl, after, hafter⟩
      rw [List.append_assoc] at hafter
      obtain ⟨rfl, -⟩ := append_zero_cons_inj hkey hfree hafter
      rfl
  · rw [hread]
    constructor
    · intro h
      exact absurd h (fail_ne_ok _ _)
    · rintro ⟨-, -, hpre⟩
      exact absurd (hpre.subset (by simp)) hfree

theorem readBSONString_eq_ok {b text : Bytes} {pos next : ℕ} (hpos : pos ≤ b.length) :
    readBSONString b pos = .ok (text, next) ↔
      text.length + 1 < 2 ^ 31 ∧ next = pos + (text.length + 5) ∧
        le32 (UInt32.ofNat (text.length + 1)) ++ text ++ [0] <+: b.drop pos := by
  unfold readBSONString
  constructor
  · intro h
    split at h
    · exact absurd h (fail_ne_ok _ _)
    obtain ⟨header, hslice, h⟩ := bind_eq_ok.mp h
    obtain ⟨hfour, hheader⟩ := (slice_eq_ok_iff_isPrefix (by omega)).mp hslice
    simp only at h
    split at h
    · exact absurd h (fail_ne_ok _ _)
    split at h
    · exact absurd h (fail_ne_ok _ _)
    obtain ⟨n, hn⟩ : ∃ n : ℕ, int32 (uint32LE header) = (n + 1 : ℕ) :=
      ⟨(int32 (uint32LE header) - 1).toNat, by omega⟩
    obtain ⟨hfits, hword⟩ := eq_ofNat_of_int32 _ _ hn
    have hlast : pos + 4 + (n + 1) - 1 = pos + 4 + n := rfl
    simp only [hn, Int.toNat_natCast, hlast] at h
    obtain ⟨last, hindex, h⟩ := bind_eq_ok.mp h
    split at h
    · exact absurd h (fail_ne_ok _ _)
    rename_i hzero
    obtain ⟨part, hslice, h⟩ := bind_eq_ok.mp h
    cases h
    obtain ⟨hlength, htext⟩ := (slice_eq_ok_iff_isPrefix (by omega)).mp hslice
    have hnul := index_eq_ok_iff_isPrefix.mp hindex
    rw [not_not.mp hzero] at hnul
    rw [hlength, ← hword, le32_uint32LE header hfour, prefix_append, prefix_append,
      List.length_append, hfour, hlength]
    exact ⟨hfits, by omega, ⟨hheader, htext⟩, by rwa [← Nat.add_assoc]⟩
  · rintro ⟨hfits, rfl, hpre⟩
    have hroom := add_length_le_of_isPrefix hpos hpre
    simp only [prefix_append, List.length_append, length_le32, List.length_singleton] at hpre hroom
    obtain ⟨⟨hheader, htext⟩, hnul⟩ := hpre
    have hslice := (slice_eq_ok_iff_isPrefix (by omega)).mpr ⟨length_le32 _, hheader⟩
    have hend : pos + 4 + text.length ≤ b.length := by omega
    have htextSlice := (slice_eq_ok_iff_isPrefix hend).mpr ⟨rfl, htext⟩
    have hlast : pos + 4 + (text.length + 1) - 1 = pos + 4 + text.length := rfl
    rw [← Nat.add_assoc] at hnul
    rw [if_neg (by omega), hslice, ok_bind]
    simp only [uint32LE_le32, int32_ofNat _ hfits, Int.toNat_natCast, hlast]
    rw [if_neg (by omega), if_neg (by omega), index_eq_ok_iff_isPrefix.mpr hnul, ok_bind,
      if_neg (by simp), htextSlice, ok_bind,
      show pos + 4 + (text.length + 1) = pos + (text.length + 5) by omega]
    rfl

theorem returns_readBSONString (b : Bytes) (pos : ℕ) : Returns (readBSONString b pos) := by
  unfold readBSONString
  split
  · simp
  rw [slice_of_le (by omega) (by omega), ok_bind]
  dsimp only
  split
  · simp
  split
  · simp
  rw [index_of_lt (by omega), ok_bind]
  split
  · simp
  rw [slice_of_le (by omega) (by omega)]
  simp

theorem readBinary_eq_ok {b : Bytes} {pos next : ℕ} {value : BSONValue} (hpos : pos ≤ b.length) :
    readBinary b pos = .ok (value, next) ↔
      ∃ subtype data, value = .binary subtype data ∧ data.length < 2 ^ 31 ∧
        next = pos + (data.length + 5) ∧
        le32 (UInt32.ofNat data.length) ++ [subtype] ++ data <+: b.drop pos := by
  unfold readBinary
  constructor
  · intro h
    split at h
    · exact absurd h (fail_ne_ok _ _)
    obtain ⟨header, hslice, h⟩ := bind_eq_ok.mp h
    obtain ⟨hfour, hheader⟩ := (slice_eq_ok_iff_isPrefix (by omega)).mp hslice
    obtain ⟨subtype, hindex, h⟩ := bind_eq_ok.mp h
    have hsubtype := index_eq_ok_iff_isPrefix.mp hindex
    simp only at h
    split at h
    · exact absurd h (fail_ne_ok _ _)
    obtain ⟨n, hn⟩ : ∃ n : ℕ, int32 (uint32LE header) = n :=
      ⟨(int32 (uint32LE header)).toNat, by omega⟩
    obtain ⟨hfits, hword⟩ := eq_ofNat_of_int32 _ _ hn
    simp only [hn, Int.toNat_natCast] at h
    obtain ⟨data, hslice, h⟩ := bind_eq_ok.mp h
    cases h
    obtain ⟨hlength, hdata⟩ := (slice_eq_ok_iff_isPrefix (by omega)).mp hslice
    refine ⟨subtype, data, rfl, by omega, by omega, ?_⟩
    rw [hlength, ← hword, le32_uint32LE header hfour, prefix_append, prefix_append,
      List.length_append, hfour]
    exact ⟨⟨hheader, hsubtype⟩, by rwa [List.length_singleton]⟩
  · rintro ⟨subtype, data, rfl, hfits, rfl, hpre⟩
    have hroom := add_length_le_of_isPrefix hpos hpre
    simp only [prefix_append, List.length_append, length_le32, List.length_singleton] at hpre hroom
    obtain ⟨⟨hheader, hsubtype⟩, hdata⟩ := hpre
    have hslice := (slice_eq_ok_iff_isPrefix (by omega)).mpr ⟨length_le32 _, hheader⟩
    have hend : pos + 5 + data.length ≤ b.length := by omega
    have hdataSlice := (slice_eq_ok_iff_isPrefix hend).mpr ⟨rfl, hdata⟩
    rw [if_neg (by omega), hslice, ok_bind, index_eq_ok_iff_isPrefix.mpr hsubtype, ok_bind]
    simp only [uint32LE_le32, int32_ofNat _ hfits, Int.toNat_natCast]
    rw [if_neg (by omega), hdataSlice, ok_bind,
      show pos + 5 + data.length = pos + (data.length + 5) by omega]
    rfl

theorem returns_readBinary (b : Bytes) (pos : ℕ) : Returns (readBinary b pos) := by
  unfold readBinary
  split
  · simp
  rw [slice_of_le (by omega) (by omega), ok_bind, index_of_lt (by omega), ok_bind]
  dsimp only
  split
  · simp
  rw [slice_of_le (by omega) (by omega)]
  simp

theorem readObjectID_eq_ok {b : Bytes} {pos next : ℕ} {value : BSONValue} (hpos : pos ≤ b.length) :
    readObjectID b pos = .ok (value, next) ↔
      ∃ id : BSONObjectID, value = .objectID id ∧ next = pos + 12 ∧ id.bytes <+: b.drop pos := by
  unfold readObjectID
  constructor
  · intro h
    split at h
    · exact absurd h (fail_ne_ok _ _)
    obtain ⟨field, hslice, h⟩ := bind_eq_ok.mp h
    obtain ⟨hlength, hfield⟩ := (slice_eq_ok_iff_isPrefix (by omega)).mp hslice
    rw [dif_pos hlength] at h
    cases h
    exact ⟨⟨field, hlength⟩, rfl, rfl, hfield⟩
  · rintro ⟨id, rfl, rfl, hpre⟩
    have hroom := add_length_le_of_isPrefix hpos hpre
    rw [id.length_eq] at hroom
    have hslice := (slice_eq_ok_iff_isPrefix hroom).mpr ⟨id.length_eq, hpre⟩
    rw [if_neg (by omega), hslice, ok_bind, dif_pos id.length_eq]
    rfl

theorem returns_readObjectID (b : Bytes) (pos : ℕ) : Returns (readObjectID b pos) := by
  unfold readObjectID
  split
  · simp
  rw [slice_of_le (by omega) (by omega), ok_bind, dif_pos]
  · simp
  · rw [List.length_drop, List.length_take]
    omega

end DbPivot.Mongo
