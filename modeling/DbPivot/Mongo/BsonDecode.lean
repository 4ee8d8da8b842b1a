import DbPivot.Mongo.BsonGrammar

/-!
# The BSON decoder accepts exactly its grammar

The three mutually recursive readers are characterised together, by induction on the fuel, so that
soundness and completeness against the grammar are the two directions of one statement. A second
induction shows that none of them panics or runs out of fuel, a third that more fuel changes
nothing.
Locality follows: once the declared length is known to be in range, the bytes after it are never
looked at.
-/

namespace DbPivot.Mongo

open DbPivot.Go

/-! ## Soundness and completeness

The fuel bounds below are what `readBSONDocument` hands down: one more than the input for a
document, one more than the unread part for an element loop, two more for a value. -/

/-- What `readDocument` accepts with a given fuel. -/
def DocumentSpec (fuel : ℕ) : Prop :=
  ∀ (b : Bytes) (d : BSON) (n : ℕ), b.length < fuel →
    (readDocument fuel b = .ok (d, n) ↔ ∃ doc, IsDocument doc d ∧ n = doc.length ∧ doc <+: b)

/-- What `readElements` accepts with a given fuel, from a position to the end of the document. -/
def ElementsSpec (fuel : ℕ) : Prop :=
  ∀ (doc : Bytes) (pos : ℕ) (out d : BSON) (n : ℕ), pos ≤ doc.length → doc.length < fuel + pos →
    (readElements fuel doc pos out = .ok (d, n) ↔
      n = doc.length ∧ ∃ body rest, d = out ++ rest ∧ IsElements body rest ∧
        doc.drop pos = body ++ [0])

/-- What `readBSONValue` accepts with a given fuel. -/
def ValueSpec (fuel : ℕ) : Prop :=
  ∀ (tag : UInt8) (b : Bytes) (pos : ℕ) (value : BSONValue) (next : ℕ), pos ≤ b.length →
    b.length + 1 < fuel + pos →
    (readBSONValue fuel tag b pos = .ok (value, next) ↔
      ∃ piece, IsValue tag piece value ∧ next = pos + piece.length ∧ piece <+: b.drop pos)

/-- The length a document declares: the little-endian int32 at its start. -/
def declaredLength (b : Bytes) : ℤ := int32 (uint32LE (b.take 4))

/-- Once the declared length is in range, only the bytes it covers are read. -/
theorem readDocument_succ (fuel : ℕ) (b : Bytes) :
    readDocument (fuel + 1) b =
      if b.length < 5 then fail (errorf "bson: document too short (%d bytes)" [.number b.length])
      else if declaredLength b < 5 ∨ declaredLength b > b.length then
        fail (errorf "bson: invalid document length %d (have %d bytes)"
          [.number (declaredLength b), .number b.length])
      else readElements fuel (b.take (declaredLength b).toNat) 4 [] := by
  rw [readDocument]
  split
  · rfl
  rw [slice_of_le (by omega) (by omega), ok_bind, List.drop_zero]
  change (if declaredLength b < 5 ∨ declaredLength b > b.length then _ else _) = _
  by_cases hrange : declaredLength b < 5 ∨ declaredLength b > b.length
  · rw [if_pos hrange, if_pos hrange]
    rfl
  · rw [if_neg hrange, if_neg hrange]
    change (slice b 0 (declaredLength b).toNat >>= fun doc ↦ readElements fuel doc 4 []) = _
    rw [slice_of_le (by omega) (by omega), ok_bind, List.drop_zero]

theorem declaredLength_append (n : ℕ) (hn : n < 2 ^ 31) (rest : Bytes) :
    declaredLength (le32 (UInt32.ofNat n) ++ rest) = n := by
  rw [declaredLength, List.take_left' (length_le32 _), uint32LE_le32, int32_ofNat n hn]

/-- A non-negative declared length is exactly what the first four bytes encode. -/
theorem take_four_of_declaredLength {b : Bytes} {n : ℕ} (hfour : 4 ≤ b.length)
    (hn : declaredLength b = n) : n < 2 ^ 31 ∧ b.take 4 = le32 (UInt32.ofNat n) := by
  obtain ⟨hfits, hword⟩ := eq_ofNat_of_int32 _ _ hn
  refine ⟨hfits, ?_⟩
  rw [← hword, le32_uint32LE]
  rw [List.length_take]
  omega

theorem readDocument_step {fuel : ℕ} (helements : ElementsSpec fuel) : DocumentSpec (fuel + 1) := by
  intro b d n hfuel
  rw [readDocument_succ]
  constructor
  · intro h
    split at h
    · exact absurd h (fail_ne_ok _ _)
    split at h
    · exact absurd h (fail_ne_ok _ _)
    obtain ⟨length, hlength⟩ : ∃ length : ℕ, declaredLength b = length :=
      ⟨(declaredLength b).toNat, by omega⟩
    obtain ⟨hfits, hword⟩ := take_four_of_declaredLength (by omega) hlength
    rw [hlength, Int.toNat_natCast] at h
    have htake : (b.take length).length = length := by
      rw [List.length_take]
      omega
    obtain ⟨rfl, body, rest, rfl, hbody, hdrop⟩ :=
      (helements _ _ _ _ _ (by omega) (by omega)).mp h
    have hbodyLength := congrArg List.length hdrop
    rw [List.length_drop, htake, List.length_append, List.length_singleton] at hbodyLength
    have hdoc : b.take length = le32 (UInt32.ofNat (body.length + 5)) ++ body ++ [0] := by
      rw [show body.length + 5 = length by omega, ← hword, List.append_assoc, ← hdrop]
      conv_lhs => rw [← List.take_append_drop 4 (b.take length), List.take_take,
        Nat.min_eq_left (show 4 ≤ length by omega)]
    refine ⟨b.take length, ?_, rfl, List.take_prefix _ _⟩
    rw [hdoc]
    exact .intro hbody (by omega)
  · rintro ⟨doc, hdoc, rfl, rest, rfl⟩
    cases hdoc with
    | @intro body _ hbody hfits =>
      have hdeclared := declaredLength_append (body.length + 5) hfits (body ++ [0] ++ rest)
      simp only [← List.append_assoc] at hdeclared
      have hlength : (le32 (UInt32.ofNat (body.length + 5)) ++ body ++ [0]).length =
          body.length + 5 := by
        simp only [List.length_append, length_le32, List.length_singleton]
        omega
      rw [List.length_append, hlength] at hfuel
      rw [hdeclared, Int.toNat_natCast, List.length_append, hlength, if_neg (by omega),
        if_neg (by omega), List.take_left' hlength,
        helements _ _ _ _ _ (by omega) (by omega)]
      refine ⟨hlength.symm, body, d, rfl, hbody, ?_⟩
      rw [List.append_assoc, List.drop_left' (length_le32 _)]

theorem element_isPrefix {doc key piece : Bytes} {pos : ℕ} {tag : UInt8} :
    tag :: (key ++ [0] ++ piece) <+: doc.drop pos ↔
      [tag] <+: doc.drop pos ∧ key ++ [0] <+: doc.drop (pos + 1) ∧
        piece <+: doc.drop (pos + 1 + key.length + 1) := by
  rw [← List.singleton_append, prefix_append, prefix_append, List.length_singleton,
    List.length_append, List.length_singleton, ← Nat.add_assoc]

theorem drop_add_of_drop_eq {doc head tail : Bytes} {pos : ℕ} (h : doc.drop pos = head ++ tail) :
    doc.drop (pos + head.length) = tail := by
  rw [← List.drop_drop, h, List.drop_left]

theorem length_element (tag : UInt8) (key piece : Bytes) :
    (tag :: (key ++ [0] ++ piece)).length = key.length + piece.length + 2 := by
  simp only [List.length_cons, List.length_append, List.length_nil]
  omega

theorem readElements_step {fuel : ℕ} (hvalue : ValueSpec fuel) (helements : ElementsSpec fuel) :
    ElementsSpec (fuel + 1) := by
  intro doc pos out d n hpos hfuel
  rw [readElements]
  constructor
  · intro h
    split at h
    · exact absurd h (fail_ne_ok _ _)
    obtain ⟨tag, hindex, h⟩ := bind_eq_ok.mp h
    have htag := index_eq_ok_iff_isPrefix.mp hindex
    simp only at h
    split at h
    · rename_i hzero
      split at h
      · exact absurd h (fail_ne_ok _ _)
      cases h
      rw [hzero] at htag
      refine ⟨rfl, [], [], by simp, .nil, ?_⟩
      exact (htag.eq_of_length (by rw [List.length_drop, List.length_singleton]; omega)).symm
    · obtain ⟨⟨key, afterKey⟩, hkey, h⟩ := bind_eq_ok.mp h
      obtain ⟨⟨value, next⟩, hread, h⟩ := bind_eq_ok.mp h
      simp only at hread h
      obtain ⟨hfree, rfl, hkeyPrefix⟩ := (readCString_eq_ok (by omega)).mp hkey
      have hkeyRoom := add_length_le_of_isPrefix (by omega) hkeyPrefix
      rw [List.length_append, List.length_singleton] at hkeyRoom
      obtain ⟨piece, hpiece, rfl, hpiecePrefix⟩ :=
        (hvalue _ _ _ _ _ (by omega) (by omega)).mp hread
      have hroom := add_length_le_of_isPrefix (by omega) hpiecePrefix
      obtain ⟨rfl, body, rest, rfl, hbody, hdrop⟩ :=
        (helements _ _ _ _ _ (by omega) (by omega)).mp h
      obtain ⟨tail, htail⟩ := element_isPrefix.mpr ⟨htag, hkeyPrefix, hpiecePrefix⟩
      have hskip := drop_add_of_drop_eq htail.symm
      rw [length_element, show pos + (key.length + piece.length + 2) =
        pos + 1 + key.length + 1 + piece.length by omega, hdrop] at hskip
      refine ⟨rfl, tag :: (key ++ [0] ++ piece) ++ body, (key, value) :: rest, by simp,
        .cons hfree hpiece hbody, ?_⟩
      rw [← htail, ← hskip]
      exact (List.append_assoc _ _ _).symm
  · rintro ⟨rfl, body, rest, rfl, hbody, hdrop⟩
    have hlength := congrArg List.length hdrop
    rw [List.length_drop, List.length_append, List.length_singleton] at hlength
    rw [if_neg (by omega)]
    cases hbody with
    | nil =>
      have htag : [(0 : UInt8)] <+: doc.drop pos := by rw [hdrop]; exact ⟨[], by simp⟩
      rw [index_eq_ok_iff_isPrefix.mpr htag, ok_bind]
      simp only [List.length_nil] at hlength
      simp only [if_true]
      rw [if_neg (by omega), List.append_nil]
      rfl
    | @cons tag key piece body value d hfree hpiece hbody =>
      have hsplit : doc.drop pos = (tag :: (key ++ [0] ++ piece)) ++ (body ++ [0]) := by
        rw [hdrop, List.append_assoc]
      have hhead : tag :: (key ++ [0] ++ piece) <+: doc.drop pos := ⟨_, hsplit.symm⟩
      have hroom := add_length_le_of_isPrefix hpos hhead
      have hskip := drop_add_of_drop_eq hsplit
      rw [length_element] at hroom hskip
      rw [show pos + (key.length + piece.length + 2) =
        pos + 1 + key.length + 1 + piece.length by omega] at hskip
      obtain ⟨htag, hkey, hpiecePrefix⟩ := element_isPrefix.mp hhead
      rw [index_eq_ok_iff_isPrefix.mpr htag, ok_bind]
      simp only
      rw [if_neg hpiece.tag_ne_zero, (readCString_eq_ok (by omega)).mpr ⟨hfree, rfl, hkey⟩, ok_bind]
      simp only
      rw [(hvalue _ _ _ _ _ (by omega) (by omega)).mpr ⟨piece, hpiece, rfl, hpiecePrefix⟩, ok_bind]
      simp only
      rw [helements _ _ _ _ _ (by omega) (by omega)]
      exact ⟨rfl, body, d, by simp, hbody, hskip⟩

/-- A sub-document is read from the rest of the enclosing slice, so it may reach its end. -/
theorem readSubDocument_eq_ok {fuel : ℕ} (hdocument : DocumentSpec fuel) {b : Bytes} {pos n : ℕ}
    {d : BSON} (hpos : pos ≤ b.length) (hfuel : b.length < fuel + pos) :
    (slice b pos b.length >>= readDocument fuel) = .ok (d, n) ↔
      ∃ piece, IsDocument piece d ∧ n = piece.length ∧ piece <+: b.drop pos := by
  rw [slice_of_le hpos le_rfl, ok_bind, List.take_length,
    hdocument _ _ _ (by rw [List.length_drop]; omega)]

/-- A fixed-width field followed by a conversion of its bytes. -/
theorem readFixed_map_eq_ok {width : ℕ} {truncated : String} (convert : Bytes → BSONValue)
    {b : Bytes} {pos next : ℕ} {value : BSONValue} (hpos : pos ≤ b.length) :
    (readFixed width truncated b pos >>= fun read ↦ pure (convert read.1, read.2)) =
        .ok (value, next) ↔
      ∃ field, field.length = width ∧ value = convert field ∧ next = pos + field.length ∧
        field <+: b.drop pos := by
  rw [bind_eq_ok]
  constructor
  · rintro ⟨⟨field, after⟩, hread, h⟩
    obtain ⟨hwidth, rfl, hpre⟩ := (readFixed_eq_ok hpos).mp hread
    cases h
    exact ⟨field, hwidth, rfl, by rw [hwidth], hpre⟩
  · rintro ⟨field, hwidth, rfl, rfl, hpre⟩
    exact ⟨(field, pos + field.length), (readFixed_eq_ok hpos).mpr ⟨hwidth, by rw [hwidth], hpre⟩,
      rfl⟩

theorem readBSONValue_sound {fuel : ℕ} (hdocument : DocumentSpec fuel) {tag : UInt8} {b : Bytes}
    {pos next : ℕ} {value : BSONValue} (hpos : pos ≤ b.length) (hfuel : b.length < fuel + pos)
    (h : readBSONValue (fuel + 1) tag b pos = .ok (value, next)) :
    ∃ piece, IsValue tag piece value ∧ next = pos + piece.length ∧ piece <+: b.drop pos := by
  rw [readBSONValue] at h
  cases htype : BSONType.ofByte tag with
  | none =>
    simp only [htype] at h
    exact absurd h (fail_ne_ok _ _)
  | some type =>
    rw [← BSONType.byte_of_ofByte htype]
    cases type with simp only [htype] at h
    | double =>
      obtain ⟨field, hwidth, rfl, rfl, hpre⟩ :=
        (readFixed_map_eq_ok (fun field ↦ .double (uint64LE field)) hpos).mp h
      refine ⟨field, ?_, rfl, hpre⟩
      simpa only [le64_uint64LE field hwidth] using IsValue.double (uint64LE field)
    | string =>
      obtain ⟨⟨text, after⟩, hread, h⟩ := bind_eq_ok.mp h
      obtain ⟨hfits, rfl, hpre⟩ := (readBSONString_eq_ok hpos).mp hread
      cases h
      refine ⟨_, .string text hfits, ?_, hpre⟩
      simp only [List.length_append, length_le32, List.length_singleton]
      omega
    | document =>
      rw [← bind_assoc] at h
      obtain ⟨⟨sub, n⟩, hread, h⟩ := bind_eq_ok.mp h
      obtain ⟨piece, hpiece, rfl, hpre⟩ := (readSubDocument_eq_ok hdocument hpos hfuel).mp hread
      cases h
      exact ⟨piece, .document hpiece, rfl, hpre⟩
    | array =>
      rw [← bind_assoc] at h
      obtain ⟨⟨sub, n⟩, hread, h⟩ := bind_eq_ok.mp h
      obtain ⟨piece, hpiece, rfl, hpre⟩ := (readSubDocument_eq_ok hdocument hpos hfuel).mp hread
      cases h
      exact ⟨piece, .array hpiece, rfl, hpre⟩
    | binary =>
      obtain ⟨subtype, data, rfl, hfits, rfl, hpre⟩ := (readBinary_eq_ok hpos).mp h
      refine ⟨_, .binary subtype data hfits, ?_, hpre⟩
      simp only [List.length_append, length_le32, List.length_singleton]
      omega
    | objectID =>
      obtain ⟨id, rfl, rfl, hpre⟩ := (readObjectID_eq_ok hpos).mp h
      exact ⟨_, .objectID id, by rw [id.length_eq], hpre⟩
    | bool =>
      obtain ⟨⟨field, after⟩, hread, h⟩ := bind_eq_ok.mp h
      obtain ⟨hwidth, rfl, hpre⟩ := (readFixed_eq_ok hpos).mp hread
      obtain ⟨byte, rfl⟩ := List.length_eq_one_iff.mp hwidth
      cases h
      exact ⟨[byte], .bool byte, rfl, hpre⟩
    | dateTime =>
      obtain ⟨field, hwidth, rfl, rfl, hpre⟩ :=
        (readFixed_map_eq_ok (fun field ↦ .dateTime (uint64LE field).toInt64) hpos).mp h
      refine ⟨field, ?_, rfl, hpre⟩
      simpa only [le64_uint64LE field hwidth] using IsValue.dateTime (uint64LE field)
    | null =>
      cases h
      exact ⟨[], .null, rfl, List.nil_prefix⟩
    | int32 =>
      obtain ⟨field, hwidth, rfl, rfl, hpre⟩ :=
        (readFixed_map_eq_ok (fun field ↦ .int32 (uint32LE field).toInt32) hpos).mp h
      refine ⟨field, ?_, rfl, hpre⟩
      simpa only [le32_uint32LE field hwidth] using IsValue.int32 (uint32LE field)
    | timestamp =>
      obtain ⟨⟨field, after⟩, hread, h⟩ := bind_eq_ok.mp h
      obtain ⟨hwidth, rfl, hpre⟩ := (readFixed_eq_ok hpos).mp hread
      simp only at h
      rw [slice_of_le (by omega) (by omega), ok_bind, slice_of_le (by omega) (by omega)] at h
      cases h
      refine ⟨field, ?_, by rw [hwidth], hpre⟩
      have hlow : ((field.take 4).drop 0).length = 4 := by simp [hwidth]
      have hhigh : ((field.take 8).drop 4).length = 4 := by simp [hwidth]
      have hjoin : (field.take 4).drop 0 ++ (field.take 8).drop 4 = field := by
        rw [List.drop_zero, List.take_of_length_le (show field.length ≤ 8 by omega),
          List.take_append_drop]
      have hvalue := IsValue.timestamp (uint32LE ((field.take 8).drop 4))
        (uint32LE ((field.take 4).drop 0))
      rwa [le32_uint32LE _ hlow, le32_uint32LE _ hhigh, hjoin] at hvalue
    | int64 =>
      obtain ⟨field, hwidth, rfl, rfl, hpre⟩ :=
        (readFixed_map_eq_ok (fun field ↦ .int64 (uint64LE field).toInt64) hpos).mp h
      refine ⟨field, ?_, rfl, hpre⟩
      simpa only [le64_uint64LE field hwidth] using IsValue.int64 (uint64LE field)

theorem readBSONValue_complete {fuel : ℕ} (hdocument : DocumentSpec fuel) {tag : UInt8}
    {b piece : Bytes} {pos : ℕ} {value : BSONValue} (hpos : pos ≤ b.length)
    (hfuel : b.length < fuel + pos) (hpiece : IsValue tag piece value)
    (hpre : piece <+: b.drop pos) :
    readBSONValue (fuel + 1) tag b pos = .ok (value, pos + piece.length) := by
  rw [readBSONValue]
  cases hpiece with simp only [BSONType.ofByte_byte]
  | double bits =>
    refine (readFixed_map_eq_ok (fun field ↦ .double (uint64LE field)) hpos).mpr
      ⟨_, length_le64 _, ?_, rfl, hpre⟩
    rw [uint64LE_le64]
  | string text hfits =>
    rw [(readBSONString_eq_ok hpos).mpr ⟨hfits, rfl, hpre⟩, ok_bind]
    simp only [List.length_append, length_le32, List.length_singleton]
    rw [show 4 + text.length + 1 = text.length + 5 by omega]
    rfl
  | document hsub =>
    rw [← bind_assoc,
      (readSubDocument_eq_ok hdocument hpos hfuel).mpr ⟨piece, hsub, rfl, hpre⟩]
    rfl
  | array hsub =>
    rw [← bind_assoc,
      (readSubDocument_eq_ok hdocument hpos hfuel).mpr ⟨piece, hsub, rfl, hpre⟩]
    rfl
  | binary subtype data hfits =>
    rw [readBinary_eq_ok hpos]
    refine ⟨subtype, data, rfl, hfits, ?_, hpre⟩
    simp only [List.length_append, length_le32, List.length_singleton]
    omega
  | objectID id =>
    rw [readObjectID_eq_ok hpos]
    exact ⟨id, rfl, by rw [id.length_eq], hpre⟩
  | bool byte =>
    have hread : readFixed 1 "bson: truncated bool" b pos = .ok ([byte], pos + 1) :=
      (readFixed_eq_ok hpos).mpr ⟨rfl, rfl, hpre⟩
    rw [hread]
    rfl
  | dateTime word =>
    refine (readFixed_map_eq_ok (fun field ↦ .dateTime (uint64LE field).toInt64) hpos).mpr
      ⟨_, length_le64 _, ?_, rfl, hpre⟩
    rw [uint64LE_le64]
  | null => rfl
  | int32 word =>
    refine (readFixed_map_eq_ok (fun field ↦ .int32 (uint32LE field).toInt32) hpos).mpr
      ⟨_, length_le32 _, ?_, rfl, hpre⟩
    rw [uint32LE_le32]
  | timestamp seconds increment =>
    have hlow : (slice (le32 increment ++ le32 seconds) 0 4 : GoM GoError Bytes) =
        .ok (le32 increment) := by
      rw [slice_of_le (by omega) (by simp), List.drop_zero, List.take_left' (length_le32 _)]
    have hhigh : (slice (le32 increment ++ le32 seconds) 4 8 : GoM GoError Bytes) =
        .ok (le32 seconds) := by
      rw [slice_of_le (by omega) (by simp), List.take_of_length_le (by simp),
        List.drop_left' (length_le32 _)]
    have hread : readFixed 8 "bson: truncated timestamp" b pos =
        .ok (le32 increment ++ le32 seconds, pos + 8) :=
      (readFixed_eq_ok hpos).mpr ⟨by simp, rfl, hpre⟩
    rw [hread, ok_bind]
    simp only
    rw [hlow, ok_bind, hhigh, ok_bind, uint32LE_le32, uint32LE_le32]
    simp only [List.length_append, length_le32]
    rfl
  | int64 word =>
    refine (readFixed_map_eq_ok (fun field ↦ .int64 (uint64LE field).toInt64) hpos).mpr
      ⟨_, length_le64 _, ?_, rfl, hpre⟩
    rw [uint64LE_le64]

theorem readBSONValue_step {fuel : ℕ} (hdocument : DocumentSpec fuel) : ValueSpec (fuel + 1) := by
  intro tag b pos value next hpos hfuel
  constructor
  · intro h
    exact readBSONValue_sound hdocument hpos (by omega) h
  · rintro ⟨piece, hpiece, rfl, hpre⟩
    exact readBSONValue_complete hdocument hpos (by omega) hpiece hpre

/-- The three readers agree with the grammar at every fuel. -/
theorem readers_spec (fuel : ℕ) : DocumentSpec fuel ∧ ElementsSpec fuel ∧ ValueSpec fuel := by
  induction fuel with
  | zero =>
    refine ⟨?_, ?_, ?_⟩
    · intro b d n hfuel
      omega
    · intro doc pos out d n hpos hfuel
      omega
    · intro tag b pos value next hpos hfuel
      omega
  | succ fuel ih =>
    obtain ⟨hdocument, helements, hvalue⟩ := ih
    exact ⟨readDocument_step helements, readElements_step hvalue helements,
      readBSONValue_step hdocument⟩

theorem readBSONDocument_eq_ok {b : Bytes} {d : BSON} {n : ℕ} :
    readBSONDocument b = .ok (d, n) ↔ ∃ doc, IsDocument doc d ∧ n = doc.length ∧ doc <+: b :=
  (readers_spec (b.length + 1)).1 b d n (Nat.lt_succ_self _)

/-! ## Termination and bounds -/

theorem returns_readers (fuel : ℕ) :
    (∀ b : Bytes, b.length < fuel → Returns (readDocument fuel b)) ∧
    (∀ (doc : Bytes) (pos : ℕ) (out : BSON), pos ≤ doc.length → doc.length < fuel + pos →
      Returns (readElements fuel doc pos out)) ∧
    (∀ (tag : UInt8) (b : Bytes) (pos : ℕ), pos ≤ b.length → b.length + 1 < fuel + pos →
      Returns (readBSONValue fuel tag b pos)) := by
  induction fuel with
  | zero => refine ⟨?_, ?_, ?_⟩ <;> intros <;> omega
  | succ fuel ih =>
    obtain ⟨hdocument, helements, hvalue⟩ := ih
    refine ⟨?_, ?_, ?_⟩
    · intro b hfuel
      rw [readDocument_succ]
      split
      · exact returns_fail _
      split
      · exact returns_fail _
      have hlength : (b.take (declaredLength b).toNat).length = (declaredLength b).toNat := by
        rw [List.length_take]
        omega
      exact helements _ _ _ (by omega) (by omega)
    · intro doc pos out hpos hfuel
      rw [readElements]
      split
      · exact returns_fail _
      rw [index_of_lt (by omega), ok_bind]
      dsimp only
      split
      · split <;> trivial
      apply returns_bind (returns_readCString _ _ (by omega))
      rintro ⟨key, afterKey⟩ hkey
      obtain ⟨-, rfl, hkeyPrefix⟩ := (readCString_eq_ok (by omega)).mp hkey
      have hkeyRoom := add_length_le_of_isPrefix (by omega) hkeyPrefix
      rw [List.length_append, List.length_singleton] at hkeyRoom
      apply returns_bind (hvalue _ _ _ (by omega) (by omega))
      rintro ⟨value, next⟩ hread
      obtain ⟨piece, -, rfl, hpre⟩ :=
        ((readers_spec fuel).2.2 _ _ _ _ _ (by omega) (by omega)).mp hread
      have hroom := add_length_le_of_isPrefix (by omega) hpre
      exact helements _ _ _ hroom (by omega)
    · intro tag b pos hpos hfuel
      have hsub : Returns (readDocument fuel (b.drop pos)) :=
        hdocument _ (by rw [List.length_drop]; omega)
      rw [readBSONValue]
      cases htype : BSONType.ofByte tag with
      | none => exact returns_fail _
      | some type =>
        cases type with dsimp only
        | double => exact returns_bind (returns_readFixed _ _ _ _) fun _ _ ↦ trivial
        | string => exact returns_bind (returns_readBSONString _ _) fun _ _ ↦ trivial
        | document =>
          rw [slice_of_le hpos le_rfl, ok_bind, List.take_length]
          exact returns_bind hsub fun _ _ ↦ trivial
        | array =>
          rw [slice_of_le hpos le_rfl, ok_bind, List.take_length]
          exact returns_bind hsub fun _ _ ↦ trivial
        | binary => exact returns_readBinary _ _
        | objectID => exact returns_readObjectID _ _
        | bool =>
          apply returns_bind (returns_readFixed _ _ _ _)
          rintro ⟨field, next⟩ hread
          obtain ⟨hwidth, -, -⟩ := (readFixed_eq_ok hpos).mp hread
          dsimp only
          rw [index_of_lt (show 0 < field.length by omega)]
          trivial
        | dateTime => exact returns_bind (returns_readFixed _ _ _ _) fun _ _ ↦ trivial
        | null => trivial
        | int32 => exact returns_bind (returns_readFixed _ _ _ _) fun _ _ ↦ trivial
        | timestamp =>
          apply returns_bind (returns_readFixed _ _ _ _)
          rintro ⟨field, next⟩ hread
          obtain ⟨hwidth, -, -⟩ := (readFixed_eq_ok hpos).mp hread
          dsimp only
          rw [slice_of_le (by omega) (by omega), ok_bind, slice_of_le (by omega) (by omega)]
          trivial
        | int64 => exact returns_bind (returns_readFixed _ _ _ _) fun _ _ ↦ trivial

theorem returns_readBSONDocument (b : Bytes) : Returns (readBSONDocument b) :=
  (returns_readers (b.length + 1)).1 b (Nat.lt_succ_self _)

/-! ## Independence of the fuel -/

theorem readers_succ (fuel : ℕ) :
    (∀ b : Bytes, b.length < fuel → readDocument (fuel + 1) b = readDocument fuel b) ∧
    (∀ (doc : Bytes) (pos : ℕ) (out : BSON), pos ≤ doc.length → doc.length < fuel + pos →
      readElements (fuel + 1) doc pos out = readElements fuel doc pos out) ∧
    (∀ (tag : UInt8) (b : Bytes) (pos : ℕ), pos ≤ b.length → b.length + 1 < fuel + pos →
      readBSONValue (fuel + 1) tag b pos = readBSONValue fuel tag b pos) := by
  induction fuel with
  | zero => refine ⟨?_, ?_, ?_⟩ <;> intros <;> omega
  | succ fuel ih =>
    obtain ⟨hdocument, helements, hvalue⟩ := ih
    refine ⟨?_, ?_, ?_⟩
    · intro b hfuel
      rw [readDocument_succ, readDocument_succ]
      split
      · rfl
      split
      · rfl
      have hlength : (b.take (declaredLength b).toNat).length = (declaredLength b).toNat := by
        rw [List.length_take]
        omega
      exact helements _ _ _ (by omega) (by omega)
    · intro doc pos out hpos hfuel
      rw [readElements, readElements]
      split
      · rfl
      apply bind_congr_of_ok
      intro tag _
      dsimp only
      split
      · rfl
      apply bind_congr_of_ok
      rintro ⟨key, afterKey⟩ hkey
      obtain ⟨-, rfl, hkeyPrefix⟩ := (readCString_eq_ok (by omega)).mp hkey
      have hkeyRoom := add_length_le_of_isPrefix (by omega) hkeyPrefix
      rw [List.length_append, List.length_singleton] at hkeyRoom
      dsimp only
      rw [hvalue _ _ _ (by omega) (by omega)]
      apply bind_congr_of_ok
      rintro ⟨value, next⟩ hread
      obtain ⟨piece, -, rfl, hpre⟩ :=
        ((readers_spec fuel).2.2 _ _ _ _ _ (by omega) (by omega)).mp hread
      have hroom := add_length_le_of_isPrefix (by omega) hpre
      exact helements _ _ _ hroom (by omega)
    · intro tag b pos hpos hfuel
      have hsub : (slice b pos b.length >>= readDocument (fuel + 1)) =
          slice b pos b.length >>= readDocument fuel := by
        rw [slice_of_le hpos le_rfl, ok_bind, ok_bind, List.take_length]
        exact hdocument _ (by rw [List.length_drop]; omega)
      rw [readBSONValue, readBSONValue]
      cases htype : BSONType.ofByte tag with
      | none => rfl
      | some type =>
        cases type with dsimp only
        | document => rw [← bind_assoc, hsub, bind_assoc]
        | array => rw [← bind_assoc, hsub, bind_assoc]

/-- Any fuel above the input length gives the same result, so the bound in `readBSONDocument` is
never what ends a read. -/
theorem readDocument_eq_readBSONDocument {fuel : ℕ} {b : Bytes} (hfuel : b.length < fuel) :
    readDocument fuel b = readBSONDocument b := by
  induction fuel with
  | zero => omega
  | succ fuel ih =>
    rcases Nat.lt_or_eq_of_le (Nat.lt_succ_iff.mp hfuel) with hlt | rfl
    · rw [(readers_succ fuel).1 b hlt, ih hlt]
    · rfl

theorem readElements_eq_of_le {fuel fuel' : ℕ} {doc : Bytes} {pos : ℕ} {out : BSON}
    (hpos : pos ≤ doc.length) (hfuel : doc.length < fuel + pos) (hle : fuel ≤ fuel') :
    readElements fuel' doc pos out = readElements fuel doc pos out := by
  induction fuel', hle using Nat.le_induction with
  | base => rfl
  | succ fuel' hle ih => rw [(readers_succ fuel').2.1 doc pos out hpos (by omega), ih]

/-! ## Main result -/

theorem IsDocument.length_eq {doc : Bytes} {d : BSON} (hdoc : IsDocument doc d) :
    5 ≤ doc.length ∧ declaredLength doc = doc.length := by
  cases hdoc with
  | @intro body _ hbody hfits =>
    have hlength : (le32 (UInt32.ofNat (body.length + 5)) ++ body ++ [0]).length =
        body.length + 5 := by
      simp only [List.length_append, length_le32, List.length_singleton]
      omega
    refine ⟨by omega, ?_⟩
    rw [hlength, List.append_assoc]
    exact declaredLength_append _ hfits _

/-- The first four bytes alone decide the declared length. -/
theorem declaredLength_of_isPrefix {doc b : Bytes} (hpre : doc <+: b) (hfour : 4 ≤ doc.length) :
    declaredLength b = declaredLength doc := by
  obtain ⟨rest, rfl⟩ := hpre
  rw [declaredLength, declaredLength, List.take_append_of_le_length hfour]

/-- A document whose declared length is in range is read from the bytes it covers. -/
theorem readBSONDocument_take {b : Bytes} {n : ℕ} (hn : declaredLength b = n) (hfive : 5 ≤ n)
    (hle : n ≤ b.length) :
    readBSONDocument b = readElements n (b.take n) 4 [] := by
  have hlength : (b.take n).length = n := by
    rw [List.length_take]
    omega
  rw [readBSONDocument, readDocument_succ, if_neg (by omega), hn, if_neg (by omega),
    Int.toNat_natCast]
  exact readElements_eq_of_le (by omega) (by omega) hle

/-- The decoder returns on every input, accepts exactly the grammar and is local: a result depends
only on the bytes the document's own length covers. -/
theorem readBSONDocument_exact (b : Bytes) :
    Returns (readBSONDocument b) ∧
    (∀ fuel, b.length < fuel → readDocument fuel b = readBSONDocument b) ∧
    (∀ (d : BSON) (n : ℕ), readBSONDocument b = .ok (d, n) ↔
      declaredLength b = n ∧ 5 ≤ n ∧ n ≤ b.length ∧ IsDocument (b.take n) d) ∧
    (∀ n : ℕ, declaredLength b = n → 5 ≤ n → n ≤ b.length → ∀ rest : Bytes,
      readBSONDocument (b.take n ++ rest) = readBSONDocument b) := by
  refine ⟨returns_readBSONDocument b, fun fuel hfuel ↦ readDocument_eq_readBSONDocument hfuel,
    ?_, ?_⟩
  · intro d n
    rw [readBSONDocument_eq_ok]
    constructor
    · rintro ⟨doc, hdoc, rfl, hpre⟩
      obtain ⟨hfive, hdeclared⟩ := hdoc.length_eq
      refine ⟨?_, hfive, hpre.length_le, ?_⟩
      · rw [declaredLength_of_isPrefix hpre (by omega), hdeclared]
      · rwa [← List.prefix_iff_eq_take.mp hpre]
    · rintro ⟨-, -, hle, hdoc⟩
      refine ⟨b.take n, hdoc, ?_, List.take_prefix _ _⟩
      rw [List.length_take]
      omega
  · intro n hn hfive hle rest
    have hlength : (b.take n).length = n := by
      rw [List.length_take]
      omega
    have hdeclared : declaredLength (b.take n ++ rest) = n := by
      rw [declaredLength_of_isPrefix (List.prefix_append _ _) (by omega),
        ← declaredLength_of_isPrefix (List.take_prefix n b) (by omega), hn]
    rw [readBSONDocument_take hn hfive hle,
      readBSONDocument_take hdeclared hfive (by rw [List.length_append]; omega),
      List.take_left' hlength]

end DbPivot.Mongo
