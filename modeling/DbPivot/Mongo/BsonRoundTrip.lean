import DbPivot.Mongo.BsonDecode

/-!
# Decoding undoes encoding

The encoder appends to a buffer and patches lengths in afterwards; the first part of this module
replaces it by plain concatenation. The encoding of every document with NUL-free keys then lies in
the grammar, with the document itself as its meaning up to the one conversion the codec makes, a Go
`int` written as an int32. The round trip is the completeness half of the decoder's specification.
-/

namespace DbPivot.Mongo

open DbPivot.Go

/-! ## Normal form and well-formed keys -/

mutual

/-- The value the decoder gives back: a Go `int` has become an int32. -/
def normalise : BSONValue → BSONValue
  | .document elements => .document (normaliseElements elements)
  | .array items => .array (normaliseItems items)
  | .int value => .int32 value.toInt32
  | .double bits => .double bits
  | .string text => .string text
  | .binary subtype data => .binary subtype data
  | .objectID id => .objectID id
  | .bool value => .bool value
  | .dateTime millis => .dateTime millis
  | .null => .null
  | .int32 value => .int32 value
  | .timestamp seconds increment => .timestamp seconds increment
  | .int64 value => .int64 value

def normaliseElements : List (Bytes × BSONValue) → List (Bytes × BSONValue)
  | [] => []
  | (key, value) :: rest => (key, normalise value) :: normaliseElements rest

def normaliseItems : List BSONValue → List BSONValue
  | [] => []
  | value :: rest => normalise value :: normaliseItems rest

end

mutual

/-- No key inside the value contains a NUL byte. -/
def ValueKeysOk : BSONValue → Prop
  | .document elements => KeysOk elements
  | .array items => ItemKeysOk items
  | _ => True

/-- No key of the document, at any depth, contains a NUL byte. -/
def KeysOk : List (Bytes × BSONValue) → Prop
  | [] => True
  | (key, value) :: rest => 0 ∉ key ∧ ValueKeysOk value ∧ KeysOk rest

def ItemKeysOk : List BSONValue → Prop
  | [] => True
  | value :: rest => ValueKeysOk value ∧ ItemKeysOk rest

end

/-! ## The encoder as concatenation -/

theorem appendHeader_eq (b key : Bytes) (type : BSONType) :
    appendHeader b type key = b ++ (type.byte :: (key ++ [0])) := by
  simp [appendHeader, appendCString]

/-- Patching the placeholder leaves everything before the document as it was. -/
theorem finishDocument_append (before body : Bytes) :
    finishDocument before.length (before ++ [0, 0, 0, 0] ++ body) =
      before ++ (le32 (UInt32.ofNat (body.length + 5)) ++ body ++ [0]) := by
  have hlength : (before ++ [0, 0, 0, 0] ++ body ++ [0]).length - before.length =
      body.length + 5 := by
    simp only [List.length_append, List.length_cons, List.length_nil]
    omega
  have htake : (before ++ [0, 0, 0, 0] ++ body ++ [0]).take before.length = before := by
    rw [List.append_assoc, List.append_assoc, List.take_left]
  have hdrop : (before ++ [0, 0, 0, 0] ++ body ++ [0]).drop (before.length + 4) = body ++ [0] := by
    rw [List.append_assoc]
    exact List.drop_left' (by simp)
  simp only [finishDocument, putUint32, hlength, htake, hdrop]
  simp only [List.append_assoc]

mutual

theorem appendBSONElement_append (b key : Bytes) :
    (value : BSONValue) → appendBSONElement b key value = b ++ appendBSONElement [] key value
  | .document elements => by
    simp only [appendBSONElement, appendHeader_eq, List.nil_append]
    rw [appendElements_append, appendElements_append (_ :: _ ++ _), finishDocument_append,
      finishDocument_append]
    simp
  | .array items => by
    simp only [appendBSONElement, appendHeader_eq, List.nil_append]
    rw [appendItems_append, appendItems_append (_ :: _ ++ _), finishDocument_append,
      finishDocument_append]
    simp
  | .double bits => by simp [appendBSONElement, appendHeader_eq]
  | .string text => by simp [appendBSONElement, appendBSONString, appendHeader_eq]
  | .binary subtype data => by simp [appendBSONElement, appendHeader_eq]
  | .objectID id => by simp [appendBSONElement, appendHeader_eq]
  | .bool value => by simp [appendBSONElement, appendHeader_eq]
  | .dateTime millis => by simp [appendBSONElement, appendHeader_eq]
  | .null => by simp [appendBSONElement, appendHeader_eq]
  | .int32 value => by simp [appendBSONElement, appendHeader_eq]
  | .int value => by simp [appendBSONElement, appendHeader_eq]
  | .timestamp seconds increment => by simp [appendBSONElement, appendHeader_eq]
  | .int64 value => by simp [appendBSONElement, appendHeader_eq]

theorem appendElements_append (b : Bytes) :
    (d : List (Bytes × BSONValue)) → appendElements b d = b ++ appendElements [] d
  | [] => by simp [appendElements]
  | (key, value) :: rest => by
    simp only [appendElements]
    rw [appendElements_append, appendBSONElement_append,
      appendElements_append (appendBSONElement [] key value), List.append_assoc]

theorem appendItems_append (b : Bytes) (position : ℕ) :
    (items : List BSONValue) → appendItems b position items = b ++ appendItems [] position items
  | [] => by simp [appendItems]
  | value :: rest => by
    simp only [appendItems]
    rw [appendItems_append, appendBSONElement_append,
      appendItems_append (appendBSONElement [] (itoa position) value), List.append_assoc]

end

theorem appendElements_cons (key : Bytes) (value : BSONValue) (rest : BSON) :
    appendElements [] ((key, value) :: rest) =
      appendBSONElement [] key value ++ appendElements [] rest := by
  rw [appendElements, appendElements_append]

theorem appendItems_cons (position : ℕ) (value : BSONValue) (rest : List BSONValue) :
    appendItems [] position (value :: rest) =
      appendBSONElement [] (itoa position) value ++ appendItems [] (position + 1) rest := by
  rw [appendItems, appendItems_append]

theorem appendBSON_eq (b : Bytes) (d : BSON) :
    appendBSON b d = b ++ (le32 (UInt32.ofNat ((appendElements [] d).length + 5)) ++
      appendElements [] d ++ [0]) := by
  rw [appendBSON, appendElements_append, finishDocument_append]

theorem marshalBSON_eq (d : BSON) :
    marshalBSON d = le32 (UInt32.ofNat ((appendElements [] d).length + 5)) ++
      appendElements [] d ++ [0] := appendBSON_eq [] d

theorem appendBSON_append (b : Bytes) (d : BSON) : appendBSON b d = b ++ marshalBSON d := by
  rw [appendBSON_eq, marshalBSON_eq]

theorem length_marshalBSON (d : BSON) :
    (marshalBSON d).length = (appendElements [] d).length + 5 := by
  rw [marshalBSON_eq]
  simp only [List.length_append, length_le32, List.length_singleton]
  omega

theorem appendBSONElement_document (key : Bytes) (elements : BSON) :
    appendBSONElement [] key (.document elements) =
      BSONType.document.byte :: (key ++ [0] ++ marshalBSON elements) := by
  simp only [appendBSONElement, appendHeader_eq, List.nil_append]
  rw [appendElements_append, finishDocument_append, marshalBSON_eq]
  simp

theorem appendBSONElement_array (key : Bytes) (items : List BSONValue) :
    appendBSONElement [] key (.array items) =
      BSONType.array.byte :: (key ++ [0] ++
        (le32 (UInt32.ofNat ((appendItems [] 0 items).length + 5)) ++ appendItems [] 0 items ++
          [0])) := by
  simp only [appendBSONElement, appendHeader_eq, List.nil_append]
  rw [appendItems_append, finishDocument_append]
  simp

/-! ## Encodings lie in the grammar -/

/-- The encoding of a value, without the type byte and the key before it. -/
theorem exists_isValue {key piece : Bytes} {type : BSONType} {value image : BSONValue}
    (hbytes : appendBSONElement [] key value = type.byte :: (key ++ [0] ++ piece))
    (hvalue : IsValue type.byte piece image) :
    ∃ (tag : UInt8) (piece : Bytes),
      appendBSONElement [] key value = tag :: (key ++ [0] ++ piece) ∧ IsValue tag piece image :=
  ⟨type.byte, piece, hbytes, hvalue⟩

mutual

theorem isValue_appendBSONElement (key : Bytes) : (value : BSONValue) → ValueKeysOk value →
    (appendBSONElement [] key value).length < 2 ^ 31 →
    ∃ (tag : UInt8) (piece : Bytes), appendBSONElement [] key value = tag :: (key ++ [0] ++ piece) ∧
      IsValue tag piece (normalise value)
  | .document elements, hkeys, hfits => by
    have hbytes := appendBSONElement_document key elements
    rw [hbytes, length_element, length_marshalBSON] at hfits
    refine exists_isValue hbytes (.document ?_)
    rw [marshalBSON_eq]
    exact .intro (isElements_appendElements elements hkeys (by omega)) (by omega)
  | .array items, hkeys, hfits => by
    have hbytes := appendBSONElement_array key items
    rw [hbytes, length_element] at hfits
    simp only [List.length_append, length_le32, List.length_singleton] at hfits
    obtain ⟨d, hd, hitems⟩ := isElements_appendItems 0 items hkeys (by omega)
    have hvalue := IsValue.array (.intro hd (by omega))
    rw [hitems] at hvalue
    exact exists_isValue hbytes hvalue
  | .double bits, _, _ =>
    exists_isValue (by simp [appendBSONElement, appendHeader_eq]) (.double bits)
  | .string text, _, hfits => by
    have hbytes : appendBSONElement [] key (.string text) = BSONType.string.byte ::
        (key ++ [0] ++ (le32 (UInt32.ofNat (text.length + 1)) ++ text ++ [0])) := by
      simp [appendBSONElement, appendBSONString, appendHeader_eq]
    rw [hbytes, length_element] at hfits
    simp only [List.length_append, length_le32, List.length_singleton] at hfits
    exact exists_isValue hbytes (.string text (by omega))
  | .binary subtype data, _, hfits => by
    have hbytes : appendBSONElement [] key (.binary subtype data) = BSONType.binary.byte ::
        (key ++ [0] ++ (le32 (UInt32.ofNat data.length) ++ [subtype] ++ data)) := by
      simp [appendBSONElement, appendHeader_eq]
    rw [hbytes, length_element] at hfits
    simp only [List.length_append, length_le32, List.length_singleton] at hfits
    exact exists_isValue hbytes (.binary subtype data (by omega))
  | .objectID id, _, _ =>
    exists_isValue (by simp [appendBSONElement, appendHeader_eq]) (.objectID id)
  | .bool value, _, _ => by
    have hvalue := IsValue.bool (if value then 1 else 0)
    have hbool : decide ((if value then (1 : UInt8) else 0) ≠ 0) = value := by
      cases value <;> decide
    rw [hbool] at hvalue
    exact exists_isValue (by simp [appendBSONElement, appendHeader_eq]) hvalue
  | .dateTime millis, _, _ =>
    exists_isValue (by simp [appendBSONElement, appendHeader_eq]) (.dateTime millis.toUInt64)
  | .null, _, _ =>
    exists_isValue (by simp [appendBSONElement, appendHeader_eq]) .null
  | .int32 value, _, _ =>
    exists_isValue (by simp [appendBSONElement, appendHeader_eq]) (.int32 value.toUInt32)
  | .int value, _, _ =>
    exists_isValue (by simp [appendBSONElement, appendHeader_eq]) (.int32 value.toInt32.toUInt32)
  | .timestamp seconds increment, _, _ =>
    exists_isValue (by simp [appendBSONElement, appendHeader_eq]) (.timestamp seconds increment)
  | .int64 value, _, _ =>
    exists_isValue (by simp [appendBSONElement, appendHeader_eq]) (.int64 value.toUInt64)

theorem isElements_appendElements : (d : List (Bytes × BSONValue)) → KeysOk d →
    (appendElements [] d).length + 5 < 2 ^ 31 →
    IsElements (appendElements [] d) (normaliseElements d)
  | [], _, _ => .nil
  | (key, value) :: rest, hkeys, hfits => by
    obtain ⟨hkey, hvalueKeys, hrestKeys⟩ := hkeys
    rw [appendElements_cons, List.length_append] at hfits
    obtain ⟨tag, piece, hbytes, hvalue⟩ :=
      isValue_appendBSONElement key value hvalueKeys (by omega)
    rw [appendElements_cons, hbytes]
    exact .cons hkey hvalue (isElements_appendElements rest hrestKeys (by omega))

theorem isElements_appendItems (position : ℕ) : (items : List BSONValue) → ItemKeysOk items →
    (appendItems [] position items).length + 5 < 2 ^ 31 →
    ∃ d, IsElements (appendItems [] position items) d ∧ d.map Prod.snd = normaliseItems items
  | [], _, _ => ⟨[], .nil, rfl⟩
  | value :: rest, hkeys, hfits => by
    obtain ⟨hvalueKeys, hrestKeys⟩ := hkeys
    rw [appendItems_cons, List.length_append] at hfits
    obtain ⟨tag, piece, hbytes, hvalue⟩ :=
      isValue_appendBSONElement (itoa position) value hvalueKeys (by omega)
    obtain ⟨d, hd, hitems⟩ := isElements_appendItems (position + 1) rest hrestKeys (by omega)
    refine ⟨(itoa position, normalise value) :: d, ?_, by rw [List.map_cons, hitems]; rfl⟩
    rw [appendItems_cons, hbytes]
    exact .cons (zero_notMem_itoa position) hvalue hd

end

theorem isDocument_marshalBSON (d : BSON) (hkeys : KeysOk d)
    (hfits : (marshalBSON d).length < 2 ^ 31) :
    IsDocument (marshalBSON d) (normaliseElements d) := by
  rw [length_marshalBSON] at hfits
  rw [marshalBSON_eq]
  exact .intro (isElements_appendElements d hkeys hfits) hfits

/-! ## Main result -/

/-- Decoding an encoded document consumes exactly the encoding and gives the document back in
normal form, whatever follows it and whatever it was appended to. -/
theorem readBSONDocument_marshalBSON (d : BSON) (hkeys : KeysOk d)
    (hfits : (marshalBSON d).length < 2 ^ 31) (before after : Bytes) :
    readBSONDocument (marshalBSON d ++ after) =
        .ok (normaliseElements d, (marshalBSON d).length) ∧
      (appendBSON before d).take before.length = before ∧
      readBSONDocument ((appendBSON before d).drop before.length ++ after) =
        .ok (normaliseElements d, (appendBSON before d).length - before.length) := by
  have hread : readBSONDocument (marshalBSON d ++ after) =
      .ok (normaliseElements d, (marshalBSON d).length) :=
    readBSONDocument_eq_ok.mpr
      ⟨_, isDocument_marshalBSON d hkeys hfits, rfl, List.prefix_append _ _⟩
  refine ⟨hread, ?_, ?_⟩
  · rw [appendBSON_append, List.take_left]
  · rw [appendBSON_append, List.drop_left, hread, List.length_append, Nat.add_sub_cancel_left]

/-- The round trip of `{a: [300, "x"]}`, whose number is a Go `int`. -/
theorem readBSONDocument_marshalBSON_nested :
    readBSONDocument (marshalBSON [(str "a", .array [.int 300, .string (str "x")])] ++ [7]) =
      .ok ([(str "a", .array [.int32 300, .string (str "x")])], 29) :=
  (readBSONDocument_marshalBSON [(str "a", .array [.int 300, .string (str "x")])]
    ⟨by decide, ⟨trivial, trivial, trivial⟩, trivial⟩ (by decide) [] [7]).1

end DbPivot.Mongo
