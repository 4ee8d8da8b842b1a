import DbPivot.Mongo.BsonDecode

/-!
# Documents as the BSON specification has them

The codec reads twelve of the specification's twenty-one element types. This module gives the wire
format of all of them, as the specification does, and says what the decoder makes of a document:
the document itself when every element type at every depth is one of the twelve, and an error
otherwise. The decoder cannot step over a value whose type it does not know, so one such value
anywhere is enough.

The text of a string is any sequence of bytes here. The specification wants UTF-8, which the codec
does not look at.
-/

namespace DbPivot.Mongo

open DbPivot.Go

/-- Text without a NUL byte, which is written with one after it. -/
structure CString where
  text : Bytes
  zero_notMem : 0 ∉ text
deriving DecidableEq

/-- The values of the specification. A double is given by its 64 bits, a decimal by its two
halves. -/
inductive SpecValue where
  | double (bits : UInt64)
  | string (text : Bytes)
  | document (elements : List (CString × SpecValue))
  | array (items : List SpecValue)
  | binary (subtype : UInt8) (data : Bytes)
  | undefined
  | objectID (id : BSONObjectID)
  | bool (value : Bool)
  | dateTime (millis : Int64)
  | null
  | regex (pattern options : CString)
  | dbPointer (collection : Bytes) (id : BSONObjectID)
  | code (text : Bytes)
  | symbol (text : Bytes)
  | codeWithScope (text : Bytes) (scope : List (CString × SpecValue))
  | int32 (value : Int32)
  | timestamp (seconds increment : UInt32)
  | int64 (value : Int64)
  | decimal128 (low high : UInt64)
  | minKey
  | maxKey

abbrev SpecDocument := List (CString × SpecValue)

/-- The value of the first element with the given key. -/
def SpecDocument.find (key : Bytes) : SpecDocument → Option SpecValue
  | [] => none
  | (name, value) :: rest => if name.text = key then some value else SpecDocument.find key rest

/-! ## Wire format -/

/-- A length-prefixed string; the length counts the terminating NUL. -/
def stringBytes (text : Bytes) : Bytes := le32 (UInt32.ofNat (text.length + 1)) ++ text ++ [0]

/-- A document around its elements. -/
def documentBytes (body : Bytes) : Bytes := le32 (UInt32.ofNat (body.length + 5)) ++ body ++ [0]

namespace SpecValue

/-- The type byte of an element. -/
def tag : SpecValue → UInt8
  | double _ => 0x01
  | string _ => 0x02
  | document _ => 0x03
  | array _ => 0x04
  | binary _ _ => 0x05
  | undefined => 0x06
  | objectID _ => 0x07
  | bool _ => 0x08
  | dateTime _ => 0x09
  | null => 0x0A
  | regex _ _ => 0x0B
  | dbPointer _ _ => 0x0C
  | code _ => 0x0D
  | symbol _ => 0x0E
  | codeWithScope _ _ => 0x0F
  | int32 _ => 0x10
  | timestamp _ _ => 0x11
  | int64 _ => 0x12
  | decimal128 _ _ => 0x13
  | minKey => 0xFF
  | maxKey => 0x7F

mutual

def encode : SpecValue → Bytes
  | double bits => le64 bits
  | string text => stringBytes text
  | document elements => documentBytes (encodeElements elements)
  | array items => documentBytes (encodeItems 0 items)
  | binary subtype data => le32 (UInt32.ofNat data.length) ++ [subtype] ++ data
  | undefined => []
  | objectID id => id.bytes
  | bool value => [if value then 1 else 0]
  | dateTime millis => le64 millis.toUInt64
  | null => []
  | regex pattern options => pattern.text ++ [0] ++ (options.text ++ [0])
  | dbPointer collection id => stringBytes collection ++ id.bytes
  | code text => stringBytes text
  | symbol text => stringBytes text
  | codeWithScope text scope =>
    let content := stringBytes text ++ documentBytes (encodeElements scope)
    le32 (UInt32.ofNat (content.length + 4)) ++ content
  | int32 value => le32 value.toUInt32
  | timestamp seconds increment => le32 increment ++ le32 seconds
  | int64 value => le64 value.toUInt64
  | decimal128 low high => le64 low ++ le64 high
  | minKey => []
  | maxKey => []

def encodeElements : List (CString × SpecValue) → Bytes
  | [] => []
  | (key, value) :: rest => value.tag :: (key.text ++ [0] ++ value.encode) ++ encodeElements rest

/-- The items of an array, whose keys are their decimal positions. -/
def encodeItems (position : ℕ) : List SpecValue → Bytes
  | [] => []
  | value :: rest =>
    value.tag :: (itoa position ++ [0] ++ value.encode) ++ encodeItems (position + 1) rest

end

/-! ## The part the codec knows -/

mutual

/-- Every element type, at every depth, is one of those the codec reads. -/
def supported : SpecValue → Bool
  | document elements => supportedElements elements
  | array items => supportedItems items
  | undefined => false
  | regex _ _ => false
  | dbPointer _ _ => false
  | code _ => false
  | symbol _ => false
  | codeWithScope _ _ => false
  | decimal128 _ _ => false
  | minKey => false
  | maxKey => false
  | _ => true

def supportedElements : List (CString × SpecValue) → Bool
  | [] => true
  | (_, value) :: rest => value.supported && supportedElements rest

def supportedItems : List SpecValue → Bool
  | [] => true
  | value :: rest => value.supported && supportedItems rest

end

mutual

/-- The Go value for a value of the specification, if the codec has one. -/
def decoded : SpecValue → Option BSONValue
  | double bits => some (.double bits)
  | string text => some (.string text)
  | document elements => (decodedElements elements).map .document
  | array items => (decodedItems items).map .array
  | binary subtype data => some (.binary subtype data)
  | objectID id => some (.objectID id)
  | bool value => some (.bool value)
  | dateTime millis => some (.dateTime millis)
  | null => some .null
  | int32 value => some (.int32 value)
  | timestamp seconds increment => some (.timestamp seconds increment)
  | int64 value => some (.int64 value)
  | _ => none

def decodedElements : List (CString × SpecValue) → Option BSON
  | [] => some []
  | (key, value) :: rest =>
    value.decoded.bind fun image ↦ (decodedElements rest).map fun d ↦ (key.text, image) :: d

def decodedItems : List SpecValue → Option (List BSONValue)
  | [] => some []
  | value :: rest =>
    value.decoded.bind fun image ↦ (decodedItems rest).map fun images ↦ image :: images

end

mutual

theorem isSome_decoded : (value : SpecValue) → value.decoded.isSome = value.supported
  | document elements => by rw [decoded, Option.isSome_map, isSome_decodedElements, supported]
  | array items => by rw [decoded, Option.isSome_map, isSome_decodedItems, supported]
  | double _ | string _ | binary _ _ | objectID _ | bool _ | dateTime _ | null | int32 _
  | timestamp _ _ | int64 _ | undefined | regex _ _ | dbPointer _ _ | code _ | symbol _
  | codeWithScope _ _ | decimal128 _ _ | minKey | maxKey => by simp [decoded, supported]

theorem isSome_decodedElements : (elements : List (CString × SpecValue)) →
    (decodedElements elements).isSome = supportedElements elements
  | [] => by rw [decodedElements, supportedElements, Option.isSome_some]
  | (key, value) :: rest => by
    rw [decodedElements, supportedElements, ← isSome_decoded value, ← isSome_decodedElements rest]
    cases value.decoded <;> simp

theorem isSome_decodedItems : (items : List SpecValue) →
    (decodedItems items).isSome = supportedItems items
  | [] => by rw [decodedItems, supportedItems, Option.isSome_some]
  | value :: rest => by
    rw [decodedItems, supportedItems, ← isSome_decoded value, ← isSome_decodedItems rest]
    cases value.decoded <;> simp

end

end SpecValue

/-! ## The grammar is deterministic -/

theorem IsValue.isSome_ofByte {tag : UInt8} {piece : Bytes} {image : BSONValue}
    (hvalue : IsValue tag piece image) : (BSONType.ofByte tag).isSome := by
  cases hvalue <;> rw [BSONType.ofByte_byte, Option.isSome_some]

theorem eq_of_isPrefix {b first second : Bytes} (hfirst : first <+: b) (hsecond : second <+: b)
    (hlength : first.length = second.length) : first = second :=
  (List.prefix_of_prefix_length_le hfirst hsecond hlength.le).eq_of_length hlength

/-- The bytes ahead and the type byte determine a value and where it ends. -/
theorem IsValue.unique {tag : UInt8} {b piece : Bytes} {image : BSONValue}
    (hvalue : IsValue tag piece image) (hpiece : piece <+: b) {other : Bytes}
    {otherImage : BSONValue} :
    IsValue tag other otherImage ∧ other <+: b ↔ other = piece ∧ image = otherImage := by
  have hspec := (readers_spec (b.length + 2)).2.2 tag b 0
  have hread : ∀ {piece image}, IsValue tag piece image → piece <+: b →
      readBSONValue (b.length + 2) tag b 0 = .ok (image, 0 + piece.length) :=
    fun hvalue hpiece ↦ (hspec _ _ (Nat.zero_le _) (by omega)).mpr ⟨_, hvalue, rfl, hpiece⟩
  constructor
  · intro h
    rcases h with ⟨hother, hprefix⟩
    have hresult := (hread hvalue hpiece).symm.trans (hread hother hprefix)
    have hpair := Prod.mk.inj (Except.ok.inj hresult)
    exact ⟨eq_of_isPrefix hprefix hpiece (by omega), hpair.1⟩
  · intro h
    rcases h with ⟨rfl, rfl⟩
    exact ⟨hvalue, hpiece⟩

theorem length_documentBytes (body : Bytes) : (documentBytes body).length = body.length + 5 := by
  simp only [documentBytes, List.length_append, length_le32, List.length_singleton]
  omega

theorem documentBytes_inj {body other : Bytes} (h : documentBytes other = documentBytes body) :
    other = body := by
  have hcontent := List.append_cancel_right h
  exact (List.append_inj hcontent (by rw [length_le32, length_le32])).2

theorem isValue_document_iff {piece : Bytes} {image : BSONValue} :
    IsValue BSONType.document.byte piece image ↔ ∃ d, image = .document d ∧ IsDocument piece d := by
  constructor
  · intro h
    generalize htag : BSONType.document.byte = tag at h
    cases h with
    | document sub => exact ⟨_, rfl, sub⟩
    | _ => exact absurd htag (by decide)
  · intro h
    rcases h with ⟨d, rfl, sub⟩
    exact .document sub

theorem isValue_array_iff {piece : Bytes} {image : BSONValue} :
    IsValue BSONType.array.byte piece image ↔
      ∃ d : BSON, image = .array (d.map Prod.snd) ∧ IsDocument piece d := by
  constructor
  · intro h
    generalize htag : BSONType.array.byte = tag at h
    cases h with
    | array sub => exact ⟨_, rfl, sub⟩
    | _ => exact absurd htag (by decide)
  · intro h
    rcases h with ⟨d, rfl, sub⟩
    exact .array sub

/-- A document ends where its length says. -/
theorem isDocument_iff {body tail piece : Bytes} {d : BSON} (hfits : body.length + 5 < 2 ^ 31) :
    IsDocument piece d ∧ piece <+: documentBytes body ++ tail ↔
      piece = documentBytes body ∧ IsElements body d := by
  constructor
  · intro h
    rcases h with ⟨hdoc, hpiece⟩
    have hdeclared : declaredLength (documentBytes body ++ tail) = (body.length + 5 : ℕ) := by
      rw [documentBytes, List.append_assoc, List.append_assoc, declaredLength_append _ hfits]
    rw [declaredLength_of_isPrefix hpiece (by have := hdoc.length_eq.1; omega),
      hdoc.length_eq.2] at hdeclared
    have hlength : piece.length = (documentBytes body).length := by
      rw [length_documentBytes]
      exact_mod_cast hdeclared
    have heq := eq_of_isPrefix hpiece (List.prefix_append _ _) hlength
    refine ⟨heq, ?_⟩
    cases hdoc with
    | intro helements _ => exact documentBytes_inj heq ▸ helements
  · intro h
    rcases h with ⟨rfl, helements⟩
    exact ⟨.intro helements hfits, List.prefix_append _ _⟩

theorem isElements_nil_iff {d : BSON} : IsElements [] d ↔ d = [] := by
  constructor
  · intro h
    cases h
    rfl
  · intro h
    rw [h]
    exact .nil

/-- Reading one element off a sequence, given what its value is read as. -/
theorem isElements_cons_iff {tag : UInt8} {key piece body : Bytes} {result : Option BSONValue}
    (hkey : 0 ∉ key)
    (hvalue : ∀ other image, IsValue tag other image ∧ other <+: piece ++ body ↔
      other = piece ∧ result = some image) {d : BSON} :
    IsElements (tag :: (key ++ [0] ++ piece) ++ body) d ↔
      ∃ image rest, result = some image ∧ IsElements body rest ∧ d = (key, image) :: rest := by
  constructor
  · intro h
    generalize hbytes : tag :: (key ++ [0] ++ piece) ++ body = bytes at h
    cases h with
    | nil => cases hbytes
    | @cons otherTag otherKey other otherBody image rest hkeyed hvalued hrest =>
      simp only [List.cons_append, List.append_assoc, List.cons.injEq, List.nil_append] at hbytes
      rcases hbytes with ⟨rfl, hbytes⟩
      rcases append_zero_cons_inj hkey hkeyed hbytes with ⟨rfl, hahead⟩
      have hpiece : other <+: piece ++ body := ⟨otherBody, hahead.symm⟩
      rcases (hvalue other image).mp ⟨hvalued, hpiece⟩ with ⟨rfl, hresult⟩
      exact ⟨image, rest, hresult, List.append_cancel_left hahead ▸ hrest, rfl⟩
  · intro h
    rcases h with ⟨image, rest, hresult, hrest, rfl⟩
    exact .cons hkey ((hvalue piece image).mpr ⟨rfl, hresult⟩).1 hrest

/-! ## What the decoder makes of a document -/

namespace SpecValue

/-- Whatever follows a value, the decoder reads the value to its end, or it has none for it. -/
def ReadsAs (value : SpecValue) : Prop :=
  ∀ (tail other : Bytes) (image : BSONValue),
    IsValue value.tag other image ∧ other <+: value.encode ++ tail ↔
      other = value.encode ∧ value.decoded = some image

theorem readsAs_of_none {value : SpecValue} (htag : BSONType.ofByte value.tag = none)
    (hdecoded : value.decoded = none) : value.ReadsAs := by
  intro tail other image
  constructor
  · intro h
    have hsome := h.1.isSome_ofByte
    rw [htag] at hsome
    cases hsome
  · intro h
    rw [hdecoded] at h
    cases h.2

theorem readsAs_of_isValue {value : SpecValue} {image : BSONValue}
    (hvalue : IsValue value.tag value.encode image) (hdecoded : value.decoded = some image) :
    value.ReadsAs := by
  intro tail other otherImage
  rw [hvalue.unique (List.prefix_append _ _), hdecoded, Option.some.injEq]

theorem length_stringBytes (text : Bytes) : (stringBytes text).length = text.length + 5 := by
  simp only [stringBytes, List.length_append, length_le32, List.length_singleton]
  omega

mutual

theorem readsAs : (value : SpecValue) → value.encode.length < 2 ^ 31 → value.ReadsAs
  | document elements, hfits => by
    intro tail other image
    rw [encode, length_documentBytes] at hfits
    have helements := isElements_iff elements (by omega)
    change IsValue BSONType.document.byte other image ∧ _ ↔ _
    rw [isValue_document_iff, encode, decoded, Option.map_eq_some_iff]
    constructor
    · intro h
      rcases h with ⟨⟨d, rfl, hdoc⟩, hprefix⟩
      rcases (isDocument_iff hfits).mp ⟨hdoc, hprefix⟩ with ⟨hother, hd⟩
      exact ⟨hother, d, (helements d).mp hd, rfl⟩
    · intro h
      rcases h with ⟨rfl, d, hd, rfl⟩
      rcases (isDocument_iff hfits).mpr ⟨rfl, (helements d).mpr hd⟩ with ⟨hdoc, hprefix⟩
      exact ⟨⟨d, rfl, hdoc⟩, hprefix⟩
  | array items, hfits => by
    intro tail other image
    rw [encode, length_documentBytes] at hfits
    have hitems := isElements_items_iff 0 items (by omega)
    change IsValue BSONType.array.byte other image ∧ _ ↔ _
    rw [isValue_array_iff, encode, decoded, Option.map_eq_some_iff]
    constructor
    · intro h
      rcases h with ⟨⟨d, rfl, hdoc⟩, hprefix⟩
      rcases (isDocument_iff hfits).mp ⟨hdoc, hprefix⟩ with ⟨hother, hd⟩
      exact ⟨hother, _, (hitems _).mp ⟨d, hd, rfl⟩, rfl⟩
    · intro h
      rcases h with ⟨rfl, images, himages, rfl⟩
      rcases (hitems images).mpr himages with ⟨d, hd, rfl⟩
      rcases (isDocument_iff hfits).mpr ⟨rfl, hd⟩ with ⟨hdoc, hprefix⟩
      exact ⟨⟨d, rfl, hdoc⟩, hprefix⟩
  | double bits, _ => readsAs_of_isValue (.double bits) rfl
  | string text, hfits => by
    rw [encode, length_stringBytes] at hfits
    exact readsAs_of_isValue (.string text (by omega)) rfl
  | binary subtype data, hfits => by
    simp only [encode, List.length_append, length_le32, List.length_singleton] at hfits
    exact readsAs_of_isValue (.binary subtype data (by omega)) rfl
  | objectID id, _ => readsAs_of_isValue (.objectID id) rfl
  | bool value, _ => by
    have hvalue := IsValue.bool (if value then 1 else 0)
    have hbool : decide ((if value then (1 : UInt8) else 0) ≠ 0) = value := by
      cases value <;> decide
    rw [hbool] at hvalue
    exact readsAs_of_isValue hvalue rfl
  | dateTime millis, _ => readsAs_of_isValue (.dateTime millis.toUInt64) rfl
  | null, _ => readsAs_of_isValue .null rfl
  | int32 value, _ => readsAs_of_isValue (.int32 value.toUInt32) rfl
  | timestamp seconds increment, _ => readsAs_of_isValue (.timestamp seconds increment) rfl
  | int64 value, _ => readsAs_of_isValue (.int64 value.toUInt64) rfl
  | undefined, _ | regex _ _, _ | dbPointer _ _, _ | code _, _ | symbol _, _
  | codeWithScope _ _, _ | decimal128 _ _, _ | minKey, _ | maxKey, _ => readsAs_of_none rfl rfl

theorem isElements_iff : (elements : List (CString × SpecValue)) →
    (encodeElements elements).length < 2 ^ 31 → ∀ d : BSON,
      IsElements (encodeElements elements) d ↔ decodedElements elements = some d
  | [], _, d => by
    rw [encodeElements, decodedElements, isElements_nil_iff, Option.some.injEq, eq_comm]
  | (key, value) :: rest, hfits, d => by
    rw [encodeElements, List.length_append, length_element] at hfits
    have hvalue := readsAs value (by omega) (encodeElements rest)
    rw [encodeElements, isElements_cons_iff key.zero_notMem hvalue, decodedElements]
    simp only [isElements_iff rest (by omega), Option.bind_eq_some_iff, Option.map_eq_some_iff]
    constructor
    · intro h
      rcases h with ⟨image, images, himage, himages, rfl⟩
      exact ⟨image, himage, images, himages, rfl⟩
    · intro h
      rcases h with ⟨image, himage, images, himages, rfl⟩
      exact ⟨image, images, himage, himages, rfl⟩

theorem isElements_items_iff (position : ℕ) : (items : List SpecValue) →
    (encodeItems position items).length < 2 ^ 31 → ∀ images : List BSONValue,
      (∃ d, IsElements (encodeItems position items) d ∧ d.map Prod.snd = images) ↔
        decodedItems items = some images
  | [], _, images => by
    simp [encodeItems, decodedItems, isElements_nil_iff, eq_comm]
  | value :: rest, hfits, images => by
    rw [encodeItems, List.length_append, length_element] at hfits
    have hvalue := readsAs value (by omega) (encodeItems (position + 1) rest)
    have hrest := isElements_items_iff (position + 1) rest (by omega)
    simp only [encodeItems, isElements_cons_iff (zero_notMem_itoa position) hvalue, decodedItems,
      ← hrest, Option.bind_eq_some_iff, Option.map_eq_some_iff]
    constructor
    · intro h
      rcases h with ⟨_, ⟨image, d, himage, hd, rfl⟩, rfl⟩
      exact ⟨image, himage, _, ⟨d, hd, rfl⟩, rfl⟩
    · intro h
      rcases h with ⟨image, himage, _, ⟨d, hd, rfl⟩, rfl⟩
      exact ⟨_, ⟨image, d, himage, hd, rfl⟩, rfl⟩

end

end SpecValue

namespace SpecDocument

def encode (document : SpecDocument) : Bytes :=
  documentBytes (SpecValue.encodeElements document)

def supported (document : SpecDocument) : Bool := SpecValue.supportedElements document

/-- The document as the codec has it. -/
def decoded (document : SpecDocument) : Option BSON := SpecValue.decodedElements document

theorem isDocument_prefix_iff {document : SpecDocument} (hfits : document.encode.length < 2 ^ 31)
    (rest piece : Bytes) (d : BSON) :
    IsDocument piece d ∧ piece <+: document.encode ++ rest ↔
      piece = document.encode ∧ document.decoded = some d := by
  rw [encode, length_documentBytes] at hfits
  rw [encode, isDocument_iff hfits, decoded, SpecValue.isElements_iff document (by omega)]

theorem exists_decoded {document : SpecDocument} (hsupported : document.supported) :
    ∃ d, document.decoded = some d := by
  rw [supported, ← SpecValue.isSome_decodedElements] at hsupported
  exact Option.isSome_iff_exists.mp hsupported

theorem isDocument_encode {document : SpecDocument} (hfits : document.encode.length < 2 ^ 31)
    {d : BSON} (hd : document.decoded = some d) : IsDocument document.encode d :=
  ((isDocument_prefix_iff hfits [] _ d).mpr ⟨rfl, hd⟩).1

/-- One value of an unknown type, at any depth, and the decoder fails. -/
theorem errs_readBSONDocument {document : SpecDocument} (hfits : document.encode.length < 2 ^ 31)
    (hunsupported : ¬ document.supported) (rest : Bytes) :
    Errs (readBSONDocument (document.encode ++ rest)) := by
  refine errs_of_returns (returns_readBSONDocument _) fun result hread ↦ hunsupported ?_
  rcases readBSONDocument_eq_ok.mp hread with ⟨piece, hdoc, -, hpiece⟩
  have hdecoded := ((isDocument_prefix_iff hfits rest piece result.1).mp ⟨hdoc, hpiece⟩).2
  rw [supported, ← SpecValue.isSome_decodedElements, ← decoded, hdecoded, Option.isSome_some]

/-- Fields keep their values. -/
theorem lookup_of_decoded {document : SpecDocument} {d : BSON} (hd : document.decoded = some d)
    (key : Bytes) : lookup key d = (document.find key).bind SpecValue.decoded := by
  induction document generalizing d with
  | nil =>
    rw [← Option.some.inj hd]
    rfl
  | cons element rest ih =>
    rcases Option.bind_eq_some_iff.mp hd with ⟨image, himage, hrest⟩
    rcases Option.map_eq_some_iff.mp hrest with ⟨images, himages, rfl⟩
    rw [lookup, find]
    split
    · rw [Option.bind_some, himage]
    · exact ih himages

end SpecDocument

end DbPivot.Mongo
