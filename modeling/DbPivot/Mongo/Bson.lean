import DbPivot.Go.Fault

/-!
# The BSON codec

A document is an ordered list of elements, never a map, since the command name of a MongoDB
command is its first key. The value kinds are the Go types the encoder accepts: the plain Go `int`
is one of them and is written as an int32. The decoder reads twelve element types and refuses every
other type byte.

The encoder writes a document's length after its elements, into a placeholder left at the start.
The decoder follows nested lengths chosen by the peer. Its recursion through sub-documents and its
element loop share one fuel argument, and every index and slice expression is evaluated with its
bounds.
-/

namespace DbPivot.Mongo

open DbPivot.Go

/-- A 12-byte ObjectId. -/
structure BSONObjectID where
  bytes : Bytes
  length_eq : bytes.length = 12
deriving DecidableEq

/-- The Go values the codec understands. A `float64` is given by its 64 bits. -/
inductive BSONValue where
  | double (bits : UInt64)
  | string (text : Bytes)
  | document (elements : List (Bytes × BSONValue))
  | array (items : List BSONValue)
  | binary (subtype : UInt8) (data : Bytes)
  | objectID (id : BSONObjectID)
  | bool (value : Bool)
  | dateTime (millis : Int64)
  | null
  | int32 (value : Int32)
  | int (value : Int64)
  | timestamp (seconds increment : UInt32)
  | int64 (value : Int64)

abbrev BSON := List (Bytes × BSONValue)

/-- `BSON.Lookup`: the value of the first element with the given key. -/
def lookup (key : Bytes) : BSON → Option BSONValue
  | [] => none
  | element :: rest => if element.1 = key then some element.2 else lookup key rest

/-- The element types of the codec. -/
inductive BSONType where
  | double
  | string
  | document
  | array
  | binary
  | objectID
  | bool
  | dateTime
  | null
  | int32
  | timestamp
  | int64
deriving DecidableEq, Repr

namespace BSONType

/-- The type byte on the wire. -/
def byte : BSONType → UInt8
  | double => 0x01
  | string => 0x02
  | document => 0x03
  | array => 0x04
  | binary => 0x05
  | objectID => 0x07
  | bool => 0x08
  | dateTime => 0x09
  | null => 0x0A
  | int32 => 0x10
  | timestamp => 0x11
  | int64 => 0x12

def all : List BSONType :=
  [double, string, document, array, binary, objectID, bool, dateTime, null, int32, timestamp,
    int64]

/-- The type a byte stands for; the decoder refuses the bytes that stand for none. -/
def ofByte (tag : UInt8) : Option BSONType := all.find? fun type ↦ type.byte = tag

@[simp] theorem ofByte_byte (type : BSONType) : ofByte type.byte = some type := by
  cases type <;> rfl

theorem byte_of_ofByte {tag : UInt8} {type : BSONType} (htype : ofByte tag = some type) :
    type.byte = tag := by
  simpa using List.find?_some htype

theorem byte_ne_zero (type : BSONType) : type.byte ≠ 0 := by cases type <;> decide

end BSONType

/-! ## Encoding -/

/-- `appendCString`. -/
def appendCString (b text : Bytes) : Bytes := b ++ text ++ [0]

/-- `appendBSONString`: the length counts the terminating NUL. -/
def appendBSONString (b text : Bytes) : Bytes :=
  b ++ le32 (UInt32.ofNat (text.length + 1)) ++ text ++ [0]

/-- `binary.LittleEndian.PutUint32(b[start:], word)`. -/
def putUint32 (b : Bytes) (start : ℕ) (word : UInt32) : Bytes :=
  b.take start ++ le32 word ++ b.drop (start + 4)

/-- Terminate the document that began at `start` and fill in its length. -/
def finishDocument (start : ℕ) (b : Bytes) : Bytes :=
  let b := b ++ [0]
  putUint32 b start (UInt32.ofNat (b.length - start))

/-- The bytes of a type byte and a key, which start every element. -/
def appendHeader (b : Bytes) (type : BSONType) (key : Bytes) : Bytes :=
  appendCString (b ++ [type.byte]) key

mutual

/-- `appendBSONElement`. A sub-document or an array is appended as `AppendBSON` does. -/
def appendBSONElement (b key : Bytes) : BSONValue → Bytes
  | .double bits => appendHeader b .double key ++ le64 bits
  | .string text => appendBSONString (appendHeader b .string key) text
  | .document elements =>
    let b := appendHeader b .document key
    finishDocument b.length (appendElements (b ++ [0, 0, 0, 0]) elements)
  | .array items =>
    let b := appendHeader b .array key
    finishDocument b.length (appendItems (b ++ [0, 0, 0, 0]) 0 items)
  | .binary subtype data =>
    appendHeader b .binary key ++ le32 (UInt32.ofNat data.length) ++ [subtype] ++ data
  | .objectID id => appendHeader b .objectID key ++ id.bytes
  | .bool value => appendHeader b .bool key ++ [if value then 1 else 0]
  | .dateTime millis => appendHeader b .dateTime key ++ le64 millis.toUInt64
  | .null => appendHeader b .null key
  | .int32 value => appendHeader b .int32 key ++ le32 value.toUInt32
  | .int value => appendHeader b .int32 key ++ le32 value.toInt32.toUInt32
  | .timestamp seconds increment =>
    appendHeader b .timestamp key ++ le32 increment ++ le32 seconds
  | .int64 value => appendHeader b .int64 key ++ le64 value.toUInt64

/-- The element loop of `AppendBSON`. -/
def appendElements (b : Bytes) : List (Bytes × BSONValue) → Bytes
  | [] => b
  | (key, value) :: rest => appendElements (appendBSONElement b key value) rest

/-- The same loop over an array, whose keys are the decimal indices. -/
def appendItems (b : Bytes) (position : ℕ) : List BSONValue → Bytes
  | [] => b
  | value :: rest => appendItems (appendBSONElement b (itoa position) value) (position + 1) rest

end

/-- `AppendBSON`. -/
def appendBSON (b : Bytes) (d : BSON) : Bytes :=
  finishDocument b.length (appendElements (b ++ [0, 0, 0, 0]) d)

/-- `MarshalBSON`. -/
def marshalBSON (d : BSON) : Bytes := appendBSON [] d

/-! ## Decoding -/

/-- The scan of `readCString`; `remaining` is `len(b) - i`. -/
def readCStringFrom (b : Bytes) (pos : ℕ) : ℕ → ℕ → GoM GoError (Bytes × ℕ)
  | 0, _ => fail (errorf "bson: unterminated cstring at %d" [.number pos])
  | remaining + 1, i => do
    let byte ← index b i
    if byte = 0 then
      let text ← slice b pos i
      pure (text, i + 1)
    else readCStringFrom b pos remaining (i + 1)

/-- `readCString`. -/
def readCString (b : Bytes) (pos : ℕ) : GoM GoError (Bytes × ℕ) :=
  readCStringFrom b pos (b.length - pos) pos

/-- `readBSONString`: the length includes the trailing NUL, which must be there. -/
def readBSONString (b : Bytes) (pos : ℕ) : GoM GoError (Bytes × ℕ) := do
  if pos + 4 > b.length then fail (errorf "bson: truncated string length" [])
  else
    let header ← slice b pos (pos + 4)
    let n := int32 (uint32LE header)
    if n < 1 then fail (errorf "bson: invalid string length %d" [.number n])
    else
      let start := pos + 4
      let n := n.toNat
      if start + n > b.length then
        fail (errorf "bson: string length %d out of range" [.number n])
      else
        let last ← index b (start + n - 1)
        if last ≠ 0 then fail (errorf "bson: string not NUL-terminated" [])
        else
          let text ← slice b start (start + n - 1)
          pure (text, start + n)

/-- The fixed-width cases of `readBSONValue`: check, slice, advance. -/
def readFixed (width : ℕ) (truncated : String) (b : Bytes) (pos : ℕ) : GoM GoError (Bytes × ℕ) := do
  if pos + width > b.length then fail (errorf truncated [])
  else
    let field ← slice b pos (pos + width)
    pure (field, pos + width)

/-- The binary case of `readBSONValue`. -/
def readBinary (b : Bytes) (pos : ℕ) : GoM GoError (BSONValue × ℕ) := do
  if pos + 5 > b.length then fail (errorf "bson: truncated binary header" [])
  else
    let header ← slice b pos (pos + 4)
    let blen := int32 (uint32LE header)
    let subtype ← index b (pos + 4)
    let start := pos + 5
    if blen < 0 ∨ start + blen > b.length then
      fail (errorf "bson: binary length %d out of range" [.number blen])
    else
      let data ← slice b start (start + blen.toNat)
      pure (.binary subtype data, start + blen.toNat)

/-- The ObjectId case of `readBSONValue`: twelve bytes copied into a fixed-size array. -/
def readObjectID (b : Bytes) (pos : ℕ) : GoM GoError (BSONValue × ℕ) := do
  if pos + 12 > b.length then fail (errorf "bson: truncated objectid" [])
  else
    let field ← slice b pos (pos + 12)
    if hfield : field.length = 12 then pure (.objectID ⟨field, hfield⟩, pos + 12)
    else .error .panic

mutual

/-- `ReadBSONDocument` up to its element loop. -/
def readDocument : ℕ → Bytes → GoM GoError (BSON × ℕ)
  | 0, _ => .error .outOfFuel
  | fuel + 1, b => do
    if b.length < 5 then
      fail (errorf "bson: document too short (%d bytes)" [.number b.length])
    else
      let header ← slice b 0 4
      let length := int32 (uint32LE header)
      if length < 5 ∨ length > b.length then
        fail (errorf "bson: invalid document length %d (have %d bytes)"
          [.number length, .number b.length])
      else
        let doc ← slice b 0 length.toNat
        readElements fuel doc 4 []

/-- The element loop of `ReadBSONDocument` over `doc`, the slice of the declared length. -/
def readElements : ℕ → Bytes → ℕ → BSON → GoM GoError (BSON × ℕ)
  | 0, _, _, _ => .error .outOfFuel
  | fuel + 1, doc, pos, out => do
    if pos ≥ doc.length then fail (errorf "bson: document not terminated" [])
    else
      let tag ← index doc pos
      let pos := pos + 1
      if tag = 0x00 then
        if pos ≠ doc.length then
          fail (errorf "bson: %d trailing bytes after terminator" [.number (doc.length - pos)])
        else pure (out, doc.length)
      else
        let (key, pos) ← readCString doc pos
        let (value, pos) ← readBSONValue fuel tag doc pos
        readElements fuel doc pos (out ++ [(key, value)])

/-- `readBSONValue`. -/
def readBSONValue : ℕ → UInt8 → Bytes → ℕ → GoM GoError (BSONValue × ℕ)
  | 0, _, _, _ => .error .outOfFuel
  | fuel + 1, tag, b, pos =>
    match BSONType.ofByte tag with
    | some .double => do
      let (field, next) ← readFixed 8 "bson: truncated double" b pos
      pure (.double (uint64LE field), next)
    | some .string => do
      let (text, next) ← readBSONString b pos
      pure (.string text, next)
    | some .document => do
      let rest ← slice b pos b.length
      let (sub, n) ← readDocument fuel rest
      pure (.document sub, pos + n)
    | some .array => do
      let rest ← slice b pos b.length
      let (sub, n) ← readDocument fuel rest
      pure (.array (sub.map Prod.snd), pos + n)
    | some .binary => readBinary b pos
    | some .objectID => readObjectID b pos
    | some .bool => do
      let (field, next) ← readFixed 1 "bson: truncated bool" b pos
      let byte ← index field 0
      pure (.bool (byte ≠ 0), next)
    | some .dateTime => do
      let (field, next) ← readFixed 8 "bson: truncated datetime" b pos
      pure (.dateTime (uint64LE field).toInt64, next)
    | some .null => pure (.null, pos)
    | some .int32 => do
      let (field, next) ← readFixed 4 "bson: truncated int32" b pos
      pure (.int32 (uint32LE field).toInt32, next)
    | some .timestamp => do
      let (field, next) ← readFixed 8 "bson: truncated timestamp" b pos
      let increment ← slice field 0 4
      let seconds ← slice field 4 8
      pure (.timestamp (uint32LE seconds) (uint32LE increment), next)
    | some .int64 => do
      let (field, next) ← readFixed 8 "bson: truncated int64" b pos
      pure (.int64 (uint64LE field).toInt64, next)
    | none => fail (errorf "bson: unsupported element type 0x%02x" [.number tag.toNat])

end

/-- `ReadBSONDocument`. Each level of nesting and each element takes at least one byte, so the
length of the input bounds the recursion. -/
def readBSONDocument (b : Bytes) : GoM GoError (BSON × ℕ) := readDocument (b.length + 1) b

end DbPivot.Mongo
