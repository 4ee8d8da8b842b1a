import DbPivot.Go.Fault

/-!
# The messages of a login

A MySQL server speaks first: it sends a handshake with its version, its capabilities, an
authentication plugin and a nonce that comes in two parts. The client answers with a login packet.
Both are read with a moving position and with many optional parts, and both are read here as the
source reads them. The one position that can leave the range of the packet is the length of the
authentication response of a client, a 64-bit number that is added to a position as an `int`.
-/

namespace DbPivot.Mysql

open DbPivot.Go

/-! ## Constants -/

def clientLongPassword : UInt32 := 0x00000001

def clientLongFlag : UInt32 := 0x00000004

def clientConnectWithDB : UInt32 := 0x00000008

def clientProtocol41 : UInt32 := 0x00000200

def clientSSL : UInt32 := 0x00000800

def clientTransactions : UInt32 := 0x00002000

def clientSecureConnection : UInt32 := 0x00008000

def clientPluginAuth : UInt32 := 0x00080000

def clientPluginAuthLenencClientData : UInt32 := 0x00200000

def clientDeprecateEOF : UInt32 := 0x01000000

def okPacketHeader : UInt8 := 0x00

def errPacketHeader : UInt8 := 0xFF

def mySQLNativePassword : Bytes := str "mysql_native_password"

def cachingSHA2Password : Bytes := str "caching_sha2_password"

def protocolVersion10 : UInt8 := 0x0A

def defaultCharsetUTF8MB4 : UInt8 := 0x2D

/-! ## Integers and strings -/

/-- `AppendLenencInt`. -/
def appendLenencInt (b : Bytes) (i : UInt64) : Bytes :=
  if i.toNat < 0xFB then b ++ leBytes 1 i.toNat
  else if i.toNat ≤ 0xFFFF then b ++ 0xFC :: leBytes 2 i.toNat
  else if i.toNat ≤ 0xFFFFFF then b ++ 0xFD :: leBytes 3 i.toNat
  else b ++ 0xFE :: leBytes 8 i.toNat

/-- `ReadLenencInt`. -/
def readLenencInt (b : Bytes) (pos : ℕ) : GoM GoError (UInt64 × ℕ) := do
  refuse (b.length ≤ pos) (errorf "lenenc-int: out of range at %d" [.number pos])
  let first ← index b pos
  if first < 0xFB then pure (UInt64.ofNat first.toNat, pos + 1)
  else if first = 0xFC then do
    refuse (b.length < pos + 3) (errorf "lenenc-int: truncated 2-byte" [])
    pure (UInt64.ofNat (leNat (← slice b (pos + 1) (pos + 3))), pos + 3)
  else if first = 0xFD then do
    refuse (b.length < pos + 4) (errorf "lenenc-int: truncated 3-byte" [])
    pure (UInt64.ofNat (leNat (← slice b (pos + 1) (pos + 4))), pos + 4)
  else if first = 0xFE then do
    refuse (b.length < pos + 9) (errorf "lenenc-int: truncated 8-byte" [])
    pure (uint64LE (← slice b (pos + 1) (pos + 9)), pos + 9)
  else fail (errorf "lenenc-int: invalid leading byte 0x%02x" [.number first.toNat])

/-- `readNulString`: the string at a position and the position behind its NUL. -/
def readNulString (b : Bytes) (pos : ℕ) : GoM GoError (Bytes × ℕ) :=
  match indexByte (b.drop pos) 0 with
  | some offset => .ok ((b.drop pos).take offset, pos + offset + 1)
  | none => fail (errorf "nul-string: unterminated at %d" [.number pos])

/-- A string that is followed by its NUL is read in full. -/
theorem readNulString_of_at {b text rest : Bytes} {pos : ℕ} (htext : 0 ∉ text)
    (h : At b pos (text ++ 0 :: rest)) : readNulString b pos = .ok (text, pos + text.length + 1) := by
  rw [readNulString, h.2, indexByte_append htext]
  simp only [List.take_left]

/-! ## Capability words -/

/-- The two halves of a word make up the word. -/
theorem word_of_halves (word : UInt32) :
    word.toUInt16.toUInt32 ||| ((word >>> 16).toUInt16.toUInt32 <<< 16) = word := by
  have hbound : word.toNat < 2 ^ 32 := word.toNat_lt
  have hshift : (16 : UInt32).toNat % 32 = 16 := rfl
  have hhigh : (word.toNat / 2 ^ 16 % 2 ^ 16) <<< 16 % 2 ^ 32 = (word.toNat / 2 ^ 16) <<< 16 := by
    have hquotient : word.toNat / 2 ^ 16 % 2 ^ 16 = word.toNat / 2 ^ 16 := by omega
    rw [hquotient, Nat.shiftLeft_eq]
    omega
  apply UInt32.toNat_inj.mp
  simp only [UInt32.toNat_or, UInt16.toNat_toUInt32, UInt32.toNat_toUInt16, UInt32.toNat_shiftLeft,
    UInt32.toNat_shiftRight]
  rw [hshift, Nat.shiftRight_eq_div_pow, Nat.or_comm, hhigh,
    ← Nat.shiftLeft_add_eq_or_of_lt (by omega), Nat.shiftLeft_eq]
  omega

theorem or_and_distrib (a b flag : UInt32) : (a ||| b) &&& flag = a &&& flag ||| b &&& flag := by
  apply UInt32.toBitVec_inj.mp
  simp [BitVec.and_or_distrib_right]

/-- A flag that is set in one of two words is set in both together. -/
theorem or_and_ne_zero {a b flag : UInt32} (h : a &&& flag ≠ 0 ∨ b &&& flag ≠ 0) :
    (a ||| b) &&& flag ≠ 0 := by
  rw [or_and_distrib, ne_eq, UInt32.or_eq_zero_iff, not_and_or]
  exact h

/-! ## OK and ERR packets -/

/-- `EncodeOKPacket`. -/
def encodeOKPacket (affectedRows lastInsertID : UInt64) (statusFlags warnings : UInt16) : Bytes :=
  appendLenencInt (appendLenencInt [okPacketHeader] affectedRows) lastInsertID ++
    le16 statusFlags ++ le16 warnings

/-- `EncodeERRPacket`. -/
def encodeERRPacket (code : UInt16) (sqlState message : Bytes) : Bytes :=
  [errPacketHeader] ++ le16 code ++ str "#" ++
    (if sqlState.length ≠ 5 then str "HY000" else sqlState) ++ message

/-- `ParseERRPacket`. -/
def parseERRPacket (b : Bytes) : Bytes :=
  if b.length < 3 ∨ b.head? ≠ some errPacketHeader then str "not an ERR packet"
  else
    let code := uint16LE ((b.drop 1).take 2)
    let tagged := b[3]? = some 35 ∧ 9 ≤ b.length
    let sqlState := if tagged then (b.drop 4).take 5 else []
    let msg := if tagged then b.drop 9 else b.drop 3
    if sqlState ≠ [] then
      str "ERROR " ++ itoa code.toNat ++ str " (" ++ sqlState ++ str "): " ++ msg
    else str "ERROR " ++ itoa code.toNat ++ str ": " ++ msg

/-- `IsErrPacket`. -/
def isErrPacket (b : Bytes) : Bool := b.head? = some errPacketHeader

/-- `IsOKPacket`. -/
def isOKPacket (b : Bytes) : Bool := b.head? = some okPacketHeader

/-! ## The handshake of a server -/

/-- `HandshakeV10`. -/
structure HandshakeV10 where
  protocolVersion : UInt8
  serverVersion : Bytes
  connectionID : UInt32
  authPluginData : Bytes
  capabilities : UInt32
  characterSet : UInt8
  statusFlags : UInt16
  authPluginName : Bytes

/-- A two-byte field that may be missing at the end of a packet. -/
def optionalUint16 (b : Bytes) (pos : ℕ) : GoM GoError (UInt16 × ℕ) :=
  if pos + 2 ≤ b.length then do pure (uint16LE (← slice b pos (pos + 2)), pos + 2)
  else pure (0, pos)

/-- A one-byte field that may be missing at the end of a packet. -/
def optionalByte (b : Bytes) (pos : ℕ) : GoM GoError (UInt8 × ℕ) :=
  if pos < b.length then do pure (← index b pos, pos + 1) else pure (0, pos)

theorem optionalByte_of_at {b rest : Bytes} {pos : ℕ} {byte : UInt8} (h : At b pos (byte :: rest)) :
    optionalByte b pos = .ok (byte, pos + 1) := by
  have hpos : pos < b.length := by
    rw [h.length, List.length_cons]
    omega
  rw [optionalByte, if_pos hpos, h.index]
  rfl

theorem optionalUint16_of_at {b rest : Bytes} {pos : ℕ} {word : UInt16}
    (h : At b pos (le16 word ++ rest)) : optionalUint16 b pos = .ok (word, pos + 2) := by
  have hpos : pos + 2 ≤ b.length := by
    rw [h.length, List.length_append, length_le16]
    omega
  have hslice := h.slice (ε := GoError)
  rw [length_le16] at hslice
  rw [optionalUint16, if_pos hpos, hslice, ok_bind, uint16LE_le16]
  rfl

/-- The second part of the nonce, without the NUL the server appends. -/
def authDataPart2 (b : Bytes) (pos : ℕ) (capabilities : UInt32) (authDataLen : UInt8) :
    GoM GoError (Bytes × ℕ) :=
  if capabilities &&& clientSecureConnection ≠ 0 then do
    let part2Len := if 13 < authDataLen.toNat - 8 then authDataLen.toNat - 8 else 13
    let part2Len := if b.length < pos + part2Len then b.length - pos else part2Len
    if 0 < part2Len then do
      let part2 ← slice b pos (pos + part2Len)
      pure (trimNuls part2, pos + part2Len)
    else pure ([], pos)
  else pure ([], pos)

/-- The name of the plugin; some servers omit its NUL. -/
def authPluginName (b : Bytes) (pos : ℕ) (capabilities : UInt32) : Bytes :=
  if capabilities &&& clientPluginAuth ≠ 0 ∧ pos < b.length then
    match readNulString b pos with
    | .ok (name, _) => name
    | .error _ => trimNuls (b.drop pos)
  else []

/-- `ParseHandshakeV10`. -/
def parseHandshakeV10 (b : Bytes) : GoM GoError HandshakeV10 := do
  refuse (b.length < 1) (errorf "handshake: empty" [])
  let protocolVersion ← index b 0
  refuse (protocolVersion ≠ protocolVersion10)
    (if protocolVersion = errPacketHeader then
      errorf "server returned error instead of handshake: %s" [.text (parseERRPacket b)]
    else errorf "unsupported handshake protocol version %d" [.number protocolVersion.toNat])
  let (serverVersion, pos) ← mapErr (wrapf "handshake server version: %w" []) (readNulString b 1)
  refuse (b.length < pos + 4) (errorf "handshake: truncated connection id" [])
  let connectionID ← slice b pos (pos + 4)
  let pos := pos + 4
  refuse (b.length < pos + 8) (errorf "handshake: truncated auth-plugin-data-part-1" [])
  let authData ← slice b pos (pos + 8)
  let pos := pos + 8
  refuse (b.length ≤ pos) (errorf "handshake: truncated filler" [])
  let pos := pos + 1
  refuse (b.length < pos + 2) (errorf "handshake: truncated capability lower" [])
  let capLower ← slice b pos (pos + 2)
  let pos := pos + 2
  let (characterSet, pos) ← optionalByte b pos
  let (statusFlags, pos) ← optionalUint16 b pos
  let (capUpper, pos) ← optionalUint16 b pos
  let capabilities := (uint16LE capLower).toUInt32 ||| (capUpper.toUInt32 <<< 16)
  let (authDataLen, pos) ← optionalByte b pos
  let pos := if pos + 10 ≤ b.length then pos + 10 else pos
  let (part2, pos) ← authDataPart2 b pos capabilities authDataLen
  pure
    { protocolVersion
      serverVersion
      connectionID := uint32LE connectionID
      authPluginData := authData ++ part2
      capabilities
      characterSet
      statusFlags
      authPluginName := authPluginName b pos capabilities }

/-- `EncodeHandshakeV10`. -/
def encodeHandshakeV10 (serverVersion : Bytes) (connectionID capabilities : UInt32)
    (charset : UInt8) (statusFlags : UInt16) (authPlugin salt : Bytes) : Bytes :=
  let salt := if salt.length < 20 then salt ++ List.replicate (20 - salt.length) 0 else salt
  let authDataLen : UInt8 := if capabilities &&& clientPluginAuth ≠ 0 then 21 else 0
  let reserved : Bytes := List.replicate 10 0
  let nul : Bytes := [0]
  let plugin : Bytes := if capabilities &&& clientPluginAuth ≠ 0 then authPlugin ++ [0] else []
  [protocolVersion10] ++ serverVersion ++ nul ++ le32 connectionID ++ salt.take 8 ++ nul ++
    le16 capabilities.toUInt16 ++ [charset] ++ le16 statusFlags ++
    le16 (capabilities >>> 16).toUInt16 ++ [authDataLen] ++ reserved ++ (salt.take 20).drop 8 ++
    nul ++ plugin

/-! ## The login packet of a client -/

/-- The fixed header of a login packet: capabilities, packet size, character set, reserved bytes. -/
def loginHeader (capabilities : UInt32) (charset : UInt8) : Bytes :=
  le32 capabilities ++ le32 0xFFFFFF ++ [charset] ++ List.replicate 23 0

/-- `EncodeHandshakeResponse41`. -/
def encodeHandshakeResponse41 (capabilities : UInt32) (charset : UInt8)
    (username authResponse database authPlugin : Bytes) : Bytes :=
  loginHeader capabilities charset ++ username ++ [0] ++ [UInt8.ofNat authResponse.length] ++
    authResponse ++
    (if capabilities &&& clientConnectWithDB ≠ 0 then database ++ [0] else []) ++
    (if capabilities &&& clientPluginAuth ≠ 0 then authPlugin ++ [0] else [])

/-- `EncodeSSLRequest`. -/
def encodeSSLRequest (capabilities : UInt32) (charset : UInt8) : Bytes :=
  loginHeader capabilities charset

@[simp]
theorem length_loginHeader (capabilities : UInt32) (charset : UInt8) :
    (loginHeader capabilities charset).length = 32 := by
  simp only [loginHeader, List.length_append, length_le32, List.length_cons, List.length_nil,
    List.length_replicate]

/-- `HandshakeResponse41`. -/
structure HandshakeResponse41 where
  capabilities : UInt32
  maxPacketSize : UInt32
  characterSet : UInt8
  username : Bytes
  authResponse : Bytes
  database : Bytes
  authPlugin : Bytes

/-- `b[pos:stop]` with a stop that was computed as an `int`. -/
def sliceInt (b : Bytes) (pos : ℕ) (stop : ℤ) : GoM GoError Bytes :=
  if (pos : ℤ) ≤ stop then slice b pos stop.toNat else .error .panic

/-- The authentication response and the position behind it. A 64-bit length is added to the
position as an `int`, so the sum can be below the position. -/
def readAuthResponse (b : Bytes) (pos : ℕ) (capabilities : UInt32) :
    GoM GoError (Bytes × ℕ) :=
  if capabilities &&& clientPluginAuthLenencClientData ≠ 0 then do
    let (n, pos) ← mapErr (wrapf "handshake response auth len: %w" []) (readLenencInt b pos)
    let stop := (Int64.ofNat pos + n.toInt64).toInt
    refuse ((b.length : ℤ) < stop) (errorf "handshake response: auth-response out of range" [])
    let authResponse ← sliceInt b pos stop
    pure (authResponse, stop.toNat)
  else if capabilities &&& clientSecureConnection ≠ 0 then do
    refuse (b.length ≤ pos) (errorf "handshake response: missing auth length" [])
    let n ← index b pos
    let pos := pos + 1
    refuse (b.length < pos + n.toNat) (errorf "handshake response: auth-response out of range" [])
    let authResponse ← slice b pos (pos + n.toNat)
    pure (authResponse, pos + n.toNat)
  else mapErr (wrapf "handshake response auth: %w" []) (readNulString b pos)

/-- `ParseHandshakeResponse41`. -/
def parseHandshakeResponse41 (b : Bytes) : GoM GoError HandshakeResponse41 := do
  refuse (b.length < 32) (errorf "handshake response: too short (%d)" [.number b.length])
  let capabilities := uint32LE (← slice b 0 4)
  refuse (capabilities &&& clientProtocol41 = 0)
    (errorf "handshake response: pre-4.1 protocol not supported" [])
  let maxPacketSize := uint32LE (← slice b 4 8)
  let characterSet ← index b 8
  let (username, pos) ← mapErr (wrapf "handshake response username: %w" []) (readNulString b 32)
  let (authResponse, pos) ← readAuthResponse b pos capabilities
  let (database, pos) ←
    if capabilities &&& clientConnectWithDB ≠ 0 then
      mapErr (wrapf "handshake response database: %w" []) (readNulString b pos)
    else pure ([], pos)
  let authPlugin :=
    if capabilities &&& clientPluginAuth ≠ 0 ∧ pos < b.length then
      match readNulString b pos with
      | .ok (name, _) => name
      | .error _ => []
    else []
  pure
    { capabilities, maxPacketSize, characterSet, username, authResponse, database, authPlugin }

end DbPivot.Mysql
