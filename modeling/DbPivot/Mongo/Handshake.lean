import DbPivot.Mongo.Wire

/-!
# Commands and the replies the proxy gives itself

MongoDB names the target database in every command, and a driver opens a connection with commands
that name none of the configured ones. The proxy decodes a command far enough to see its name and
its database, and it has replies of its own for the handshake and for the administrative commands
that follow it.
-/

namespace DbPivot.Mongo

open DbPivot.Go

/-! ## Commands -/

/-- A decoded request. -/
structure MongoCommand where
  doc : BSON
  db : Bytes
  opCode : Int32
  requestID : Int32

/-- `CommandName`: the key of the first element. -/
def MongoCommand.commandName (c : MongoCommand) : Bytes := (c.doc.head?.map Prod.fst).getD []

/-- `lookupBSONString`. -/
def lookupBSONString (doc : BSON) (key : Bytes) : Option Bytes :=
  match lookup key doc with
  | some (.string text) => some text
  | _ => none

/-- `strings.Cut` with a one-byte separator: the part before it, or everything. -/
def cutBefore (text : Bytes) (separator : UInt8) : Bytes :=
  match indexByte text separator with
  | some position => text.take position
  | none => text

/-- `decodeMongoCommand`. -/
def decodeMongoCommand (hdr : MsgHeader) (body : Bytes) : GoM GoError MongoCommand :=
  if hdr.opCode = opMsg then do
    let (_, doc) ← parseOpMsg body
    let db := (lookupBSONString doc (str "$db")).getD []
    pure { doc, db, opCode := opMsg, requestID := hdr.requestID }
  else if hdr.opCode = opQuery then do
    let q ← parseOpQuery body
    let db := cutBefore q.fullCollection 46
    pure { doc := q.query, db, opCode := opQuery, requestID := hdr.requestID }
  else fail (errorf "mongo: unexpected opcode %d during handshake" [.number hdr.opCode.toInt])

/-- `WriteMongoReply`: the reply has the framing of the request. -/
def writeMongoReply (reqOpCode responseTo : Int32) (doc : BSON) : SocketM Unit :=
  if reqOpCode = opMsg then writeMongoMessage 0 responseTo opMsg (encodeOpMsgBody 0 doc)
  else if reqOpCode = opQuery then
    writeMongoMessage 0 responseTo opReply (encodeOpReplyBody 0 0 0 [doc])
  else .lift (fail (errorf "mongo: cannot reply to opcode %d" [.number reqOpCode.toInt]))

/-- `strings.ToLower`, as far as the result is compared with ASCII text. Outside ASCII only the
Kelvin sign and the capital I with a dot have an ASCII letter as their lower case. -/
def toLower : Bytes → Bytes
  | 0xC4 :: 0xB0 :: rest => 105 :: toLower rest
  | 0xE2 :: 0x84 :: 0xAA :: rest => 107 :: toLower rest
  | byte :: rest => (if 65 ≤ byte ∧ byte ≤ 90 then byte + 32 else byte) :: toLower rest
  | [] => []

/-! ## Replies -/

/-- The `float64` values 0 and 1 by their bits. -/
def zeroBits : UInt64 := 0

def oneBits : UInt64 := 0x3FF0000000000000

def mongoMaxBSONObjectSize : Int32 := 16 * 1024 * 1024

def mongoMaxMessageSizeBytes : Int32 := 48 * 1000 * 1000

def mongoMaxWriteBatchSize : Int32 := 100000

def mongoLogicalSessionTTLMin : Int32 := 30

def mongoMinWireVersion : Int32 := 0

def mongoMaxWireVersion : Int32 := 17

def mongoFakeVersion : Bytes := str "6.0.0"

def mongoFakeFCV : Bytes := str "6.0"

/-- `IsHelloCommand`. -/
def isHelloCommand (doc : BSON) : Bool :=
  match doc with
  | [] => false
  | (key, _) :: _ => toLower key = str "hello" ∨ toLower key = str "ismaster"

/-- `BuildHelloReply`; the time is given in milliseconds. -/
def buildHelloReply (connectionID : Int32) (now : Int64) : BSON :=
  [(str "isWritablePrimary", .bool true),
    (str "ismaster", .bool true),
    (str "helloOk", .bool true),
    (str "maxBsonObjectSize", .int32 mongoMaxBSONObjectSize),
    (str "maxMessageSizeBytes", .int32 mongoMaxMessageSizeBytes),
    (str "maxWriteBatchSize", .int32 mongoMaxWriteBatchSize),
    (str "localTime", .dateTime now),
    (str "logicalSessionTimeoutMinutes", .int32 mongoLogicalSessionTTLMin),
    (str "connectionId", .int32 connectionID),
    (str "minWireVersion", .int32 mongoMinWireVersion),
    (str "maxWireVersion", .int32 mongoMaxWireVersion),
    (str "readOnly", .bool false),
    (str "ok", .double oneBits)]

/-- `mongoBuildInfoReply`. -/
def mongoBuildInfoReply : BSON :=
  [(str "version", .string mongoFakeVersion),
    (str "versionArray", .array [.int32 6, .int32 0, .int32 0, .int32 0]),
    (str "gitVersion", .string []),
    (str "maxBsonObjectSize", .int32 mongoMaxBSONObjectSize),
    (str "bits", .int32 64),
    (str "debug", .bool false),
    (str "ok", .double oneBits)]

/-- `mongoGetParameterReply`. -/
def mongoGetParameterReply (doc : BSON) : BSON :=
  let wantAll := lookupBSONString doc (str "getParameter") = some (str "*")
  let out : BSON :=
    if (lookup (str "featureCompatibilityVersion") doc).isSome ∨ wantAll then
      [(str "featureCompatibilityVersion", .document [(str "version", .string mongoFakeFCV)])]
    else []
  out ++ [(str "ok", .double oneBits)]

/-- `BuildAdminCommandReply`. -/
def buildAdminCommandReply (cmd : MongoCommand) (clientAddr : Bytes) : Option BSON :=
  let name := toLower cmd.commandName
  if name = str "ping" then some [(str "ok", .double oneBits)]
  else if name = str "buildinfo" then some mongoBuildInfoReply
  else if name = str "getparameter" then some (mongoGetParameterReply cmd.doc)
  else if name = str "getlog" then
    some [(str "totalLinesWritten", .int32 0), (str "log", .array []), (str "ok", .double oneBits)]
  else if name = str "whatsmyuri" then
    some [(str "you", .string clientAddr), (str "ok", .double oneBits)]
  else if name = str "connectionstatus" then
    some
      [(str "authInfo", .document
          [(str "authenticatedUsers", .array []), (str "authenticatedUserRoles", .array [])]),
        (str "ok", .double oneBits)]
  else if name = str "getcmdlineopts" then
    some [(str "argv", .array []), (str "parsed", .document []), (str "ok", .double oneBits)]
  else if name = str "endsessions" then some [(str "ok", .double oneBits)]
  else none

def mongoErrInternalError : Int32 := 1

def mongoErrHostUnreachable : Int32 := 6

def mongoErrInvalidNamespace : Int32 := 73

/-- `mongoErrorReply`. -/
def mongoErrorReply (errmsg : Bytes) (code : Int32) : BSON :=
  [(str "ok", .double zeroBits)] ++
    (if errmsg ≠ [] then [(str "errmsg", .string errmsg)] else []) ++
    (if code ≠ 0 then [(str "code", .int32 code)] else [])

/-! ## What a command names -/

/-- The database of an accepted message is decided by its opcode. -/
theorem decodeMongoCommand_opMsg {hdr : MsgHeader} {body : Bytes} (hop : hdr.opCode = opMsg)
    {flags : UInt32} {doc : BSON} (hparse : parseOpMsg body = .ok (flags, doc)) :
    decodeMongoCommand hdr body =
      .ok ⟨doc, (lookupBSONString doc (str "$db")).getD [], opMsg, hdr.requestID⟩ := by
  rw [decodeMongoCommand, if_pos hop, hparse]
  rfl

/-- No message makes the decoder panic or run on. -/
theorem returns_decodeMongoCommand (hdr : MsgHeader) (body : Bytes) :
    Returns (decodeMongoCommand hdr body) := by
  unfold decodeMongoCommand
  split
  · exact returns_bind (returns_parseOpMsg body) fun _ _ ↦ trivial
  · split
    · exact returns_bind (returns_parseOpQuery body) fun _ _ ↦ trivial
    · trivial

theorem opCode_of_decodeMongoCommand {hdr : MsgHeader} {body : Bytes} {cmd : MongoCommand}
    (hdecode : decodeMongoCommand hdr body = .ok cmd) :
    hdr.opCode = opMsg ∨ hdr.opCode = opQuery := by
  unfold decodeMongoCommand at hdecode
  split at hdecode
  next hmsg => exact .inl hmsg
  next =>
    split at hdecode
    next hquery => exact .inr hquery
    next => exact absurd hdecode (fail_ne_ok _ _)

/-- A reply to a request that was decoded is a message on the wire. -/
theorem transfer_of_writeMongoReply {reqOpCode responseTo : Int32} {doc : BSON} {s s' : Socket}
    {result : Unit} (h : (writeMongoReply reqOpCode responseTo doc).run s = (.ok result, s')) :
    ∃ opCode body, Transfer s s' [] (messageBytes 0 responseTo opCode body) := by
  unfold writeMongoReply at h
  split at h
  next => exact ⟨_, _, transfer_of_writeMongoMessage h⟩
  next =>
    split at h
    next => exact ⟨_, _, transfer_of_writeMongoMessage h⟩
    next => exact absurd (SocketM.lift_eq_ok.mp h).1 (fail_ne_ok _ _)

end DbPivot.Mongo
