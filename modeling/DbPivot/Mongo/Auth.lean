import DbPivot.Mongo.Handshake

/-!
# Logging in to the upstream

The proxy logs in with a `hello`, a SCRAM exchange carried by `saslStart` and `saslContinue`, and
further empty `saslContinue` commands until the server says that it is done. The cryptography is
that of a SCRAM library and enters as a conversation: a reply for every sequence of server messages.

A login that succeeds is a sequence of round trips. It has taken whole replies from the connection
and not one byte beyond the last of them, whatever the upstream has sent already.
-/

namespace DbPivot.Mongo

open DbPivot.Go

/-- A `scram.ClientConversation`: its next message and its verdict after the server messages so
far. -/
structure Conversation where
  step : List Bytes → GoM GoError Bytes
  valid : List Bytes → Bool

/-- What the program takes from its surroundings: `fmt`'s formatting, the operating system's name,
the SCRAM library, and the conversion of a `float64`, which Go leaves open outside the range of an
int32. -/
structure Env where
  render : GoError → Bytes
  goos : Bytes
  newClient : Bytes → Bytes → GoM GoError Conversation
  int32OfFloat64 : UInt64 → Int32

/-! ## Replies -/

/-- `mongoReplyOK`. The decoder never makes a plain `int`. -/
def mongoReplyOK (doc : BSON) : Bool :=
  match lookup (str "ok") doc with
  | some (.double bits) => bits = oneBits
  | some (.int32 n) => n = 1
  | some (.int64 n) => n = 1
  | some (.int n) => n = 1
  | _ => false

/-- `mongoToInt32`. -/
def mongoToInt32 (env : Env) : BSONValue → Int32
  | .int32 n => n
  | .int64 n => n.toInt32
  | .int n => n.toInt32
  | .double bits => env.int32OfFloat64 bits
  | _ => 0

/-- `mongoReplyError`. -/
def mongoReplyError (env : Env) (doc : BSON) : GoError :=
  let msg := match lookupBSONString doc (str "errmsg") with
    | some text => if text ≠ [] then text else str "command failed"
    | none => str "command failed"
  match lookup (str "code") doc with
  | some v =>
    if mongoToInt32 env v ≠ 0 then
      errorf "%s (code %d)" [.text msg, .number (mongoToInt32 env v).toInt]
    else errorf "%s" [.text msg]
  | none => errorf "%s" [.text msg]

/-- The fields of a `saslStart` or `saslContinue` reply. -/
structure SaslReply where
  convID : Int32
  payload : Bytes
  done : Bool

/-- `parseMongoSaslReply`. The Go type of a wrong payload is left out of the error. -/
def parseMongoSaslReply (env : Env) (doc : BSON) : GoM GoError SaslReply := do
  refuse (¬ mongoReplyOK doc) (mongoReplyError env doc)
  let convID := match lookup (str "conversationId") doc with
    | some v => mongoToInt32 env v
    | none => 0
  let payload ← match lookup (str "payload") doc with
    | some (.binary _ data) => pure data
    | some _ => fail (errorf "sasl reply payload is %T, want binary" [])
    | none => pure []
  let done := match lookup (str "done") doc with
    | some (.bool value) => value
    | _ => false
  pure { convID, payload, done }

/-! ## The login -/

/-- `mongoCommandRoundTrip`. -/
def mongoCommandRoundTrip (cmd : BSON) : SocketM BSON := do
  .wrap (wrapf "write command: %w" []) (writeMongoMessage 0 0 opMsg (encodeOpMsgBody 0 cmd))
  let (hdr, body) ← .wrap (wrapf "read reply: %w" []) readMongoMessage
  .lift (refuse (hdr.opCode ≠ opMsg)
    (errorf "expected OP_MSG reply, got opcode %d" [.number hdr.opCode.toInt]))
  let (_, doc) ← .lift (mapErr (wrapf "parse reply: %w" []) (parseOpMsg body))
  pure doc

def mongoProxyDriverVersion : Bytes := str "1.0"

/-- `mongoUpstreamClientMetadata`. -/
def mongoUpstreamClientMetadata (env : Env) : BSON :=
  [(str "driver", .document
      [(str "name", .string (str "dbpivot")), (str "version", .string mongoProxyDriverVersion)]),
    (str "os", .document [(str "type", .string env.goos)])]

/-- The `hello` of `mongoUpstreamHandshake`. -/
def helloCommand (env : Env) (db : Bytes) : BSON :=
  [(str "hello", .int32 1), (str "client", .document (mongoUpstreamClientMetadata env)),
    (str "$db", .string db)]

/-- `mongoUpstreamHandshake`. -/
def mongoUpstreamHandshake (env : Env) (db : Bytes) : SocketM Unit := do
  let reply ← mongoCommandRoundTrip (helloCommand env db)
  .lift (refuse (¬ mongoReplyOK reply) (mongoReplyError env reply))

def mongoScramMechanism : Bytes := str "SCRAM-SHA-256"

def saslStartCommand (clientFirst authDB : Bytes) : BSON :=
  [(str "saslStart", .int32 1), (str "mechanism", .string mongoScramMechanism),
    (str "payload", .binary 0 clientFirst),
    (str "options", .document [(str "skipEmptyExchange", .bool true)]),
    (str "$db", .string authDB)]

def saslContinueCommand (convID : Int32) (payload authDB : Bytes) : BSON :=
  [(str "saslContinue", .int32 1), (str "conversationId", .int32 convID),
    (str "payload", .binary 0 payload), (str "$db", .string authDB)]

/-- One command of the exchange; its errors are wrapped with the name of the step. -/
def saslRoundTrip (env : Env) (context : String) (cmd : BSON) : SocketM SaslReply := do
  let reply ← .wrap (wrapf context []) (mongoCommandRoundTrip cmd)
  .lift (mapErr (wrapf context []) (parseMongoSaslReply env reply))

/-- The loop at the end of the login. -/
def finalizeLoop (env : Env) (convID : Int32) (authDB : Bytes) : ℕ → SocketM Unit
  | 0 => .lift (.error .outOfFuel)
  | fuel + 1 => do
    let reply ← saslRoundTrip env "mongo saslContinue (finalize): %w"
      (saslContinueCommand convID [] authDB)
    if reply.done then pure () else finalizeLoop env convID authDB fuel

/-- `AuthenticateUpstreamMongo` with a bound on the rounds of its last loop. -/
def authenticateWith (fuel : ℕ) (env : Env) (user password authDB : Bytes) : SocketM Unit := do
  let authDB := if authDB = [] then str "admin" else authDB
  .wrap (wrapf "mongo upstream handshake: %w" []) (mongoUpstreamHandshake env authDB)
  let conv ← .lift (mapErr (wrapf "mongo scram client: %w" []) (env.newClient user password))
  let clientFirst ← .lift (mapErr (wrapf "mongo scram client-first: %w" []) (conv.step [[]]))
  let first ← saslRoundTrip env "mongo saslStart: %w" (saslStartCommand clientFirst authDB)
  let clientFinal ← .lift
    (mapErr (wrapf "mongo scram client-final: %w" []) (conv.step [[], first.payload]))
  let final ← saslRoundTrip env "mongo saslContinue: %w"
    (saslContinueCommand first.convID clientFinal authDB)
  let _ ← .lift (mapErr (wrapf "mongo scram verify server signature: %w" [])
    (conv.step [[], first.payload, final.payload]))
  .lift (refuse (¬ conv.valid [[], first.payload, final.payload])
    (errorf "mongo scram conversation did not validate" []))
  if final.done then pure () else finalizeLoop env first.convID authDB fuel

/-- `AuthenticateUpstreamMongo`. Every round reads a message, so what the upstream sends bounds the
last loop. -/
def authenticateUpstreamMongo (env : Env) (user password authDB : Bytes) : SocketM Unit :=
  ⟨fun s ↦ (authenticateWith (s.input.length + 1) env user password authDB).run s⟩

/-! ## What a login takes from the connection -/

/-- A message of admissible length. -/
def IsFrame (frame : Bytes) : Prop :=
  ∃ requestID responseTo opCode body, frame = messageBytes requestID responseTo opCode body ∧
    msgHeaderLen + body.length ≤ maxMessageSize

/-- As many commands written as replies read, all of them whole messages. -/
structure Exchange (s s' : Socket) (commands replies : List Bytes) : Prop where
  transfer : Transfer s s' replies.flatten commands.flatten
  paired : commands.length = replies.length
  command : ∀ command ∈ commands, ∃ doc,
    command = messageBytes 0 0 opMsg (encodeOpMsgBody 0 doc)
  reply : ∀ reply ∈ replies, IsFrame reply

/-- Some exchange takes place between the two states. -/
def Exchanges (s s' : Socket) : Prop := ∃ commands replies, Exchange s s' commands replies

theorem Exchanges.refl (s : Socket) : Exchanges s s :=
  ⟨[], [], Transfer.refl s, rfl, fun _ h ↦ absurd h List.not_mem_nil,
    fun _ h ↦ absurd h List.not_mem_nil⟩

theorem Exchanges.trans {s middle s' : Socket} (hfirst : Exchanges s middle)
    (hsecond : Exchanges middle s') : Exchanges s s' := by
  rcases hfirst with ⟨commands, replies, hfirst⟩
  rcases hsecond with ⟨commands', replies', hsecond⟩
  refine ⟨commands ++ commands', replies ++ replies', ?_, ?_, fun command hcommand ↦ ?_,
    fun reply hreply ↦ ?_⟩
  · rw [List.flatten_append, List.flatten_append]
    exact hfirst.transfer.trans hsecond.transfer
  · rw [List.length_append, List.length_append, hfirst.paired, hsecond.paired]
  · exact (List.mem_append.mp hcommand).elim (hfirst.command command) (hsecond.command command)
  · exact (List.mem_append.mp hreply).elim (hfirst.reply reply) (hsecond.reply reply)

theorem exchanges_roundTrip {cmd reply : BSON} {s s' : Socket}
    (h : (mongoCommandRoundTrip cmd).run s = (.ok reply, s')) : Exchanges s s' := by
  rcases SocketM.bind_eq_ok.mp h with ⟨_, middle, hwrite, h⟩
  have hsent := transfer_of_writeMongoMessage (SocketM.wrap_eq_ok.mp hwrite)
  rcases SocketM.bind_eq_ok.mp h with ⟨⟨hdr, body⟩, last, hread, h⟩
  have hread := SocketM.wrap_eq_ok.mp hread
  have hreceived := transfer_of_readMongoMessage hread
  rcases readMongoMessage_eq_ok.mp hread with ⟨-, hmax, -⟩
  rcases SocketM.bind_eq_ok.mp h with ⟨_, _, hop, h⟩
  rcases SocketM.lift_eq_ok.mp hop with ⟨-, rfl⟩
  rcases SocketM.bind_eq_ok.mp h with ⟨_, _, hparse, h⟩
  rcases SocketM.lift_eq_ok.mp hparse with ⟨-, rfl⟩
  rcases SocketM.pure_eq_ok.mp h with ⟨-, rfl⟩
  refine ⟨[messageBytes 0 0 opMsg (encodeOpMsgBody 0 cmd)],
    [messageBytes hdr.requestID hdr.responseTo hdr.opCode body], ?_, rfl,
    fun command hcommand ↦ ?_, fun frame hframe ↦ ?_⟩
  · simpa using hsent.trans hreceived
  · exact ⟨cmd, List.mem_singleton.mp hcommand⟩
  · exact ⟨_, _, _, body, List.mem_singleton.mp hframe, hmax⟩

theorem exchanges_saslRoundTrip {env : Env} {context : String} {cmd : BSON} {reply : SaslReply}
    {s s' : Socket} (h : (saslRoundTrip env context cmd).run s = (.ok reply, s')) :
    Exchanges s s' := by
  rcases SocketM.bind_eq_ok.mp h with ⟨doc, middle, htrip, hparse⟩
  rcases SocketM.lift_eq_ok.mp hparse with ⟨-, rfl⟩
  exact exchanges_roundTrip (SocketM.wrap_eq_ok.mp htrip)

theorem exchanges_finalizeLoop {env : Env} {convID : Int32} {authDB : Bytes} {fuel : ℕ}
    {s s' : Socket} {result : Unit}
    (h : (finalizeLoop env convID authDB fuel).run s = (.ok result, s')) : Exchanges s s' := by
  induction fuel generalizing s with
  | zero =>
    rcases SocketM.lift_eq_ok.mp h with ⟨hfuel, -⟩
    cases hfuel
  | succ fuel ih =>
    rcases SocketM.bind_eq_ok.mp h with ⟨reply, middle, htrip, hrest⟩
    have hfirst := exchanges_saslRoundTrip htrip
    split at hrest
    next => exact (SocketM.pure_eq_ok.mp hrest).2 ▸ hfirst
    next => exact hfirst.trans (ih hrest)

/-- A successful login is a sequence of whole round trips. -/
theorem exchanges_authenticate {env : Env} {user password authDB : Bytes} {s s' : Socket}
    {result : Unit}
    (h : (authenticateUpstreamMongo env user password authDB).run s = (.ok result, s')) :
    Exchanges s s' := by
  rcases SocketM.bind_eq_ok.mp h with ⟨_, afterHello, hhello, h⟩
  rcases SocketM.bind_eq_ok.mp (SocketM.wrap_eq_ok.mp hhello) with ⟨_, _, htrip, hok⟩
  rcases SocketM.lift_eq_ok.mp hok with ⟨-, rfl⟩
  rcases SocketM.bind_eq_ok.mp h with ⟨conv, _, hclient, h⟩
  rcases SocketM.lift_eq_ok.mp hclient with ⟨-, rfl⟩
  rcases SocketM.bind_eq_ok.mp h with ⟨clientFirst, _, hstep, h⟩
  rcases SocketM.lift_eq_ok.mp hstep with ⟨-, rfl⟩
  rcases SocketM.bind_eq_ok.mp h with ⟨first, afterFirst, hfirst, h⟩
  rcases SocketM.bind_eq_ok.mp h with ⟨clientFinal, _, hstep, h⟩
  rcases SocketM.lift_eq_ok.mp hstep with ⟨-, rfl⟩
  rcases SocketM.bind_eq_ok.mp h with ⟨final, afterFinal, hfinal, h⟩
  rcases SocketM.bind_eq_ok.mp h with ⟨_, _, hstep, h⟩
  rcases SocketM.lift_eq_ok.mp hstep with ⟨-, rfl⟩
  rcases SocketM.bind_eq_ok.mp h with ⟨_, _, hvalid, h⟩
  rcases SocketM.lift_eq_ok.mp hvalid with ⟨-, rfl⟩
  have hlogin := ((exchanges_roundTrip htrip).trans (exchanges_saslRoundTrip hfirst)).trans
    (exchanges_saslRoundTrip hfinal)
  split at h
  next => exact (SocketM.pure_eq_ok.mp h).2 ▸ hlogin
  next => exact hlogin.trans (exchanges_finalizeLoop h)

/-! ## A login that succeeds -/

/-- The reply document in an `OP_MSG` frame. -/
def replyBytes (doc : BSON) : Bytes := messageBytes 0 0 opMsg (encodeOpMsgBody 0 doc)

theorem mongoCommandRoundTrip_of_reply {doc : BSON} (hdoc : Readable doc) {s : Socket}
    (hroom : s.room = none) {rest : Bytes} (hinput : s.input = replyBytes doc ++ rest)
    (cmd : BSON) :
    ∃ s', (mongoCommandRoundTrip cmd).run s = (.ok (normaliseElements doc), s') ∧
      s'.input = rest ∧ s'.room = none := by
  have hwrite := writeMongoMessage_of_room hroom 0 0 opMsg (encodeOpMsgBody 0 cmd)
  have hread := readMongoMessage_messageBytes (s := ⟨s.input, s.output ++
    messageBytes 0 0 opMsg (encodeOpMsgBody 0 cmd), s.room⟩) hdoc.fits hinput
  have hop : ∀ error : GoError, refuse
      ((messageHeader 0 0 opMsg (encodeOpMsgBody 0 doc).length).opCode ≠ opMsg) error = .ok () :=
    fun _ ↦ refuse_eq_ok.mpr (not_not.mpr rfl)
  refine ⟨⟨rest, s.output ++ messageBytes 0 0 opMsg (encodeOpMsgBody 0 cmd), s.room⟩, ?_, rfl,
    hroom⟩
  rw [mongoCommandRoundTrip, SocketM.bind_of_ok (SocketM.wrap_eq_ok.mpr hwrite),
    SocketM.bind_of_ok (SocketM.wrap_eq_ok.mpr hread)]
  dsimp only
  rw [SocketM.bind_lift_of_ok (hop _),
    SocketM.bind_lift_of_ok (mapErr_eq_ok.mpr (parseOpMsg_encodeOpMsgBody hdoc))]
  rfl

/-- A conversation that goes through: the library accepts the two messages of the server. -/
structure Accepts (env : Env) (user password : Bytes) (conv : Conversation)
    (serverFirst serverFinal : Bytes) : Prop where
  client : env.newClient user password = .ok conv
  first : ∃ message, conv.step [[]] = .ok message
  final : ∃ message, conv.step [[], serverFirst] = .ok message
  verified : ∃ message, conv.step [[], serverFirst, serverFinal] = .ok message
  valid : conv.valid [[], serverFirst, serverFinal]

/-- What a login relies on: the library makes a conversation and its first message, every step
returns, and the third step succeeds only on a valid signature of the server. -/
structure Scram (env : Env) (user password : Bytes) (conv : Conversation) (clientFirst : Bytes)
    (Signed : Bytes → Bytes → Prop) : Prop where
  client : env.newClient user password = .ok conv
  first : conv.step [[]] = .ok clientFirst
  returns : ∀ messages, Returns (conv.step messages)
  signed : ∀ serverFirst serverFinal message,
    conv.step [[], serverFirst, serverFinal] = .ok message → Signed serverFirst serverFinal

/-- The conversation takes the last message of the server and is complete. -/
def Conversation.Verifies (conv : Conversation) (serverFirst serverFinal : Bytes) : Prop :=
  (∃ message, conv.step [[], serverFirst, serverFinal] = .ok message) ∧
    conv.valid [[], serverFirst, serverFinal]

/-- A conversation that takes any challenge and only the signature `v`. -/
def signingConversation : Conversation where
  step messages :=
    if messages.length = 3 ∧ messages.getLast? ≠ some (str "v") then
      fail (errorf "invalid server signature" [])
    else .ok messages.flatten
  valid messages := messages.length = 3

/-- A library that makes this conversation for everybody. -/
def signingEnv : Env where
  render _ := []
  goos := []
  newClient _ _ := .ok signingConversation
  int32OfFloat64 _ := 0

theorem scram_signingEnv (user password : Bytes) :
    Scram signingEnv user password signingConversation [] fun _ serverFinal ↦ serverFinal = str "v" where
  client := rfl
  first := rfl
  returns messages := by
    unfold signingConversation
    dsimp only
    split <;> trivial
  signed serverFirst serverFinal message h := by
    by_contra hsignature
    have hrefused : ([[], serverFirst, serverFinal] : List Bytes).length = 3 ∧
        [[], serverFirst, serverFinal].getLast? ≠ some (str "v") :=
      ⟨rfl, fun hlast ↦ hsignature (Option.some.inj hlast)⟩
    simp only [signingConversation, if_pos hrefused] at h
    exact absurd h (fail_ne_ok _ _)

/-- A `saslStart` or `saslContinue` reply with the given payload. -/
def saslReply (convID : Int32) (payload : Bytes) (done : Bool) : BSON :=
  [(str "conversationId", .int32 convID), (str "done", .bool done),
    (str "payload", .binary 0 payload), (str "ok", .double oneBits)]

theorem parseMongoSaslReply_saslReply (env : Env) (convID : Int32) (payload : Bytes) (done : Bool) :
    parseMongoSaslReply env (saslReply convID payload done) = .ok ⟨convID, payload, done⟩ := rfl

theorem saslRoundTrip_of_reply {convID : Int32} {payload : Bytes} {done : Bool}
    (hdoc : Readable (saslReply convID payload done)) {s : Socket} (hroom : s.room = none)
    {rest : Bytes} (hinput : s.input = replyBytes (saslReply convID payload done) ++ rest)
    (env : Env) (context : String) (cmd : BSON) :
    ∃ s', (saslRoundTrip env context cmd).run s = (.ok ⟨convID, payload, done⟩, s') ∧
      s'.input = rest ∧ s'.room = none := by
  rcases mongoCommandRoundTrip_of_reply hdoc hroom hinput cmd with ⟨s', htrip, hrest, hroom'⟩
  refine ⟨s', SocketM.bind_eq_ok.mpr ⟨_, _, SocketM.wrap_eq_ok.mpr htrip,
    SocketM.lift_eq_ok.mpr ⟨?_, rfl⟩⟩, hrest, hroom'⟩
  exact mapErr_eq_ok.mpr (parseMongoSaslReply_saslReply env convID payload done)

/-- The login goes through when the upstream answers as a server does that folds the last empty
round trip into its final message. -/
theorem authenticate_of_replies {env : Env} {user password authDB : Bytes} {conv : Conversation}
    {convID : Int32} {serverFirst serverFinal : Bytes}
    (haccepts : Accepts env user password conv serverFirst serverFinal)
    (hfirst : Readable (saslReply convID serverFirst false))
    (hfinal : Readable (saslReply convID serverFinal true)) {s : Socket} (hroom : s.room = none)
    {rest : Bytes}
    (hinput : s.input = replyBytes [(str "ok", .double oneBits)] ++
      (replyBytes (saslReply convID serverFirst false) ++
        (replyBytes (saslReply convID serverFinal true) ++ rest))) :
    ∃ s', (authenticateUpstreamMongo env user password authDB).run s = (.ok (), s') ∧
      s'.input = rest ∧ s'.room = none := by
  have hok : Readable [(str "ok", .double oneBits)] := ⟨⟨by decide, trivial, trivial⟩, by decide⟩
  rcases haccepts.first with ⟨clientFirst, hclientFirst⟩
  rcases haccepts.final with ⟨clientFinal, hclientFinal⟩
  rcases haccepts.verified with ⟨message, hverified⟩
  rcases mongoCommandRoundTrip_of_reply hok hroom hinput
    (helloCommand env (if authDB = [] then str "admin" else authDB)) with
    ⟨s₁, htrip₁, hrest₁, hroom₁⟩
  rcases saslRoundTrip_of_reply hfirst hroom₁ hrest₁ env "mongo saslStart: %w"
    (saslStartCommand clientFirst (if authDB = [] then str "admin" else authDB)) with
    ⟨s₂, htrip₂, hrest₂, hroom₂⟩
  rcases saslRoundTrip_of_reply hfinal hroom₂ hrest₂ env "mongo saslContinue: %w"
    (saslContinueCommand convID clientFinal (if authDB = [] then str "admin" else authDB)) with
    ⟨s₃, htrip₃, hrest₃, hroom₃⟩
  have hhello : (mongoUpstreamHandshake env (if authDB = [] then str "admin" else authDB)).run s =
      (.ok (), s₁) := by
    refine SocketM.bind_eq_ok.mpr ⟨_, _, htrip₁, SocketM.lift_eq_ok.mpr ⟨?_, rfl⟩⟩
    exact refuse_eq_ok.mpr (not_not.mpr rfl)
  refine ⟨s₃, ?_, hrest₃, hroom₃⟩
  change (authenticateWith (s.input.length + 1) env user password authDB).run s = _
  have hvalid : refuse (¬ conv.valid [[], serverFirst, serverFinal])
      (errorf "mongo scram conversation did not validate" []) = .ok () :=
    refuse_eq_ok.mpr (not_not.mpr haccepts.valid)
  rw [authenticateWith, SocketM.bind_of_ok (SocketM.wrap_eq_ok.mpr hhello),
    SocketM.bind_lift_of_ok (mapErr_eq_ok.mpr haccepts.client),
    SocketM.bind_lift_of_ok (mapErr_eq_ok.mpr hclientFirst), SocketM.bind_of_ok htrip₂,
    SocketM.bind_lift_of_ok (mapErr_eq_ok.mpr hclientFinal), SocketM.bind_of_ok htrip₃,
    SocketM.bind_lift_of_ok (mapErr_eq_ok.mpr hverified), SocketM.bind_lift_of_ok hvalid,
    if_pos rfl]
  rfl

end DbPivot.Mongo
