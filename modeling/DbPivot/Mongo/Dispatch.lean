import DbPivot.Mongo.Auth
import DbPivot.Proxy.Runs

/-!
# Dispatching commands

The handler of a MongoDB connection reads one message after another. It answers those that name no
configured database itself, and hands the first one that does over to the upstream of that
database, as it was read. A message it cannot decode ends the connection.
-/

namespace DbPivot.Mongo

open DbPivot.Go DbPivot.Config DbPivot.Proxy

/-- The name is that of a configured MongoDB database. -/
def Routable (s : Server) (name : Bytes) : Prop := (s.lookupDatabase adapterMongo name).isSome

instance (s : Server) (name : Bytes) : Decidable (Routable s name) :=
  inferInstanceAs (Decidable (_ = true))

/-- What `dispatchMongo` hands over to `routeMongo`. -/
structure Routed where
  db : Bytes
  hdr : MsgHeader
  body : Bytes

/-- One connection's view of its surroundings: its number and the client's address. -/
structure Peer where
  connID : Int32
  remoteAddr : Bytes

/-- The proxy's own reply to a command, with the context of an error when it cannot be written. -/
def localReply (env : Env) (peer : Peer) (now : Int64) (cmd : MongoCommand) : String × BSON :=
  if isHelloCommand cmd.doc then ("mongo write hello reply: %w", buildHelloReply peer.connID now)
  else
    match buildAdminCommandReply cmd peer.remoteAddr with
    | some reply => ("mongo write admin reply: %w", reply)
    | none =>
      ("mongo write error reply: %w",
        mongoErrorReply
          (env.render
            (errorf "dbpivot: database %q is not configured for mongodb" [.text cmd.db]))
          mongoErrInvalidNamespace)

/-- One round of the loop of `dispatchMongo`; no result means that the loop goes on. -/
def dispatchStep (env : Env) (s : Server) (peer : Peer) (now : Int64) :
    SocketM (Option Routed) := do
  let (hdr, body) ← .wrap (wrapf "mongo read command: %w" []) readMongoMessage
  let cmd ← .lift (decodeMongoCommand hdr body)
  if Routable s cmd.db then pure (some ⟨cmd.db, hdr, body⟩)
  else
    let (context, reply) := localReply env peer now cmd
    .wrap (wrapf context []) (writeMongoReply hdr.opCode hdr.requestID reply)
    pure none

/-! ## Frames that carry a command -/

/-- A message of admissible length that carries a command. -/
structure CommandFrame where
  requestID : Int32
  responseTo : Int32
  opCode : Int32
  body : Bytes
  cmd : MongoCommand
  fits : msgHeaderLen + body.length ≤ maxMessageSize
  decodes : decodeMongoCommand (messageHeader requestID responseTo opCode body.length) body =
    .ok cmd

namespace CommandFrame

def bytes (f : CommandFrame) : Bytes := messageBytes f.requestID f.responseTo f.opCode f.body

def header (f : CommandFrame) : MsgHeader :=
  messageHeader f.requestID f.responseTo f.opCode f.body.length

/-- The database the command names. -/
def db (f : CommandFrame) : Bytes := f.cmd.db

/-- The command as it is handed over. -/
def routed (f : CommandFrame) : Routed := ⟨f.db, f.header, f.body⟩

/-- A document in an `OP_MSG` message. -/
def ofDocument (requestID : Int32) (doc : BSON) (hdoc : Readable doc) : CommandFrame where
  requestID := requestID
  responseTo := 0
  opCode := opMsg
  body := encodeOpMsgBody 0 doc
  cmd := ⟨normaliseElements doc, (lookupBSONString (normaliseElements doc) (str "$db")).getD [],
    opMsg, requestID⟩
  fits := hdoc.fits
  decodes := decodeMongoCommand_opMsg rfl (parseOpMsg_encodeOpMsgBody hdoc)

/-- The reply to a frame with the given document: `OP_MSG` to `OP_MSG`, and `OP_REPLY` with one
document to `OP_QUERY`. -/
def reply (f : CommandFrame) (doc : BSON) : Bytes :=
  if f.opCode = opMsg then messageBytes 0 f.requestID opMsg (encodeOpMsgBody 0 doc)
  else messageBytes 0 f.requestID opReply (encodeOpReplyBody 0 0 0 [doc])

theorem opCode_eq (f : CommandFrame) : f.opCode = opMsg ∨ f.opCode = opQuery :=
  opCode_of_decodeMongoCommand f.decodes

end CommandFrame

/-- A client that keeps reading gets the reply. -/
theorem run_writeMongoReply {client : Socket} (hroom : client.room = none) (f : CommandFrame)
    (doc : BSON) :
    (writeMongoReply f.header.opCode f.header.requestID doc).run client =
      (.ok (), { client with output := client.output ++ f.reply doc }) := by
  rw [writeMongoReply, CommandFrame.reply]
  rcases f.opCode_eq with hop | hop
  · have hheader : f.header.opCode = opMsg := hop
    rw [if_pos hheader, if_pos hop]
    exact writeMongoMessage_of_room hroom _ _ _ _
  · have hheader : f.header.opCode = opQuery := hop
    have hne : f.opCode ≠ opMsg := by
      rw [hop]
      decide
    rw [if_neg hne, if_pos hheader, if_neg (by rw [hheader]; decide)]
    exact writeMongoMessage_of_room hroom _ _ _ _

theorem returns_writeMongoReply (reqOpCode responseTo : Int32) (doc : BSON) (client : Socket) :
    Returns ((writeMongoReply reqOpCode responseTo doc).run client).1 := by
  unfold writeMongoReply
  split
  · exact returns_writeMongoMessage _ _ _ _ _
  · split
    · exact returns_writeMongoMessage _ _ _ _ _
    · trivial

section Step

variable {env : Env} {s : Server} {peer : Peer} {now : Int64} {client : Socket}

section Round

variable {client' client'' : Socket} {hdr : MsgHeader} {body : Bytes} {cmd : MongoCommand}
  {error : GoError}

/-- A round that reads no message. -/
theorem dispatchStep_of_unread (hread : readMongoMessage.run client = (fail error, client')) :
    (dispatchStep env s peer now).run client =
      (fail (wrapf "mongo read command: %w" [] error), client') := by
  rw [dispatchStep]
  exact SocketM.bind_of_fail (SocketM.wrap_of_fail hread _) _

variable (hread : readMongoMessage.run client = (.ok (hdr, body), client'))

include hread

/-- A round that reads no command. -/
theorem dispatchStep_of_undecoded (hdecode : decodeMongoCommand hdr body = fail error) :
    (dispatchStep env s peer now).run client = (fail error, client') := by
  rw [dispatchStep, SocketM.bind_of_ok (SocketM.wrap_eq_ok.mpr hread)]
  exact SocketM.bind_of_fail (by rw [hdecode, SocketM.run_lift]) _

variable (hdecode : decodeMongoCommand hdr body = .ok cmd)

include hdecode

theorem dispatchStep_of_decoded :
    (dispatchStep env s peer now).run client =
      (if Routable s cmd.db then pure (some ⟨cmd.db, hdr, body⟩)
        else
          SocketM.wrap (wrapf (localReply env peer now cmd).1 [])
              (writeMongoReply hdr.opCode hdr.requestID (localReply env peer now cmd).2) >>=
            fun _ ↦ pure none : SocketM (Option Routed)).run client' := by
  rw [dispatchStep, SocketM.bind_of_ok (SocketM.wrap_eq_ok.mpr hread)]
  dsimp only
  rw [SocketM.bind_lift_of_ok hdecode]

theorem dispatchStep_of_found (hroutable : Routable s cmd.db) :
    (dispatchStep env s peer now).run client = (.ok (some ⟨cmd.db, hdr, body⟩), client') := by
  rw [dispatchStep_of_decoded hread hdecode, if_pos hroutable, SocketM.run_pure]

variable (hlocal : ¬ Routable s cmd.db)

include hlocal

theorem dispatchStep_of_answered
    (hwrite : (writeMongoReply hdr.opCode hdr.requestID (localReply env peer now cmd).2).run
      client' = (.ok (), client'')) :
    (dispatchStep env s peer now).run client = (.ok none, client'') := by
  rw [dispatchStep_of_decoded hread hdecode, if_neg hlocal,
    SocketM.bind_of_ok (SocketM.wrap_eq_ok.mpr hwrite), SocketM.run_pure]

theorem dispatchStep_of_unwritten
    (hwrite : (writeMongoReply hdr.opCode hdr.requestID (localReply env peer now cmd).2).run
      client' = (fail error, client'')) :
    (dispatchStep env s peer now).run client =
      (fail (wrapf (localReply env peer now cmd).1 [] error), client'') := by
  rw [dispatchStep_of_decoded hread hdecode, if_neg hlocal]
  exact SocketM.bind_of_fail (SocketM.wrap_of_fail hwrite _) _

end Round

theorem dispatchStep_read {f : CommandFrame} {rest : Bytes}
    (hinput : client.input = f.bytes ++ rest) :
    (dispatchStep env s peer now).run client =
      (if Routable s f.db then pure (some f.routed)
        else
          SocketM.wrap (wrapf (localReply env peer now f.cmd).1 [])
              (writeMongoReply f.header.opCode f.header.requestID
                (localReply env peer now f.cmd).2) >>=
            fun _ ↦ pure none : SocketM (Option Routed)).run { client with input := rest } :=
  dispatchStep_of_decoded (readMongoMessage_messageBytes f.fits hinput) f.decodes

/-- A command for a configured database is handed over, and nothing is sent back. -/
theorem dispatchStep_of_routable {f : CommandFrame} (hroutable : Routable s f.db) {rest : Bytes}
    (hinput : client.input = f.bytes ++ rest) :
    (dispatchStep env s peer now).run client =
      (.ok (some f.routed), { client with input := rest }) := by
  rw [dispatchStep_read hinput, if_pos hroutable, SocketM.run_pure]

/-- Any other command is taken from the stream and answered, unless the answer cannot be written. -/
theorem dispatchStep_of_not_routable {f : CommandFrame} (hroutable : ¬ Routable s f.db)
    {rest : Bytes} (hinput : client.input = f.bytes ++ rest) {result : Option Routed}
    {client' : Socket} (hstep : (dispatchStep env s peer now).run client = (.ok result, client')) :
    result = none ∧ client'.input = rest ∧ ∃ opCode body,
      client'.output = client.output ++ messageBytes 0 f.requestID opCode body := by
  rw [dispatchStep_read hinput, if_neg hroutable] at hstep
  rcases SocketM.bind_eq_ok.mp hstep with ⟨_, _, hwrite, hpure⟩
  rcases SocketM.pure_eq_ok.mp hpure with ⟨rfl, rfl⟩
  rcases transfer_of_writeMongoReply (SocketM.wrap_eq_ok.mp hwrite) with ⟨opCode, body, htransfer⟩
  exact ⟨rfl, htransfer.input.symm, opCode, body, htransfer.output⟩

/-- A round that succeeds has read a command, whatever the client sent. -/
theorem exists_frame_of_dispatchStep {result : Option Routed} {client' : Socket}
    (hstep : (dispatchStep env s peer now).run client = (.ok result, client')) :
    ∃ f : CommandFrame, client.input = f.bytes ++ client'.input ∧
      (result = none ∧ ¬ Routable s f.db ∨ result = some f.routed ∧ Routable s f.db) := by
  rcases SocketM.bind_eq_ok.mp hstep with ⟨⟨hdr, body⟩, middle, hread, hdecode⟩
  rcases SocketM.bind_eq_ok.mp hdecode with ⟨cmd, _, hcmd, -⟩
  have hread := SocketM.wrap_eq_ok.mp hread
  rcases readMongoMessage_eq_ok.mp hread with ⟨-, hmax, hclient⟩
  have hinput : client.input = messageBytes hdr.requestID hdr.responseTo hdr.opCode body ++
      middle.input := congrArg Socket.input hclient
  -- The header that was read is that of the message.
  have hhdr : messageHeader hdr.requestID hdr.responseTo hdr.opCode body.length = hdr := by
    have hagain := readMongoMessage_messageBytes hmax hinput
    rw [hread] at hagain
    exact (Prod.mk.inj (Except.ok.inj (Prod.mk.inj hagain).1)).1.symm
  have hdecodes := (SocketM.lift_eq_ok.mp hcmd).1
  rw [← hhdr] at hdecodes
  let f : CommandFrame := ⟨hdr.requestID, hdr.responseTo, hdr.opCode, body, cmd, hmax, hdecodes⟩
  have hframe : client.input = f.bytes ++ middle.input := hinput
  by_cases hroutable : Routable s f.db
  · rw [dispatchStep_of_routable hroutable hframe] at hstep
    rcases Prod.mk.inj hstep with ⟨hresult, rfl⟩
    exact ⟨f, hframe, .inr ⟨(Except.ok.inj hresult).symm, hroutable⟩⟩
  · rcases dispatchStep_of_not_routable hroutable hframe hstep with ⟨hresult, hrest, -⟩
    exact ⟨f, hrest ▸ hframe, .inl ⟨hresult, hroutable⟩⟩

/-- A client that keeps reading is answered. -/
theorem dispatchStep_of_room {f : CommandFrame} (hroutable : ¬ Routable s f.db) {rest : Bytes}
    (hinput : client.input = f.bytes ++ rest) (hroom : client.room = none) :
    (dispatchStep env s peer now).run client =
      (.ok none, ⟨rest, client.output ++ f.reply (localReply env peer now f.cmd).2, none⟩) := by
  have hrest : ({ client with input := rest } : Socket).room = none := hroom
  have hwrite := run_writeMongoReply hrest f (localReply env peer now f.cmd).2
  rw [dispatchStep_of_answered (readMongoMessage_messageBytes f.fits hinput) f.decodes hroutable
    hwrite, hroom]

/-- Nothing comes of a stream that has ended. -/
theorem dispatchStep_of_nil (hinput : client.input = []) {result : Option Routed}
    {client' : Socket} :
    (dispatchStep env s peer now).run client ≠ (.ok result, client') := by
  intro hstep
  rcases SocketM.bind_eq_ok.mp hstep with ⟨⟨hdr, body⟩, _, hread, -⟩
  have htaken := (transfer_of_readMongoMessage (SocketM.wrap_eq_ok.mp hread)).input
  rw [hinput] at htaken
  exact messageBytes_ne_nil _ _ _ _ (List.append_eq_nil_iff.mp htaken.symm).1

/-- A message that is too long ends the connection. -/
theorem dispatchStep_of_large {requestID responseTo opCode : Int32} {body rest : Bytes}
    (hlarge : maxMessageSize < msgHeaderLen + body.length)
    (hfits : msgHeaderLen + body.length < 2 ^ 31)
    (hinput : client.input = messageBytes requestID responseTo opCode body ++ rest) :
    ∃ error client', (dispatchStep env s peer now).run client = (fail error, client') := by
  rcases exists_fail_of_errs (errs_readMongoMessage hlarge hfits hinput) with ⟨error, herror⟩
  exact ⟨_, _, dispatchStep_of_unread (Prod.ext herror rfl)⟩

/-- A message that cannot be decoded ends the connection. -/
theorem dispatchStep_of_errs {requestID responseTo opCode : Int32} {body rest : Bytes}
    (hmax : msgHeaderLen + body.length ≤ maxMessageSize)
    (hinput : client.input = messageBytes requestID responseTo opCode body ++ rest)
    (herrs :
      Errs (decodeMongoCommand (messageHeader requestID responseTo opCode body.length) body)) :
    ∃ error, (dispatchStep env s peer now).run client =
      (fail error, { client with input := rest }) := by
  rcases exists_fail_of_errs herrs with ⟨error, herror⟩
  exact ⟨error, dispatchStep_of_undecoded (readMongoMessage_messageBytes hmax hinput) herror⟩

end Step

/-- Whatever the client sends, a round ends with an answer, a routed command or an error. -/
theorem returns_dispatchStep (env : Env) (s : Server) (peer : Peer) (now : Int64)
    (client : Socket) : Returns ((dispatchStep env s peer now).run client).1 := by
  refine SocketM.returns_run_bind (returns_mapErr.mpr (returns_readMongoMessage _))
    fun read middle ↦ ?_
  refine SocketM.returns_run_bind (returns_decodeMongoCommand _ _) fun cmd middle ↦ ?_
  split
  · trivial
  · exact SocketM.returns_run_bind (returns_mapErr.mpr (returns_writeMongoReply _ _ _ _))
      fun _ _ ↦ trivial

/-! ## Two databases behind one port -/

/-- A MongoDB database on its only target. -/
def mongoDatabase (name : Bytes) : Proxy.Database :=
  let d := newDatabase
    { adapter := adapterMongo, virtualName := name, targets := [singleTarget name] } ∅
  d.store (some (d.snapshot (singleTarget name) name))

def twoDatabases : Server where
  listenAddrs := ∅
  databases := GoMap.ofKeys [str "app", str "audit"] mongoDatabase
  currentTarget := str "local"
  currentVars := ∅

/-- A SCRAM library that accepts everything. -/
def openEnv : Env where
  render := fun _ ↦ []
  goos := str "linux"
  newClient := fun _ _ ↦ .ok ⟨fun _ ↦ .ok [], fun _ ↦ true⟩
  int32OfFloat64 := fun _ ↦ 0

theorem routable_twoDatabases (name : Bytes) :
    Routable twoDatabases name ↔ name = str "app" ∨ name = str "audit" := by
  rw [Routable, Server.isSome_lookupDatabase, twoDatabases, GoMap.get_ofKeys]
  split
  next hmem => simpa [mongoDatabase, newDatabase, Proxy.Database.store] using hmem
  next hmem => simpa using hmem

end DbPivot.Mongo
