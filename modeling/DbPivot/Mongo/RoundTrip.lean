import DbPivot.Go.SocketRules
import DbPivot.Mongo.Auth

/-!
# Replies and round trips of a login

A reply is a frame with a document whose fields may be missing or of any type. What
`parseMongoSaslReply` takes, and what one command and its reply do to the connection, are given here
as equivalences; the login is built from them.
-/

namespace DbPivot.Mongo

open DbPivot.Go

/-! ## Fields of a reply -/

/-- The `$db` of every command. -/
def authDatabase (authDB : Bytes) : Bytes := if authDB = [] then str "admin" else authDB

/-- The conversation that a `saslStart` reply opens. -/
def conversationID (env : Env) (doc : BSON) : Int32 :=
  match lookup (str "conversationId") doc with
  | some v => mongoToInt32 env v
  | none => 0

/-- The `conversationId` of the reply is this number, as an int32 or as an int64. -/
def HasConversationID (doc : BSON) (id : Int32) : Prop :=
  lookup (str "conversationId") doc = some (.int32 id) ∨
    ∃ n : Int64, lookup (str "conversationId") doc = some (.int64 n) ∧ n.toInt = id.toInt

/-- The payload of the reply; a reply without the field has an empty one. -/
def HasPayload (doc : BSON) (payload : Bytes) : Prop :=
  (∃ subtype, lookup (str "payload") doc = some (.binary subtype payload)) ∨
    lookup (str "payload") doc = none ∧ payload = []

/-- The upstream says that the conversation is over. -/
def Done (doc : BSON) : Prop := lookup (str "done") doc = some (.bool true)

theorem conversationID_of_has (env : Env) {doc : BSON} {id : Int32} (h : HasConversationID doc id) :
    conversationID env doc = id := by
  unfold conversationID
  rcases h with h | ⟨n, h, hn⟩
  · rw [h]
    rfl
  · rw [h]
    refine Int32.toInt_inj.mp ?_
    change n.toInt32.toInt = id.toInt
    rw [Int64.toInt_toInt32, hn]
    exact Int32.toInt_bmod id

/-- The part of `parseMongoSaslReply` that can fail behind the check of `ok`. -/
def saslPayload (doc : BSON) : GoM GoError Bytes :=
  match lookup (str "payload") doc with
  | some (.binary _ data) => pure data
  | some _ => fail (errorf "sasl reply payload is %T, want binary" [])
  | none => pure []

def saslDone (doc : BSON) : Bool :=
  match lookup (str "done") doc with
  | some (.bool value) => value
  | _ => false

theorem saslPayload_eq_ok {doc : BSON} {payload : Bytes} :
    saslPayload doc = .ok payload ↔ HasPayload doc payload := by
  unfold saslPayload HasPayload
  rcases lookup (str "payload") doc with _ | value
  · simp [pure, Except.pure, eq_comm]
  · cases value <;> simp [pure, Except.pure]

theorem returns_saslPayload (doc : BSON) : Returns (saslPayload doc) := by
  unfold saslPayload
  rcases lookup (str "payload") doc with _ | value
  · trivial
  · cases value <;> trivial

theorem saslDone_iff {doc : BSON} : saslDone doc ↔ Done doc := by
  unfold saslDone Done
  rcases lookup (str "done") doc with _ | value
  · simp
  · cases value <;> simp

theorem parseMongoSaslReply_eq (env : Env) (doc : BSON) :
    parseMongoSaslReply env doc = (do
      refuse (¬ mongoReplyOK doc) (mongoReplyError env doc)
      let payload ← saslPayload doc
      pure ⟨conversationID env doc, payload, saslDone doc⟩) := by
  unfold parseMongoSaslReply saslPayload conversationID saslDone
  rcases lookup (str "payload") doc with _ | value
  · rfl
  · cases value <;> rfl

/-- What `parseMongoSaslReply` takes, and what it makes of it. -/
theorem parseMongoSaslReply_eq_ok {env : Env} {doc : BSON} {reply : SaslReply} :
    parseMongoSaslReply env doc = .ok reply ↔
      mongoReplyOK doc ∧ HasPayload doc reply.payload ∧
        reply = ⟨conversationID env doc, reply.payload, saslDone doc⟩ := by
  rw [parseMongoSaslReply_eq, refuse_bind_eq_ok, not_not]
  refine and_congr_right fun _ ↦ ?_
  rw [bind_eq_ok]
  constructor
  · rintro ⟨payload, hpayload, h⟩
    obtain rfl := Except.ok.inj h
    exact ⟨saslPayload_eq_ok.mp hpayload, rfl⟩
  · rintro ⟨hpayload, h⟩
    exact ⟨_, saslPayload_eq_ok.mpr hpayload, congrArg Except.ok h.symm⟩

theorem returns_parseMongoSaslReply (env : Env) (doc : BSON) :
    Returns (parseMongoSaslReply env doc) := by
  rw [parseMongoSaslReply_eq]
  exact returns_bind (returns_refuse _ _) fun _ _ ↦
    returns_bind (returns_saslPayload doc) fun _ _ ↦ trivial

/-! ## One round trip -/

/-- The frame of a command. -/
def commandBytes (cmd : BSON) : Bytes := messageBytes 0 0 opMsg (encodeOpMsgBody 0 cmd)

/-- A frame that is taken as this reply. -/
def IsReply (frame : Bytes) (doc : BSON) : Prop :=
  ∃ requestID responseTo body flags, frame = messageBytes requestID responseTo opMsg body ∧
    msgHeaderLen + body.length ≤ maxMessageSize ∧ parseOpMsg body = .ok (flags, doc)

/-- The second half of `mongoCommandRoundTrip`. -/
def readReply : SocketM BSON := do
  let (hdr, body) ← .wrap (wrapf "read reply: %w" []) readMongoMessage
  .lift (refuse (hdr.opCode ≠ opMsg)
    (errorf "expected OP_MSG reply, got opcode %d" [.number hdr.opCode.toInt]))
  let (_, doc) ← .lift (mapErr (wrapf "parse reply: %w" []) (parseOpMsg body))
  pure doc

theorem mongoCommandRoundTrip_eq (cmd : BSON) :
    mongoCommandRoundTrip cmd = (do
      .wrap (wrapf "write command: %w" [])
        (writeMongoMessage 0 0 opMsg (encodeOpMsgBody 0 cmd))
      readReply) := rfl

theorem IsReply.length_pos {frame : Bytes} {doc : BSON} (h : IsReply frame doc) :
    0 < frame.length := by
  obtain ⟨requestID, responseTo, body, flags, rfl, -⟩ := h
  exact List.length_pos_iff.mpr (messageBytes_ne_nil _ _ _ _)

theorem readReply_eq_ok {input output : Bytes} {room : Option ℕ} {doc : BSON} {s' : Socket} :
    readReply.run ⟨input, output, room⟩ = (.ok doc, s') ↔
      ∃ frame rest, IsReply frame doc ∧ input = frame ++ rest ∧ s' = ⟨rest, output, room⟩ := by
  constructor
  · intro h
    obtain ⟨⟨hdr, body⟩, _, hread, h⟩ := SocketM.bind_eq_ok.mp h
    obtain ⟨-, hmax, hbefore⟩ := readMongoMessage_eq_ok.mp (SocketM.wrap_eq_ok.mp hread)
    obtain ⟨rest, hinput, rfl⟩ := Socket.eq_before_iff.mp hbefore
    obtain ⟨_, _, hop, h⟩ := SocketM.bind_eq_ok.mp h
    obtain ⟨hopOk, rfl⟩ := SocketM.lift_eq_ok.mp hop
    obtain ⟨⟨flags, doc'⟩, _, hparse, h⟩ := SocketM.bind_eq_ok.mp h
    obtain ⟨hparseOk, rfl⟩ := SocketM.lift_eq_ok.mp hparse
    obtain ⟨rfl, rfl⟩ := SocketM.pure_eq_ok.mp h
    have hopEq : hdr.opCode = opMsg := not_not.mp (refuse_eq_ok.mp hopOk)
    refine ⟨_, rest, ⟨hdr.requestID, hdr.responseTo, body, flags, rfl, hmax,
      mapErr_eq_ok.mp hparseOk⟩, ?_, rfl⟩
    rw [hinput, hopEq]
  · rintro ⟨_, rest, ⟨requestID, responseTo, body, flags, rfl, hmax, hparse⟩, rfl, rfl⟩
    have hread : readMongoMessage.run
        ⟨messageBytes requestID responseTo opMsg body ++ rest, output, room⟩ =
          (.ok (messageHeader requestID responseTo opMsg body.length, body),
            ⟨rest, output, room⟩) := readMongoMessage_messageBytes hmax rfl
    rw [readReply, SocketM.bind_of_ok (SocketM.wrap_eq_ok.mpr hread)]
    dsimp only [messageHeader]
    rw [SocketM.bind_refuse_of_not (not_not.mpr rfl),
      SocketM.bind_lift_of_ok (mapErr_eq_ok.mpr hparse)]
    rfl

theorem reader_readMongoMessage : readMongoMessage.Reader := by
  refine (reader_readFull _).bind fun header ↦ ?_
  dsimp only
  split
  · exact SocketM.reader_lift trivial
  · exact (reader_readFull _).bind fun _ ↦ SocketM.reader_pure _

theorem reader_readReply : readReply.Reader :=
  (reader_readMongoMessage.wrap _).bind fun message ↦
    (SocketM.reader_lift (returns_refuse _ _)).bind fun _ ↦
      (SocketM.reader_lift (returns_mapErr.mpr (returns_parseOpMsg message.2))).bind fun _ ↦
        SocketM.reader_pure _

theorem write_commandBytes (cmd : BSON) :
    writeMongoMessage 0 0 opMsg (encodeOpMsgBody 0 cmd) = write (commandBytes cmd) :=
  (write_append _ _).symm

theorem roundTrip_eq_ok {input output : Bytes} {cmd doc : BSON} {s' : Socket} :
    (mongoCommandRoundTrip cmd).run ⟨input, output, none⟩ = (.ok doc, s') ↔
      ∃ frame rest, IsReply frame doc ∧ input = frame ++ rest ∧
        s' = ⟨rest, output ++ commandBytes cmd, none⟩ := by
  have hwrite : (SocketM.wrap (wrapf "write command: %w" [])
      (writeMongoMessage 0 0 opMsg (encodeOpMsgBody 0 cmd))).run ⟨input, output, none⟩ =
        (.ok (), ⟨input, output ++ commandBytes cmd, none⟩) := by
    rw [SocketM.wrap_eq_ok, write_commandBytes, write_of_room rfl]
  rw [mongoCommandRoundTrip_eq, SocketM.bind_of_ok hwrite, readReply_eq_ok]

theorem causal_roundTrip (cmd : BSON) : (mongoCommandRoundTrip cmd).Causal := by
  rw [mongoCommandRoundTrip_eq, write_commandBytes]
  exact ((causal_write _).wrap _).bind fun _ ↦ reader_readReply.causal

theorem causal_saslRoundTrip (env : Env) (context : String) (cmd : BSON) :
    (saslRoundTrip env context cmd).Causal :=
  ((causal_roundTrip cmd).wrap _).bind fun _ ↦ SocketM.causal_lift _

end DbPivot.Mongo
