import DbPivot.Go.Format
import DbPivot.Mongo.Session

/-!
# Replies before routing

Until a command names a configured database the proxy is the server: it answers from the loop that
waits for such a command. A driver matches replies to requests by their number, and it expects none
for an `OP_MSG` message with the flag `moreToCome`. The loop answers every command it decodes, since
the flags are gone by then.

The replies to known commands are short. A reply repeats something of what it is given in two
cases only: the address of a client that asks for it, and the name, quoted, of a database that is
not configured. So replies and requests correspond one to one exactly for the clients that never
set the flag, unless one of these two is about as long as a message may be.
-/

namespace DbPivot.Mongo

open DbPivot.Go DbPivot.Config DbPivot.Proxy DbPivot.System

/-- The flag bit `OpMsgFlagMoreToCome`. -/
def moreToCome (flags : UInt32) : Prop := flags &&& 2 ≠ 0

instance (flags : UInt32) : Decidable (moreToCome flags) := inferInstanceAs (Decidable (_ ≠ _))

namespace CommandFrame

/-- The first word of the body, where `OP_MSG` has its flags. -/
def flags (f : CommandFrame) : UInt32 := uint32LE (f.body.take 4)

/-- The client waits for a reply. -/
def ExpectsReply (f : CommandFrame) : Prop := f.opCode = opMsg → ¬ moreToCome f.flags

instance (f : CommandFrame) : Decidable f.ExpectsReply :=
  inferInstanceAs (Decidable (_ → _))

/-- A body that answers a request: it is decoded to the document in the way of its format. -/
inductive Answers (f : CommandFrame) (doc : BSON) (hdr : MsgHeader) (body : Bytes) : Prop where
  | opMsg (hrequest : f.opCode = opMsg) (hop : hdr.opCode = opMsg)
      (hparse : parseOpMsg body = .ok (0, doc))
  | opReply (hrequest : f.opCode = opQuery) (hop : hdr.opCode = opReply)
      (hnumber : uint32LE ((body.drop 16).take 4) = 1)
      (hread : readBSONDocument (body.drop 20) = .ok (doc, body.length - 20))

/-- The client reads the bytes as one message, finds the number of its request in it and decodes the
document, whatever comes next on the connection. -/
def Correlates (f : CommandFrame) (doc : BSON) (bytes : Bytes) : Prop :=
  ∀ (client : Socket) (rest : Bytes), client.input = bytes ++ rest →
    ∃ hdr body, readMongoMessage.run client = (.ok (hdr, body), { client with input := rest }) ∧
      hdr.responseTo = f.requestID ∧ f.Answers doc hdr body

end CommandFrame

/-! ## One reply -/

theorem encodeOpReplyBody_singleton (doc : BSON) :
    encodeOpReplyBody 0 0 0 [doc] = le32 0 ++ le64 0 ++ le32 0 ++ le32 1 ++ marshalBSON doc := by
  rw [encodeOpReplyBody, List.foldl_cons, List.foldl_nil, appendBSON_append]
  rfl

/-- The codec gives the document back as it is. -/
structure Faithful (doc : BSON) : Prop where
  keys : KeysOk doc
  normal : normaliseElements doc = doc

section Reply

variable {f : CommandFrame} {doc : BSON}

theorem answers_opReply (hop : f.opCode = opQuery) (hdoc : Faithful doc)
    (hfits : (marshalBSON doc).length < 2 ^ 31) {hdr : MsgHeader} (hreply : hdr.opCode = opReply) :
    f.Answers doc hdr (encodeOpReplyBody 0 0 0 [doc]) := by
  have hread := (readBSONDocument_marshalBSON doc hdoc.keys hfits [] []).1
  rw [List.append_nil, hdoc.normal] at hread
  refine .opReply hop hreply ?_ ?_
  · rw [encodeOpReplyBody_singleton, List.append_assoc, List.drop_left' (by decide),
      List.take_left' (length_le32 _), uint32LE_le32]
  · have hheader : (le32 0 ++ le64 0 ++ le32 0 ++ le32 1).length = 20 := by decide
    rw [encodeOpReplyBody_singleton, List.drop_left' hheader, hread, List.length_append, hheader,
      Nat.add_sub_cancel_left]

/-- A reply is understood exactly if it is not longer than a message may be. -/
theorem correlates_reply_iff (hdoc : Faithful doc) :
    f.Correlates doc (f.reply doc) ↔ (f.reply doc).length ≤ maxMessageSize := by
  constructor
  · intro h
    obtain ⟨hdr, body, hread, -⟩ := h ⟨f.reply doc ++ [], [], none⟩ [] rfl
    obtain ⟨-, hmax, hsocket⟩ := readMongoMessage_eq_ok.mp hread
    have hinput := congrArg (fun socket : Socket ↦ socket.input.length) hsocket
    simp only [messageBytes, List.append_nil, List.length_append, length_headerBytes] at hinput
    omega
  · intro hfits client rest hinput
    rcases f.opCode_eq with hop | hop
    · rw [CommandFrame.reply, if_pos hop] at hfits hinput
      rw [messageBytes, List.length_append, length_headerBytes] at hfits
      refine ⟨_, _, readMongoMessage_messageBytes hfits hinput, rfl, .opMsg hop rfl ?_⟩
      rw [parseOpMsg_encodeOpMsgBody ⟨hdoc.keys, hfits⟩, hdoc.normal]
    · have hne : f.opCode ≠ opMsg := by
        rw [hop]
        decide
      rw [CommandFrame.reply, if_neg hne] at hfits hinput
      rw [messageBytes, List.length_append, length_headerBytes] at hfits
      refine ⟨_, _, readMongoMessage_messageBytes hfits hinput, rfl, answers_opReply hop hdoc ?_ rfl⟩
      rw [encodeOpReplyBody_singleton, List.length_append] at hfits
      unfold maxMessageSize at hfits
      omega

end Reply

/-! ## The documents -/

theorem faithful_buildHelloReply (connectionID : Int32) (now : Int64) :
    Faithful (buildHelloReply connectionID now) := by
  constructor
  · simp only [buildHelloReply, KeysOk, ValueKeysOk]
    decide
  · rfl

theorem faithful_mongoErrorReply (errmsg : Bytes) (code : Int32) :
    Faithful (mongoErrorReply errmsg code) := by
  unfold mongoErrorReply
  constructor
  · split <;> split <;> simp only [List.append_nil, List.cons_append, List.nil_append, KeysOk,
      ValueKeysOk] <;> decide
  · split <;> split <;> rfl

theorem faithful_mongoBuildInfoReply : Faithful mongoBuildInfoReply := by
  constructor
  · simp only [mongoBuildInfoReply, KeysOk, ValueKeysOk, ItemKeysOk]
    decide
  · rfl

theorem faithful_mongoGetParameterReply (doc : BSON) : Faithful (mongoGetParameterReply doc) := by
  unfold mongoGetParameterReply
  dsimp only
  split
  · exact ⟨⟨by decide, ⟨by decide, trivial, trivial⟩, by decide, trivial, trivial⟩, rfl⟩
  · exact ⟨⟨by decide, trivial, trivial⟩, rfl⟩

theorem faithful_buildAdminCommandReply {cmd : MongoCommand} {clientAddr : Bytes} {reply : BSON}
    (h : buildAdminCommandReply cmd clientAddr = some reply) : Faithful reply := by
  simp only [buildAdminCommandReply] at h
  split at h
  next => cases h; exact ⟨⟨by decide, trivial, trivial⟩, rfl⟩
  split at h
  next => cases h; exact faithful_mongoBuildInfoReply
  split at h
  next => cases h; exact faithful_mongoGetParameterReply _
  split at h
  next => cases h; exact ⟨⟨by decide, trivial, by decide, trivial, by decide, trivial, trivial⟩, rfl⟩
  split at h
  next => cases h; exact ⟨⟨by decide, trivial, by decide, trivial, trivial⟩, rfl⟩
  split at h
  next =>
    cases h
    exact ⟨⟨by decide, ⟨by decide, trivial, by decide, trivial, trivial⟩, by decide, trivial,
      trivial⟩, rfl⟩
  split at h
  next => cases h; exact ⟨⟨by decide, trivial, by decide, trivial, by decide, trivial, trivial⟩, rfl⟩
  split at h
  next => cases h; exact ⟨⟨by decide, trivial, trivial⟩, rfl⟩
  next => cases h

theorem faithful_localReply (env : Env) (peer : Peer) (now : Int64) (cmd : MongoCommand) :
    Faithful (localReply env peer now cmd).2 := by
  unfold localReply
  split
  · exact faithful_buildHelloReply _ _
  · split
    next reply hreply => exact faithful_buildAdminCommandReply hreply
    next => exact faithful_mongoErrorReply _ _

/-! ## The length of a reply -/

theorem length_dateTime (key : Bytes) (millis : Int64) :
    (appendBSONElement [] key (.dateTime millis)).length = key.length + 10 := by
  simp only [appendBSONElement, appendHeader_eq, List.nil_append, List.length_append,
    List.length_cons, List.length_nil, length_le64]

theorem length_int32 (key : Bytes) (n : Int32) :
    (appendBSONElement [] key (.int32 n)).length = key.length + 6 := by
  simp only [appendBSONElement, appendHeader_eq, List.nil_append, List.length_append,
    List.length_cons, List.length_nil, length_le32]

theorem length_string (key text : Bytes) :
    (appendBSONElement [] key (.string text)).length = key.length + text.length + 7 := by
  simp only [appendBSONElement, appendBSONString, appendHeader_eq, List.nil_append,
    List.length_append, List.length_cons, List.length_nil, length_le32]
  omega

theorem length_buildHelloReply (connectionID : Int32) (now : Int64) :
    (marshalBSON (buildHelloReply connectionID now)).length =
      (marshalBSON (buildHelloReply 0 0)).length := by
  simp only [length_marshalBSON, buildHelloReply, appendElements_cons, List.length_append,
    length_dateTime, length_int32]

theorem length_mongoErrorReply {errmsg : Bytes} {code : Int32} (hmsg : errmsg ≠ [])
    (hcode : code ≠ 0) :
    (marshalBSON (mongoErrorReply errmsg code)).length = errmsg.length + 40 := by
  have hok : (appendBSONElement [] (str "ok") (.double zeroBits)).length = 12 := by decide
  have hkeys : (str "errmsg").length = 6 ∧ (str "code").length = 4 := by decide
  rw [mongoErrorReply, if_pos hmsg, if_pos hcode]
  have hnil : (appendElements [] []).length = 0 := rfl
  simp only [length_marshalBSON, List.cons_append, List.nil_append, appendElements_cons,
    List.length_append, length_string, length_int32, hok, hkeys, hnil]
  omega

/-- The text of the error for a database that is not configured. -/
theorem errorText_notConfigured (isPrint : ℕ → Bool) (db : Bytes) :
    errorText isPrint (errorf "dbpivot: database %q is not configured for mongodb" [.text db]) =
      str "dbpivot: database " ++ (quote isPrint db ++ str " is not configured for mongodb") := by
  rfl

/-- The commands of `BuildAdminCommandReply`, in lower case. -/
def adminCommands : List Bytes :=
  [str "ping", str "buildinfo", str "getparameter", str "getlog", str "whatsmyuri",
    str "connectionstatus", str "getcmdlineopts", str "endsessions"]

/-- The proxy has a reply of its own for the command. -/
def MongoCommand.Known (cmd : MongoCommand) : Prop :=
  isHelloCommand cmd.doc ∨ toLower cmd.commandName ∈ adminCommands

theorem commandName_of_hello {cmd : MongoCommand} (h : isHelloCommand cmd.doc) :
    toLower cmd.commandName = str "hello" ∨ toLower cmd.commandName = str "ismaster" := by
  unfold isHelloCommand at h
  split at h
  next => cases h
  next hdoc =>
    rw [MongoCommand.commandName, hdoc]
    exact of_decide_eq_true h

/-- The replies to administrative commands are short, but for the one that has the address. -/
theorem buildAdminCommandReply_cases (cmd : MongoCommand) (clientAddr : Bytes) :
    (toLower cmd.commandName ∉ adminCommands ∧ buildAdminCommandReply cmd clientAddr = none) ∨
    (toLower cmd.commandName = str "whatsmyuri" ∧
      ∃ reply, buildAdminCommandReply cmd clientAddr = some reply ∧
        (marshalBSON reply).length = clientAddr.length + 27) ∨
    (toLower cmd.commandName ∈ adminCommands ∧ toLower cmd.commandName ≠ str "whatsmyuri" ∧
      ∃ reply, buildAdminCommandReply cmd clientAddr = some reply ∧
        (marshalBSON reply).length ≤ 1024) := by
  have hshort {name : Bytes} (hname : toLower cmd.commandName = name)
      (hmem : name ∈ adminCommands ∧ name ≠ str "whatsmyuri") {reply : BSON}
      (hlength : (marshalBSON reply).length ≤ 1024) :
      toLower cmd.commandName ∈ adminCommands ∧ toLower cmd.commandName ≠ str "whatsmyuri" ∧
        ∃ found, some reply = some found ∧ (marshalBSON found).length ≤ 1024 := by
    rw [hname]
    exact ⟨hmem.1, hmem.2, reply, rfl, hlength⟩
  simp only [buildAdminCommandReply]
  split
  next hname => exact .inr (.inr (hshort hname (by decide) (by decide +kernel)))
  next hping =>
  split
  next hname => exact .inr (.inr (hshort hname (by decide) (by decide +kernel)))
  next hinfo =>
  split
  next hname =>
    refine .inr (.inr (hshort hname (by decide) ?_))
    unfold mongoGetParameterReply
    dsimp only
    split <;> decide
  next hparameter =>
  split
  next hname => exact .inr (.inr (hshort hname (by decide) (by decide +kernel)))
  next hlog =>
  split
  next hname =>
    have hfixed : (str "you").length = 3 ∧ (appendElements [] []).length = 0 ∧
        (appendBSONElement [] (str "ok") (.double oneBits)).length = 12 := by decide
    refine .inr (.inl ⟨hname, _, rfl, ?_⟩)
    simp only [length_marshalBSON, appendElements_cons, List.length_append, length_string, hfixed]
    omega
  next huri =>
  split
  next hname => exact .inr (.inr (hshort hname (by decide) (by decide +kernel)))
  next hstatus =>
  split
  next hname => exact .inr (.inr (hshort hname (by decide) (by decide +kernel)))
  next hopts =>
  split
  next hname => exact .inr (.inr (hshort hname (by decide) (by decide +kernel)))
  next hsessions =>
    refine .inl ⟨?_, rfl⟩
    simp [adminCommands, hping, hinfo, hparameter, hlog, huri, hstatus, hopts, hsessions]

namespace CommandFrame

/-- The bytes of a reply around its document: the header and the fixed part of the body. -/
def replyFrame (f : CommandFrame) : ℕ := if f.opCode = opMsg then 21 else 36

theorem length_reply (f : CommandFrame) (doc : BSON) :
    (f.reply doc).length = f.replyFrame + (marshalBSON doc).length := by
  rw [reply, replyFrame]
  split
  · rw [messageBytes, List.length_append, length_headerBytes, length_encodeOpMsgBody, msgHeaderLen]
    omega
  · have hfixed : (le32 0 ++ le64 0 ++ le32 0 ++ le32 1).length = 20 := by decide
    rw [messageBytes, List.length_append, length_headerBytes, encodeOpReplyBody_singleton,
      List.length_append, hfixed, msgHeaderLen]
    omega

theorem replyFrame_le (f : CommandFrame) : f.replyFrame ≤ 36 := by
  rw [replyFrame]
  split <;> omega

/-- What the frame makes the proxy repeat fits into a reply: the address of the client, if it asks
for that, and the quoted name of its database, if the command is not a known one. -/
structure ReplyFits (isPrint : ℕ → Bool) (peer : Peer) (f : CommandFrame) : Prop where
  address : toLower f.cmd.commandName = str "whatsmyuri" →
    f.replyFrame + 27 + peer.remoteAddr.length ≤ maxMessageSize
  name : ¬ f.cmd.Known → f.replyFrame + 88 + (quote isPrint f.db).length ≤ maxMessageSize

/-- The reply to a frame is not too long exactly if what it repeats is not. -/
theorem length_reply_le_iff {env : Env} {isPrint : ℕ → Bool}
    (hrender : ∀ err, env.render err = errorText isPrint err) (peer : Peer) (f : CommandFrame)
    (now : Int64) :
    (f.reply (localReply env peer now f.cmd).2).length ≤ maxMessageSize ↔
      f.ReplyFits isPrint peer := by
  have hframe := f.replyFrame_le
  have hmax : 2000 ≤ maxMessageSize := by decide
  rw [length_reply, localReply]
  split
  next hhello =>
    have hlength : (marshalBSON (buildHelloReply 0 0)).length ≤ 1024 := by decide +kernel
    rw [length_buildHelloReply]
    refine iff_of_true (by omega) ⟨fun hname ↦ ?_, fun hunknown ↦ absurd (.inl hhello) hunknown⟩
    have hno : str "whatsmyuri" ≠ str "hello" ∧ str "whatsmyuri" ≠ str "ismaster" := by decide
    rcases commandName_of_hello hhello with hhello | hhello
    · exact absurd (hname.symm.trans hhello) hno.1
    · exact absurd (hname.symm.trans hhello) hno.2
  next hhello =>
    rcases buildAdminCommandReply_cases f.cmd peer.remoteAddr with
      ⟨hname, hreply⟩ | ⟨hname, reply, hreply, hlength⟩ | ⟨hmem, hname, reply, hreply, hlength⟩
    · have hunknown : ¬ f.cmd.Known := not_or.mpr ⟨hhello, hname⟩
      have htext : (str "dbpivot: database ").length = 18 ∧
          (str " is not configured for mongodb").length = 30 := by decide
      rw [hreply]
      dsimp only
      have hne : str "dbpivot: database " ≠ [] := by decide
      rw [hrender, errorText_notConfigured,
        length_mongoErrorReply (List.append_ne_nil_of_left_ne_nil hne _) (by decide)]
      simp only [List.length_append, htext]
      constructor
      · intro h
        refine ⟨fun huri ↦ absurd (huri ▸ by decide) hname, fun _ ↦ ?_⟩
        have hdb : f.cmd.db = f.db := rfl
        rw [hdb] at h
        omega
      · intro h
        have hfits := h.name hunknown
        have hdb : f.cmd.db = f.db := rfl
        rw [hdb]
        omega
    · have hknown : f.cmd.Known := .inr (hname ▸ by decide)
      rw [hreply]
      dsimp only
      rw [hlength]
      constructor
      · intro h
        exact ⟨fun _ ↦ by omega, fun hunknown ↦ absurd hknown hunknown⟩
      · intro h
        have hfits := h.address hname
        omega
    · rw [hreply]
      dsimp only
      exact iff_of_true (by omega) ⟨fun huri ↦ absurd huri hname, fun hunknown ↦
        absurd (.inr hmem) hunknown⟩

end CommandFrame

/-! ## The loop -/

/-- A frame and the time at which it was answered. -/
abbrev Round := CommandFrame × Int64

/-- The document that is built for the command of the round. -/
def Round.doc (env : Env) (peer : Peer) (r : Round) : BSON := (localReply env peer r.2 r.1.cmd).2

def Round.reply (env : Env) (peer : Peer) (r : Round) : Bytes := r.1.reply (r.doc env peer)

/-- One reply for each of the rounds, in their order. -/
def replies (env : Env) (peer : Peer) (rounds : List Round) : Bytes :=
  (rounds.map (Round.reply env peer)).flatten

section Loop

variable (env : Env) (peer : Peer) {client : Socket}

/-- At the end of the stream the handler gives up and writes nothing. -/
theorem dispatchStep_ends (s : Server) (now : Int64) (hinput : client.input = []) :
    ∃ error, (dispatchStep env s peer now).run client = (fail error, client) := by
  have hfull : (readFull msgHeaderLen).run client = (fail eof, client) := by
    simp only [readFull, hinput]
    rw [if_neg (by decide), if_pos trivial, ← hinput]
  have hread : readMongoMessage.run client = (fail eof, client) := SocketM.bind_of_fail hfull _
  have hwrap : (SocketM.wrap (wrapf "mongo read command: %w" []) readMongoMessage).run client =
      (fail (wrapf "mongo read command: %w" [] eof), client) := by
    simp only [SocketM.wrap, hread]
    rfl
  exact ⟨_, SocketM.bind_of_fail hwrap _⟩

end Loop

namespace Session

/-- How far a connection has come with frames that are all answered locally. -/
inductive Answering (env : Env) (peer : Peer) (start : State) (frames : List CommandFrame)
    (s : State) : Prop where
  | dispatching {rounds : List Round} {after : List CommandFrame} (hphase : s.phase = .dispatching)
      (hframes : frames = rounds.map Prod.fst ++ after)
      (hclient : s.client = ⟨bytesOf after, start.client.output ++ replies env peer rounds, none⟩)
  | ended {rounds : List Round} (hphase : s.phase = .ended) (hframes : frames = rounds.map Prod.fst)
      (houtput : s.client.output = start.client.output ++ replies env peer rounds)

section Runs

variable {env : Env} {peer : Peer} {start s s' : State} {frames : List CommandFrame}

theorem Answering.phase_eq (hs : Answering env peer start frames s) :
    s.phase = .dispatching ∨ s.phase = .ended := by
  cases hs with
  | dispatching hphase => exact .inl hphase
  | ended hphase => exact .inr hphase

/-- What one round does depends on whether there is a frame left. -/
theorem Answering.dispatch (hs : Answering env peer start frames s)
    (hlocal : ∀ g ∈ frames, ¬ Routable s.server g.db) (hphase : s.phase = .dispatching)
    (now : Int64) :
    (∃ client, (dispatchStep env s.server peer now).run s.client = (.ok none, client) ∧
        Answering env peer start frames { s with client }) ∨
      ∃ error, (dispatchStep env s.server peer now).run s.client = (fail error, s.client) ∧
        Answering env peer start frames { s with phase := .ended } := by
  cases hs with
  | ended hother => cases hphase.symm.trans hother
  | @dispatching rounds after _ hframes hclient =>
    cases after with
    | nil =>
      have hinput : s.client.input = [] := by rw [hclient]; rfl
      obtain ⟨error, hrun⟩ := dispatchStep_ends env peer s.server now hinput
      rw [List.append_nil] at hframes
      exact .inr ⟨error, hrun, .ended rfl hframes (by rw [hclient])⟩
    | cons f after =>
      have hinput : s.client.input = f.bytes ++ bytesOf after := by rw [hclient]; rfl
      have hroom : s.client.room = none := by rw [hclient]
      have hf : ¬ Routable s.server f.db := hlocal f (by rw [hframes]; simp)
      have hdone : frames = (rounds ++ [(f, now)]).map Prod.fst ++ after := by
        rw [hframes, List.map_append, List.append_assoc]
        rfl
      have houtput : s.client.output ++ f.reply (localReply env peer now f.cmd).2 =
          start.client.output ++ replies env peer (rounds ++ [(f, now)]) := by
        change s.client.output ++ Round.reply env peer (f, now) = _
        rw [hclient]
        simp [replies]
      refine .inl ⟨_, dispatchStep_of_room hf hinput hroom, ?_⟩
      exact .dispatching hphase hdone (by rw [houtput])

theorem Answering.step (hs : Answering env peer start frames s)
    (hlocal : ∀ g ∈ frames, ¬ Routable s.server g.db) {event : Event}
    (hstep : Step env peer s event s') : Answering env peer start frames s' := by
  rcases step_of_unrouted hs.phase_eq hstep with ⟨now, client, hphase, hrun, rfl⟩ |
    ⟨now, client, error, hphase, hrun, rfl⟩ | ⟨now, client, routed, hphase, hrun, rfl⟩ |
    ⟨server, -, rfl⟩
  · rcases hs.dispatch hlocal hphase now with ⟨_, hround, hnext⟩ | ⟨_, hround, -⟩
    · cases hrun.symm.trans hround
      exact hnext
    · cases congrArg Prod.fst (hrun.symm.trans hround)
  · rcases hs.dispatch hlocal hphase now with ⟨_, hround, -⟩ | ⟨_, hround, hnext⟩
    · cases congrArg Prod.fst (hrun.symm.trans hround)
    · cases congrArg Prod.snd (hrun.symm.trans hround)
      exact hnext
  · rcases hs.dispatch hlocal hphase now with ⟨_, hround, -⟩ | ⟨_, hround, -⟩
    · cases congrArg Prod.fst (hrun.symm.trans hround)
    · cases congrArg Prod.fst (hrun.symm.trans hround)
  · cases hs with
    | dispatching hphase hframes hclient => exact .dispatching hphase hframes hclient
    | ended hphase hframes houtput => exact .ended hphase hframes houtput

theorem answering_run (hphase : start.phase = .dispatching)
    (hinput : start.client.input = bytesOf frames) (hroom : start.client.room = none)
    (hlocal : ∀ g ∈ frames, ¬ Routable start.server g.db) (hrun : Run (Step env peer) start s) :
    Served start s ∧ Answering env peer start frames s := by
  induction hrun with
  | refl =>
    have hclient : start.client =
        ⟨bytesOf frames, start.client.output ++ replies env peer [], none⟩ := by
      rw [← hinput, ← hroom, replies, List.map_nil, List.flatten_nil, List.append_nil]
    exact ⟨fun _ ↦ Iff.rfl, .dispatching hphase rfl hclient⟩
  | step _ _ hstep ih =>
    have hlocal' := fun g hg ↦ mt (ih.1 g.db).mp (hlocal g hg)
    exact ⟨served_step ih.1 hstep, ih.2.step hlocal' hstep⟩

/-- However far a connection has come, it can go on to the end of the stream. -/
theorem Answering.exists_ended (hs : Answering env peer start frames s)
    (hlocal : ∀ g ∈ frames, ¬ Routable s.server g.db) :
    ∃ s', Run (Step env peer) s s' ∧ s'.phase = .ended := by
  cases hs with
  | ended hphase => exact ⟨s, .refl, hphase⟩
  | @dispatching rounds after hphase hframes hclient =>
    have hinput : s.client.input = bytesOf after ++ [] := by rw [hclient, List.append_nil]
    have hroom : s.client.room = none := by rw [hclient]
    have hafter : ∀ g ∈ after, ¬ Routable s.server g.db := fun g hg ↦
      hlocal g (hframes ▸ List.mem_append_right _ hg)
    obtain ⟨client, hrun, hend⟩ := run_answers hphase hinput hafter hroom
    obtain ⟨error, hstep⟩ := dispatchStep_ends env peer s.server 0 hend
    exact ⟨_, hrun.step .dispatch (.drop hphase hstep), rfl⟩

end Runs

end Session

/-! ## Replies and requests -/

/-- What was written is one reply for each frame that expects one, in their order, and the client
understands each of them. -/
structure OneToOne (env : Env) (peer : Peer) (rounds : List Round) (written : Bytes) : Prop where
  written : written = replies env peer (rounds.filter fun r ↦ r.1.ExpectsReply)
  correlates : ∀ r ∈ rounds, r.1.ExpectsReply →
    r.1.Correlates (r.doc env peer) (r.reply env peer)

section Lengths

variable (env : Env) (peer : Peer)

theorem length_reply_now (f : CommandFrame) (now now' : Int64) :
    (Round.reply env peer (f, now)).length = (Round.reply env peer (f, now')).length := by
  have hdoc : (marshalBSON (localReply env peer now f.cmd).2).length =
      (marshalBSON (localReply env peer now' f.cmd).2).length := by
    unfold localReply
    split
    · rw [length_buildHelloReply, length_buildHelloReply peer.connID now']
    · rfl
  simp only [Round.reply, Round.doc, f.length_reply, hdoc]

theorem length_replies (rounds : List Round) :
    (replies env peer rounds).length =
      ((rounds.map Prod.fst).map fun f ↦ (Round.reply env peer (f, 0)).length).sum := by
  have hlengths (r : Round) (_ : r ∈ rounds) : (r.reply env peer).length =
      (Round.reply env peer (r.1, 0)).length := length_reply_now env peer r.1 r.2 0
  rw [replies, List.length_flatten, List.map_map, List.map_map]
  exact congrArg List.sum (List.map_congr_left hlengths)

theorem length_reply_pos (r : Round) : 0 < (r.reply env peer).length := by
  have hne : r.reply env peer ≠ [] := by
    rw [Round.reply, CommandFrame.reply]
    split <;> exact messageBytes_ne_nil _ _ _ _
  exact List.length_pos_iff.mpr hne

end Lengths

/-- A part of a sum of positive numbers is the whole sum only if nothing is missing. -/
theorem forall_of_sum_filter_eq {α : Type} (p : α → Prop) [DecidablePred p] (size : α → ℕ)
    (hpos : ∀ x, 0 < size x) {l : List α}
    (h : (l.map size).sum = ((l.filter (p ·)).map size).sum) : ∀ x ∈ l, p x := by
  induction l with
  | nil => exact nofun
  | cons a l ih =>
    have hle : ((l.filter (p ·)).map size).sum ≤ (l.map size).sum :=
      (List.filter_sublist.map size).sum_le_sum (fun _ _ ↦ Nat.zero_le _)
    by_cases ha : p a
    · rw [List.filter_cons_of_pos (by simpa using ha)] at h
      simp only [List.map_cons, List.sum_cons, Nat.add_left_cancel_iff] at h
      exact List.forall_mem_cons.mpr ⟨ha, ih h⟩
    · rw [List.filter_cons_of_neg (by simpa using ha), List.map_cons, List.sum_cons] at h
      have := hpos a
      omega

namespace Session

variable {env : Env} {peer : Peer} {start s : State} {frames : List CommandFrame}

/-- A client sends commands that name no configured database and keeps reading. The handler reaches
no upstream, gets to the end of the stream, and has by then written one reply to each frame that
expects one, and nothing else, exactly if all of them expect one and none makes the proxy repeat too
much. -/
theorem oneToOne_iff {isPrint : ℕ → Bool} (hrender : ∀ err, env.render err = errorText isPrint err)
    (hphase : start.phase = .dispatching)
    (hinput : start.client.input = bytesOf frames) (hroom : start.client.room = none)
    (hlocal : ∀ g ∈ frames, ¬ Routable start.server g.db) (hrun : Run (Step env peer) start s) :
    (s.phase = .dispatching ∨ s.phase = .ended) ∧
      (∃ s', Run (Step env peer) s s' ∧ s'.phase = .ended) ∧
      (s.phase = .ended →
        ((∃ rounds written, rounds.map Prod.fst = frames ∧
            s.client.output = start.client.output ++ written ∧ OneToOne env peer rounds written) ↔
          ∀ f ∈ frames, f.ExpectsReply ∧ f.ReplyFits isPrint peer)) := by
  obtain ⟨hserved, hs⟩ := answering_run hphase hinput hroom hlocal hrun
  have hcorrelates_iff (r : Round) :
      r.1.Correlates (r.doc env peer) (r.reply env peer) ↔ r.1.ReplyFits isPrint peer :=
    (correlates_reply_iff (faithful_localReply env peer r.2 r.1.cmd)).trans
      (r.1.length_reply_le_iff hrender peer r.2)
  refine ⟨hs.phase_eq, hs.exists_ended fun g hg ↦ mt (hserved g.db).mp (hlocal g hg),
    fun hended ↦ ?_⟩
  cases hs with
  | dispatching hother => cases hended.symm.trans hother
  | @ended rounds₀ _ hframes houtput =>
    constructor
    · intro h
      obtain ⟨rounds, written, hrounds, hwritten, hone⟩ := h
      have hsame : replies env peer rounds₀ =
          replies env peer (rounds.filter fun r ↦ r.1.ExpectsReply) := by
        rw [← hone.written]
        exact List.append_cancel_left (houtput.symm.trans hwritten)
      have hlength := congrArg List.length hsame
      have hfilter : (rounds.filter fun r ↦ r.1.ExpectsReply).map Prod.fst =
          frames.filter fun f ↦ f.ExpectsReply := by
        rw [← hrounds, List.filter_map]
        rfl
      rw [length_replies, length_replies, hfilter, ← hframes] at hlength
      have hexpects := forall_of_sum_filter_eq CommandFrame.ExpectsReply _
        (fun f ↦ length_reply_pos env peer (f, 0)) hlength
      intro f hf
      refine ⟨hexpects f hf, ?_⟩
      rw [← hrounds] at hf
      obtain ⟨r, hr, rfl⟩ := List.mem_map.mp hf
      exact (hcorrelates_iff r).mp
        (hone.correlates r hr (hexpects r.1 (hrounds ▸ List.mem_map_of_mem hr)))
    · intro h
      have hmem : ∀ r ∈ rounds₀, r.1 ∈ frames := fun r hr ↦ hframes ▸ List.mem_map_of_mem hr
      have hall : rounds₀.filter (fun r ↦ r.1.ExpectsReply) = rounds₀ :=
        List.filter_eq_self.mpr fun r hr ↦ decide_eq_true (h r.1 (hmem r hr)).1
      refine ⟨rounds₀, _, hframes.symm, houtput, by rw [hall], fun r hr _ ↦ ?_⟩
      exact (hcorrelates_iff r).mpr (h r.1 (hmem r hr)).2

/-- A client that sends the frames and keeps reading. -/
def sending (frames : List CommandFrame) : State where
  server := twoDatabases
  client := ⟨bytesOf frames, [], none⟩
  phase := .dispatching

/-- `isMaster` as a driver sends it before it knows that there is `OP_MSG`. -/
def legacyHello : CommandFrame where
  requestID := 4
  responseTo := 0
  opCode := opQuery
  body := le32 0 ++ str "admin.$cmd\x00" ++ le32 0 ++ le32 1 ++
    marshalBSON [(str "isMaster", .int32 1)]
  cmd := ⟨[(str "isMaster", .int32 1)], str "admin", opQuery, 4⟩
  fits := by decide
  decodes := by rfl

/-- `find` on a database that is not configured. -/
def strayFind : CommandFrame :=
  .ofDocument 5 (findCommand (str "scratch"))
    ⟨⟨by decide, trivial, by decide, trivial, trivial⟩, by decide⟩

/-- The errors of the proxy with ASCII alone printable. -/
def asciiEnv : Env := { openEnv with render := errorText fun r ↦ 0x20 ≤ r ∧ r < 0x7F }

/-- A driver that connects, in both formats, and then asks for a database that is not there. -/
theorem oneToOne_iff_connecting :
    ∃ s, Run (Step asciiEnv ⟨1, str "127.0.0.1:50000"⟩)
        (sending [legacyHello, pingFrame, strayFind]) s ∧ s.phase = .ended ∧
      ∃ rounds written, rounds.map Prod.fst = [legacyHello, pingFrame, strayFind] ∧
        s.client.output = [] ++ written ∧
        OneToOne asciiEnv ⟨1, str "127.0.0.1:50000"⟩ rounds written := by
  have hlocal : ∀ g ∈ [legacyHello, pingFrame, strayFind],
      ¬ Routable (sending [legacyHello, pingFrame, strayFind]).server g.db := by
    intro g hg
    rw [sending, routable_twoDatabases]
    revert g
    decide
  have hfits : ∀ f ∈ [legacyHello, pingFrame, strayFind], f.ExpectsReply ∧
      f.ReplyFits (fun r ↦ 0x20 ≤ r ∧ r < 0x7F) ⟨1, str "127.0.0.1:50000"⟩ := by
    have hshort : ∀ f ∈ [legacyHello, pingFrame, strayFind], f.ExpectsReply ∧
        (toLower f.cmd.commandName ≠ str "whatsmyuri") ∧
        f.replyFrame + 88 + (quote (fun r ↦ 0x20 ≤ r ∧ r < 0x7F) f.db).length ≤ maxMessageSize := by
      decide +kernel
    intro f hf
    obtain ⟨hexpects, hname, hlength⟩ := hshort f hf
    exact ⟨hexpects, fun huri ↦ absurd huri hname, fun _ ↦ hlength⟩
  have hstart : Run (Step asciiEnv ⟨1, str "127.0.0.1:50000"⟩)
      (sending [legacyHello, pingFrame, strayFind]) (sending [legacyHello, pingFrame, strayFind]) :=
    .refl
  obtain ⟨-, ⟨s, hrun, hended⟩, -⟩ := oneToOne_iff (fun _ ↦ rfl) rfl rfl rfl hlocal hstart
  exact ⟨s, hrun, hended,
    ((oneToOne_iff (fun _ ↦ rfl) rfl rfl rfl hlocal hrun).2.2 hended).mpr hfits⟩

/-- A `ping` with the flag `moreToCome`. -/
def unacknowledgedPing : CommandFrame where
  requestID := 7
  responseTo := 0
  opCode := opMsg
  body := encodeOpMsgBody 2 [(str "ping", .int32 1), (str "$db", .string (str "admin"))]
  cmd := ⟨[(str "ping", .int32 1), (str "$db", .string (str "admin"))], str "admin", opMsg, 7⟩
  fits := by decide
  decodes := decodeMongoCommand_opMsg rfl (parseOpMsg_encodeOpMsgBody_flags (by decide)
    ⟨by decide, trivial, by decide, trivial, trivial⟩ (by decide))

/-- The client expects no reply and gets one. -/
theorem unacknowledgedPing_answered :
    ¬ unacknowledgedPing.ExpectsReply ∧ ¬ Routable twoDatabases unacknowledgedPing.db ∧
      ∃ s, Run (Step openEnv ⟨1, []⟩) (sending [unacknowledgedPing]) s ∧ s.phase = .ended ∧
        s.client.output =
          messageBytes 0 7 opMsg (encodeOpMsgBody 0 [(str "ok", .double oneBits)]) := by
  have hlocal : ∀ g ∈ [unacknowledgedPing], ¬ Routable twoDatabases g.db := by
    intro g hg
    rw [List.mem_singleton.mp hg, routable_twoDatabases]
    decide
  refine ⟨by decide, hlocal _ (List.mem_singleton_self _), ?_⟩
  have hstart : Answering openEnv ⟨1, []⟩ (sending [unacknowledgedPing]) [unacknowledgedPing]
      (sending [unacknowledgedPing]) := (answering_run rfl rfl rfl hlocal .refl).2
  obtain ⟨s, hrun, hended⟩ := hstart.exists_ended hlocal
  refine ⟨s, hrun, hended, ?_⟩
  cases (answering_run rfl rfl rfl hlocal hrun).2 with
  | dispatching hother => cases hended.symm.trans hother
  | @ended rounds _ hframes houtput =>
    rw [houtput]
    match rounds, hframes with
    | [(f, now)], hframes =>
      obtain rfl : unacknowledgedPing = f := (List.cons.inj hframes).1
      rfl

end Session

end DbPivot.Mongo
