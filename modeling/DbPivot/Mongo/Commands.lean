import DbPivot.Mongo.BsonSpec
import DbPivot.Mongo.Dispatch

/-!
# Commands of the specification

To find the database a command names, the proxy decodes the whole command document, with a codec
that was written for the documents of the handshake. A command that names a configured database is
therefore routed exactly when all element types in it, at every depth, are among those of the codec
and the message is not too long. Any other such command ends the connection.
-/

namespace DbPivot.Mongo

open DbPivot.Go DbPivot.Proxy

/-- An `OP_MSG` message whose command is a document of the specification that names a database. -/
structure SpecCommand where
  requestID : Int32
  responseTo : Int32
  message : OpMsgBody
  document : SpecDocument
  doc_eq : message.doc = document.encode
  db : Bytes
  find_eq : document.find (str "$db") = some (.string db)
  fits : msgHeaderLen + message.bytes.length < 2 ^ 31

namespace SpecCommand

def header (c : SpecCommand) : MsgHeader :=
  messageHeader c.requestID c.responseTo opMsg c.message.bytes.length

def bytes (c : SpecCommand) : Bytes :=
  messageBytes c.requestID c.responseTo opMsg c.message.bytes

theorem length_encode_lt (c : SpecCommand) : c.document.encode.length < 2 ^ 31 := by
  have hlength := c.message.length_bytes
  have hfits := c.fits
  rw [c.doc_eq] at hlength
  omega

theorem message_fits (c : SpecCommand) : c.message.Fits := by
  have hfits := c.fits
  exact OpMsgBody.fits_of_length (by omega)

/-- What the codec knows is decoded, with the database it names. -/
theorem decodeMongoCommand_of_supported (c : SpecCommand) (hsupported : c.document.supported) :
    ∃ cmd, decodeMongoCommand c.header c.message.bytes = .ok cmd ∧ cmd.db = c.db := by
  rcases SpecDocument.exists_decoded hsupported with ⟨d, hd⟩
  have hdoc : IsDocument c.message.doc d := by
    rw [c.doc_eq]
    exact SpecDocument.isDocument_encode c.length_encode_lt hd
  have hparse := c.message.parseOpMsg_of_isDocument c.message_fits hdoc
  refine ⟨_, decodeMongoCommand_opMsg rfl hparse, ?_⟩
  have hlookup : lookup (str "$db") d = some (.string c.db) := by
    rw [SpecDocument.lookup_of_decoded hd, c.find_eq]
    rfl
  simp only [lookupBSONString, hlookup, Option.getD_some]

theorem errs_decodeMongoCommand (c : SpecCommand) (hunsupported : ¬ c.document.supported) :
    Errs (decodeMongoCommand c.header c.message.bytes) := by
  have herrs : Errs (parseOpMsg c.message.bytes) := by
    refine c.message.parseOpMsg_of_errs c.message_fits fun rest ↦ ?_
    rw [c.doc_eq]
    exact SpecDocument.errs_readBSONDocument c.length_encode_lt hunsupported rest
  rcases exists_fail_of_errs herrs with ⟨error, herror⟩
  have hop : c.header.opCode = opMsg := rfl
  rw [decodeMongoCommand, if_pos hop, herror]
  trivial

section Dispatch

variable (env : Env) {s : Server} (peer : Peer) (now : Int64) {client : Socket} {rest : Bytes}

theorem dispatchStep_of_supported (c : SpecCommand) (hroutable : Routable s c.db)
    (hinput : client.input = c.bytes ++ rest) (hsupported : c.document.supported)
    (hmax : msgHeaderLen + c.message.bytes.length ≤ maxMessageSize) :
    (dispatchStep env s peer now).run client =
      (.ok (some ⟨c.db, c.header, c.message.bytes⟩), { client with input := rest }) := by
  rcases c.decodeMongoCommand_of_supported hsupported with ⟨cmd, hdecodes, hdb⟩
  have hcmd : Routable s cmd.db := by
    rw [hdb]
    exact hroutable
  have hstep : (dispatchStep env s peer now).run client = _ := dispatchStep_of_routable
    (f := ⟨c.requestID, c.responseTo, opMsg, c.message.bytes, cmd, hmax, hdecodes⟩) hcmd hinput
  rw [hstep, CommandFrame.routed, CommandFrame.db, hdb]
  rfl

/-- One element of an unknown type, or one byte too many, ends the connection. -/
theorem dispatchStep_of_unsupported (c : SpecCommand) (hinput : client.input = c.bytes ++ rest)
    (hno : ¬ (c.document.supported ∧ msgHeaderLen + c.message.bytes.length ≤ maxMessageSize)) :
    ∃ error client', (dispatchStep env s peer now).run client = (fail error, client') := by
  by_cases hmax : msgHeaderLen + c.message.bytes.length ≤ maxMessageSize
  · have herrs := c.errs_decodeMongoCommand fun hsupported ↦ hno ⟨hsupported, hmax⟩
    rcases dispatchStep_of_errs hmax hinput herrs with ⟨error, hstep⟩
    exact ⟨error, _, hstep⟩
  · exact dispatchStep_of_large (by omega) c.fits hinput

end Dispatch

/-- A command that names a configured database is decoded, with that name, exactly when the codec
knows all its element types. It is routed exactly when, besides, the message is not longer than the
proxy admits, and ends the connection otherwise. -/
theorem routed_iff_supported (c : SpecCommand) {s : Server} (hroutable : Routable s c.db)
    (env : Env) (peer : Peer) (now : Int64) {client : Socket} {rest : Bytes}
    (hinput : client.input = c.bytes ++ rest) :
    ((∃ cmd, decodeMongoCommand c.header c.message.bytes = .ok cmd ∧ cmd.db = c.db) ↔
      c.document.supported) ∧
    ((dispatchStep env s peer now).run client =
        (.ok (some ⟨c.db, c.header, c.message.bytes⟩), { client with input := rest }) ↔
      c.document.supported ∧ msgHeaderLen + c.message.bytes.length ≤ maxMessageSize) ∧
    (¬ (c.document.supported ∧ msgHeaderLen + c.message.bytes.length ≤ maxMessageSize) ↔
      ∃ error client', (dispatchStep env s peer now).run client = (fail error, client')) := by
  have hrouted := fun h : c.document.supported ∧
      msgHeaderLen + c.message.bytes.length ≤ maxMessageSize ↦
    dispatchStep_of_supported env peer now c hroutable hinput h.1 h.2
  have hdropped := dispatchStep_of_unsupported env (s := s) peer now c hinput
  refine ⟨⟨fun h ↦ ?_, c.decodeMongoCommand_of_supported⟩, ⟨fun h ↦ ?_, hrouted⟩,
    ⟨hdropped, fun h hyes ↦ ?_⟩⟩
  · rcases h with ⟨cmd, hdecodes, -⟩
    by_contra hunsupported
    have herrs := c.errs_decodeMongoCommand hunsupported
    rw [hdecodes] at herrs
    exact not_errs_ok _ herrs
  · by_contra hno
    rcases hdropped hno with ⟨error, client', hstep⟩
    rw [h] at hstep
    cases (Prod.mk.inj hstep).1
  · rcases h with ⟨error, client', hstep⟩
    rw [hrouted hyes] at hstep
    cases (Prod.mk.inj hstep).1

/-- `find` on `c` in the database `app`, with a filter on the field `x`. -/
def findDocument (condition : SpecValue) : SpecDocument :=
  [(⟨str "find", by decide⟩, .string (str "c")),
    (⟨str "filter", by decide⟩, .document [(⟨str "x", by decide⟩, condition)]),
    (⟨str "$db", by decide⟩, .string (str "app"))]

theorem length_alone_lt {doc : Bytes} (hdoc : doc.length < 2 ^ 30) :
    msgHeaderLen + (⟨0, [], doc, [], [], rfl⟩ : OpMsgBody).bytes.length < 2 ^ 31 := by
  rw [OpMsgBody.length_bytes]
  simp only [OpMsgBody.sequences, List.map_nil, List.flatten_nil, List.length_nil, msgHeaderLen]
  omega

/-- That command alone in a message. -/
def findWhere (condition : SpecValue) (hfits : (findDocument condition).encode.length < 2 ^ 30) :
    SpecCommand where
  requestID := 1
  responseTo := 0
  message := ⟨0, [], (findDocument condition).encode, [], [], rfl⟩
  document := findDocument condition
  doc_eq := rfl
  db := str "app"
  find_eq := rfl
  fits := length_alone_lt hfits

def equalityFind : SpecCommand := findWhere (.string (str "a")) (by decide)

def regexFind : SpecCommand :=
  findWhere (.regex ⟨str "a", by decide⟩ ⟨[], by decide⟩) (by decide)

theorem routed_iff_supported_equalityFind :
    Routable twoDatabases equalityFind.db ∧
      (dispatchStep openEnv twoDatabases ⟨1, []⟩ 0).run ⟨equalityFind.bytes ++ [], [], none⟩ =
        (.ok (some ⟨equalityFind.db, equalityFind.header, equalityFind.message.bytes⟩),
          ⟨[], [], none⟩) := by
  have hroutable : Routable twoDatabases equalityFind.db :=
    (routable_twoDatabases _).mpr (.inl rfl)
  refine ⟨hroutable, ?_⟩
  exact (equalityFind.routed_iff_supported hroutable openEnv ⟨1, []⟩ 0 rfl).2.1.mpr
    ⟨by decide, by decide⟩

/-- `find` with a regular expression as its filter: valid, for a database that is active, and the
connection ends. -/
theorem regexFind_dropped :
    regexFind.document.find (str "$db") = some (.string (str "app")) ∧
    Routable twoDatabases (str "app") ∧
    Errs (decodeMongoCommand regexFind.header regexFind.message.bytes) ∧
    ∃ error client', (dispatchStep openEnv twoDatabases ⟨1, []⟩ 0).run
      ⟨regexFind.bytes ++ [], [], none⟩ = (fail error, client') := by
  have hunsupported : ¬ regexFind.document.supported := by decide
  refine ⟨rfl, (routable_twoDatabases _).mpr (.inl rfl),
    regexFind.errs_decodeMongoCommand hunsupported, ?_⟩
  exact dispatchStep_of_unsupported openEnv ⟨1, []⟩ 0 regexFind rfl fun h ↦ hunsupported h.1

end SpecCommand

end DbPivot.Mongo
