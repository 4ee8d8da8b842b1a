import DbPivot.Go.Socket
import DbPivot.Mongo.BsonRoundTrip

/-!
# MongoDB messages

A message is a header of four little-endian int32 words, the first of them the length of the whole
message, and a body. `OP_MSG` bodies carry sections, of which one is the command document; the
legacy `OP_QUERY` carries a namespace and a document.

Reading a message takes exactly its bytes from the connection, and writing the parts of a message
that was read gives back the bytes it was read from.
-/

namespace DbPivot.Mongo

open DbPivot.Go

/-! ## Framing -/

def opReply : Int32 := 1

def opQuery : Int32 := 2004

def opMsg : Int32 := 2013

def msgHeaderLen : ℕ := 16

def maxMessageSize : ℕ := 64 * 1024 * 1024

structure MsgHeader where
  messageLength : Int32
  requestID : Int32
  responseTo : Int32
  opCode : Int32
deriving DecidableEq

/-- The int32 word at an offset of a header. -/
def headerField (header : Bytes) (offset : ℕ) : Int32 :=
  (uint32LE ((header.drop offset).take 4)).toInt32

/-- The header as `ReadMongoMessage` decodes it. -/
def parseHeader (header : Bytes) : MsgHeader where
  messageLength := headerField header 0
  requestID := headerField header 4
  responseTo := headerField header 8
  opCode := headerField header 12

/-- `ReadMongoMessage`. -/
def readMongoMessage : SocketM (MsgHeader × Bytes) := do
  let header ← readFull msgHeaderLen
  let h := parseHeader header
  if h.messageLength.toInt < msgHeaderLen ∨ h.messageLength.toInt > maxMessageSize then
    .lift (fail (errorf "mongo message length out of range: %d" [.number h.messageLength.toInt]))
  else
    let body ← readFull (h.messageLength.toInt.toNat - msgHeaderLen)
    pure (h, body)

/-- The header `WriteMongoMessage` puts before a body of the given length. -/
def headerBytes (requestID responseTo opCode : Int32) (bodyLength : ℕ) : Bytes :=
  le32 (UInt32.ofNat (msgHeaderLen + bodyLength)) ++ le32 requestID.toUInt32 ++
    le32 responseTo.toUInt32 ++ le32 opCode.toUInt32

/-- `WriteMongoMessage`: two writes. -/
def writeMongoMessage (requestID responseTo opCode : Int32) (body : Bytes) : SocketM Unit := do
  write (headerBytes requestID responseTo opCode body.length)
  write body

/-- The bytes of a whole message. -/
def messageBytes (requestID responseTo opCode : Int32) (body : Bytes) : Bytes :=
  headerBytes requestID responseTo opCode body.length ++ body

theorem length_headerBytes (requestID responseTo opCode : Int32) (bodyLength : ℕ) :
    (headerBytes requestID responseTo opCode bodyLength).length = msgHeaderLen := by
  simp only [headerBytes, List.length_append, length_le32]
  rfl

theorem messageBytes_ne_nil (requestID responseTo opCode : Int32) (body : Bytes) :
    messageBytes requestID responseTo opCode body ≠ [] := by
  intro hnil
  have hlength := congrArg List.length hnil
  rw [messageBytes, List.length_append, length_headerBytes] at hlength
  simp [msgHeaderLen] at hlength

/-- The header of a message of admissible length is read back. -/
theorem parseHeader_headerBytes {h : MsgHeader} {bodyLength : ℕ}
    (hword : h.messageLength.toInt = msgHeaderLen + bodyLength)
    (hmax : msgHeaderLen + bodyLength ≤ maxMessageSize) :
    parseHeader (headerBytes h.requestID h.responseTo h.opCode bodyLength) = h := by
  have hfield : ∀ before word after,
      uint32LE (((before ++ le32 word ++ after).drop before.length).take 4) = word := by
    intro before word after
    rw [List.append_assoc, List.drop_left, List.take_left' (length_le32 _), uint32LE_le32]
  have hlength : (UInt32.ofNat (msgHeaderLen + bodyLength)).toInt32 = h.messageLength := by
    have hsmall : msgHeaderLen + bodyLength < 2 ^ 31 := by
      unfold maxMessageSize at hmax
      omega
    apply Int32.toInt_inj.mp
    rw [hword, ← Nat.cast_add]
    exact int32_ofNat _ hsmall
  have hfirst := hfield [] (UInt32.ofNat (msgHeaderLen + bodyLength))
    (le32 h.requestID.toUInt32 ++ le32 h.responseTo.toUInt32 ++ le32 h.opCode.toUInt32)
  have hsecond := hfield (le32 (UInt32.ofNat (msgHeaderLen + bodyLength))) h.requestID.toUInt32
    (le32 h.responseTo.toUInt32 ++ le32 h.opCode.toUInt32)
  have hthird := hfield (le32 (UInt32.ofNat (msgHeaderLen + bodyLength)) ++
    le32 h.requestID.toUInt32) h.responseTo.toUInt32 (le32 h.opCode.toUInt32)
  have hfourth := hfield (le32 (UInt32.ofNat (msgHeaderLen + bodyLength)) ++
    le32 h.requestID.toUInt32 ++ le32 h.responseTo.toUInt32) h.opCode.toUInt32 []
  simp only [List.nil_append, List.append_nil, ← List.append_assoc, List.length_append,
    List.length_nil, length_le32] at hfirst hsecond hthird hfourth
  simp only [parseHeader, headerField, headerBytes, hfirst, hsecond, hthird, hfourth, hlength,
    Int32.toInt32_toUInt32]

/-- A header is determined by its four words. -/
theorem eq_headerBytes {header : Bytes} {bodyLength : ℕ} (hlength : header.length = msgHeaderLen)
    (hword : (parseHeader header).messageLength.toInt = msgHeaderLen + bodyLength) :
    header = headerBytes (parseHeader header).requestID (parseHeader header).responseTo
      (parseHeader header).opCode bodyLength := by
  have hle : ∀ offset, offset + 4 ≤ msgHeaderLen →
      le32 (uint32LE ((header.drop offset).take 4)) = (header.drop offset).take 4 := by
    intro offset hoffset
    apply le32_uint32LE
    rw [List.length_take, List.length_drop, hlength]
    omega
  have hfirst : uint32LE ((header.drop 0).take 4) = UInt32.ofNat (msgHeaderLen + bodyLength) :=
    (eq_ofNat_of_int32 _ _ (hword.trans (by push_cast; rfl))).2
  have hheader : headerBytes (parseHeader header).requestID (parseHeader header).responseTo
      (parseHeader header).opCode bodyLength =
      (header.drop 0).take 4 ++ (header.drop 4).take 4 ++ (header.drop 8).take 4 ++
        (header.drop 12).take 4 := by
    rw [headerBytes, ← hfirst, hle 0 (by decide)]
    congr 1
    · congr 1
      · congr 1
        exact hle 4 (by decide)
      · exact hle 8 (by decide)
    · exact hle 12 (by decide)
  have hlast : (header.drop 12).take 4 = header.drop 12 := by
    apply List.take_of_length_le
    rw [List.length_drop, hlength]
    decide
  have hsplit : ∀ offset, header.drop offset = (header.drop offset).take 4 ++
      header.drop (offset + 4) := by
    intro offset
    rw [← List.drop_drop, List.take_append_drop]
  rw [hheader, hlast, List.append_assoc, ← hsplit 8, List.append_assoc, ← hsplit 4, ← hsplit 0,
    List.drop_zero]

/-- Reading a message takes from the input exactly the bytes that writing its parts would give, and
it accepts every message of an admissible length. -/
theorem readMongoMessage_eq_ok {s s' : Socket} {h : MsgHeader} {body : Bytes} :
    readMongoMessage.run s = (.ok (h, body), s') ↔
      h.messageLength.toInt = msgHeaderLen + body.length ∧
      msgHeaderLen + body.length ≤ maxMessageSize ∧
      s = { s' with
            input := messageBytes h.requestID h.responseTo h.opCode body ++ s'.input } := by
  rw [readMongoMessage, SocketM.bind_eq_ok]
  constructor
  · intro hread
    rcases hread with ⟨header, middle, hheader, hrest⟩
    rcases readFull_eq_ok.mp hheader with ⟨hlength, rfl⟩
    dsimp only at hrest
    split at hrest
    next => exact absurd (SocketM.lift_eq_ok.mp hrest).1 (fail_ne_ok _ _)
    next hrange =>
      rcases SocketM.bind_eq_ok.mp hrest with ⟨body', last, hbody, hpure⟩
      rcases readFull_eq_ok.mp hbody with ⟨hbodyLength, rfl⟩
      rcases SocketM.pure_eq_ok.mp hpure with ⟨hresult, rfl⟩
      rcases Prod.mk.inj hresult with ⟨rfl, rfl⟩
      have hword : (parseHeader header).messageLength.toInt = msgHeaderLen + body'.length := by
        rw [hbodyLength]
        omega
      refine ⟨hword, by omega, ?_⟩
      rw [messageBytes, ← eq_headerBytes hlength hword, List.append_assoc]
  · intro hmessage
    rcases hmessage with ⟨hword, hmax, rfl⟩
    have hheader : (readFull msgHeaderLen).run
        ⟨messageBytes h.requestID h.responseTo h.opCode body ++ s'.input, s'.output, s'.room⟩ =
        (.ok (headerBytes h.requestID h.responseTo h.opCode body.length),
          ⟨body ++ s'.input, s'.output, s'.room⟩) := by
      rw [readFull_eq_ok, messageBytes, List.append_assoc]
      exact ⟨length_headerBytes _ _ _ _, rfl⟩
    refine ⟨_, _, hheader, ?_⟩
    simp only [parseHeader_headerBytes hword hmax]
    rw [if_neg (by omega), SocketM.bind_eq_ok]
    refine ⟨body, s', readFull_eq_ok.mpr ⟨?_, rfl⟩, rfl⟩
    omega

/-- The header of a message with a body of the given length. -/
def messageHeader (requestID responseTo opCode : Int32) (bodyLength : ℕ) : MsgHeader where
  messageLength := (UInt32.ofNat (msgHeaderLen + bodyLength)).toInt32
  requestID := requestID
  responseTo := responseTo
  opCode := opCode

theorem readMongoMessage_messageBytes {s : Socket} {requestID responseTo opCode : Int32}
    {body rest : Bytes} (hmax : msgHeaderLen + body.length ≤ maxMessageSize)
    (hinput : s.input = messageBytes requestID responseTo opCode body ++ rest) :
    readMongoMessage.run s =
      (.ok (messageHeader requestID responseTo opCode body.length, body),
        { s with input := rest }) := by
  have hsmall : msgHeaderLen + body.length < 2 ^ 31 := by
    unfold maxMessageSize at hmax
    omega
  refine readMongoMessage_eq_ok.mpr ⟨?_, hmax, ?_⟩
  · rw [← Nat.cast_add]
    exact int32_ofNat _ hsmall
  · rw [messageHeader, ← hinput]

/-- Writing a message, when it succeeds, adds its bytes to the output. -/
theorem transfer_of_writeMongoMessage {requestID responseTo opCode : Int32} {body : Bytes}
    {s s' : Socket} {result : Unit}
    (h : (writeMongoMessage requestID responseTo opCode body).run s = (.ok result, s')) :
    Transfer s s' [] (messageBytes requestID responseTo opCode body) := by
  rcases SocketM.bind_eq_ok.mp h with ⟨_, middle, hheader, hbody⟩
  exact (transfer_of_write hheader).trans (transfer_of_write hbody)

/-- A message is written from its beginning, and nothing is read. -/
theorem run_writeMongoMessage (requestID responseTo opCode : Int32) (body : Bytes) (s : Socket) :
    ∃ written, written <+: messageBytes requestID responseTo opCode body ∧
      ((writeMongoMessage requestID responseTo opCode body).run s).2.output = s.output ++ written ∧
      ((writeMongoMessage requestID responseTo opCode body).run s).2.input = s.input ∧
      (((writeMongoMessage requestID responseTo opCode body).run s).1 = .ok () →
        written = messageBytes requestID responseTo opCode body) := by
  obtain ⟨first, hfirst, houtput, hinput, hall⟩ :=
    run_write (headerBytes requestID responseTo opCode body.length) s
  rw [writeMongoMessage, SocketM.run_bind]
  rcases hheader : (write (headerBytes requestID responseTo opCode body.length)).run s with
    ⟨fault | done, middle⟩
  · rw [hheader] at houtput hinput
    exact ⟨first, hfirst.trans (List.prefix_append _ _), houtput, hinput, nofun⟩
  · rw [hheader] at houtput hinput hall
    obtain ⟨second, hsecond, houtput', hinput', hall'⟩ := run_write body middle
    obtain rfl := hall rfl
    refine ⟨_ ++ second, (List.prefix_append_right_inj _).mpr hsecond, ?_, hinput'.trans hinput,
      fun hok ↦ by rw [hall' hok]; rfl⟩
    rw [houtput', houtput, List.append_assoc]

theorem writeMongoMessage_of_room {s : Socket} (hroom : s.room = none)
    (requestID responseTo opCode : Int32) (body : Bytes) :
    (writeMongoMessage requestID responseTo opCode body).run s =
      (.ok (), { s with output := s.output ++ messageBytes requestID responseTo opCode body }) := by
  rw [writeMongoMessage, SocketM.bind_of_ok (write_of_room hroom), messageBytes,
    ← List.append_assoc]
  exact write_of_room hroom

/-- A message that was read is re-created by writing its parts. -/
theorem transfer_of_readMongoMessage {s s' : Socket} {h : MsgHeader} {body : Bytes}
    (hread : readMongoMessage.run s = (.ok (h, body), s')) :
    Transfer s s' (messageBytes h.requestID h.responseTo h.opCode body) [] := by
  rcases readMongoMessage_eq_ok.mp hread with ⟨-, -, rfl⟩
  exact ⟨rfl, (List.append_nil _).symm⟩

theorem returns_readMongoMessage (s : Socket) : Returns (readMongoMessage.run s).1 := by
  refine SocketM.returns_run_bind (returns_readFull _ _) fun header middle ↦ ?_
  dsimp only
  split
  · trivial
  · exact SocketM.returns_run_bind (returns_readFull _ _) fun _ _ ↦ trivial

/-- A message that says it is too long is refused. -/
theorem errs_readMongoMessage {s : Socket} {requestID responseTo opCode : Int32} {body rest : Bytes}
    (hlarge : maxMessageSize < msgHeaderLen + body.length)
    (hfits : msgHeaderLen + body.length < 2 ^ 31)
    (hinput : s.input = messageBytes requestID responseTo opCode body ++ rest) :
    Errs (readMongoMessage.run s).1 := by
  refine errs_of_returns (returns_readMongoMessage s) fun result hread ↦ ?_
  have hword : ∀ requestID responseTo opCode body more,
      uint32LE ((messageBytes requestID responseTo opCode body ++ more).take 4) =
        UInt32.ofNat (msgHeaderLen + body.length) := by
    intro requestID responseTo opCode body more
    simp only [messageBytes, headerBytes, List.append_assoc]
    rw [List.take_left' (length_le32 _), uint32LE_le32]
  rcases readMongoMessage_eq_ok.mp (Prod.ext hread rfl) with ⟨-, hmax, hs⟩
  have hother := congrArg (fun socket : Socket ↦ uint32LE (socket.input.take 4)) hs
  simp only [hinput, hword] at hother
  have hlength := congrArg int32 hother
  rw [int32_ofNat _ hfits, int32_ofNat _ (hmax.trans_lt (by decide))] at hlength
  omega

theorem returns_writeMongoMessage (requestID responseTo opCode : Int32) (body : Bytes)
    (s : Socket) :
    Returns ((writeMongoMessage requestID responseTo opCode body).run s).1 :=
  SocketM.returns_run_bind (returns_write _ _) fun _ _ ↦ returns_write _ _

/-! ## Bodies -/

/-- `EncodeOpMsgBody`. -/
def encodeOpMsgBody (flags : UInt32) (doc : BSON) : Bytes := appendBSON (le32 flags ++ [0]) doc

theorem length_encodeOpMsgBody (flags : UInt32) (doc : BSON) :
    (encodeOpMsgBody flags doc).length = (marshalBSON doc).length + 5 := by
  rw [encodeOpMsgBody, appendBSON_append]
  simp only [List.length_append, length_le32, List.length_singleton]
  omega

/-- The flag bit `OpMsgFlagChecksumPresent`. -/
def checksumPresent (flags : UInt32) : Prop := flags &&& 1 ≠ 0

instance (flags : UInt32) : Decidable (checksumPresent flags) :=
  inferInstanceAs (Decidable (_ ≠ _))

/-- The section loop of `ParseOpMsg`; `found` is the document of a body section met before. -/
def parseSections : ℕ → Bytes → Option BSON → GoM GoError BSON
  | 0, _, _ => .error .outOfFuel
  | fuel + 1, sections, found =>
    if sections.length = 0 then
      match found with
      | none => fail (errorf "op_msg: no body section" [])
      | some doc => pure doc
    else do
      let kind ← index sections 0
      let sections ← slice sections 1 sections.length
      if kind = 0 then
        let (d, n) ← mapErr (wrapf "op_msg: body section: %w" []) (readBSONDocument sections)
        refuse found.isSome (errorf "op_msg: more than one body section" [])
        let sections ← slice sections n sections.length
        parseSections fuel sections (some d)
      else if kind = 1 then
        if sections.length < 4 then fail (errorf "op_msg: truncated document-sequence size" [])
        else
          let word ← slice sections 0 4
          let size := int32 (uint32LE word)
          if size < 4 ∨ size > sections.length then
            fail (errorf "op_msg: document-sequence size %d out of range" [.number size])
          else
            let sections ← slice sections size.toNat sections.length
            parseSections fuel sections found
      else fail (errorf "op_msg: unknown section kind %d" [.number kind.toNat])

/-- The sections of an `OP_MSG` body, without a checksum the flags announce. -/
def trimChecksum (flags : UInt32) (sections : Bytes) : GoM GoError Bytes :=
  if checksumPresent flags then
    if sections.length < 4 then
      fail (errorf "op_msg: checksum flag set but body too short" [])
    else slice sections 0 (sections.length - 4)
  else pure sections

/-- `ParseOpMsg`. Every section takes at least one byte, so the length bounds the loop. -/
def parseOpMsg (body : Bytes) : GoM GoError (UInt32 × BSON) :=
  if body.length < 5 then
    fail (errorf "op_msg: body too short (%d bytes)" [.number body.length])
  else do
    let word ← slice body 0 4
    let flags := uint32LE word
    let sections ← slice body 4 body.length
    let sections ← trimChecksum flags sections
    let doc ← parseSections (sections.length + 1) sections none
    pure (flags, doc)

/-- An `OP_QUERY` body; the optional selector at its end is not read. -/
structure Query where
  flags : Int32
  fullCollection : Bytes
  numberToSkip : Int32
  numberToReturn : Int32
  query : BSON

/-- `ParseOpQuery`. -/
def parseOpQuery (body : Bytes) : GoM GoError Query :=
  if body.length < 4 then fail (errorf "op_query: body too short" [])
  else do
    let word ← slice body 0 4
    let (fullCollection, pos) ← mapErr (wrapf "op_query: collection: %w" []) (readCString body 4)
    if pos + 8 > body.length then fail (errorf "op_query: truncated skip/return" [])
    else
      let skip ← slice body pos (pos + 4)
      let ret ← slice body (pos + 4) (pos + 8)
      let rest ← slice body (pos + 8) body.length
      let (query, _) ← mapErr (wrapf "op_query: query document: %w" []) (readBSONDocument rest)
      pure
        { flags := (uint32LE word).toInt32, fullCollection,
          numberToSkip := (uint32LE skip).toInt32, numberToReturn := (uint32LE ret).toInt32,
          query }

/-- `EncodeOpReplyBody`. -/
def encodeOpReplyBody (responseFlags : Int32) (cursorID : Int64) (startingFrom : Int32)
    (docs : List BSON) : Bytes :=
  docs.foldl appendBSON
    (le32 responseFlags.toUInt32 ++ le64 cursorID.toUInt64 ++ le32 startingFrom.toUInt32 ++
      le32 (UInt32.ofNat docs.length))

/-! ## The sections of a body -/

/-- A section of a body: the command document, or a document sequence, of which the loop reads only
the size. -/
inductive Section where
  | body (doc : Bytes)
  | sequence (payload : Bytes)

/-- The bytes of a section; the size of a sequence counts itself. -/
def Section.bytes : Section → Bytes
  | .body doc => 0 :: doc
  | .sequence payload => 1 :: (le32 (UInt32.ofNat (4 + payload.length)) ++ payload)

/-- One round of the loop, with the kind of the section split off. -/
theorem parseSections_cons (fuel : ℕ) (kind : UInt8) (sections : Bytes) (found : Option BSON) :
    parseSections (fuel + 1) (kind :: sections) found =
      if kind = 0 then do
        let (d, n) ← mapErr (wrapf "op_msg: body section: %w" []) (readBSONDocument sections)
        refuse found.isSome (errorf "op_msg: more than one body section" [])
        let rest ← slice sections n sections.length
        parseSections fuel rest (some d)
      else if kind = 1 then
        if sections.length < 4 then fail (errorf "op_msg: truncated document-sequence size" [])
        else if int32 (uint32LE (sections.take 4)) < 4 ∨
            int32 (uint32LE (sections.take 4)) > sections.length then
          fail (errorf "op_msg: document-sequence size %d out of range"
            [.number (int32 (uint32LE (sections.take 4)))])
        else parseSections fuel (sections.drop (int32 (uint32LE (sections.take 4))).toNat) found
      else fail (errorf "op_msg: unknown section kind %d" [.number kind.toNat]) := by
  rw [parseSections.eq_def]
  dsimp only
  rw [if_neg (by simp), index_of_lt (by simp), ok_bind, slice_of_le (by simp) le_rfl,
    List.take_length, ok_bind, List.getElem_cons_zero, List.drop_one, List.tail_cons]
  by_cases hkind : kind = 0
  · rw [if_pos hkind, if_pos hkind]
  rw [if_neg hkind, if_neg hkind]
  by_cases hsequence : kind = 1
  · rw [if_pos hsequence, if_pos hsequence]
    by_cases hshort : sections.length < 4
    · rw [if_pos hshort, if_pos hshort]
    · rw [if_neg hshort, if_neg hshort, slice_of_le (by omega) (by omega), ok_bind, List.drop_zero]
      by_cases hrange : int32 (uint32LE (sections.take 4)) < 4 ∨
          int32 (uint32LE (sections.take 4)) > sections.length
      · rw [if_pos hrange, if_pos hrange]
      · rw [if_neg hrange, if_neg hrange, slice_of_le (by omega) le_rfl, ok_bind, List.take_length]
  · rw [if_neg hsequence, if_neg hsequence]

/-- The loop comes to an end on any sections, and stays inside them. -/
theorem returns_parseSections {fuel : ℕ} {sections : Bytes} (found : Option BSON)
    (hfuel : sections.length < fuel) : Returns (parseSections fuel sections found) := by
  induction fuel generalizing sections found with
  | zero => omega
  | succ fuel ih =>
    cases sections with
    | nil => cases found <;> trivial
    | cons kind sections =>
      rw [List.length_cons] at hfuel
      rw [parseSections_cons]
      split
      · refine returns_bind (returns_mapErr.mpr (returns_readBSONDocument _)) fun read hread ↦ ?_
        rcases readBSONDocument_eq_ok.mp (mapErr_eq_ok.mp hread) with ⟨doc, -, hn, hpre⟩
        have hle : read.2 ≤ sections.length := hn ▸ hpre.length_le
        refine returns_bind (returns_refuse _ _) fun _ _ ↦ ?_
        rw [slice_of_le hle le_rfl, ok_bind, List.take_length]
        refine ih _ ?_
        rw [List.length_drop]
        omega
      · split
        · split
          · trivial
          · split
            · trivial
            · refine ih _ ?_
              rw [List.length_drop]
              omega
        · trivial

theorem returns_parseOpMsg (body : Bytes) : Returns (parseOpMsg body) := by
  unfold parseOpMsg
  split
  · trivial
  · rw [slice_of_le (by omega) (by omega), ok_bind, slice_of_le (by omega) le_rfl, ok_bind]
    refine returns_bind ?_ fun sections _ ↦ returns_bind (returns_parseSections none (by omega))
      fun _ _ ↦ trivial
    unfold trimChecksum
    split
    · split
      · trivial
      · rw [slice_of_le (by omega) (by omega)]
        trivial
    · trivial

theorem returns_parseOpQuery (body : Bytes) : Returns (parseOpQuery body) := by
  unfold parseOpQuery
  split
  · trivial
  · rw [slice_of_le (by omega) (by omega), ok_bind]
    refine returns_bind (returns_mapErr.mpr (returns_readCString _ _ (by omega))) fun read _ ↦ ?_
    dsimp only
    split
    · trivial
    · rw [slice_of_le (by omega) (by omega), ok_bind, slice_of_le (by omega) (by omega), ok_bind,
        slice_of_le (by omega) le_rfl, ok_bind]
      exact returns_bind (returns_mapErr.mpr (returns_readBSONDocument _)) fun _ _ ↦ trivial

/-- A document sequence is skipped. -/
theorem parseSections_sequence (fuel : ℕ) {payload : Bytes} (rest : Bytes) (found : Option BSON)
    (hfits : 4 + payload.length < 2 ^ 31) :
    parseSections (fuel + 1) ((Section.sequence payload).bytes ++ rest) found =
      parseSections fuel rest found := by
  have hsize : int32 (uint32LE ((le32 (UInt32.ofNat (4 + payload.length)) ++ payload ++
      rest).take 4)) = (4 + payload.length : ℕ) := by
    rw [List.append_assoc, List.take_left' (length_le32 _), uint32LE_le32, int32_ofNat _ hfits]
  have hlength : (le32 (UInt32.ofNat (4 + payload.length)) ++ payload).length =
      4 + payload.length := by
    rw [List.length_append, length_le32]
  have htotal : (le32 (UInt32.ofNat (4 + payload.length)) ++ payload ++ rest).length =
      4 + payload.length + rest.length := by
    rw [List.length_append, hlength]
  rw [Section.bytes, List.cons_append, parseSections_cons, if_neg (by decide), if_pos rfl,
    if_neg (by omega), hsize, if_neg (by omega), Int.toNat_natCast, List.drop_left' hlength]

/-- A command document is read, and found once. -/
theorem parseSections_body (fuel : ℕ) {doc : Bytes} {d : BSON} (rest : Bytes)
    (hdoc : IsDocument doc d) :
    parseSections (fuel + 1) ((Section.body doc).bytes ++ rest) none =
      parseSections fuel rest (some d) := by
  have hread : readBSONDocument (doc ++ rest) = .ok (d, doc.length) :=
    readBSONDocument_eq_ok.mpr ⟨doc, hdoc, rfl, List.prefix_append _ _⟩
  rw [Section.bytes, List.cons_append, parseSections_cons, if_pos rfl, hread]
  change (slice (doc ++ rest) doc.length (doc ++ rest).length >>= fun rest ↦
    parseSections fuel rest (some d)) = _
  rw [slice_of_le (by simp) le_rfl, List.take_length, List.drop_left, ok_bind]

/-- The sequences before and after the command document make no difference. -/
theorem parseSections_sequences (fuel : ℕ) {payloads : List Bytes} (rest : Bytes)
    (found : Option BSON) (hfits : ∀ payload ∈ payloads, 4 + payload.length < 2 ^ 31) :
    parseSections (payloads.length + fuel)
        ((payloads.map fun payload ↦ (Section.sequence payload).bytes).flatten ++ rest) found =
      parseSections fuel rest found := by
  induction payloads with
  | nil => simp
  | cons payload payloads ih =>
    have hlength : (payload :: payloads).length + fuel = payloads.length + fuel + 1 := by
      rw [List.length_cons]
      omega
    rw [hlength, List.map_cons, List.flatten_cons, List.append_assoc,
      parseSections_sequence _ _ _ (hfits payload List.mem_cons_self),
      ih fun other hother ↦ hfits other (List.mem_cons_of_mem _ hother)]

/-! ## Well-formed messages -/

/-- An `OP_MSG` body with one command document, any number of document sequences around it and a
checksum when the flags say so. -/
structure OpMsgBody where
  flags : UInt32
  before : List Bytes
  doc : Bytes
  after : List Bytes
  checksum : Bytes
  length_checksum : checksum.length = if checksumPresent flags then 4 else 0

namespace OpMsgBody

/-- The sequences with the given payloads. -/
def sequences (payloads : List Bytes) : Bytes :=
  (payloads.map fun payload ↦ (Section.sequence payload).bytes).flatten

def sections (m : OpMsgBody) : Bytes :=
  sequences m.before ++ ((Section.body m.doc).bytes ++ sequences m.after)

def bytes (m : OpMsgBody) : Bytes := le32 m.flags ++ (m.sections ++ m.checksum)

theorem length_le_sequences (payloads : List Bytes) :
    payloads.length ≤ (sequences payloads).length ∧
      ∀ payload ∈ payloads, 4 + payload.length ≤ (sequences payloads).length := by
  induction payloads with
  | nil => exact ⟨le_rfl, fun payload h ↦ absurd h List.not_mem_nil⟩
  | cons payload payloads ih =>
    have hlength : (sequences (payload :: payloads)).length =
        5 + payload.length + (sequences payloads).length := by
      simp only [sequences, List.map_cons, List.flatten_cons, List.length_append, Section.bytes,
        List.length_cons, length_le32]
      omega
    refine ⟨?_, fun other hother ↦ ?_⟩
    · rw [hlength, List.length_cons]
      omega
    · rcases List.mem_cons.mp hother with rfl | hmem
      · omega
      · have := ih.2 other hmem
        omega

theorem length_bytes (m : OpMsgBody) :
    m.bytes.length = 5 + (sequences m.before).length + m.doc.length + (sequences m.after).length +
      m.checksum.length := by
  simp only [bytes, sections, Section.bytes, List.length_append, List.length_cons, length_le32]
  omega

/-- The size of every sequence can be written as an int32. -/
def Fits (m : OpMsgBody) : Prop := ∀ payload ∈ m.before ++ m.after, 4 + payload.length < 2 ^ 31

theorem fits_of_length {m : OpMsgBody} (hlength : m.bytes.length < 2 ^ 31) : m.Fits := by
  have hbytes := m.length_bytes
  intro payload hpayload
  rcases List.mem_append.mp hpayload with hbefore | hafter
  · have := (length_le_sequences m.before).2 payload hbefore
    omega
  · have := (length_le_sequences m.after).2 payload hafter
    omega

/-- Of a well-formed body, the loop reads the command document. -/
theorem parseOpMsg_bytes (m : OpMsgBody) (hfits : m.Fits) :
    parseOpMsg m.bytes =
      parseSections (m.sections.length + 1 - m.before.length)
          ((Section.body m.doc).bytes ++ sequences m.after) none >>=
        fun doc ↦ pure (m.flags, doc) := by
  have hlength := m.length_bytes
  have hsequences := length_le_sequences m.before
  have hsections : m.bytes.length = 4 + (m.sections.length + m.checksum.length) := by
    simp only [bytes, List.length_append, length_le32]
  have hbefore : m.before.length ≤ m.sections.length := by
    rw [sections, List.length_append]
    omega
  have hflags : (slice m.bytes 0 4 : GoM GoError Bytes) = .ok (le32 m.flags) := by
    have h : (slice ([] ++ le32 m.flags ++ (m.sections ++ m.checksum)) 0 4 : GoM GoError Bytes) =
        .ok (le32 m.flags) := slice_append _ _ _ rfl (by simp)
    exact h
  have hrest : (slice m.bytes 4 m.bytes.length : GoM GoError Bytes) =
      .ok (m.sections ++ m.checksum) := by
    rw [slice_of_le (by omega) le_rfl, List.take_length, bytes, List.drop_left' (length_le32 _)]
  have htrim : trimChecksum m.flags (m.sections ++ m.checksum) = .ok m.sections := by
    have hchecksum := m.length_checksum
    unfold trimChecksum
    split
    next hpresent =>
      rw [if_pos hpresent] at hchecksum
      rw [List.length_append, hchecksum, if_neg (by omega), slice_of_le (by omega) (by simp),
        Nat.add_sub_cancel, List.take_left, List.drop_zero]
    next habsent =>
      rw [if_neg habsent] at hchecksum
      rw [List.length_eq_zero_iff.mp hchecksum, List.append_nil]
      rfl
  have hskip : parseSections (m.sections.length + 1) m.sections none =
      parseSections (m.sections.length + 1 - m.before.length)
        ((Section.body m.doc).bytes ++ sequences m.after) none := by
    have hfuel : m.sections.length + 1 =
        m.before.length + (m.sections.length + 1 - m.before.length) := by omega
    rw [hfuel, sections]
    refine (parseSections_sequences _ _ _ fun payload hpayload ↦ ?_).trans ?_
    · exact hfits payload (List.mem_append_left _ hpayload)
    · rw [← sections, ← hfuel]
  rw [parseOpMsg, if_neg (by omega), hflags, ok_bind, hrest, ok_bind, uint32LE_le32, htrim, ok_bind,
    hskip]

/-- It is accepted with any document the decoder reads from the bytes of the command. -/
theorem parseOpMsg_of_isDocument (m : OpMsgBody) (hfits : m.Fits) {d : BSON}
    (hdoc : IsDocument m.doc d) : parseOpMsg m.bytes = .ok (m.flags, d) := by
  have hlength := m.length_bytes
  have hbefore := (length_le_sequences m.before).1
  have hafter := length_le_sequences m.after
  have hfuel : m.sections.length + 1 - m.before.length =
      m.after.length + (m.sections.length - 1 - m.before.length - m.after.length + 1) + 1 := by
    simp only [sections, Section.bytes, List.length_append, List.length_cons]
    omega
  have hparse : parseSections (m.sections.length + 1 - m.before.length)
      ((Section.body m.doc).bytes ++ sequences m.after) none = .ok d := by
    rw [hfuel, parseSections_body _ _ hdoc, ← List.append_nil (sequences m.after)]
    refine (parseSections_sequences _ _ _ fun payload hpayload ↦ ?_).trans rfl
    exact hfits payload (List.mem_append_right _ hpayload)
  rw [parseOpMsg_bytes m hfits, hparse]
  rfl

/-- It is refused when the decoder refuses the command. -/
theorem parseOpMsg_of_errs (m : OpMsgBody) (hfits : m.Fits)
    (herrs : ∀ rest, Errs (readBSONDocument (m.doc ++ rest))) : Errs (parseOpMsg m.bytes) := by
  have hbefore : m.before.length ≤ m.sections.length := by
    have := (length_le_sequences m.before).1
    rw [sections, List.length_append]
    omega
  have hfuel : m.sections.length + 1 - m.before.length =
      m.sections.length - m.before.length + 1 := by omega
  rw [parseOpMsg_bytes m hfits, hfuel, Section.bytes, List.cons_append, parseSections_cons,
    if_pos rfl]
  have hread := herrs (sequences m.after)
  cases hresult : readBSONDocument (m.doc ++ sequences m.after) with
  | ok value =>
    rw [hresult] at hread
    exact absurd hread (not_errs_ok _)
  | error fault =>
    rw [hresult] at hread
    cases fault with
    | err error => trivial
    | panic => exact absurd hread id
    | outOfFuel => exact absurd hread id

end OpMsgBody

/-- A document that is read back from a message of its own. -/
structure Readable (d : BSON) : Prop where
  keys : KeysOk d
  fits : msgHeaderLen + (encodeOpMsgBody 0 d).length ≤ maxMessageSize

/-- The flags come back as well, whatever they are but for the one that announces a checksum. -/
theorem parseOpMsg_encodeOpMsgBody_flags {flags : UInt32} (hflags : ¬ checksumPresent flags)
    {d : BSON} (hkeys : KeysOk d) (hfits : (encodeOpMsgBody flags d).length < 2 ^ 31) :
    parseOpMsg (encodeOpMsgBody flags d) = .ok (flags, normaliseElements d) := by
  let m : OpMsgBody := ⟨flags, [], marshalBSON d, [], [], (if_neg hflags).symm⟩
  have hbytes : encodeOpMsgBody flags d = m.bytes := by
    rw [encodeOpMsgBody, appendBSON_append, OpMsgBody.bytes, OpMsgBody.sections, Section.bytes]
    simp [m, OpMsgBody.sequences]
  have hmarshal : (marshalBSON d).length < 2 ^ 31 := by
    rw [length_encodeOpMsgBody] at hfits
    omega
  rw [hbytes] at hfits ⊢
  exact m.parseOpMsg_of_isDocument (OpMsgBody.fits_of_length hfits)
    (isDocument_marshalBSON d hkeys hmarshal)

theorem parseOpMsg_encodeOpMsgBody {d : BSON} (hd : Readable d) :
    parseOpMsg (encodeOpMsgBody 0 d) = .ok (0, normaliseElements d) := by
  have hfits : (encodeOpMsgBody 0 d).length < 2 ^ 31 := by
    have := hd.fits
    unfold maxMessageSize at this
    omega
  exact parseOpMsg_encodeOpMsgBody_flags (by decide) hd.keys hfits

end DbPivot.Mongo
