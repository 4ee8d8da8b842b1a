import DbPivot.Go.Tls
import DbPivot.Mongo.Auth
import DbPivot.Postgres.Startup

/-!
# Messages and the login to a PostgreSQL upstream

After the StartupMessage both sides send messages of a type byte, a length and a body. A server
asks for SCRAM-SHA-256 or for nothing; the SCRAM library is the conversation that the MongoDB login
uses too. Whether to encrypt is settled before the StartupMessage, with eight bytes and a one-byte
answer.

A login that succeeds has taken whole messages from the connection, the last of which is the
server's `AuthenticationOk`, and has written the two messages of SCRAM or none.
-/

namespace DbPivot.Postgres

open DbPivot.Go
open DbPivot.Mongo (Env)

/-! ## Codes -/

def sslRequestCode : UInt32 := 0x04D2162F

def gssencRequestCode : UInt32 := 0x04D21630

def cancelRequestCode : UInt32 := 0x04D2162E

def maxStartupLen : ℕ := 64 * 1024

def authOk : Int32 := 0

def authCleartextPassword : Int32 := 3

def authMD5Password : Int32 := 5

def authSASL : Int32 := 10

def authSASLContinue : Int32 := 11

def authSASLFinal : Int32 := 12

/-- A byte constant such as `'R'`. -/
def ascii (c : Char) : UInt8 := UInt8.ofNat c.toNat

/-! ## Messages -/

/-- The bytes of a message. -/
def messageBytes (typ : UInt8) (body : Bytes) : Bytes :=
  typ :: be32 (UInt32.ofNat (4 + body.length)) ++ body

/-- The checks of `ReadMessage` on the length word. -/
def messageBodyLen (length : UInt32) : GoM GoError ℕ := do
  refuse (length.toNat < 4) (errorf "message length %d < 4" [.number length.toNat])
  refuse (maxStartupLen < length.toNat - 4)
    (errorf "message body length %d out of range" [.number (length.toNat - 4 : ℕ)])
  pure (length.toNat - 4)

/-- `ReadMessage`. -/
def readMessage : SocketM (UInt8 × Bytes) := do
  let hdr ← readFull 5
  let bodyLen ← .lift (messageBodyLen (uint32BE (hdr.drop 1)))
  let body ← readFull bodyLen
  pure (hdr.headD 0, body)

/-- `WriteMessage`. -/
def writeMessage (typ : UInt8) (body : Bytes) : SocketM Unit := do
  write (typ :: be32 (UInt32.ofNat (4 + body.length)))
  write body

/-- The body of `WriteAuthenticationOk`. -/
def authenticationOkBody : Bytes := be32 authOk.toUInt32

/-- The body of `WriteSASLInitialResponse`. -/
def saslInitialResponseBody (mechanism data : Bytes) : Bytes :=
  mechanism ++ [0] ++ be32 (UInt32.ofNat data.length) ++ data

/-- `ParseAuthenticationMessage`. -/
def parseAuthenticationMessage (body : Bytes) : GoM GoError (Int32 × Bytes) := do
  refuse (body.length < 4) (errorf "authentication message too short: %d" [.number body.length])
  pure ((uint32BE (body.take 4)).toInt32, body.drop 4)

/-- The body of `WriteErrorResponse`. -/
def errorResponseBody (severity sqlstate message : Bytes) : Bytes :=
  [ascii 'S'] ++ severity ++ [0] ++ [ascii 'V'] ++ severity ++ [0] ++ [ascii 'C'] ++ sqlstate ++
    [0] ++ [ascii 'M'] ++ message ++ [0] ++ [0]

/-- The fields that `ParseErrorResponse` looks for. -/
structure ErrorFields where
  severity : Bytes
  code : Bytes
  message : Bytes

/-- The loop of `ParseErrorResponse`. -/
def parseErrorFields : ℕ → Bytes → ErrorFields → ErrorFields
  | 0, _, found => found
  | _ + 1, [], found => found
  | fuel + 1, ftype :: rest, found =>
    if ftype = 0 then found
    else
      let val := rest.takeWhile fun byte ↦ byte ≠ 0
      let found :=
        if ftype = ascii 'S' ∨ ftype = ascii 'V' then
          if found.severity = [] then { found with severity := val } else found
        else if ftype = ascii 'C' then { found with code := val }
        else if ftype = ascii 'M' then { found with message := val }
        else found
      parseErrorFields fuel (rest.drop (val.length + 1)) found

/-- `ParseErrorResponse`. -/
def parseErrorResponse (body : Bytes) : Bytes :=
  let found := parseErrorFields body.length body ⟨[], [], []⟩
  let parts := found.message
  let parts := if found.severity ≠ [] then found.severity ++ str ": " ++ parts else parts
  let parts := if found.code ≠ [] then parts ++ str " (SQLSTATE " ++ found.code ++ str ")" else parts
  if parts = [] then str "unparseable ErrorResponse" else parts

/-! ## The login -/

/-- The loop of `hasMechanism`, with the current name so far. -/
def hasMechanismFrom (name : Bytes) : Bytes → Bytes → Bool
  | _, [] => false
  | current, b :: rest =>
    if b = 0 then current = name || hasMechanismFrom name [] rest
    else hasMechanismFrom name (current ++ [b]) rest

/-- `hasMechanism`. -/
def hasMechanism (data name : Bytes) : Bool := hasMechanismFrom name [] data

def scramSHA256 : Bytes := str "SCRAM-SHA-256"

/-- `readSASLContinue` and `readSASLFinal`: the data of an authentication message with the code that
is expected; the texts of the errors name the step. -/
def readSASL (step : String) (expected : Int32) (expectedText : String) : SocketM Bytes := do
  let (typ, body) ← .wrap (wrapf ("read " ++ step ++ ": %w") []) readMessage
  .lift (refuse (typ ≠ ascii 'R')
    (errorf ("expected 'R' for " ++ step ++ ", got %c") [.number typ.toNat]))
  let (code, data) ← .lift (parseAuthenticationMessage body)
  .lift (refuse (code ≠ expected) (errorf (expectedText ++ ", got %d") [.number code.toInt]))
  pure data

def readSASLContinue : SocketM Bytes :=
  readSASL "SASLContinue" authSASLContinue "expected AuthSASLContinue (11)"

def readSASLFinal : SocketM Bytes :=
  readSASL "SASLFinal" authSASLFinal "expected AuthSASLFinal (12)"

/-- The last message of `runSCRAM`. -/
def readAuthenticationOk : SocketM Unit := do
  let (typ, body) ← .wrap (wrapf "read AuthenticationOk: %w" []) readMessage
  .lift (refuse (typ ≠ ascii 'R') (errorf "expected AuthenticationOk, got %c" [.number typ.toNat]))
  let (code, _) ← .lift (parseAuthenticationMessage body)
  .lift (refuse (code ≠ authOk)
    (errorf "expected AuthenticationOk code 0, got %d" [.number code.toInt]))

/-- `runSCRAM`. -/
def runSCRAM (env : Env) (user password data : Bytes) : SocketM Unit := do
  .lift (refuse (¬ hasMechanism data scramSHA256)
    (errorf "upstream did not advertise SCRAM-SHA-256" []))
  let conv ← .lift (mapErr (wrapf "scram client: %w" []) (env.newClient user password))
  let clientFirst ← .lift (mapErr (wrapf "scram client-first: %w" []) (conv.step [[]]))
  .wrap (wrapf "write SASLInitialResponse: %w" [])
    (writeMessage (ascii 'p') (saslInitialResponseBody scramSHA256 clientFirst))
  let serverFirst ← readSASLContinue
  let clientFinal ← .lift
    (mapErr (wrapf "scram client-final: %w" []) (conv.step [[], serverFirst]))
  .wrap (wrapf "write SASLResponse: %w" []) (writeMessage (ascii 'p') clientFinal)
  let serverFinal ← readSASLFinal
  let _ ← .lift (mapErr (wrapf "scram verify: %w" []) (conv.step [[], serverFirst, serverFinal]))
  .lift (refuse (¬ conv.valid [[], serverFirst, serverFinal])
    (errorf "scram conversation did not complete successfully" []))
  readAuthenticationOk

/-- `AuthenticateUpstream`. -/
def authenticateUpstream (env : Env) (user password : Bytes) : SocketM Unit := do
  let (typ, body) ← .wrap (wrapf "read auth message: %w" []) readMessage
  .lift (refuse (typ ≠ ascii 'R')
    (if typ = ascii 'E' then
      errorf "upstream rejected connection: %s" [.text (parseErrorResponse body)]
    else errorf "expected Authentication message (R), got %c" [.number typ.toNat]))
  let (code, data) ← .lift (parseAuthenticationMessage body)
  if code = authOk then pure ()
  else if code = authSASL then runSCRAM env user password data
  else if code = authCleartextPassword ∨ code = authMD5Password then
    .lift (fail (errorf "upstream requires legacy auth (code %d); v1 supports SCRAM-SHA-256 only"
      [.number code.toInt]))
  else .lift (fail (errorf "unsupported upstream auth method (code %d)" [.number code.toInt]))

/-! ## TLS -/

/-- What `SendSSLRequest` writes. -/
def sslRequest : Bytes := be32 8 ++ be32 sslRequestCode

/-- The part of `NegotiateUpstreamTLS` on the TCP connection. -/
def requestTLS : SocketM Unit := do
  .wrap (wrapf "send SSLRequest: %w" []) (write sslRequest)
  let resp ← .wrap (wrapf "read SSLRequest response: %w" []) (readFull 1)
  let answer := resp.headD 0
  if answer = ascii 'S' then pure ()
  else if answer = ascii 'N' then
    .lift (fail (errorf "upstream does not support SSL but sslmode=require" []))
  else .lift (fail (errorf "unexpected SSLRequest response byte %q" [.number answer.toNat]))

/-- `NegotiateUpstreamTLS`. The server name goes into the handshake alone. -/
def negotiateUpstreamTLS (link : Link) : GoM GoError Unit × Link :=
  match link.on .plain requestTLS with
  | (.ok (), link) =>
    (mapErr (wrapf "upstream TLS handshake: %w" []) link.startTLS.1, link.startTLS.2)
  | (.error fault, link) => (.error fault, link)

/-! ## Reading and writing messages -/

theorem writeMessage_eq (typ : UInt8) (body : Bytes) :
    writeMessage typ body = write (messageBytes typ body) := by
  rw [messageBytes, write_append]
  rfl

theorem messageBodyLen_eq_ok {length : UInt32} {bodyLen : ℕ} :
    messageBodyLen length = .ok bodyLen ↔ length.toNat = 4 + bodyLen ∧ bodyLen ≤ maxStartupLen := by
  constructor
  · intro h
    obtain ⟨hmin, h⟩ := refuse_bind_eq_ok.mp h
    obtain ⟨hmax, h⟩ := refuse_bind_eq_ok.mp h
    rw [← Except.ok.inj h]
    omega
  · intro h
    obtain ⟨hlength, hmax⟩ := h
    rw [messageBodyLen, refuse_bind_of_not (by omega), refuse_bind_of_not (by omega), hlength,
      Nat.add_sub_cancel_left]
    rfl

/-- A message is read exactly when the input begins with one that is not too long. -/
theorem readMessage_eq_ok {s s' : Socket} {typ : UInt8} {body : Bytes} :
    readMessage.run s = (.ok (typ, body), s') ↔
      body.length ≤ maxStartupLen ∧
        s = { s' with input := messageBytes typ body ++ s'.input } := by
  constructor
  · intro h
    obtain ⟨hdr, afterHdr, hhdr, hrest⟩ := SocketM.bind_eq_ok.mp h
    obtain ⟨hlength, rfl⟩ := readFull_eq_ok.mp hhdr
    obtain ⟨bodyLen, _, hcheck, hrest⟩ := SocketM.bind_eq_ok.mp hrest
    obtain ⟨hbodyLen, rfl⟩ := SocketM.lift_eq_ok.mp hcheck
    obtain ⟨body', afterBody, hbody, hpure⟩ := SocketM.bind_eq_ok.mp hrest
    obtain ⟨hbodyLength, rfl⟩ := readFull_eq_ok.mp hbody
    obtain ⟨hresult, rfl⟩ := SocketM.pure_eq_ok.mp hpure
    obtain ⟨rfl, rfl⟩ := Prod.mk.inj hresult
    obtain ⟨hword, hmax⟩ := messageBodyLen_eq_ok.mp hbodyLen
    have hword : be32 (UInt32.ofNat (4 + body'.length)) = hdr.drop 1 := by
      rw [hbodyLength, ← hword, UInt32.ofNat_toNat, be32_uint32BE]
      rw [List.length_drop, hlength]
    have hheader : hdr = hdr.headD 0 :: hdr.drop 1 := by
      cases hdr with
      | nil => cases hlength
      | cons typ rest => rfl
    refine ⟨hbodyLength ▸ hmax, ?_⟩
    rw [messageBytes, hword, ← hheader, List.append_assoc]
  · intro h
    obtain ⟨hmax, rfl⟩ := h
    have hlength : (typ :: be32 (UInt32.ofNat (4 + body.length))).length = 5 := by
      rw [List.length_cons, length_be32]
    have hhdr : (readFull 5).run { s' with input := messageBytes typ body ++ s'.input } =
        (.ok (typ :: be32 (UInt32.ofNat (4 + body.length))),
          { s' with input := body ++ s'.input }) := by
      refine readFull_eq_ok.mpr ⟨hlength, ?_⟩
      rw [messageBytes, List.append_assoc]
    have hword : messageBodyLen (uint32BE (be32 (UInt32.ofNat (4 + body.length)))) =
        .ok body.length := by
      refine messageBodyLen_eq_ok.mpr ⟨?_, hmax⟩
      rw [uint32BE_be32]
      refine UInt32.toNat_ofNat_of_lt ?_
      have hbound : maxStartupLen = 64 * 1024 := rfl
      change 4 + body.length < 4294967296
      omega
    have hbody : (readFull body.length).run { s' with input := body ++ s'.input } = (.ok body, s') :=
      readFull_eq_ok.mpr ⟨rfl, rfl⟩
    rw [readMessage, SocketM.bind_of_ok hhdr]
    change (SocketM.lift (messageBodyLen (uint32BE (be32 (UInt32.ofNat (4 + body.length))))) >>=
      _).run _ = _
    rw [SocketM.bind_lift_of_ok hword, SocketM.bind_of_ok hbody]
    rfl

/-! ## Authentication messages -/

/-- An authentication message with its code. -/
def authMessage (code : Int32) (data : Bytes) : Bytes :=
  messageBytes (ascii 'R') (be32 code.toUInt32 ++ data)

/-- The message with this data is short enough for `ReadMessage`. -/
def Admissible (data : Bytes) : Prop := 4 + data.length ≤ maxStartupLen

instance (data : Bytes) : Decidable (Admissible data) :=
  inferInstanceAs (Decidable (4 + data.length ≤ maxStartupLen))

theorem parseAuthenticationMessage_eq_ok {body data : Bytes} {code : Int32} :
    parseAuthenticationMessage body = .ok (code, data) ↔ body = be32 code.toUInt32 ++ data := by
  constructor
  · intro h
    obtain ⟨hlength, h⟩ := refuse_bind_eq_ok.mp h
    obtain ⟨rfl, rfl⟩ := Prod.mk.inj (Except.ok.inj h)
    have hword : (body.take 4).length = 4 := by
      rw [List.length_take]
      omega
    rw [UInt32.toUInt32_toInt32, be32_uint32BE _ hword, List.take_append_drop]
  · rintro rfl
    have hlength : ¬ (be32 code.toUInt32 ++ data).length < 4 := by
      rw [List.length_append, length_be32]
      omega
    rw [parseAuthenticationMessage, refuse_bind_of_not hlength,
      List.take_left' (length_be32 _), List.drop_left' (length_be32 _), uint32BE_be32,
      Int32.toInt32_toUInt32]
    rfl

theorem returns_parseAuthenticationMessage (body : Bytes) :
    Returns (parseAuthenticationMessage body) :=
  returns_bind (returns_refuse _ _) fun _ _ ↦ trivial

/-- What a read gives when it gives an authentication message. -/
theorem readMessage_eq_auth {s s' : Socket} {code : Int32} {data : Bytes} :
    readMessage.run s = (.ok (ascii 'R', be32 code.toUInt32 ++ data), s') ↔
      Admissible data ∧ s = { s' with input := authMessage code data ++ s'.input } := by
  rw [readMessage_eq_ok, List.length_append, length_be32]
  rfl

/-- A point where the login reads a message and expects an authentication message: it goes on exactly
when the input begins with one. -/
theorem readAuth_eq_ok {α : Type} {change : GoError → GoError} (unexpected : UInt8 → Bytes → GoError)
    {next : Int32 × Bytes → SocketM α} {s s' : Socket} {result : α} :
    (SocketM.wrap change readMessage >>= fun message ↦
      SocketM.lift (refuse (message.1 ≠ ascii 'R') (unexpected message.1 message.2)) >>= fun _ ↦
        SocketM.lift (parseAuthenticationMessage message.2) >>= next).run s = (.ok result, s') ↔
      ∃ code data middle, Admissible data ∧
        s = { middle with input := authMessage code data ++ middle.input } ∧
        (next (code, data)).run middle = (.ok result, s') := by
  constructor
  · intro h
    obtain ⟨⟨typ, body⟩, middle, hread, h⟩ := SocketM.bind_eq_ok.mp h
    obtain ⟨_, _, htyp, h⟩ := SocketM.bind_eq_ok.mp h
    obtain ⟨htypOk, rfl⟩ := SocketM.lift_eq_ok.mp htyp
    obtain ⟨⟨code, data⟩, _, hparse, hnext⟩ := SocketM.bind_eq_ok.mp h
    obtain ⟨hparseOk, rfl⟩ := SocketM.lift_eq_ok.mp hparse
    obtain rfl : typ = ascii 'R' := not_not.mp (refuse_eq_ok.mp htypOk)
    obtain rfl := parseAuthenticationMessage_eq_ok.mp hparseOk
    obtain ⟨hdata, hbefore⟩ := readMessage_eq_auth.mp (SocketM.wrap_eq_ok.mp hread)
    exact ⟨code, data, middle, hdata, hbefore, hnext⟩
  · rintro ⟨code, data, middle, hdata, hbefore, hnext⟩
    have hread := readMessage_eq_auth.mpr ⟨hdata, hbefore⟩
    rw [SocketM.bind_of_ok (SocketM.wrap_eq_ok.mpr hread),
      SocketM.bind_refuse_of_not (not_not.mpr rfl),
      SocketM.bind_lift_of_ok (parseAuthenticationMessage_eq_ok.mpr rfl)]
    exact hnext

theorem readSASL_eq_ok {step text : String} {expected : Int32} {s s' : Socket} {data : Bytes} :
    (readSASL step expected text).run s = (.ok data, s') ↔
      Admissible data ∧ s = { s' with input := authMessage expected data ++ s'.input } := by
  refine (readAuth_eq_ok fun typ _ ↦
    errorf ("expected 'R' for " ++ step ++ ", got %c") [.number typ.toNat]).trans ?_
  constructor
  · rintro ⟨code, _, _, hdata, hbefore, h⟩
    obtain ⟨_, _, hcode, h⟩ := SocketM.bind_eq_ok.mp h
    obtain ⟨hcodeOk, rfl⟩ := SocketM.lift_eq_ok.mp hcode
    obtain ⟨rfl, rfl⟩ := SocketM.pure_eq_ok.mp h
    obtain rfl : code = expected := not_not.mp (refuse_eq_ok.mp hcodeOk)
    exact ⟨hdata, hbefore⟩
  · rintro ⟨hdata, hbefore⟩
    refine ⟨expected, data, s', hdata, hbefore, ?_⟩
    rw [SocketM.bind_refuse_of_not (not_not.mpr rfl)]
    rfl

theorem readAuthenticationOk_eq_ok {s s' : Socket} :
    readAuthenticationOk.run s = (.ok (), s') ↔
      ∃ data, Admissible data ∧ s = { s' with input := authMessage authOk data ++ s'.input } := by
  refine (readAuth_eq_ok fun typ _ ↦
    errorf "expected AuthenticationOk, got %c" [.number typ.toNat]).trans ?_
  constructor
  · rintro ⟨code, data, _, hdata, hbefore, h⟩
    obtain ⟨hcodeOk, rfl⟩ := SocketM.lift_eq_ok.mp h
    obtain rfl : code = authOk := not_not.mp (refuse_eq_ok.mp hcodeOk)
    exact ⟨data, hdata, hbefore⟩
  · rintro ⟨data, hdata, hbefore⟩
    exact ⟨authOk, data, s', hdata, hbefore, rfl⟩

/-! ## What a login transfers -/

theorem transfer_of_writeMessage {s s' : Socket} {typ : UInt8} {body : Bytes} {result : Unit}
    (h : (writeMessage typ body).run s = (.ok result, s')) :
    Transfer s s' [] (messageBytes typ body) := by
  rw [writeMessage_eq] at h
  exact transfer_of_write h

/-- The last message is the server's `AuthenticationOk`. -/
def EndsWithOk (received : Bytes) : Prop :=
  ∃ before body data, received = before ++ messageBytes (ascii 'R') body ∧
    parseAuthenticationMessage body = .ok (authOk, data)

/-- The messages that a login writes: none, or the two of SCRAM. -/
def ScramMessages (sent : Bytes) : Prop :=
  sent = [] ∨ ∃ first final, sent =
    messageBytes (ascii 'p') (saslInitialResponseBody scramSHA256 first) ++
      messageBytes (ascii 'p') final

theorem EndsWithOk.append {received : Bytes} (h : EndsWithOk received) (before : Bytes) :
    EndsWithOk (before ++ received) := by
  obtain ⟨before', body, data, rfl, hparse⟩ := h
  exact ⟨before ++ before', body, data, (List.append_assoc _ _ _).symm, hparse⟩

theorem transfer_of_readSASL {step text : String} {expected : Int32} {s s' : Socket} {data : Bytes}
    (h : (readSASL step expected text).run s = (.ok data, s')) :
    ∃ received, Transfer s s' received [] := by
  obtain ⟨-, rfl⟩ := readSASL_eq_ok.mp h
  exact ⟨authMessage expected data, rfl, (List.append_nil _).symm⟩

theorem transfer_of_readAuthenticationOk {s s' : Socket} {result : Unit}
    (h : readAuthenticationOk.run s = (.ok result, s')) :
    ∃ received, Transfer s s' received [] ∧ EndsWithOk received := by
  obtain ⟨data, -, rfl⟩ := readAuthenticationOk_eq_ok.mp h
  exact ⟨authMessage authOk data, ⟨rfl, (List.append_nil _).symm⟩, [], _, data, rfl,
    parseAuthenticationMessage_eq_ok.mpr rfl⟩

theorem transfer_of_runSCRAM {env : Env} {user password data : Bytes} {s s' : Socket}
    {result : Unit} (h : (runSCRAM env user password data).run s = (.ok result, s')) :
    ∃ received sent, Transfer s s' received sent ∧ EndsWithOk received ∧ ScramMessages sent := by
  obtain ⟨_, _, hmechanism, hrest⟩ := SocketM.bind_eq_ok.mp h
  obtain ⟨-, rfl⟩ := SocketM.lift_eq_ok.mp hmechanism
  obtain ⟨conv, _, hclient, hrest⟩ := SocketM.bind_eq_ok.mp hrest
  obtain ⟨-, rfl⟩ := SocketM.lift_eq_ok.mp hclient
  obtain ⟨clientFirst, _, hstep, hrest⟩ := SocketM.bind_eq_ok.mp hrest
  obtain ⟨-, rfl⟩ := SocketM.lift_eq_ok.mp hstep
  obtain ⟨_, afterFirst, hfirst, hrest⟩ := SocketM.bind_eq_ok.mp hrest
  have hfirst := transfer_of_writeMessage (SocketM.wrap_eq_ok.mp hfirst)
  obtain ⟨serverFirst, afterContinue, hcontinue, hrest⟩ := SocketM.bind_eq_ok.mp hrest
  obtain ⟨receivedFirst, hcontinue⟩ := transfer_of_readSASL hcontinue
  obtain ⟨clientFinal, _, hstep, hrest⟩ := SocketM.bind_eq_ok.mp hrest
  obtain ⟨-, rfl⟩ := SocketM.lift_eq_ok.mp hstep
  obtain ⟨_, afterResponse, hresponse, hrest⟩ := SocketM.bind_eq_ok.mp hrest
  have hresponse := transfer_of_writeMessage (SocketM.wrap_eq_ok.mp hresponse)
  obtain ⟨serverFinal, afterFinal, hfinal, hrest⟩ := SocketM.bind_eq_ok.mp hrest
  obtain ⟨receivedFinal, hfinal⟩ := transfer_of_readSASL hfinal
  obtain ⟨_, _, hstep, hrest⟩ := SocketM.bind_eq_ok.mp hrest
  obtain ⟨-, rfl⟩ := SocketM.lift_eq_ok.mp hstep
  obtain ⟨_, _, hvalid, hrest⟩ := SocketM.bind_eq_ok.mp hrest
  obtain ⟨-, rfl⟩ := SocketM.lift_eq_ok.mp hvalid
  obtain ⟨receivedOk, hok, hends⟩ := transfer_of_readAuthenticationOk hrest
  have hall := (((hfirst.trans hcontinue).trans hresponse).trans hfinal).trans hok
  refine ⟨_, _, hall, hends.append _, .inr ⟨clientFirst, clientFinal, ?_⟩⟩
  simp only [List.append_nil]

/-- The first message of a login that succeeds, and what the login does behind it. -/
theorem authenticateUpstream_eq_ok_iff {env : Env} {user password : Bytes} {s s' : Socket} :
    (authenticateUpstream env user password).run s = (.ok (), s') ↔
      ∃ code data middle, Admissible data ∧
        s = { middle with input := authMessage code data ++ middle.input } ∧
        (code = authOk ∧ s' = middle ∨
          code = authSASL ∧ (runSCRAM env user password data).run middle = (.ok (), s')) := by
  refine (readAuth_eq_ok fun typ body ↦ if typ = ascii 'E' then
      errorf "upstream rejected connection: %s" [.text (parseErrorResponse body)]
    else errorf "expected Authentication message (R), got %c" [.number typ.toNat]).trans ?_
  refine exists_congr fun code ↦ exists_congr fun data ↦ exists_congr fun middle ↦
    and_congr_right fun _ ↦ and_congr_right fun _ ↦ ?_
  dsimp only
  split
  next hcode =>
    have hother : ¬ code = authSASL := by
      rw [hcode]
      decide
    rw [SocketM.pure_eq_ok, and_iff_right rfl, and_iff_right hcode, eq_comm]
    exact (or_iff_left fun h ↦ hother h.1).symm
  next hcode =>
    split
    next hscram => exact ((or_iff_right fun h ↦ hcode h.1).trans (and_iff_right hscram)).symm
    next hscram =>
      refine iff_of_false (fun h ↦ ?_) (not_or.mpr ⟨fun h ↦ hcode h.1, fun h ↦ hscram h.1⟩)
      split at h
      · exact fail_ne_ok _ _ (SocketM.lift_eq_ok.mp h).1
      · exact fail_ne_ok _ _ (SocketM.lift_eq_ok.mp h).1

/-- What a login that succeeds has taken from the connection and written to it. -/
theorem transfer_of_authenticateUpstream {env : Env} {user password : Bytes} {s s' : Socket}
    {result : Unit} (h : (authenticateUpstream env user password).run s = (.ok result, s')) :
    ∃ received sent, Transfer s s' received sent ∧ EndsWithOk received ∧ ScramMessages sent := by
  obtain ⟨code, data, middle, -, rfl, hrest⟩ := authenticateUpstream_eq_ok_iff.mp h
  have hreceived : Transfer { middle with input := authMessage code data ++ middle.input } middle
      (authMessage code data) [] := ⟨rfl, (List.append_nil _).symm⟩
  rcases hrest with ⟨rfl, rfl⟩ | ⟨-, hscram⟩
  · exact ⟨_, _, hreceived, ⟨[], _, data, rfl, parseAuthenticationMessage_eq_ok.mpr rfl⟩, .inl rfl⟩
  · obtain ⟨received, sent, htransfer, hends, hmessages⟩ := transfer_of_runSCRAM hscram
    exact ⟨_, _, hreceived.trans htransfer, hends.append _, hmessages⟩

/-- Whatever the upstream does, the request for TLS writes nothing but a beginning of its eight
bytes. -/
theorem output_requestTLS (s : Socket) :
    ∃ written, written <+: sslRequest ∧ (requestTLS.run s).2.output = s.output ++ written := by
  obtain ⟨written, hpart, houtput, -, -⟩ := run_write sslRequest s
  refine ⟨written, hpart, ?_⟩
  rw [requestTLS, SocketM.run_bind]
  rcases hwrite : (SocketM.wrap (wrapf "send SSLRequest: %w" []) (write sslRequest)).run s with
    ⟨fault | _, middle⟩
  · exact (congrArg (fun r ↦ r.2.output) hwrite).symm.trans houtput
  · have hmiddle : middle.output = s.output ++ written :=
      (congrArg (fun r ↦ r.2.output) hwrite).symm.trans houtput
    dsimp only
    rw [SocketM.run_bind]
    rcases hread : (SocketM.wrap (wrapf "read SSLRequest response: %w" []) (readFull 1)).run middle
      with ⟨fault | resp, last⟩
    · exact (congrArg (fun r ↦ r.2.output) hread).symm.trans
        ((output_readFull 1 middle).trans hmiddle)
    · have hlast : last.output = s.output ++ written :=
        (congrArg (fun r ↦ r.2.output) hread).symm.trans
          ((output_readFull 1 middle).trans hmiddle)
      dsimp only
      split
      · exact hlast
      · split <;> exact hlast

/-- Outside TLS the negotiation writes at most its request, and it succeeds only with TLS. -/
theorem plain_negotiateUpstreamTLS (link : Link) :
    (∃ written, written <+: sslRequest ∧
      (negotiateUpstreamTLS link).2.plain.output = link.plain.output ++ written) ∧
    ((negotiateUpstreamTLS link).1 = .ok () → (negotiateUpstreamTLS link).2.tls.isSome) := by
  obtain ⟨written, hpart, houtput⟩ := output_requestTLS link.plain
  rw [negotiateUpstreamTLS, Link.on_plain]
  rcases hrequest : requestTLS.run link.plain with ⟨fault | _, middle⟩
  · rw [hrequest] at houtput
    exact ⟨⟨written, hpart, houtput⟩, fun hok ↦ nomatch hok⟩
  · rw [hrequest] at houtput
    dsimp only
    refine ⟨⟨written, hpart, ?_⟩, fun hok ↦ ?_⟩
    · rw [Link.plain_startTLS]
      exact houtput
    · exact Link.isSome_tls_of_startTLS (mapErr_eq_ok.mp hok)

/-- The connection that a negotiation gives is the one of the handshake. -/
theorem socket_negotiateUpstreamTLS {link : Link} (h : (negotiateUpstreamTLS link).1 = .ok ()) :
    ∃ inner, link.handshake = .ok inner ∧ (negotiateUpstreamTLS link).2.socket .tls = some inner := by
  rw [negotiateUpstreamTLS, Link.on_plain] at h ⊢
  rcases hrequest : requestTLS.run link.plain with ⟨fault | _, middle⟩
  · rw [hrequest] at h
    exact nomatch h
  · rw [hrequest] at h
    dsimp only at h ⊢
    rcases link with ⟨plain, tls, handshake⟩
    cases handshake with
    | ok inner => exact ⟨inner, rfl, rfl⟩
    | error err => exact nomatch h

end DbPivot.Postgres
