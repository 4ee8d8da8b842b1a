import DbPivot.Go.Format
import DbPivot.Postgres.Login

/-!
# Errors that reach the client

The body of an ErrorResponse is a sequence of fields that end with a NUL, and one NUL behind them. A
code and a message without a NUL come back from `ParseErrorResponse` as they were put in
(`intact_iff`); a message with a NUL ends early and leaves bytes that are no fields.

The message quotes the error of a failed login. Everything the upstream sends is printed there as a
number, or is what `ParseErrorResponse` has cut at NULs, with two exceptions: the type of an
unexpected message is printed as a character, and the texts of the SCRAM library are copied. `Garbled`
says for which bytes of the upstream the error of a login has a NUL in it.
-/

namespace DbPivot.Postgres

open DbPivot.Go
open DbPivot.Mongo (Env Conversation)

/-! ## Bodies -/

/-- A field: its type, its value and a NUL. -/
def field (typ : UInt8) (value : Bytes) : Bytes := typ :: value ++ [0]

/-- Fields without a NUL in their types and values, and one NUL behind them. -/
def IsFields (body : Bytes) : Prop :=
  ∃ fields : List (UInt8 × Bytes), (∀ f ∈ fields, f.1 ≠ 0 ∧ 0 ∉ f.2) ∧
    body = (fields.map fun f ↦ field f.1 f.2).flatten ++ [0]

/-- The text that `ParseErrorResponse` makes of a fatal error. -/
def fatalText (code message : Bytes) : Bytes :=
  str "FATAL: " ++ message ++ str " (SQLSTATE " ++ code ++ str ")"

/-- The body of a fatal error is well formed, and the code and the message that it was made of can be
read back. -/
structure Intact (body : Bytes) : Prop where
  fields : IsFields body
  made : ∃ code message, body = errorResponseBody (str "FATAL") code message
  readable : ∀ code message, body = errorResponseBody (str "FATAL") code message →
    parseErrorResponse body = fatalText code message

theorem errorResponseBody_eq (severity code message : Bytes) :
    errorResponseBody severity code message =
      field (ascii 'S') severity ++ (field (ascii 'V') severity ++ (field (ascii 'C') code ++
        (field (ascii 'M') message ++ [0]))) := by
  simp [errorResponseBody, field]

theorem count_field {typ : UInt8} (htyp : typ ≠ 0) (value : Bytes) :
    (field typ value).count 0 = value.count 0 + 1 := by
  rw [field, List.cons_append, List.count_cons_of_ne htyp, List.count_append]
  rfl

/-- What a body was made of, when its NULs are all at the ends of fields. -/
theorem errorResponseBody_inj {severity code message code' message' : Bytes} (hcode : 0 ∉ code)
    (hmessage : 0 ∉ message)
    (h : errorResponseBody severity code message = errorResponseBody severity code' message') :
    code = code' ∧ message = message' := by
  rw [errorResponseBody_eq, errorResponseBody_eq, List.append_cancel_left_eq,
    List.append_cancel_left_eq] at h
  -- As many NULs on both sides: there is none inside the other code and message either.
  have hcount := congrArg (List.count 0) h
  simp only [List.count_append, count_field (show ascii 'C' ≠ 0 by decide),
    count_field (show ascii 'M' ≠ 0 by decide), List.count_eq_zero.mpr hcode,
    List.count_eq_zero.mpr hmessage] at hcount
  have hcode' : 0 ∉ code' := List.count_eq_zero.mp (by omega)
  have hmessage' : 0 ∉ message' := List.count_eq_zero.mp (by omega)
  simp only [field, List.cons_append, List.append_assoc, List.nil_append, List.cons.injEq,
    true_and] at h
  obtain ⟨rfl, hrest⟩ := eq_of_append_zero hcode hcode' h
  obtain ⟨rfl, -⟩ := eq_of_append_zero hmessage hmessage' (List.cons.inj hrest).2
  exact ⟨rfl, rfl⟩

/-! ## Reading a body -/

/-- What the loop notes of a field. -/
def ErrorFields.note (found : ErrorFields) (ftype : UInt8) (val : Bytes) : ErrorFields :=
  if ftype = ascii 'S' ∨ ftype = ascii 'V' then
    if found.severity = [] then { found with severity := val } else found
  else if ftype = ascii 'C' then { found with code := val }
  else if ftype = ascii 'M' then { found with message := val }
  else found

theorem parseErrorFields_succ (fuel : ℕ) (ftype : UInt8) (rest : Bytes) (found : ErrorFields) :
    parseErrorFields (fuel + 1) (ftype :: rest) found =
      if ftype = 0 then found
      else
        parseErrorFields fuel (rest.drop ((rest.takeWhile fun byte ↦ byte ≠ 0).length + 1))
          (found.note ftype (rest.takeWhile fun byte ↦ byte ≠ 0)) := rfl

theorem parseErrorFields_field {typ : UInt8} {value : Bytes} (htyp : typ ≠ 0) (hvalue : 0 ∉ value)
    (fuel : ℕ) (rest : Bytes) (found : ErrorFields) :
    parseErrorFields (fuel + 1) (field typ value ++ rest) found =
      parseErrorFields fuel rest (found.note typ value) := by
  have hne : ∀ byte ∈ value, decide (byte ≠ 0) = true := by
    intro byte hbyte
    rw [decide_eq_true_iff]
    rintro rfl
    exact hvalue hbyte
  have hval : ((value ++ [0]) ++ rest).takeWhile (fun byte ↦ byte ≠ 0) = value := by
    rw [List.append_assoc, List.takeWhile_append_of_pos hne]
    exact List.append_nil _
  rw [field, List.cons_append, List.cons_append, parseErrorFields_succ, if_neg htyp, hval,
    List.drop_left' (by rw [List.length_append]; rfl)]

theorem parseErrorFields_end (fuel : ℕ) (found : ErrorFields) :
    parseErrorFields (fuel + 1) [0] found = found := rfl

/-- A code and a message without a NUL are read back. -/
theorem parseErrorResponse_errorResponseBody {code message : Bytes} (hne : code ≠ [])
    (hcode : 0 ∉ code) (hmessage : 0 ∉ message) :
    parseErrorResponse (errorResponseBody (str "FATAL") code message) = fatalText code message := by
  obtain ⟨fuel, hfuel⟩ :
      ∃ fuel, (errorResponseBody (str "FATAL") code message).length = fuel + 1 + 1 + 1 + 1 + 1 := by
    refine ⟨(errorResponseBody (str "FATAL") code message).length - 5, ?_⟩
    rw [errorResponseBody_eq]
    simp only [field, List.length_append, List.length_cons, List.length_nil]
    omega
  have hfields : parseErrorFields (errorResponseBody (str "FATAL") code message).length
      (errorResponseBody (str "FATAL") code message) ⟨[], [], []⟩ =
        ⟨str "FATAL", code, message⟩ := by
    rw [hfuel, errorResponseBody_eq, parseErrorFields_field (by decide) (by decide),
      parseErrorFields_field (by decide) (by decide), parseErrorFields_field (by decide) hcode,
      parseErrorFields_field (by decide) hmessage, parseErrorFields_end]
    rfl
  have hseverity : str "FATAL" ≠ [] := by decide
  have hparts : str "FATAL" ++ str ": " ++ message ++ str " (SQLSTATE " ++ code ++ str ")" ≠ [] := by
    intro h
    exact absurd (List.append_eq_nil_iff.mp h).2 (by decide)
  rw [parseErrorResponse, hfields]
  dsimp only
  rw [if_pos hseverity, if_pos hne, if_neg hparts]
  rfl

/-- No part has a NUL in it. -/
structure ErrorFields.Clean (found : ErrorFields) : Prop where
  severity : 0 ∉ found.severity
  code : 0 ∉ found.code
  message : 0 ∉ found.message

theorem ErrorFields.Clean.note {found : ErrorFields} (h : found.Clean) (ftype : UInt8) {val : Bytes}
    (hval : 0 ∉ val) : (found.note ftype val).Clean := by
  unfold ErrorFields.note
  split
  · split
    · exact ⟨hval, h.code, h.message⟩
    · exact h
  · split
    · exact ⟨h.severity, hval, h.message⟩
    · split
      · exact ⟨h.severity, h.code, hval⟩
      · exact h

theorem clean_parseErrorFields (fuel : ℕ) (body : Bytes) {found : ErrorFields} (h : found.Clean) :
    (parseErrorFields fuel body found).Clean := by
  induction fuel generalizing body found with
  | zero => exact h
  | succ fuel ih =>
    cases body with
    | nil => exact h
    | cons ftype rest =>
      rw [parseErrorFields_succ]
      split
      · exact h
      · refine ih _ (h.note ftype fun hmem ↦ ?_)
        exact absurd (List.mem_takeWhile_imp hmem) (by decide)

/-- Whatever the body is, the text made of it has no NUL. -/
theorem zero_notMem_parseErrorResponse (body : Bytes) : 0 ∉ parseErrorResponse body := by
  have hclean := clean_parseErrorFields body.length body
    (show (⟨[], [], []⟩ : ErrorFields).Clean from
      ⟨List.not_mem_nil, List.not_mem_nil, List.not_mem_nil⟩)
  rw [parseErrorResponse]
  generalize parseErrorFields body.length body ⟨[], [], []⟩ = found at hclean
  obtain ⟨hseverity, hcode, hmessage⟩ := hclean
  have hprinted (parts : Bytes) (h : 0 ∉ parts) :
      0 ∉ if parts = [] then str "unparseable ErrorResponse" else parts := by
    split
    · decide
    · exact h
  have hmessage : 0 ∉ if found.severity ≠ [] then found.severity ++ str ": " ++ found.message
      else found.message := by
    split
    · simp only [List.mem_append, hseverity, hmessage, show 0 ∉ str ": " by decide, or_self,
        not_false_eq_true]
    · exact hmessage
  apply hprinted
  split
  · simp only [List.mem_append, hmessage, hcode, show 0 ∉ str " (SQLSTATE " by decide,
      show 0 ∉ str ")" by decide, or_self, not_false_eq_true]
  · exact hmessage

/-- An ErrorResponse of the proxy is in order exactly when its message has no NUL. -/
theorem intact_iff {code message : Bytes} (hne : code ≠ []) (hcode : 0 ∉ code) :
    Intact (errorResponseBody (str "FATAL") code message) ↔ 0 ∉ message := by
  constructor
  · intro h hzero
    refine zero_notMem_parseErrorResponse (errorResponseBody (str "FATAL") code message) ?_
    rw [h.readable code message rfl]
    simp [fatalText, hzero]
  · intro hmessage
    refine ⟨⟨[(ascii 'S', str "FATAL"), (ascii 'V', str "FATAL"), (ascii 'C', code),
      (ascii 'M', message)], ?_, ?_⟩, ⟨code, message, rfl⟩, fun code' message' h ↦ ?_⟩
    · simp only [List.forall_mem_cons, hcode, hmessage]
      decide
    · rw [errorResponseBody_eq]
      simp only [List.map_cons, List.map_nil, List.flatten_cons, List.flatten_nil, List.append_nil,
        List.append_assoc]
    · obtain ⟨rfl, rfl⟩ := errorResponseBody_inj hcode hmessage h
      exact parseErrorResponse_errorResponseBody hne hcode hmessage

/-! ## Errors with a NUL -/

/-- The text of the error has a NUL in it. -/
def Garbles (isPrint : ℕ → Bool) (err : GoError) : Prop := 0 ∈ errorText isPrint err

/-- The upstream sends a message of type zero. -/
def NulMessage (input : Bytes) : Prop :=
  ∃ body rest, body.length ≤ maxStartupLen ∧ input = messageBytes 0 body ++ rest

section Garbled

variable (bad : GoError → Prop) (env : Env) (user password : Bytes)

/-- The upstream garbles the error where its signature is expected, or behind that. -/
def GarbledSignature (conv : Conversation) (serverFirst input : Bytes) : Prop :=
  NulMessage input ∨ ∃ serverFinal rest, Admissible serverFinal ∧
    input = authMessage authSASLFinal serverFinal ++ rest ∧
    (FailsWith bad (conv.step [[], serverFirst, serverFinal]) ∨
      conv.Verifies serverFirst serverFinal ∧ NulMessage rest)

/-- The upstream garbles the error where its challenge is expected, or behind that. -/
def GarbledChallenge (conv : Conversation) (room : Option ℕ) (input : Bytes) : Prop :=
  NulMessage input ∨ ∃ serverFirst rest, Admissible serverFirst ∧
    input = authMessage authSASLContinue serverFirst ++ rest ∧
    (FailsWith bad (conv.step [[], serverFirst]) ∨
      ∃ clientFinal, conv.step [[], serverFirst] = .ok clientFinal ∧
        Takes room (proofResponse clientFinal) ∧ GarbledSignature bad conv serverFirst rest)

/-- The upstream garbles the error once it has offered SCRAM-SHA-256. -/
def GarbledExchange (room : Option ℕ) (input : Bytes) : Prop :=
  FailsWith bad (env.newClient user password) ∨
    ∃ conv, env.newClient user password = .ok conv ∧
      (FailsWith bad (conv.step [[]]) ∨
        ∃ clientFirst, conv.step [[]] = .ok clientFirst ∧
          Takes room (initialResponse clientFirst) ∧
          GarbledChallenge bad conv (roomAfter room (initialResponse clientFirst)) input)

/-- The upstream garbles the error of the login: at one of the points where the login reads a message
it sends one of type zero, or it makes the SCRAM library return such an error. -/
def Garbled (room : Option ℕ) (input : Bytes) : Prop :=
  NulMessage input ∨ ∃ mechanisms rest, Admissible mechanisms ∧
    Advertises mechanisms scramSHA256 ∧ input = authMessage authSASL mechanisms ++ rest ∧
    GarbledExchange bad env user password room rest

end Garbled

/-! ## Reading a message -/

section Login

variable {isPrint : ℕ → Bool} {input output : Bytes} {room : Option ℕ} {α : Type}

theorem garbles_wrapf {format : String} (hformat : Verbs format [.verb 'w']) (err : GoError) :
    Garbles isPrint (wrapf format [] err) ↔ Garbles isPrint err :=
  zero_mem_errorText_wrapf hformat (.inl rfl) err

theorem not_garbles_eof : ¬ Garbles isPrint eof := zero_notMem_errorText (by decide)

theorem not_garbles_unexpectedEOF : ¬ Garbles isPrint unexpectedEOF :=
  zero_notMem_errorText (by decide)

theorem not_garbles_writeError : ¬ Garbles isPrint writeError :=
  zero_notMem_errorText (by decide)

theorem not_failsWith_readMessage (s : Socket) : ¬ readMessage.FailsWith (Garbles isPrint) s := by
  have hreadFull (n : ℕ) (s : Socket) : ¬ (readFull n).FailsWith (Garbles isPrint) s :=
    not_failsWith_readFull not_garbles_eof not_garbles_unexpectedEOF n s
  rw [readMessage, SocketM.failsWith_bind_of_not (hreadFull 5 s)]
  rintro ⟨hdr, s', -, h⟩
  rcases SocketM.failsWith_lift_bind.mp h with h | ⟨bodyLen, -, h⟩
  · rcases failsWith_bind.mp h with h | ⟨_, -, h⟩
    · exact zero_notMem_errorText_number (by decide) _ (failsWith_refuse.mp h).2
    · rcases failsWith_bind.mp h with h | ⟨_, -, h⟩
      · exact zero_notMem_errorText_number (by decide) _ (failsWith_refuse.mp h).2
      · exact not_failsWith_ok h
  · obtain ⟨_, _, -, h⟩ := (SocketM.failsWith_bind_of_not (hreadFull bodyLen s')).mp h
    exact SocketM.not_failsWith_pure h

theorem not_failsWith_parseAuthenticationMessage (body : Bytes) :
    ¬ FailsWith (Garbles isPrint) (parseAuthenticationMessage body) := by
  intro h
  rcases failsWith_bind.mp h with h | ⟨_, -, h⟩
  · exact zero_notMem_errorText_number (by decide) _ (failsWith_refuse.mp h).2
  · exact not_failsWith_ok h

/-- One of the points where the login reads a message and expects an authentication message. The
error for any other message has a NUL in it exactly when the type of the message is zero. -/
theorem failsWith_readAuth {change : GoError → GoError} {unexpected : UInt8 → Bytes → GoError}
    {next : Int32 × Bytes → SocketM α}
    (hchange : ∀ err, Garbles isPrint (change err) ↔ Garbles isPrint err)
    (hunexpected : ∀ typ body, Garbles isPrint (unexpected typ body) ↔ typ = 0) :
    (SocketM.wrap change readMessage >>= fun message ↦
      SocketM.lift (refuse (message.1 ≠ ascii 'R') (unexpected message.1 message.2)) >>= fun _ ↦
        SocketM.lift (parseAuthenticationMessage message.2) >>= next).FailsWith (Garbles isPrint)
          ⟨input, output, room⟩ ↔
      NulMessage input ∨ ∃ code data rest, Admissible data ∧ input = authMessage code data ++ rest ∧
        (next (code, data)).FailsWith (Garbles isPrint) ⟨rest, output, room⟩ := by
  have hread := (SocketM.failsWith_wrap hchange).not.mpr
    (not_failsWith_readMessage ⟨input, output, room⟩)
  rw [SocketM.failsWith_bind_of_not hread]
  constructor
  · rintro ⟨⟨typ, body⟩, _, hmessage, h⟩
    obtain ⟨hlength, hbefore⟩ := readMessage_eq_ok.mp (SocketM.wrap_eq_ok.mp hmessage)
    obtain ⟨rest, rfl, rfl⟩ := Socket.eq_before_iff.mp hbefore
    rcases SocketM.failsWith_refuse_bind.mp h with ⟨-, hbad⟩ | ⟨htyp, hparsed⟩
    · obtain rfl := (hunexpected typ body).mp hbad
      exact .inl ⟨body, rest, hlength, rfl⟩
    · obtain rfl : typ = ascii 'R' := not_not.mp htyp
      rcases SocketM.failsWith_lift_bind.mp hparsed with hbad | ⟨⟨code, data⟩, hparse, hnext⟩
      · exact absurd hbad (not_failsWith_parseAuthenticationMessage body)
      · obtain rfl := parseAuthenticationMessage_eq_ok.mp hparse
        rw [List.length_append, length_be32] at hlength
        exact .inr ⟨code, data, rest, hlength, rfl, hnext⟩
  · rintro (⟨body, rest, hlength, rfl⟩ | ⟨code, data, rest, hdata, rfl, h⟩)
    · refine ⟨(0, body), _, SocketM.wrap_eq_ok.mpr
        (readMessage_eq_ok.mpr ⟨hlength, Socket.eq_before_iff.mpr ⟨rest, rfl, rfl⟩⟩), ?_⟩
      have htyp : (0 : UInt8) ≠ ascii 'R' := by decide
      exact SocketM.failsWith_refuse_bind.mpr (.inl ⟨htyp, (hunexpected 0 body).mpr rfl⟩)
    · refine ⟨(ascii 'R', be32 code.toUInt32 ++ data), _, SocketM.wrap_eq_ok.mpr
        (readMessage_eq_auth.mpr ⟨hdata, Socket.eq_before_iff.mpr ⟨rest, rfl, rfl⟩⟩), ?_⟩
      refine SocketM.failsWith_refuse_bind.mpr (.inr ⟨not_not.mpr rfl, ?_⟩)
      exact SocketM.failsWith_lift_bind.mpr
        (.inr ⟨(code, data), parseAuthenticationMessage_eq_ok.mpr rfl, h⟩)

theorem garbles_char {format : String} (hformat : Verbs format [.verb 'c']) (typ : UInt8) :
    Garbles isPrint (errorf format [.number typ.toNat]) ↔ typ = 0 :=
  (zero_mem_errorText_char hformat typ.toNat).trans
    (show typ.toNat = (0 : UInt8).toNat ↔ typ = 0 from UInt8.toNat_inj)

theorem failsWith_readSASL {step text : String} {expected : Int32}
    (hread : Verbs ("read " ++ step ++ ": %w") [.verb 'w'])
    (htyp : Verbs ("expected 'R' for " ++ step ++ ", got %c") [.verb 'c'])
    (hcode : Verbs (text ++ ", got %d") [.verb 'd']) :
    (readSASL step expected text).FailsWith (Garbles isPrint) ⟨input, output, room⟩ ↔
      NulMessage input := by
  refine (failsWith_readAuth (garbles_wrapf hread) fun typ _ ↦ garbles_char htyp typ).trans ?_
  refine or_iff_left ?_
  rintro ⟨code, data, rest, -, -, h⟩
  rcases SocketM.failsWith_refuse_bind.mp h with ⟨-, hbad⟩ | ⟨-, h⟩
  · exact zero_notMem_errorText_number hcode _ hbad
  · exact SocketM.not_failsWith_pure h

theorem failsWith_readSASL_bind {step text : String} {expected : Int32}
    (hread : Verbs ("read " ++ step ++ ": %w") [.verb 'w'])
    (htyp : Verbs ("expected 'R' for " ++ step ++ ", got %c") [.verb 'c'])
    (hcode : Verbs (text ++ ", got %d") [.verb 'd']) {next : Bytes → SocketM α} :
    (readSASL step expected text >>= next).FailsWith (Garbles isPrint) ⟨input, output, room⟩ ↔
      NulMessage input ∨ ∃ data rest, Admissible data ∧ input = authMessage expected data ++ rest ∧
        (next data).FailsWith (Garbles isPrint) ⟨rest, output, room⟩ := by
  rw [SocketM.failsWith_bind, failsWith_readSASL hread htyp hcode]
  refine or_congr_right ⟨?_, ?_⟩
  · rintro ⟨data, _, hdata, h⟩
    obtain ⟨hadmissible, hbefore⟩ := readSASL_eq_ok.mp hdata
    obtain ⟨rest, rfl, rfl⟩ := Socket.eq_before_iff.mp hbefore
    exact ⟨data, rest, hadmissible, rfl, h⟩
  · rintro ⟨data, rest, hadmissible, rfl, h⟩
    exact ⟨data, _, readSASL_eq_ok.mpr ⟨hadmissible, Socket.eq_before_iff.mpr ⟨rest, rfl, rfl⟩⟩, h⟩

theorem failsWith_readAuthenticationOk :
    readAuthenticationOk.FailsWith (Garbles isPrint) ⟨input, output, room⟩ ↔ NulMessage input := by
  refine (failsWith_readAuth (garbles_wrapf (by decide))
    fun typ _ ↦ garbles_char (by decide) typ).trans ?_
  refine or_iff_left ?_
  rintro ⟨code, data, rest, -, -, h⟩
  exact zero_notMem_errorText_number (by decide) _ (failsWith_refuse.mp h).2

/-! ## The login -/

theorem failsWith_writeMessage_bind {format : String} (hformat : Verbs format [.verb 'w'])
    {typ : UInt8} {body : Bytes} {next : Unit → SocketM α} :
    (SocketM.wrap (wrapf format []) (writeMessage typ body) >>= next).FailsWith (Garbles isPrint)
        ⟨input, output, room⟩ ↔
      Takes room (messageBytes typ body) ∧ (next ()).FailsWith (Garbles isPrint)
        ⟨input, output ++ messageBytes typ body, roomAfter room (messageBytes typ body)⟩ := by
  rw [writeMessage_eq]
  exact failsWith_write_bind not_garbles_writeError (garbles_wrapf hformat)

/-- The result of the SCRAM library, and what comes behind it. -/
theorem failsWith_library_bind {format : String} (hformat : Verbs format [.verb 'w']) {β : Type}
    {computation : GoM GoError β} {next : β → SocketM α} {s : Socket} :
    (SocketM.lift (mapErr (wrapf format []) computation) >>= next).FailsWith (Garbles isPrint) s ↔
      FailsWith (Garbles isPrint) computation ∨
        ∃ value, computation = .ok value ∧ (next value).FailsWith (Garbles isPrint) s := by
  rw [SocketM.failsWith_lift_bind, failsWith_mapErr (garbles_wrapf hformat)]
  simp only [mapErr_eq_ok]

variable {env : Env} {user password : Bytes}

theorem failsWith_runSCRAM {data : Bytes} :
    (runSCRAM env user password data).FailsWith (Garbles isPrint) ⟨input, output, room⟩ ↔
      Advertises data scramSHA256 ∧
        GarbledExchange (Garbles isPrint) env user password room input := by
  have hplain {cond : Prop} [Decidable cond] {format : String} (hformat : Verbs format [])
      {next : Unit → SocketM Unit} {s : Socket} :
      (SocketM.lift (refuse cond (errorf format [])) >>= next).FailsWith (Garbles isPrint) s ↔
        ¬ cond ∧ (next ()).FailsWith (Garbles isPrint) s := by
    rw [SocketM.failsWith_refuse_bind]
    exact or_iff_right fun h ↦ zero_notMem_errorText hformat h.2
  rw [runSCRAM, hplain (by decide), not_not, hasMechanism_iff,
    failsWith_library_bind (by decide), GarbledExchange]
  refine and_congr_right fun _ ↦ or_congr_right (exists_congr fun conv ↦ and_congr_right fun _ ↦ ?_)
  rw [failsWith_library_bind (by decide)]
  refine or_congr_right (exists_congr fun clientFirst ↦ and_congr_right fun _ ↦ ?_)
  rw [failsWith_writeMessage_bind (by decide), readSASLContinue,
    failsWith_readSASL_bind (by decide) (by decide) (by decide),
    GarbledChallenge]
  refine and_congr_right fun _ ↦ or_congr_right (exists_congr fun serverFirst ↦
    exists_congr fun rest ↦ and_congr_right fun _ ↦ and_congr_right fun _ ↦ ?_)
  rw [failsWith_library_bind (by decide)]
  refine or_congr_right (exists_congr fun clientFinal ↦ and_congr_right fun _ ↦ ?_)
  rw [failsWith_writeMessage_bind (by decide), readSASLFinal,
    failsWith_readSASL_bind (by decide) (by decide) (by decide),
    GarbledSignature]
  refine and_congr_right fun _ ↦ or_congr_right (exists_congr fun serverFinal ↦
    exists_congr fun rest' ↦ and_congr_right fun _ ↦ and_congr_right fun _ ↦ ?_)
  rw [failsWith_library_bind (by decide), Conversation.Verifies, and_assoc]
  have hincomplete : Verbs "scram conversation did not complete successfully" [] := by decide
  simp only [hplain hincomplete, not_not, failsWith_readAuthenticationOk, exists_and_right]

/-- The error of a login has a NUL in it exactly when the upstream garbles it. -/
theorem failsWith_authenticateUpstream :
    (authenticateUpstream env user password).FailsWith (Garbles isPrint) ⟨input, output, room⟩ ↔
      Garbled (Garbles isPrint) env user password room input := by
  have hunexpected (typ : UInt8) (body : Bytes) : Garbles isPrint (if typ = ascii 'E' then
      errorf "upstream rejected connection: %s" [.text (parseErrorResponse body)]
      else errorf "expected Authentication message (R), got %c" [.number typ.toNat]) ↔ typ = 0 := by
    split
    next htyp =>
      refine iff_of_false (fun h ↦ ?_) (htyp ▸ by decide)
      exact zero_notMem_parseErrorResponse body
        ((zero_mem_errorText_text (by decide) _).mp h)
    next => exact garbles_char (by decide) typ
  refine (failsWith_readAuth (garbles_wrapf (by decide)) hunexpected).trans
    (or_congr_right ⟨?_, ?_⟩)
  · rintro ⟨code, data, rest, hdata, hinput, h⟩
    dsimp only at h
    split at h
    next => exact absurd h SocketM.not_failsWith_pure
    next =>
      split at h
      next hcode =>
        obtain ⟨hadvertises, hexchange⟩ := failsWith_runSCRAM.mp h
        exact ⟨data, rest, hdata, hadvertises, hcode ▸ hinput, hexchange⟩
      next =>
        split at h
        · exact absurd (failsWith_fail.mp h) (zero_notMem_errorText_number (by decide) _)
        · exact absurd (failsWith_fail.mp h) (zero_notMem_errorText_number (by decide) _)
  · rintro ⟨mechanisms, rest, hmechanisms, hadvertises, hinput, hexchange⟩
    exact ⟨authSASL, mechanisms, rest, hmechanisms, hinput,
      failsWith_runSCRAM.mpr ⟨hadvertises, hexchange⟩⟩

/-! ## TLS -/

/-- Whatever the upstream answers, the request for TLS is refused in a text without a NUL. -/
theorem not_failsWith_requestTLS (hprint : isPrint 0 = false) :
    ¬ requestTLS.FailsWith (Garbles isPrint) ⟨input, output, room⟩ := by
  have hreadFull (s : Socket) : ¬ (SocketM.wrap (wrapf "read SSLRequest response: %w" [])
      (readFull 1)).FailsWith (Garbles isPrint) s := by
    rw [SocketM.failsWith_wrap (garbles_wrapf (by decide))]
    exact not_failsWith_readFull not_garbles_eof not_garbles_unexpectedEOF 1 s
  intro h
  obtain ⟨-, h⟩ :=
    (failsWith_write_bind not_garbles_writeError (garbles_wrapf (by decide))).mp h
  obtain ⟨resp, _, -, h⟩ := (SocketM.failsWith_bind_of_not (hreadFull _)).mp h
  dsimp only at h
  split at h
  · exact SocketM.not_failsWith_pure h
  · split at h
    · exact absurd (failsWith_fail.mp h) (zero_notMem_errorText (by decide))
    · exact absurd (failsWith_fail.mp h)
        (zero_notMem_errorText_quoteRune hprint (by decide) _)

theorem requestTLS_eq_ok {s' : Socket} :
    requestTLS.run ⟨input, output, room⟩ = (.ok (), s') ↔ Takes room sslRequest ∧
      ∃ rest, input = ascii 'S' :: rest ∧
        s' = ⟨rest, output ++ sslRequest, roomAfter room sslRequest⟩ := by
  constructor
  · intro h
    obtain ⟨_, _, hwrite, h⟩ := SocketM.bind_eq_ok.mp h
    obtain ⟨htakes, rfl⟩ := write_eq_ok.mp (SocketM.wrap_eq_ok.mp hwrite)
    obtain ⟨resp, _, hread, hanswer⟩ := SocketM.bind_eq_ok.mp h
    obtain ⟨hlength, hbefore⟩ := readFull_eq_ok.mp (SocketM.wrap_eq_ok.mp hread)
    obtain ⟨rest, rfl, rfl⟩ := Socket.eq_before_iff.mp hbefore
    obtain ⟨answer, rfl⟩ := List.length_eq_one_iff.mp hlength
    dsimp only at hanswer
    split at hanswer
    next hS =>
      obtain ⟨-, rfl⟩ := SocketM.pure_eq_ok.mp hanswer
      exact ⟨htakes, rest, congrArg (· :: rest) hS, rfl⟩
    next =>
      split at hanswer
      · exact absurd (SocketM.lift_eq_ok.mp hanswer).1 (fail_ne_ok _ _)
      · exact absurd (SocketM.lift_eq_ok.mp hanswer).1 (fail_ne_ok _ _)
  · rintro ⟨htakes, rest, rfl, rfl⟩
    have hread : (readFull 1).run
        ⟨ascii 'S' :: rest, output ++ sslRequest, roomAfter room sslRequest⟩ =
          (.ok [ascii 'S'], ⟨rest, output ++ sslRequest, roomAfter room sslRequest⟩) :=
      readFull_eq_ok.mpr ⟨rfl, rfl⟩
    rw [requestTLS, SocketM.bind_of_ok (SocketM.wrap_eq_ok.mpr (write_eq_ok.mpr ⟨htakes, rfl⟩)),
      SocketM.bind_of_ok (SocketM.wrap_eq_ok.mpr hread)]
    rfl

/-- A negotiation fails in a text without a NUL when the handshake does. -/
theorem not_failsWith_negotiateUpstreamTLS (hprint : isPrint 0 = false) {link : Link}
    (hhandshake : ∀ err, link.handshake = .error err → ¬ Garbles isPrint err) :
    ¬ FailsWith (Garbles isPrint) (negotiateUpstreamTLS link).1 := by
  have hrequest : ¬ requestTLS.FailsWith (Garbles isPrint) link.plain :=
    not_failsWith_requestTLS hprint
  rw [negotiateUpstreamTLS, Link.on_plain]
  unfold SocketM.FailsWith at hrequest
  rcases hrun : requestTLS.run link.plain with ⟨fault | _, middle⟩
  · rw [hrun] at hrequest
    exact hrequest
  · rcases link with ⟨plain, tls, handshake⟩
    cases handshake with
    | ok inner => exact not_failsWith_ok
    | error err =>
      exact (failsWith_fail.trans (garbles_wrapf (by decide) err)).not.mpr
        (hhandshake err rfl)

/-- When a negotiation succeeds. -/
theorem negotiateUpstreamTLS_eq_ok {link : Link} :
    (negotiateUpstreamTLS link).1 = .ok () ↔ Takes link.plain.room sslRequest ∧
      link.plain.input.head? = some (ascii 'S') ∧ ∃ inner, link.handshake = .ok inner := by
  rcases link with ⟨⟨input, output, room⟩, tls, handshake⟩
  rw [negotiateUpstreamTLS, Link.on_plain, List.head?_eq_some_iff]
  rcases hrun : requestTLS.run ⟨input, output, room⟩ with ⟨fault | _, middle⟩
  · refine iff_of_false (fun h ↦ by cases h) ?_
    rintro ⟨htakes, ⟨rest, hinput⟩, -⟩
    have hok := hrun.symm.trans (requestTLS_eq_ok.mpr ⟨htakes, rest, hinput, rfl⟩)
    cases (Prod.mk.inj hok).1
  · obtain ⟨htakes, rest, hinput, -⟩ := requestTLS_eq_ok.mp hrun
    rw [and_iff_right htakes, and_iff_right ⟨rest, hinput⟩]
    cases handshake with
    | ok inner => exact iff_of_true rfl ⟨inner, rfl⟩
    | error err =>
      refine iff_of_false (fun h ↦ by cases h) ?_
      rintro ⟨_, h⟩
      cases h

end Login

end DbPivot.Postgres
