import DbPivot.Go.SocketRules
import DbPivot.Postgres.Auth

/-!
# Which logins to a PostgreSQL upstream succeed

The upstream may send any message at each of the points where the login reads one. `Dialogue` lists
the two sequences of messages that a login accepts, with what it answers: one `AuthenticationOk`, or
the four messages of SCRAM-SHA-256 in their order. Every other sequence ends in an error, and nothing
beyond the last message of a dialogue is read, so the bytes behind it reach the client.

What has been written at any time is told by what has been read by then (`Answered`): the proof that
the proxy knows the password goes out only after a challenge that the SCRAM library has taken.
-/

namespace DbPivot.Postgres

open DbPivot.Go
open DbPivot.Mongo (Env Conversation Scram signingEnv scram_signingEnv)

/-! ## The list of mechanisms -/

/-- Names, each with the NUL behind it. -/
def terminated (names : List Bytes) : Bytes := (names.map fun name ↦ name ++ [0]).flatten

/-- The name is one of the NUL-terminated elements that the data consists of, as a whole. -/
def Advertises (data name : Bytes) : Prop :=
  ∃ names tail, data = terminated names ++ tail ∧ (∀ element ∈ names, 0 ∉ element) ∧ 0 ∉ tail ∧
    name ∈ names

theorem terminated_cons (name : Bytes) (names : List Bytes) :
    terminated (name :: names) = name ++ 0 :: terminated names := by
  simp [terminated]

theorem exists_terminated (data : Bytes) :
    ∃ names tail, data = terminated names ++ tail ∧ (∀ element ∈ names, 0 ∉ element) ∧ 0 ∉ tail := by
  induction data with
  | nil => exact ⟨[], [], rfl, fun _ h ↦ absurd h List.not_mem_nil, List.not_mem_nil⟩
  | cons b rest ih =>
    obtain ⟨names, tail, rfl, hnames, htail⟩ := ih
    by_cases hb : b = 0
    · subst hb
      refine ⟨[] :: names, tail, ?_, ?_, htail⟩
      · rw [terminated_cons]
        rfl
      · rw [List.forall_mem_cons]
        exact ⟨List.not_mem_nil, hnames⟩
    · -- The byte belongs to the first element, or to what is left over when there is none.
      cases names with
      | nil => exact ⟨[], b :: tail, rfl, hnames, List.not_mem_cons_of_ne_of_not_mem (Ne.symm hb) htail⟩
      | cons first names =>
        rw [List.forall_mem_cons] at hnames
        refine ⟨(b :: first) :: names, tail, ?_, ?_, htail⟩
        · rw [terminated_cons, terminated_cons]
          rfl
        · rw [List.forall_mem_cons]
          exact ⟨List.not_mem_cons_of_ne_of_not_mem (Ne.symm hb) hnames.1, hnames.2⟩

/-- The first NUL tells where an element ends. -/
theorem eq_of_append_zero {first first' rest rest' : Bytes} (hfirst : 0 ∉ first)
    (hfirst' : 0 ∉ first') (h : first ++ 0 :: rest = first' ++ 0 :: rest') :
    first = first' ∧ rest = rest' := by
  have hindex := indexByte_append hfirst rest
  rw [h, indexByte_append hfirst' rest'] at hindex
  obtain ⟨hsame, hrest⟩ := List.append_inj h (Option.some.inj hindex).symm
  exact ⟨hsame, (List.cons.inj hrest).2⟩

/-- The loop with the current name so far is the loop on what it has read and what is left. -/
theorem hasMechanismFrom_iff (name : Bytes) {current : Bytes} (hcurrent : 0 ∉ current)
    (data : Bytes) : hasMechanismFrom name current data ↔ Advertises (current ++ data) name := by
  induction data generalizing current with
  | nil =>
    refine iff_of_false (by simp [hasMechanismFrom]) ?_
    rintro ⟨names, tail, hdata, -, -, hname⟩
    cases names with
    | nil => exact absurd hname List.not_mem_nil
    | cons first names =>
      rw [List.append_nil, terminated_cons] at hdata
      exact hcurrent (by simp [hdata])
  | cons b rest ih =>
    by_cases hb : b = 0
    · subst hb
      have hrest : hasMechanismFrom name [] rest ↔ Advertises rest name := ih List.not_mem_nil
      simp only [hasMechanismFrom, if_true, Bool.or_eq_true, decide_eq_true_iff, hrest]
      constructor
      · rintro (rfl | ⟨names, tail, rfl, hnames, htail, hname⟩)
        · obtain ⟨names, tail, rfl, hnames, htail⟩ := exists_terminated rest
          refine ⟨current :: names, tail, ?_, List.forall_mem_cons.mpr ⟨hcurrent, hnames⟩, htail,
            List.mem_cons_self⟩
          rw [terminated_cons, List.append_assoc, List.cons_append]
        · refine ⟨current :: names, tail, ?_, List.forall_mem_cons.mpr ⟨hcurrent, hnames⟩, htail,
            List.mem_cons_of_mem _ hname⟩
          rw [terminated_cons, List.append_assoc, List.cons_append]
      · rintro ⟨names, tail, hdata, hnames, htail, hname⟩
        cases names with
        | nil => exact absurd hname List.not_mem_nil
        | cons first names =>
          rw [List.forall_mem_cons] at hnames
          rw [terminated_cons, List.append_assoc, List.cons_append] at hdata
          obtain ⟨rfl, rfl⟩ := eq_of_append_zero hcurrent hnames.1 hdata
          rcases List.mem_cons.mp hname with rfl | hname
          · exact .inl rfl
          · exact .inr ⟨names, tail, rfl, hnames.2, htail, hname⟩
    · have hcurrent' : 0 ∉ current ++ [b] := by
        rw [List.mem_append, List.mem_singleton]
        exact fun h ↦ h.elim hcurrent fun h ↦ hb h.symm
      rw [hasMechanismFrom, if_neg hb, ih hcurrent', List.append_assoc, List.singleton_append]

theorem hasMechanism_iff (data name : Bytes) : hasMechanism data name ↔ Advertises data name :=
  hasMechanismFrom_iff name List.not_mem_nil data

/-- A stronger mechanism of a similar name does not count. -/
example : ¬ hasMechanism (str "SCRAM-SHA-256-PLUS" ++ [0, 0]) scramSHA256 := by decide

/-! ## The two dialogues -/

section Dialogue

variable (conv : Conversation) (clientFirst : Bytes)

/-- The message with the name of the mechanism and the first message of the client. -/
def initialResponse : Bytes :=
  messageBytes (ascii 'p') (saslInitialResponseBody scramSHA256 clientFirst)

/-- The message with the proof of the client. -/
def proofResponse (clientFinal : Bytes) : Bytes := messageBytes (ascii 'p') clientFinal

/-- The messages of the upstream that let the proxy in, with what the proxy answers in all. -/
inductive Dialogue (Signed : Bytes → Bytes → Prop) : Bytes → Bytes → Prop
  | trusted {data : Bytes} (hdata : Admissible data) :
      Dialogue Signed (authMessage authOk data) []
  | scram {mechanisms serverFirst clientFinal serverFinal data : Bytes}
      (hmechanisms : Admissible mechanisms) (hadvertises : Advertises mechanisms scramSHA256)
      (hfirst : Admissible serverFirst) (haccepted : conv.step [[], serverFirst] = .ok clientFinal)
      (hfinal : Admissible serverFinal) (hverifies : conv.Verifies serverFirst serverFinal)
      (hsigned : Signed serverFirst serverFinal) (hdata : Admissible data) :
      Dialogue Signed
        (authMessage authSASL mechanisms ++ (authMessage authSASLContinue serverFirst ++
          (authMessage authSASLFinal serverFinal ++ authMessage authOk data)))
        (initialResponse clientFirst ++ proofResponse clientFinal)

/-- What a login may have written after the upstream has sent this input. -/
inductive Answered (input : Bytes) : Bytes → Prop
  | nothing : Answered input []
  | initial {mechanisms rest : Bytes} (hadvertises : Advertises mechanisms scramSHA256)
      (hinput : input = authMessage authSASL mechanisms ++ rest) :
      Answered input (initialResponse clientFirst)
  | proof {mechanisms serverFirst clientFinal rest : Bytes}
      (hadvertises : Advertises mechanisms scramSHA256)
      (haccepted : conv.step [[], serverFirst] = .ok clientFinal)
      (hinput : input = authMessage authSASL mechanisms ++
        (authMessage authSASLContinue serverFirst ++ rest)) :
      Answered input (initialResponse clientFirst ++ proofResponse clientFinal)

end Dialogue

/-! ## Every login returns, and writes in answer to what it has read -/

theorem reader_readMessage : readMessage.Reader := by
  refine (reader_readFull 5).bind fun hdr ↦ ?_
  refine (SocketM.reader_lift ?_).bind fun bodyLen ↦ ?_
  · exact returns_bind (returns_refuse _ _) fun _ _ ↦
      returns_bind (returns_refuse _ _) fun _ _ ↦ trivial
  · exact (reader_readFull bodyLen).bind fun body ↦ SocketM.reader_pure _

theorem reader_readSASL (step : String) (expected : Int32) (text : String) :
    (readSASL step expected text).Reader :=
  (reader_readMessage.wrap _).bind fun message ↦
    (SocketM.reader_lift (returns_refuse _ _)).bind fun _ ↦
      (SocketM.reader_lift (returns_parseAuthenticationMessage message.2)).bind fun _ ↦
        (SocketM.reader_lift (returns_refuse _ _)).bind fun _ ↦ SocketM.reader_pure _

theorem reader_readAuthenticationOk : readAuthenticationOk.Reader :=
  (reader_readMessage.wrap _).bind fun message ↦
    (SocketM.reader_lift (returns_refuse _ _)).bind fun _ ↦
      (SocketM.reader_lift (returns_parseAuthenticationMessage message.2)).bind fun _ ↦
        SocketM.reader_lift (returns_refuse _ _)

theorem causal_writeMessage (typ : UInt8) (body : Bytes) : (writeMessage typ body).Causal := by
  rw [writeMessage_eq]
  exact causal_write _

theorem causal_runSCRAM (env : Env) (user password data : Bytes) :
    (runSCRAM env user password data).Causal :=
  (SocketM.causal_lift _).bind fun _ ↦ (SocketM.causal_lift _).bind fun _ ↦
    (SocketM.causal_lift _).bind fun _ ↦ ((causal_writeMessage _ _).wrap _).bind fun _ ↦
      (reader_readSASL _ _ _).causal.bind fun _ ↦ (SocketM.causal_lift _).bind fun _ ↦
        ((causal_writeMessage _ _).wrap _).bind fun _ ↦
          (reader_readSASL _ _ _).causal.bind fun _ ↦ (SocketM.causal_lift _).bind fun _ ↦
            (SocketM.causal_lift _).bind fun _ ↦ reader_readAuthenticationOk.causal

theorem causal_authenticateUpstream (env : Env) (user password : Bytes) :
    (authenticateUpstream env user password).Causal := by
  refine (reader_readMessage.causal.wrap _).bind fun message ↦ ?_
  refine (SocketM.causal_lift _).bind fun _ ↦ (SocketM.causal_lift _).bind fun answer ↦ ?_
  dsimp only
  split
  · exact SocketM.causal_pure _
  · split
    · exact causal_runSCRAM env user password _
    · split
      · exact SocketM.causal_lift _
      · exact SocketM.causal_lift _

section Login

variable {env : Env} {user password : Bytes} {conv : Conversation} {clientFirst : Bytes}
  {Signed : Bytes → Bytes → Prop}

theorem ensures_writeMessage {input output : Bytes} {typ : UInt8} {body : Bytes}
    {change : GoError → GoError} {value : Unit → Socket → Prop} {error : Socket → Prop}
    (hvalue : value () ⟨input, output ++ messageBytes typ body, none⟩) :
    (SocketM.wrap change (writeMessage typ body)).Ensures ⟨input, output, none⟩ value error := by
  rw [writeMessage_eq]
  exact SocketM.ensures_wrap (ensures_write hvalue)

/-- What a run from this input and output has written is an answer to the whole input. -/
def AnsweredIn (conv : Conversation) (clientFirst input output : Bytes) (s' : Socket) : Prop :=
  ∃ sent, s'.output = output ++ sent ∧ Answered conv clientFirst input sent

/-- The exchange of SCRAM, seen from the state before the message that asked for it. -/
theorem ensures_runSCRAM (hscram : Scram env user password conv clientFirst Signed)
    {input output data rest : Bytes} (hinput : input = authMessage authSASL data ++ rest) :
    (runSCRAM env user password data).Ensures ⟨rest, output, none⟩
      (fun _ ↦ AnsweredIn conv clientFirst input output)
      (AnsweredIn conv clientFirst input output) := by
  have hnothing : AnsweredIn conv clientFirst input output ⟨rest, output, none⟩ :=
    ⟨[], (List.append_nil _).symm, .nothing⟩
  refine SocketM.ensures_bind (SocketM.ensures_refuse (fun hmechanism ↦ ?_) hnothing)
  have hadvertises : Advertises data scramSHA256 := (hasMechanism_iff _ _).mp (not_not.mp hmechanism)
  rw [hscram.client]
  refine SocketM.ensures_bind (SocketM.ensures_pure ?_)
  rw [hscram.first]
  refine SocketM.ensures_bind (SocketM.ensures_pure ?_)
  refine SocketM.ensures_bind (ensures_writeMessage ?_)
  -- From here on the first message is out, whatever the upstream sends next.
  have hinitial (rest : Bytes) : AnsweredIn conv clientFirst input output
      ⟨rest, output ++ initialResponse clientFirst, none⟩ :=
    ⟨initialResponse clientFirst, rfl, .initial hadvertises hinput⟩
  refine SocketM.ensures_bind ((reader_readSASL _ _ _).ensures (fun serverFirst _ hread ↦ ?_)
    hinitial)
  obtain ⟨-, hbefore⟩ := readSASL_eq_ok.mp hread
  obtain ⟨rest₁, rfl, rfl⟩ := Socket.eq_before_iff.mp hbefore
  refine SocketM.ensures_bind (SocketM.ensures_lift (returns_mapErr.mpr (hscram.returns _))
    (fun clientFinal hstep ↦ ?_) (hinitial rest₁))
  refine SocketM.ensures_bind (ensures_writeMessage ?_)
  have hproof (rest : Bytes) : AnsweredIn conv clientFirst input output
      ⟨rest, output ++ initialResponse clientFirst ++ proofResponse clientFinal, none⟩ :=
    ⟨initialResponse clientFirst ++ proofResponse clientFinal, List.append_assoc _ _ _,
      .proof hadvertises (mapErr_eq_ok.mp hstep) hinput⟩
  refine SocketM.ensures_bind ((reader_readSASL _ _ _).ensures (fun serverFinal _ hread ↦ ?_)
    hproof)
  obtain ⟨-, hbefore⟩ := readSASL_eq_ok.mp hread
  obtain ⟨rest₂, rfl, rfl⟩ := Socket.eq_before_iff.mp hbefore
  refine SocketM.ensures_bind (SocketM.ensures_lift (returns_mapErr.mpr (hscram.returns _))
    (fun _ _ ↦ ?_) (hproof rest₂))
  refine SocketM.ensures_bind (SocketM.ensures_refuse (fun _ ↦ ?_) (hproof rest₂))
  refine reader_readAuthenticationOk.ensures (fun _ _ hread ↦ ?_) hproof
  obtain ⟨_, -, hbefore⟩ := readAuthenticationOk_eq_ok.mp hread
  obtain ⟨rest₃, rfl, rfl⟩ := Socket.eq_before_iff.mp hbefore
  exact hproof rest₃

theorem ensures_authenticateUpstream (hscram : Scram env user password conv clientFirst Signed)
    (input output : Bytes) :
    (authenticateUpstream env user password).Ensures ⟨input, output, none⟩
      (fun _ ↦ AnsweredIn conv clientFirst input output)
      (AnsweredIn conv clientFirst input output) := by
  have hnothing (rest : Bytes) : AnsweredIn conv clientFirst input output ⟨rest, output, none⟩ :=
    ⟨[], (List.append_nil _).symm, .nothing⟩
  refine SocketM.ensures_bind ((reader_readMessage.wrap _).ensures (fun message _ hread ↦ ?_)
    hnothing)
  obtain ⟨-, hbefore⟩ := readMessage_eq_ok.mp (SocketM.wrap_eq_ok.mp hread)
  obtain ⟨rest, hinput, rfl⟩ := Socket.eq_before_iff.mp hbefore
  refine SocketM.ensures_bind (SocketM.ensures_refuse (fun htyp ↦ ?_) (hnothing rest))
  refine SocketM.ensures_bind (SocketM.ensures_lift (returns_parseAuthenticationMessage _)
    (fun answer hparse ↦ ?_) (hnothing rest))
  rw [not_not.mp htyp, parseAuthenticationMessage_eq_ok.mp hparse] at hinput
  dsimp only
  split
  next => exact SocketM.ensures_pure (hnothing rest)
  next =>
    split
    next hcode => exact ensures_runSCRAM hscram (hcode ▸ hinput)
    next =>
      split
      next => exact .inr ⟨_, _, rfl, hnothing rest⟩
      next => exact .inr ⟨_, _, rfl, hnothing rest⟩

/-! ## The logins that succeed -/

theorem writeMessage_eq_ok {input output body : Bytes} {typ : UInt8} {s' : Socket} :
    (writeMessage typ body).run ⟨input, output, none⟩ = (.ok (), s') ↔
      s' = ⟨input, output ++ messageBytes typ body, none⟩ := by
  rw [writeMessage_eq, write_of_room rfl, Prod.mk.injEq]
  exact ⟨fun h ↦ h.2.symm, fun h ↦ ⟨rfl, h.symm⟩⟩

/-- The part of a dialogue behind the message that asks for SCRAM. -/
structure Exchanged (conv : Conversation) (serverFirst clientFinal serverFinal okData : Bytes) :
    Prop where
  first : Admissible serverFirst
  accepted : conv.step [[], serverFirst] = .ok clientFinal
  final : Admissible serverFinal
  verifies : conv.Verifies serverFirst serverFinal
  ok : Admissible okData

theorem runSCRAM_eq_ok (hscram : Scram env user password conv clientFirst Signed)
    {input output data : Bytes} {s' : Socket} :
    (runSCRAM env user password data).run ⟨input, output, none⟩ = (.ok (), s') ↔
      Advertises data scramSHA256 ∧
        ∃ serverFirst clientFinal serverFinal okData rest,
          Exchanged conv serverFirst clientFinal serverFinal okData ∧
          input = authMessage authSASLContinue serverFirst ++
            (authMessage authSASLFinal serverFinal ++ (authMessage authOk okData ++ rest)) ∧
          s' = ⟨rest, output ++ initialResponse clientFirst ++ proofResponse clientFinal, none⟩ := by
  constructor
  · intro h
    obtain ⟨_, _, hmechanism, h⟩ := SocketM.bind_eq_ok.mp h
    obtain ⟨hmechanismOk, rfl⟩ := SocketM.lift_eq_ok.mp hmechanism
    have hadvertises := (hasMechanism_iff _ _).mp (not_not.mp (refuse_eq_ok.mp hmechanismOk))
    rw [hscram.client] at h
    obtain ⟨_, _, hclient, h⟩ := SocketM.bind_eq_ok.mp h
    obtain ⟨rfl, rfl⟩ := SocketM.pure_eq_ok.mp hclient
    rw [hscram.first] at h
    obtain ⟨_, _, hfirst, h⟩ := SocketM.bind_eq_ok.mp h
    obtain ⟨rfl, rfl⟩ := SocketM.pure_eq_ok.mp hfirst
    obtain ⟨_, _, hinitial, h⟩ := SocketM.bind_eq_ok.mp h
    obtain rfl := writeMessage_eq_ok.mp (SocketM.wrap_eq_ok.mp hinitial)
    obtain ⟨serverFirst, _, hread, h⟩ := SocketM.bind_eq_ok.mp h
    obtain ⟨hserverFirst, hbefore⟩ := readSASL_eq_ok.mp hread
    obtain ⟨rest₁, rfl, rfl⟩ := Socket.eq_before_iff.mp hbefore
    obtain ⟨clientFinal, _, hstep, h⟩ := SocketM.bind_eq_ok.mp h
    obtain ⟨hstepOk, rfl⟩ := SocketM.lift_eq_ok.mp hstep
    obtain ⟨_, _, hproof, h⟩ := SocketM.bind_eq_ok.mp h
    obtain rfl := writeMessage_eq_ok.mp (SocketM.wrap_eq_ok.mp hproof)
    obtain ⟨serverFinal, _, hread, h⟩ := SocketM.bind_eq_ok.mp h
    obtain ⟨hserverFinal, hbefore⟩ := readSASL_eq_ok.mp hread
    obtain ⟨rest₂, rfl, rfl⟩ := Socket.eq_before_iff.mp hbefore
    obtain ⟨message, _, hverify, h⟩ := SocketM.bind_eq_ok.mp h
    obtain ⟨hverifyOk, rfl⟩ := SocketM.lift_eq_ok.mp hverify
    obtain ⟨_, _, hvalid, h⟩ := SocketM.bind_eq_ok.mp h
    obtain ⟨hvalidOk, rfl⟩ := SocketM.lift_eq_ok.mp hvalid
    obtain ⟨okData, hokData, hbefore⟩ := readAuthenticationOk_eq_ok.mp h
    obtain ⟨rest₃, rfl, rfl⟩ := Socket.eq_before_iff.mp hbefore
    have hverifies : conv.Verifies serverFirst serverFinal :=
      ⟨⟨message, mapErr_eq_ok.mp hverifyOk⟩, not_not.mp (refuse_eq_ok.mp hvalidOk)⟩
    exact ⟨hadvertises, serverFirst, clientFinal, serverFinal, okData, rest₃,
      ⟨hserverFirst, mapErr_eq_ok.mp hstepOk, hserverFinal, hverifies, hokData⟩, rfl, rfl⟩
  · rintro ⟨hadvertises, serverFirst, clientFinal, serverFinal, okData, rest, hexchanged, rfl, rfl⟩
    have hmechanism := not_not.mpr ((hasMechanism_iff data scramSHA256).mpr hadvertises)
    obtain ⟨⟨message, hverify⟩, hvalid⟩ := hexchanged.verifies
    rw [runSCRAM, SocketM.bind_refuse_of_not hmechanism,
      SocketM.bind_lift_of_ok (mapErr_eq_ok.mpr hscram.client),
      SocketM.bind_lift_of_ok (mapErr_eq_ok.mpr hscram.first),
      SocketM.bind_of_ok (SocketM.wrap_eq_ok.mpr (writeMessage_eq_ok.mpr rfl))]
    refine SocketM.bind_eq_ok.mpr ⟨serverFirst, _, readSASL_eq_ok.mpr
      ⟨hexchanged.first, Socket.eq_before_iff.mpr ⟨_, rfl, rfl⟩⟩, ?_⟩
    rw [SocketM.bind_lift_of_ok (mapErr_eq_ok.mpr hexchanged.accepted),
      SocketM.bind_of_ok (SocketM.wrap_eq_ok.mpr (writeMessage_eq_ok.mpr rfl))]
    refine SocketM.bind_eq_ok.mpr ⟨serverFinal, _, readSASL_eq_ok.mpr
      ⟨hexchanged.final, Socket.eq_before_iff.mpr ⟨_, rfl, rfl⟩⟩, ?_⟩
    rw [SocketM.bind_lift_of_ok (mapErr_eq_ok.mpr hverify),
      SocketM.bind_refuse_of_not (not_not.mpr hvalid)]
    exact readAuthenticationOk_eq_ok.mpr
      ⟨okData, hexchanged.ok, Socket.eq_before_iff.mpr ⟨_, rfl, rfl⟩⟩

/-- A login succeeds exactly on the two dialogues, and takes nothing behind them. -/
theorem authenticateUpstream_eq_ok (hscram : Scram env user password conv clientFirst Signed)
    {input output : Bytes} {s' : Socket} :
    (authenticateUpstream env user password).run ⟨input, output, none⟩ = (.ok (), s') ↔
      ∃ received sent rest, Dialogue conv clientFirst Signed received sent ∧
        input = received ++ rest ∧ s' = ⟨rest, output ++ sent, none⟩ := by
  rw [authenticateUpstream_eq_ok_iff]
  constructor
  · rintro ⟨code, data, middle, hdata, hbefore, ⟨rfl, rfl⟩ | ⟨rfl, hrun⟩⟩
    · obtain ⟨rest, rfl, rfl⟩ := Socket.eq_before_iff.mp hbefore
      exact ⟨_, [], rest, .trusted hdata, rfl, by rw [List.append_nil]⟩
    · obtain ⟨rest, rfl, rfl⟩ := Socket.eq_before_iff.mp hbefore
      obtain ⟨hadvertises, serverFirst, clientFinal, serverFinal, okData, rest', hexchanged, rfl,
        rfl⟩ := (runSCRAM_eq_ok hscram).mp hrun
      obtain ⟨message, hverify⟩ := hexchanged.verifies.1
      refine ⟨_, _, rest', .scram hdata hadvertises hexchanged.first hexchanged.accepted
        hexchanged.final hexchanged.verifies (hscram.signed _ _ message hverify) hexchanged.ok,
        ?_, ?_⟩
      · simp only [List.append_assoc]
      · rw [List.append_assoc]
  · rintro ⟨received, sent, rest, hdialogue, rfl, rfl⟩
    -- Both dialogues begin with an authentication message; its code tells them apart.
    cases hdialogue with
    | trusted hdata =>
      rw [List.append_nil]
      exact ⟨authOk, _, _, hdata, Socket.eq_before_iff.mpr ⟨rest, rfl, rfl⟩, .inl ⟨rfl, rfl⟩⟩
    | scram hmechanisms hadvertises hfirst haccepted hfinal hverifies hsigned hdata =>
      rw [List.append_assoc]
      refine ⟨authSASL, _, _, hmechanisms, Socket.eq_before_iff.mpr ⟨_, rfl, rfl⟩, .inr ⟨rfl, ?_⟩⟩
      refine (runSCRAM_eq_ok hscram).mpr ⟨hadvertises, _, _, _, _, rest,
        ⟨hfirst, haccepted, hfinal, hverifies, hdata⟩, ?_, ?_⟩
      · simp only [List.append_assoc]
      · rw [List.append_assoc]

/-- With a SCRAM library that proves the server, and on a connection that takes what is written, a
login succeeds exactly when the upstream begins with one of the two dialogues. It has then taken
that dialogue and nothing else, and written the answers of the dialogue and nothing else; on every
other input it returns an error. However it ends, it has written nothing, or the first message after
an offer of the mechanism, or the proof too after a challenge that the library has taken; and what it
has written before the rest of the input arrives, it does not write differently afterwards. -/
theorem authenticateUpstream_proven (hscram : Scram env user password conv clientFirst Signed)
    (input output : Bytes) :
    (∀ s', (authenticateUpstream env user password).run ⟨input, output, none⟩ = (.ok (), s') ↔
      ∃ received sent rest, Dialogue conv clientFirst Signed received sent ∧
        input = received ++ rest ∧ s' = ⟨rest, output ++ sent, none⟩) ∧
    ((¬ ∃ received sent rest, Dialogue conv clientFirst Signed received sent ∧
        input = received ++ rest) →
      Errs ((authenticateUpstream env user password).run ⟨input, output, none⟩).1) ∧
    (∃ sent, ((authenticateUpstream env user password).run ⟨input, output, none⟩).2.output =
        output ++ sent ∧ Answered conv clientFirst input sent) ∧
    ∀ more, ((authenticateUpstream env user password).run ⟨input, output, none⟩).2.output <+:
      ((authenticateUpstream env user password).run ⟨input ++ more, output, none⟩).2.output := by
  have hrun := ensures_authenticateUpstream hscram input output
  refine ⟨fun s' ↦ authenticateUpstream_eq_ok hscram, fun hnone ↦ ?_, hrun.after, fun more ↦ ?_⟩
  · refine errs_of_returns hrun.returns fun result hok ↦ hnone ?_
    obtain ⟨received, sent, rest, hdialogue, hinput, -⟩ :=
      (authenticateUpstream_eq_ok hscram).mp (Prod.ext hok rfl)
    exact ⟨received, sent, rest, hdialogue, hinput⟩
  · exact (causal_authenticateUpstream env user password).output_extends _ more

end Login

/-- The byte behind the dialogue is left for the client. -/
theorem authenticateUpstream_proven_scram :
    (authenticateUpstream signingEnv (str "u") (str "p")).run
        ⟨authMessage authSASL (terminated [str "SCRAM-SHA-256-PLUS", scramSHA256, []]) ++
          (authMessage authSASLContinue (str "r") ++ (authMessage authSASLFinal (str "v") ++
            authMessage authOk [])) ++ [90], [], none⟩ =
      (.ok (), ⟨[90], initialResponse [] ++ proofResponse (str "r"), none⟩) := by
  refine ((authenticateUpstream_proven (scram_signingEnv (str "u") (str "p")) _ []).1 _).mpr
    ⟨_, _, [90], .scram ?_ ?_ ?_ rfl ?_ ⟨⟨_, rfl⟩, rfl⟩ rfl ?_, rfl, rfl⟩
  · decide
  · exact ⟨_, [], (List.append_nil _).symm, by decide, List.not_mem_nil, by decide⟩
  · decide
  · decide
  · decide

end DbPivot.Postgres
