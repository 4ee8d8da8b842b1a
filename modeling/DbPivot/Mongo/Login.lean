import DbPivot.Mongo.RoundTrip

/-!
# Which logins to a MongoDB upstream succeed

A login is a sequence of round trips. `Dialogue` lists the replies that let the proxy in, with the
commands that go with them: `hello`, the two messages of SCRAM, and as many empty rounds as the
upstream asks for. `Progress` follows a run round by round; from it come the replies of a successful
login and, for every run, that a command is written only when the reply to the one before it has been
read.
-/

namespace DbPivot.Mongo

open DbPivot.Go

/-! ## The dialogue -/

section Dialogue

variable (env : Env) (conv : Conversation) (clientFirst db : Bytes)

/-- The replies of the last loop: some that are not done, and one that is. -/
inductive Finalised (Fine : BSON → Prop) : List BSON → Prop
  | last {doc : BSON} (hok : mongoReplyOK doc) (hfine : Fine doc) (hdone : Done doc) :
      Finalised Fine [doc]
  | more {doc : BSON} {docs : List BSON} (hok : mongoReplyOK doc) (hfine : Fine doc)
      (hdone : ¬ Done doc) (hmore : Finalised Fine docs) : Finalised Fine (doc :: docs)

/-- The first three replies, and the proof that goes out between the last two. -/
structure Proven (Signed : Bytes → Bytes → Prop) (hello start final : BSON) (clientFinal : Bytes) :
    Prop where
  helloOK : mongoReplyOK hello
  startOK : mongoReplyOK start
  finalOK : mongoReplyOK final
  accepted : ∃ serverFirst serverFinal, HasPayload start serverFirst ∧
    conv.step [[], serverFirst] = .ok clientFinal ∧ HasPayload final serverFinal ∧
    conv.Verifies serverFirst serverFinal ∧ Signed serverFirst serverFinal

/-- The commands up to the proof. -/
def provingCommands (start : BSON) (clientFinal : Bytes) : List BSON :=
  [helloCommand env db, saslStartCommand clientFirst db,
    saslContinueCommand (conversationID env start) clientFinal db]

/-- The command of the last loop. -/
def emptyContinue (start : BSON) : BSON := saslContinueCommand (conversationID env start) [] db

/-- The replies that let the proxy in, and the commands they answer. -/
inductive Dialogue (Signed : Bytes → Bytes → Prop) (Fine : BSON → Prop) :
    List BSON → List BSON → Prop
  | direct {hello start final : BSON} {clientFinal : Bytes}
      (hproven : Proven conv Signed hello start final clientFinal) (hdone : Done final) :
      Dialogue Signed Fine [hello, start, final] (provingCommands env clientFirst db start clientFinal)
  | finalised {hello start final : BSON} {clientFinal : Bytes} {finals : List BSON}
      (hproven : Proven conv Signed hello start final clientFinal) (hdone : ¬ Done final)
      (hfinals : Finalised Fine finals) :
      Dialogue Signed Fine (hello :: start :: final :: finals)
        (provingCommands env clientFirst db start clientFinal ++
          List.replicate finals.length (emptyContinue env db start))

/-- The commands that may have been written when these replies have been read. -/
inductive Scripted : List BSON → List BSON → Prop
  | hello {replies : List BSON} : Scripted replies [helloCommand env db]
  | start {hello : BSON} {replies : List BSON} :
      Scripted (hello :: replies) [helloCommand env db, saslStartCommand clientFirst db]
  | continued {hello start : BSON} {replies : List BSON} {clientFinal : Bytes} {rounds : ℕ}
      (hrounds : rounds ≤ replies.length) :
      Scripted (hello :: start :: replies)
        (provingCommands env clientFirst db start clientFinal ++
          List.replicate rounds (emptyContinue env db start))

theorem Scripted.proof (hello start : BSON) (replies : List BSON) (clientFinal : Bytes) :
    Scripted env clientFirst db (hello :: start :: replies)
      (provingCommands env clientFirst db start clientFinal) := by
  have h : Scripted env clientFirst db (hello :: start :: replies)
      (provingCommands env clientFirst db start clientFinal ++
        List.replicate 0 (emptyContinue env db start)) := .continued (Nat.zero_le _)
  rw [List.replicate_zero, List.append_nil] at h
  exact h

end Dialogue

/-! ## Following a run -/

section Progress

variable {env : Env} {user password db : Bytes} {conv : Conversation} {clientFirst : Bytes}
  {Signed : Bytes → Bytes → Prop} {input output : Bytes} {replies commands : List BSON} {s : Socket}

/-- The input begins with the frames of these replies. -/
def Heard (input : Bytes) (replies : List BSON) (rest : Bytes) : Prop :=
  ∃ frames, List.Forall₂ IsReply frames replies ∧ input = frames.flatten ++ rest

/-- The run has written these commands, and the upstream has sent these replies. -/
structure Talked (input output : Bytes) (replies commands : List BSON) (s : Socket) : Prop where
  heard : ∃ rest, Heard input replies rest
  written : s.output = output ++ (commands.map commandBytes).flatten

/-- The run has written these commands and read these replies, and no byte more. -/
structure Progress (input output : Bytes) (replies commands : List BSON) (s : Socket) : Prop where
  heard : Heard input replies s.input
  written : s.output = output ++ (commands.map commandBytes).flatten
  room : s.room = none

theorem Progress.talked (h : Progress input output replies commands s) :
    Talked input output replies commands s := ⟨⟨s.input, h.heard⟩, h.written⟩

theorem Progress.start (input output : Bytes) : Progress input output [] [] ⟨input, output, none⟩ :=
  ⟨⟨[], .nil, rfl⟩, (List.append_nil _).symm, rfl⟩

/-- Every reply takes at least one byte of the input. -/
theorem length_le_flatten {frames : List Bytes} (h : List.Forall₂ IsReply frames replies) :
    replies.length ≤ frames.flatten.length := by
  induction h with
  | nil => exact le_rfl
  | cons hreply _ ih =>
    rw [List.length_cons, List.flatten_cons, List.length_append]
    have hpos := hreply.length_pos
    omega

theorem Progress.length_le (h : Progress input output replies commands s) :
    replies.length + s.input.length ≤ input.length := by
  obtain ⟨frames, hframes, hinput⟩ := h.heard
  have hcount := length_le_flatten hframes
  rw [hinput, List.length_append]
  omega

theorem Heard.append {rest frame rest' : Bytes} {doc : BSON} (h : Heard input replies rest)
    (hreply : IsReply frame doc) (hrest : rest = frame ++ rest') :
    Heard input (replies ++ [doc]) rest' := by
  obtain ⟨frames, hframes, hinput⟩ := h
  refine ⟨frames ++ [frame], List.rel_append hframes (.cons hreply .nil), ?_⟩
  rw [hinput, hrest, List.flatten_concat, List.append_assoc]

/-- One round: the command goes out, and the reply comes in or the run stops. -/
theorem ensures_roundTrip (h : Progress input output replies commands s) {cmd : BSON}
    {value : BSON → Socket → Prop} {error : Socket → Prop}
    (hvalue : ∀ doc s', Progress input output (replies ++ [doc]) (commands ++ [cmd]) s' →
      value doc s')
    (herror : ∀ s', Talked input output replies (commands ++ [cmd]) s' → error s') :
    (mongoCommandRoundTrip cmd).Ensures s value error := by
  rcases s with ⟨rest, written, room⟩
  obtain rfl : room = none := h.room
  have hwritten : written ++ commandBytes cmd =
      output ++ ((commands ++ [cmd]).map commandBytes).flatten := by
    rw [show written = _ from h.written, List.map_append, List.flatten_append, List.append_assoc]
    simp
  rw [mongoCommandRoundTrip_eq, write_commandBytes]
  refine SocketM.ensures_bind (SocketM.ensures_wrap (ensures_write ?_))
  refine reader_readReply.ensures (fun doc s' hread ↦ ?_) fun rest' ↦
    herror _ ⟨⟨rest, h.heard⟩, hwritten⟩
  obtain ⟨frame, rest', hreply, hrest, rfl⟩ := readReply_eq_ok.mp hread
  exact hvalue doc _ ⟨h.heard.append hreply hrest, hwritten, rfl⟩

theorem ensures_saslRoundTrip (h : Progress input output replies commands s) {context : String}
    {cmd : BSON} {value : SaslReply → Socket → Prop} {error : Socket → Prop}
    (hvalue : ∀ doc payload s', mongoReplyOK doc → HasPayload doc payload →
      Progress input output (replies ++ [doc]) (commands ++ [cmd]) s' →
      value ⟨conversationID env doc, payload, saslDone doc⟩ s')
    (herror : ∀ more s', Talked input output (replies ++ more) (commands ++ [cmd]) s' → error s') :
    (saslRoundTrip env context cmd).Ensures s value error := by
  refine SocketM.ensures_bind (SocketM.ensures_wrap (ensures_roundTrip h (fun doc s' hprogress ↦ ?_)
    fun s' htalked ↦ herror [] s' ((List.append_nil replies).symm ▸ htalked)))
  refine SocketM.ensures_lift (returns_mapErr.mpr (returns_parseMongoSaslReply env doc))
    (fun reply hreply ↦ ?_) (herror [doc] s' hprogress.talked)
  obtain ⟨hok, hpayload, hreply⟩ := parseMongoSaslReply_eq_ok.mp (mapErr_eq_ok.mp hreply)
  rw [hreply]
  exact hvalue doc reply.payload s' hok hpayload hprogress

/-- A payload that `parseMongoSaslReply` takes: none, or a binary one. -/
def PayloadFine (doc : BSON) : Prop := ∃ payload, HasPayload doc payload

/-- The last loop, with more rounds allowed than there are bytes left to read. -/
theorem ensures_finalizeLoop {fuel : ℕ} (hfuel : input.length < fuel + replies.length)
    (h : Progress input output replies commands s) (convID : Int32) :
    (finalizeLoop env convID db fuel).Ensures s
      (fun _ s' ↦ ∃ finals, Finalised PayloadFine finals ∧
        Progress input output (replies ++ finals)
          (commands ++ List.replicate finals.length (saslContinueCommand convID [] db)) s')
      (fun s' ↦ ∃ more rounds, rounds ≤ more.length + 1 ∧
        Talked input output (replies ++ more)
          (commands ++ List.replicate rounds (saslContinueCommand convID [] db)) s') := by
  induction fuel generalizing replies commands s with
  | zero =>
    have hlength := h.length_le
    omega
  | succ fuel ih =>
    refine SocketM.ensures_bind (ensures_saslRoundTrip h (fun doc payload s' hok hpayload hprogress ↦ ?_)
      fun more s' htalked ↦ ⟨more, 1, by omega, htalked⟩)
    dsimp only
    split
    next hdone =>
      exact SocketM.ensures_pure ⟨[doc], .last hok ⟨payload, hpayload⟩ (saslDone_iff.mp hdone),
        hprogress⟩
    next hdone =>
      have hdone' : ¬ Done doc := fun h ↦ hdone (saslDone_iff.mpr h)
      have hfuel' : input.length < fuel + (replies ++ [doc]).length := by
        rw [List.length_append, List.length_singleton]
        omega
      refine (ih hfuel' hprogress).mono (fun _ s'' hvalue ↦ ?_) fun s'' herror ↦ ?_
      · obtain ⟨finals, hfinals, hafter⟩ := hvalue
        refine ⟨doc :: finals, .more hok ⟨payload, hpayload⟩ hdone' hfinals, ?_⟩
        rw [List.append_assoc, List.append_assoc] at hafter
        exact hafter
      · obtain ⟨more, rounds, hrounds, hafter⟩ := herror
        refine ⟨doc :: more, rounds + 1, ?_, ?_⟩
        · rw [List.length_cons]
          omega
        · rw [List.append_assoc, List.append_assoc] at hafter
          exact hafter

/-- The login up to the verdict on the server's signature, with what the last loop needs. -/
def proveLogin (env : Env) (user password db : Bytes) : SocketM (Int32 × Bool) := do
  .wrap (wrapf "mongo upstream handshake: %w" []) (mongoUpstreamHandshake env db)
  let conv ← .lift (mapErr (wrapf "mongo scram client: %w" []) (env.newClient user password))
  let clientFirst ← .lift (mapErr (wrapf "mongo scram client-first: %w" []) (conv.step [[]]))
  let first ← saslRoundTrip env "mongo saslStart: %w" (saslStartCommand clientFirst db)
  let clientFinal ← .lift
    (mapErr (wrapf "mongo scram client-final: %w" []) (conv.step [[], first.payload]))
  let final ← saslRoundTrip env "mongo saslContinue: %w"
    (saslContinueCommand first.convID clientFinal db)
  let _ ← .lift (mapErr (wrapf "mongo scram verify server signature: %w" [])
    (conv.step [[], first.payload, final.payload]))
  .lift (refuse (¬ conv.valid [[], first.payload, final.payload])
    (errorf "mongo scram conversation did not validate" []))
  pure (first.convID, final.done)

theorem authenticateWith_eq (fuel : ℕ) (env : Env) (user password authDB : Bytes) :
    authenticateWith fuel env user password authDB = (do
      let proven ← proveLogin env user password (authDatabase authDB)
      if proven.2 then pure () else finalizeLoop env proven.1 (authDatabase authDB) fuel) := by
  simp only [authenticateWith, proveLogin, authDatabase, bind_assoc, pure_bind]

theorem run_authenticateUpstreamMongo (env : Env) (user password authDB : Bytes) (s : Socket) :
    (authenticateUpstreamMongo env user password authDB).run s =
      (do
        let proven ← proveLogin env user password (authDatabase authDB)
        if proven.2 then pure ()
        else finalizeLoop env proven.1 (authDatabase authDB) (s.input.length + 1)).run s := by
  rw [← authenticateWith_eq]
  rfl

/-- However the run stops, the commands are those of the script. -/
def Stopped (env : Env) (clientFirst db input output : Bytes) (s' : Socket) : Prop :=
  ∃ replies commands, Talked input output replies commands s' ∧
    Scripted env clientFirst db replies commands

theorem ensures_proveLogin (hscram : Scram env user password conv clientFirst Signed)
    (db input output : Bytes) :
    (proveLogin env user password db).Ensures ⟨input, output, none⟩
      (fun proven s' ↦ ∃ hello start final clientFinal,
        Proven conv Signed hello start final clientFinal ∧
        proven = (conversationID env start, saslDone final) ∧
        Progress input output [hello, start, final]
          (provingCommands env clientFirst db start clientFinal) s')
      (Stopped env clientFirst db input output) := by
  have hhello : (mongoUpstreamHandshake env db).Ensures ⟨input, output, none⟩
      (fun _ s' ↦ ∃ hello, mongoReplyOK hello ∧
        Progress input output [hello] [helloCommand env db] s')
      (Stopped env clientFirst db input output) := by
    refine SocketM.ensures_bind (ensures_roundTrip (.start input output)
      (fun doc s' hprogress ↦ ?_) fun s' htalked ↦ ⟨_, _, htalked, .hello⟩)
    exact SocketM.ensures_refuse (fun hok ↦ ⟨doc, not_not.mp hok, hprogress⟩)
      ⟨_, _, hprogress.talked, .hello⟩
  refine SocketM.ensures_bind (SocketM.ensures_wrap (hhello.mono (fun _ s₁ h₁ ↦ ?_) fun _ ↦ id))
  obtain ⟨hello, hhelloOK, hprogress₁⟩ := h₁
  rw [hscram.client]
  refine SocketM.ensures_bind (SocketM.ensures_pure ?_)
  rw [hscram.first]
  refine SocketM.ensures_bind (SocketM.ensures_pure ?_)
  refine SocketM.ensures_bind (ensures_saslRoundTrip hprogress₁
    (fun start serverFirst s₂ hstartOK hserverFirst hprogress₂ ↦ ?_)
    fun more s' htalked ↦ ⟨_, _, htalked, .start⟩)
  refine SocketM.ensures_bind (SocketM.ensures_lift (returns_mapErr.mpr (hscram.returns _))
    (fun clientFinal hstep ↦ ?_) ⟨_, _, hprogress₂.talked, .start⟩)
  refine SocketM.ensures_bind (ensures_saslRoundTrip hprogress₂
    (fun final serverFinal s₃ hfinalOK hserverFinal hprogress₃ ↦ ?_)
    fun more s' htalked ↦ ⟨_, _, htalked, .proof _ _ _ _ _ _ _⟩)
  have hstopped : Stopped env clientFirst db input output s₃ :=
    ⟨_, _, hprogress₃.talked, .proof _ _ _ _ _ _ _⟩
  refine SocketM.ensures_bind (SocketM.ensures_lift (returns_mapErr.mpr (hscram.returns _))
    (fun message hverify ↦ ?_) hstopped)
  refine SocketM.ensures_bind (SocketM.ensures_refuse (fun hvalid ↦ ?_) hstopped)
  have hverify := mapErr_eq_ok.mp hverify
  refine SocketM.ensures_pure ⟨hello, start, final, clientFinal, ⟨hhelloOK, hstartOK, hfinalOK,
    serverFirst, serverFinal, hserverFirst, mapErr_eq_ok.mp hstep, hserverFinal,
    ⟨⟨message, hverify⟩, not_not.mp hvalid⟩, hscram.signed _ _ message hverify⟩, rfl, hprogress₃⟩

theorem ensures_authenticate (hscram : Scram env user password conv clientFirst Signed)
    (authDB input output : Bytes) :
    (authenticateUpstreamMongo env user password authDB).Ensures ⟨input, output, none⟩
      (fun _ s' ↦ ∃ replies commands,
        Dialogue env conv clientFirst (authDatabase authDB) Signed PayloadFine replies commands ∧
        Progress input output replies commands s')
      (Stopped env clientFirst (authDatabase authDB) input output) := by
  refine .of_run_eq ?_ (run_authenticateUpstreamMongo env user password authDB _)
  refine SocketM.ensures_bind ((ensures_proveLogin hscram (authDatabase authDB) input output).mono
    (fun proven s' h ↦ ?_) fun _ ↦ id)
  obtain ⟨hello, start, final, clientFinal, hproven, rfl, hprogress⟩ := h
  dsimp only
  split
  next hdone =>
    exact SocketM.ensures_pure ⟨_, _, .direct hproven (saslDone_iff.mp hdone), hprogress⟩
  next hdone =>
    have hdone' : ¬ Done final := fun h ↦ hdone (saslDone_iff.mpr h)
    refine (ensures_finalizeLoop ?_ hprogress (conversationID env start)).mono
      (fun _ s'' hvalue ↦ ?_) fun s'' herror ↦ ?_
    · omega
    · obtain ⟨finals, hfinals, hafter⟩ := hvalue
      exact ⟨_, _, .finalised hproven hdone' hfinals, hafter⟩
    · obtain ⟨more, rounds, hrounds, hafter⟩ := herror
      exact ⟨_, _, hafter, .continued hrounds⟩

end Progress

/-! ## Runs on a dialogue -/

section Success

variable {env : Env} {user password db : Bytes} {conv : Conversation} {clientFirst : Bytes}
  {Signed : Bytes → Bytes → Prop}

theorem saslRoundTrip_of_isReply {frame rest output payload : Bytes} {doc : BSON}
    (hreply : IsReply frame doc) (hok : mongoReplyOK doc) (hpayload : HasPayload doc payload)
    (context : String) (cmd : BSON) :
    (saslRoundTrip env context cmd).run ⟨frame ++ rest, output, none⟩ =
      (.ok ⟨conversationID env doc, payload, saslDone doc⟩,
        ⟨rest, output ++ commandBytes cmd, none⟩) := by
  refine SocketM.bind_eq_ok.mpr ⟨doc, _, SocketM.wrap_eq_ok.mpr
    (roundTrip_eq_ok.mpr ⟨frame, rest, hreply, rfl, rfl⟩), SocketM.lift_eq_ok.mpr ⟨?_, rfl⟩⟩
  exact mapErr_eq_ok.mpr (parseMongoSaslReply_eq_ok.mpr ⟨hok, hpayload, rfl⟩)

theorem finalizeLoop_of_finalised {frames : List Bytes} {finals : List BSON}
    (hfinals : Finalised PayloadFine finals) (hframes : List.Forall₂ IsReply frames finals)
    {fuel : ℕ} (hfuel : finals.length ≤ fuel) (convID : Int32) (rest output : Bytes) :
    (finalizeLoop env convID db fuel).run ⟨frames.flatten ++ rest, output, none⟩ =
      (.ok (), ⟨rest, output ++ ((List.replicate finals.length
        (saslContinueCommand convID [] db)).map commandBytes).flatten, none⟩) := by
  induction hfinals generalizing frames fuel output with
  | last hok hfine hdone =>
    obtain ⟨payload, hpayload⟩ := hfine
    obtain ⟨frame, _, hreply, hnil, rfl⟩ := List.forall₂_cons_right_iff.mp hframes
    obtain rfl := List.forall₂_nil_right_iff.mp hnil
    obtain ⟨fuel, rfl⟩ := Nat.exists_eq_add_of_le' hfuel
    rw [List.flatten_cons, List.append_assoc]
    refine (SocketM.bind_of_ok (saslRoundTrip_of_isReply hreply hok hpayload _ _) _).trans ?_
    rw [if_pos (saslDone_iff.mpr hdone)]
    simp
  | more hok hfine hdone _ ih =>
    obtain ⟨payload, hpayload⟩ := hfine
    obtain ⟨frame, frames, hreply, hmore, rfl⟩ := List.forall₂_cons_right_iff.mp hframes
    obtain ⟨fuel, rfl⟩ := Nat.exists_eq_add_of_le' (Nat.one_le_of_lt hfuel)
    rw [List.flatten_cons, List.append_assoc]
    refine (SocketM.bind_of_ok (saslRoundTrip_of_isReply hreply hok hpayload _ _) _).trans ?_
    rw [if_neg fun h ↦ hdone (saslDone_iff.mp h), ih hmore (Nat.le_of_succ_le_succ hfuel)]
    simp [List.replicate_succ]

theorem errs_finalizeLoop_of_refused {frame : Bytes} {doc : BSON} (hreply : IsReply frame doc)
    (hrefused : Errs (parseMongoSaslReply env doc)) (convID : Int32) (fuel : ℕ)
    (rest output : Bytes) :
    Errs ((finalizeLoop env convID db (fuel + 1)).run ⟨frame ++ rest, output, none⟩).1 := by
  obtain ⟨err, herr⟩ := exists_fail_of_errs hrefused
  have htrip : (saslRoundTrip env "mongo saslContinue (finalize): %w"
      (saslContinueCommand convID [] db)).run ⟨frame ++ rest, output, none⟩ =
        (fail (wrapf "mongo saslContinue (finalize): %w" [] err),
          ⟨rest, output ++ commandBytes (saslContinueCommand convID [] db), none⟩) := by
    rw [saslRoundTrip, SocketM.bind_of_ok (SocketM.wrap_eq_ok.mpr
      (roundTrip_eq_ok.mpr ⟨frame, rest, hreply, rfl, rfl⟩)), herr]
    rfl
  rw [finalizeLoop, SocketM.bind_of_fail htrip]
  trivial

theorem proveLogin_of_proven (hscram : Scram env user password conv clientFirst Signed)
    {hello start final : BSON} {clientFinal : Bytes}
    (hproven : Proven conv Signed hello start final clientFinal) {frame₁ frame₂ frame₃ : Bytes}
    (hframe₁ : IsReply frame₁ hello) (hframe₂ : IsReply frame₂ start)
    (hframe₃ : IsReply frame₃ final) (rest output : Bytes) :
    (proveLogin env user password db).run ⟨frame₁ ++ (frame₂ ++ (frame₃ ++ rest)), output, none⟩ =
      (.ok (conversationID env start, saslDone final), ⟨rest, output ++
        ((provingCommands env clientFirst db start clientFinal).map commandBytes).flatten,
        none⟩) := by
  obtain ⟨serverFirst, serverFinal, hserverFirst, hstep, hserverFinal, ⟨⟨message, hverify⟩, hvalid⟩,
    -⟩ := hproven.accepted
  have hhello : (mongoUpstreamHandshake env db).run
      ⟨frame₁ ++ (frame₂ ++ (frame₃ ++ rest)), output, none⟩ =
        (.ok (), ⟨frame₂ ++ (frame₃ ++ rest), output ++ commandBytes (helloCommand env db), none⟩) :=
    SocketM.bind_eq_ok.mpr ⟨hello, _, roundTrip_eq_ok.mpr ⟨frame₁, _, hframe₁, rfl, rfl⟩,
      SocketM.lift_eq_ok.mpr ⟨refuse_eq_ok.mpr (not_not.mpr hproven.helloOK), rfl⟩⟩
  rw [proveLogin, SocketM.bind_of_ok (SocketM.wrap_eq_ok.mpr hhello),
    SocketM.bind_lift_of_ok (mapErr_eq_ok.mpr hscram.client),
    SocketM.bind_lift_of_ok (mapErr_eq_ok.mpr hscram.first),
    SocketM.bind_of_ok (saslRoundTrip_of_isReply hframe₂ hproven.startOK hserverFirst _ _),
    SocketM.bind_lift_of_ok (mapErr_eq_ok.mpr hstep),
    SocketM.bind_of_ok (saslRoundTrip_of_isReply hframe₃ hproven.finalOK hserverFinal _ _),
    SocketM.bind_lift_of_ok (mapErr_eq_ok.mpr hverify),
    SocketM.bind_refuse_of_not (not_not.mpr hvalid)]
  simp [provingCommands]

theorem exists_three_frames {hello start final : BSON} {finals : List BSON} {frames : List Bytes}
    (h : List.Forall₂ IsReply frames (hello :: start :: final :: finals)) :
    ∃ frame₁ frame₂ frame₃ rest, IsReply frame₁ hello ∧ IsReply frame₂ start ∧
      IsReply frame₃ final ∧ List.Forall₂ IsReply rest finals ∧
      frames.flatten = frame₁ ++ (frame₂ ++ (frame₃ ++ rest.flatten)) := by
  obtain ⟨frame₁, _, hframe₁, h₁, rfl⟩ := List.forall₂_cons_right_iff.mp h
  obtain ⟨frame₂, _, hframe₂, h₂, rfl⟩ := List.forall₂_cons_right_iff.mp h₁
  obtain ⟨frame₃, rest, hframe₃, h₃, rfl⟩ := List.forall₂_cons_right_iff.mp h₂
  exact ⟨frame₁, frame₂, frame₃, rest, hframe₁, hframe₂, hframe₃, h₃, rfl⟩

/-- A reply of the last loop that `parseMongoSaslReply` does not take ends the login. -/
theorem errs_authenticate_of_refused (hscram : Scram env user password conv clientFirst Signed)
    {hello start final doc : BSON} {clientFinal : Bytes}
    (hproven : Proven conv Signed hello start final clientFinal) (hdone : ¬ Done final)
    {frames : List Bytes} (hframes : List.Forall₂ IsReply frames [hello, start, final, doc])
    (hrefused : Errs (parseMongoSaslReply env doc)) (authDB rest output : Bytes) :
    Errs ((authenticateUpstreamMongo env user password authDB).run
      ⟨frames.flatten ++ rest, output, none⟩).1 := by
  obtain ⟨frame₁, frame₂, frame₃, _, hframe₁, hframe₂, hframe₃, hlast, hflatten⟩ :=
    exists_three_frames hframes
  obtain ⟨frame₄, _, hframe₄, hnil, rfl⟩ := List.forall₂_cons_right_iff.mp hlast
  obtain rfl := List.forall₂_nil_right_iff.mp hnil
  rw [hflatten, List.flatten_singleton, List.append_assoc, List.append_assoc, List.append_assoc,
    run_authenticateUpstreamMongo,
    SocketM.bind_of_ok (proveLogin_of_proven hscram hproven hframe₁ hframe₂ hframe₃ _ output),
    if_neg fun h ↦ hdone (saslDone_iff.mp h)]
  exact errs_finalizeLoop_of_refused hframe₄ hrefused _ _ _ _

/-- A login succeeds exactly on a dialogue, and reads nothing behind it. -/
theorem authenticate_eq_ok (hscram : Scram env user password conv clientFirst Signed)
    {authDB input output : Bytes} {s' : Socket} :
    (authenticateUpstreamMongo env user password authDB).run ⟨input, output, none⟩ = (.ok (), s') ↔
      ∃ replies commands,
        Dialogue env conv clientFirst (authDatabase authDB) Signed PayloadFine replies commands ∧
        Progress input output replies commands s' := by
  constructor
  · intro h
    exact (ensures_authenticate hscram authDB input output).of_eq_ok h
  · rintro ⟨replies, commands, hdialogue, ⟨frames, hframes, hinput⟩, hwritten, hroom⟩
    rcases s' with ⟨rest, written, room⟩
    obtain rfl : room = none := hroom
    obtain rfl : written = _ := hwritten
    obtain rfl : input = frames.flatten ++ rest := hinput
    rw [run_authenticateUpstreamMongo]
    cases hdialogue with
    | direct hproven hdone =>
      obtain ⟨frame₁, frame₂, frame₃, _, hframe₁, hframe₂, hframe₃, hnil, hflatten⟩ :=
        exists_three_frames hframes
      obtain rfl := List.forall₂_nil_right_iff.mp hnil
      rw [hflatten, List.flatten_nil, List.append_nil, List.append_assoc, List.append_assoc,
        SocketM.bind_of_ok (proveLogin_of_proven hscram hproven hframe₁ hframe₂ hframe₃ rest output),
        if_pos (saslDone_iff.mpr hdone)]
      rfl
    | finalised hproven hdone hfinals =>
      obtain ⟨frame₁, frame₂, frame₃, frames', hframe₁, hframe₂, hframe₃, hframes', hflatten⟩ :=
        exists_three_frames hframes
      have hfuel := length_le_flatten hframes'
      rw [hflatten, List.append_assoc, List.append_assoc, List.append_assoc,
        SocketM.bind_of_ok (proveLogin_of_proven hscram hproven hframe₁ hframe₂ hframe₃ _ output),
        if_neg fun h ↦ hdone (saslDone_iff.mp h), finalizeLoop_of_finalised hfinals hframes']
      · rw [List.map_append, List.flatten_append, List.append_assoc]
        rfl
      · simp only [List.length_append]
        omega

/-! ## What a login writes before the rest of the input arrives -/

/-- More fuel than there is input changes nothing. -/
theorem finalizeLoop_fuel {fuel fuel' : ℕ} {input : Bytes} (hfuel : input.length < fuel)
    (hle : fuel ≤ fuel') (convID : Int32) (output : Bytes) :
    (finalizeLoop env convID db fuel).run ⟨input, output, none⟩ =
      (finalizeLoop env convID db fuel').run ⟨input, output, none⟩ := by
  induction fuel generalizing fuel' input output with
  | zero => omega
  | succ fuel ih =>
    obtain ⟨fuel', rfl⟩ := Nat.exists_eq_add_of_le' (Nat.one_le_of_lt hle)
    refine SocketM.bind_congr_run fun reply s' htrip ↦ ?_
    obtain ⟨doc, middle, hround, hparse⟩ := SocketM.bind_eq_ok.mp htrip
    obtain ⟨-, rfl⟩ := SocketM.lift_eq_ok.mp hparse
    obtain ⟨frame, rest, hreply, rfl, rfl⟩ := roundTrip_eq_ok.mp (SocketM.wrap_eq_ok.mp hround)
    have hpos := hreply.length_pos
    rw [List.length_append] at hfuel
    split
    next => rfl
    next => exact ih (by omega) (by omega) _

theorem causal_finalizeLoop (convID : Int32) (fuel : ℕ) :
    (finalizeLoop env convID db fuel).Causal := by
  induction fuel with
  | zero => exact SocketM.causal_lift _
  | succ fuel ih =>
    refine (causal_saslRoundTrip _ _ _).bind fun reply ↦ ?_
    split
    next => exact SocketM.causal_pure _
    next => exact ih

theorem causal_proveLogin (env : Env) (user password db : Bytes) :
    (proveLogin env user password db).Causal :=
  (((causal_roundTrip _).bind fun _ ↦ SocketM.causal_lift _).wrap _).bind fun _ ↦
    (SocketM.causal_lift _).bind fun _ ↦ (SocketM.causal_lift _).bind fun _ ↦
      (causal_saslRoundTrip _ _ _).bind fun _ ↦ (SocketM.causal_lift _).bind fun _ ↦
        (causal_saslRoundTrip _ _ _).bind fun _ ↦ (SocketM.causal_lift _).bind fun _ ↦
          (SocketM.causal_lift _).bind fun _ ↦ SocketM.causal_pure _

/-- What is written on the first part of the input is a beginning of what is written on all of it. -/
theorem output_prefix_authenticate (hscram : Scram env user password conv clientFirst Signed)
    (authDB input output more : Bytes) :
    ((authenticateUpstreamMongo env user password authDB).run ⟨input, output, none⟩).2.output <+:
      ((authenticateUpstreamMongo env user password authDB).run
        ⟨input ++ more, output, none⟩).2.output := by
  rw [run_authenticateUpstreamMongo, run_authenticateUpstreamMongo]
  dsimp only
  -- The shorter run may as well have the fuel of the longer one.
  have hfuel : (do
      let proven ← proveLogin env user password (authDatabase authDB)
      if proven.2 then pure ()
      else finalizeLoop env proven.1 (authDatabase authDB) (input.length + 1)).run
        ⟨input, output, none⟩ = (do
      let proven ← proveLogin env user password (authDatabase authDB)
      if proven.2 then pure ()
      else finalizeLoop env proven.1 (authDatabase authDB) ((input ++ more).length + 1)).run
        ⟨input, output, none⟩ := by
    refine SocketM.bind_congr_run fun proven s' hproven ↦ ?_
    obtain ⟨hello, start, final, clientFinal, -, -, hprogress⟩ :=
      (ensures_proveLogin hscram (authDatabase authDB) input output).of_eq_ok hproven
    have hlength := hprogress.length_le
    rcases s' with ⟨rest, written, room⟩
    obtain rfl : room = none := hprogress.room
    split
    next => rfl
    next =>
      refine finalizeLoop_fuel ?_ ?_ _ _
      · dsimp only at hlength
        omega
      · rw [List.length_append]
        omega
  rw [hfuel]
  refine SocketM.Causal.output_extends ?_ ⟨input, output, none⟩ more
  refine (causal_proveLogin env user password _).bind fun proven ↦ ?_
  split
  next => exact SocketM.causal_pure _
  next => exact causal_finalizeLoop _ _

end Success

/-! ## Every run keeps the pace of the upstream -/

/-- A command is written only when the reply to the one before it has been read, every command names
the database, and every `saslContinue` names the conversation of the `saslStart` reply. -/
structure Lockstep (db : Bytes) (replies commands : List BSON) : Prop where
  paced : commands.length ≤ replies.length + 1
  database : ∀ cmd ∈ commands, lookup (str "$db") cmd = some (.string db)
  conversation : ∀ cmd ∈ commands, (lookup (str "saslContinue") cmd).isSome →
    ∃ start, replies[1]? = some start ∧
      ∀ id, HasConversationID start id → lookup (str "conversationId") cmd = some (.int32 id)

section Lockstep

variable {env : Env} {user password db : Bytes} {conv : Conversation} {clientFirst : Bytes}
  {Signed : Bytes → Bytes → Prop} {replies commands : List BSON}

theorem Scripted.lockstep (h : Scripted env clientFirst db replies commands) :
    Lockstep db replies commands := by
  cases h with
  | hello =>
    refine ⟨?_, ?_, ?_⟩
    · simp
    · intro cmd hcmd
      obtain rfl := List.mem_singleton.mp hcmd
      rfl
    · intro cmd hcmd hcontinue
      obtain rfl := List.mem_singleton.mp hcmd
      cases hcontinue
  | start =>
    refine ⟨?_, ?_, ?_⟩
    · simp
    · intro cmd hcmd
      rcases List.mem_pair.mp hcmd with rfl | rfl
      · rfl
      · rfl
    · intro cmd hcmd hcontinue
      rcases List.mem_pair.mp hcmd with rfl | rfl
      · cases hcontinue
      · cases hcontinue
  | @continued hello start replies clientFinal rounds hrounds =>
    have hcases : ∀ cmd ∈ provingCommands env clientFirst db start clientFinal ++
        List.replicate rounds (emptyContinue env db start),
        cmd = helloCommand env db ∨ cmd = saslStartCommand clientFirst db ∨
          ∃ payload, cmd = saslContinueCommand (conversationID env start) payload db := by
      intro cmd hcmd
      rcases List.mem_append.mp hcmd with hcmd | hcmd
      · simp only [provingCommands, List.mem_cons, List.not_mem_nil, or_false] at hcmd
        rcases hcmd with rfl | rfl | rfl
        · exact .inl rfl
        · exact .inr (.inl rfl)
        · exact .inr (.inr ⟨clientFinal, rfl⟩)
      · exact .inr (.inr ⟨[], List.eq_of_mem_replicate hcmd⟩)
    refine ⟨?_, ?_, ?_⟩
    · simp only [provingCommands, List.length_append, List.length_replicate, List.length_cons,
        List.length_nil]
      omega
    · intro cmd hcmd
      rcases hcases cmd hcmd with rfl | rfl | ⟨payload, rfl⟩
      · rfl
      · rfl
      · rfl
    · intro cmd hcmd hcontinue
      rcases hcases cmd hcmd with rfl | rfl | ⟨payload, rfl⟩
      · cases hcontinue
      · cases hcontinue
      · refine ⟨start, rfl, fun id hid ↦ ?_⟩
        rw [conversationID_of_has env hid]
        rfl

theorem Dialogue.scripted {Fine : BSON → Prop}
    (h : Dialogue env conv clientFirst db Signed Fine replies commands) :
    Scripted env clientFirst db replies commands := by
  cases h with
  | direct => exact .proof _ _ _ _ _ _ _
  | finalised => exact .continued (Nat.le_succ _)

/-- With a SCRAM library that proves the server, and on a connection that takes what is written, a
login succeeds exactly when the upstream begins with the replies of a dialogue; it has then read those
replies and nothing else. On every other input it returns an error. However it ends, it has kept the
pace of the replies, and what it has written before the rest of the input arrives, it does not write
differently afterwards. -/
theorem authenticateUpstreamMongo_proven
    (hscram : Scram env user password conv clientFirst Signed) (authDB input output : Bytes) :
    (∀ s', (authenticateUpstreamMongo env user password authDB).run ⟨input, output, none⟩ =
        (.ok (), s') ↔
      ∃ replies commands,
        Dialogue env conv clientFirst (authDatabase authDB) Signed PayloadFine replies commands ∧
        Progress input output replies commands s') ∧
    ((¬ ∃ replies commands rest,
        Dialogue env conv clientFirst (authDatabase authDB) Signed PayloadFine replies commands ∧
        Heard input replies rest) →
      Errs ((authenticateUpstreamMongo env user password authDB).run ⟨input, output, none⟩).1) ∧
    (∃ replies commands,
      Talked input output replies commands
        ((authenticateUpstreamMongo env user password authDB).run ⟨input, output, none⟩).2 ∧
      Lockstep (authDatabase authDB) replies commands) ∧
    ∀ more,
      ((authenticateUpstreamMongo env user password authDB).run ⟨input, output, none⟩).2.output <+:
        ((authenticateUpstreamMongo env user password authDB).run
          ⟨input ++ more, output, none⟩).2.output := by
  have hrun := ensures_authenticate hscram authDB input output
  refine ⟨fun s' ↦ authenticate_eq_ok hscram, fun hnone ↦ ?_, ?_, fun more ↦ ?_⟩
  · refine errs_of_returns hrun.returns fun result hok ↦ hnone ?_
    obtain ⟨replies, commands, hdialogue, hprogress⟩ :=
      (authenticate_eq_ok hscram).mp (Prod.ext hok rfl)
    exact ⟨replies, commands, _, hdialogue, hprogress.heard⟩
  · have hstopped : Stopped env clientFirst (authDatabase authDB) input output _ :=
      (hrun.mono (fun _ s' h ↦ by
        obtain ⟨replies, commands, hdialogue, hprogress⟩ := h
        exact ⟨replies, commands, hprogress.talked, hdialogue.scripted⟩) fun _ ↦ id).after
    obtain ⟨replies, commands, htalked, hscripted⟩ := hstopped
    exact ⟨replies, commands, htalked, hscripted.lockstep⟩
  · exact output_prefix_authenticate hscram authDB input output more

end Lockstep

/-! ## Two upstreams -/

/-- An `ok` reply of the last loop without a payload. -/
def emptyReply (done : Bool) : BSON := [(str "done", .bool done), (str "ok", .double oneBits)]

/-- An `ok` reply that is done but has a text for its payload. -/
def textReply : BSON :=
  [(str "done", .bool true), (str "payload", .string (str "x")), (str "ok", .double oneBits)]

/-- The three replies of an upstream that wants another round. -/
def provingReplies : List BSON :=
  [[(str "ok", .double oneBits)], saslReply 7 (str "r") false, saslReply 7 (str "v") false]

theorem proven_provingReplies :
    Proven signingConversation (fun _ serverFinal ↦ serverFinal = str "v")
      [(str "ok", .double oneBits)] (saslReply 7 (str "r") false) (saslReply 7 (str "v") false)
      (str "r") :=
  ⟨rfl, rfl, rfl, str "r", str "v", .inl ⟨0, rfl⟩, rfl, .inl ⟨0, rfl⟩, ⟨⟨_, rfl⟩, rfl⟩, rfl⟩

theorem isReply_provingReplies :
    List.Forall₂ IsReply (provingReplies.map replyBytes) provingReplies :=
  .cons ⟨0, 0, _, 0, rfl, by decide, rfl⟩ (.cons ⟨0, 0, _, 0, rfl, by decide, rfl⟩
    (.cons ⟨0, 0, _, 0, rfl, by decide, rfl⟩ .nil))

theorem isReply_textReply : IsReply (replyBytes textReply) textReply :=
  ⟨0, 0, _, 0, rfl, by decide, rfl⟩

theorem isReply_emptyReply (done : Bool) : IsReply (replyBytes (emptyReply done)) (emptyReply done) := by
  cases done
  · exact ⟨0, 0, _, 0, rfl, by decide, rfl⟩
  · exact ⟨0, 0, _, 0, rfl, by decide, rfl⟩

/-- Two more rounds, and two bytes behind the last reply that are left for the client. -/
theorem authenticateUpstreamMongo_proven_two_rounds :
    ∃ output, (authenticateUpstreamMongo signingEnv (str "u") (str "p") []).run
        ⟨(provingReplies.map replyBytes).flatten ++ replyBytes (emptyReply false) ++
          replyBytes (emptyReply true) ++ [1, 2], [], none⟩ = (.ok (), ⟨[1, 2], output, none⟩) := by
  have hfinals : Finalised PayloadFine [emptyReply false, emptyReply true] :=
    .more rfl ⟨[], .inr ⟨rfl, rfl⟩⟩ (by intro h; cases h)
      (.last rfl ⟨[], .inr ⟨rfl, rfl⟩⟩ rfl)
  have hdone : ¬ Done (saslReply 7 (str "v") false) := by
    intro h
    cases h
  refine ⟨_, ((authenticateUpstreamMongo_proven (scram_signingEnv (str "u") (str "p")) [] _ []).1
    _).mpr ⟨_, _, .finalised proven_provingReplies hdone hfinals, ?_, rfl, rfl⟩⟩
  refine ⟨provingReplies.map replyBytes ++ [replyBytes (emptyReply false), replyBytes (emptyReply true)],
    List.rel_append isReply_provingReplies
      (.cons (isReply_emptyReply false) (.cons (isReply_emptyReply true) .nil)), ?_⟩
  simp

/-- The replies are `ok`, the signature is good and the last reply is done, but its payload is a text:
the login is refused. -/
theorem authenticateUpstreamMongo_text_payload :
    Scram signingEnv (str "u") (str "p") signingConversation []
      (fun _ serverFinal ↦ serverFinal = str "v") ∧
    ∃ frames commands,
      Dialogue signingEnv signingConversation [] (authDatabase [])
        (fun _ serverFinal ↦ serverFinal = str "v") (fun _ ↦ True) (provingReplies ++ [textReply])
        commands ∧
      List.Forall₂ IsReply frames (provingReplies ++ [textReply]) ∧
      Errs ((authenticateUpstreamMongo signingEnv (str "u") (str "p") []).run
        ⟨frames.flatten, [], none⟩).1 := by
  have hdone : ¬ Done (saslReply 7 (str "v") false) := by
    intro h
    cases h
  have hrefused : Errs (parseMongoSaslReply signingEnv textReply) := trivial
  have hframes : List.Forall₂ IsReply (provingReplies.map replyBytes ++ [replyBytes textReply])
      (provingReplies ++ [textReply]) :=
    List.rel_append isReply_provingReplies (.cons isReply_textReply .nil)
  generalize provingReplies.map replyBytes ++ [replyBytes textReply] = frames at hframes
  refine ⟨scram_signingEnv _ _, frames, _,
    .finalised proven_provingReplies hdone (.last rfl trivial rfl), hframes, ?_⟩
  have herrs := errs_authenticate_of_refused (scram_signingEnv (str "u") (str "p"))
    proven_provingReplies hdone hframes hrefused [] [] []
  rw [List.append_nil] at herrs
  exact herrs

end DbPivot.Mongo
