import DbPivot.Mongo.Dispatch
import DbPivot.System.Copy

/-!
# A client connection from its first command to the pipe

The handler of a MongoDB connection answers commands until one names a configured database, reads
that database's current target, logs in there, forwards the command and from then on copies bytes in
both directions. Meanwhile switches and other connections change the server.

The first command that names a configured database binds the connection: it and everything after it
go to that database's upstream, byte for byte, and no other upstream ever sees anything of the
connection.

The handler as a program is in `Proxy.Handler`, and `Proxy.MongoSession` shows that it goes through
the steps of a session.
-/

namespace DbPivot.Mongo

open DbPivot.Go DbPivot.Config DbPivot.Proxy DbPivot.System

namespace Session

/-! ## The handler -/

/-- Where a handler is once it is logged in. -/
inductive Stage where
  | forwarding
  | piping
  | failed
deriving DecidableEq

/-- A connection bound to an upstream. `asked` is the server when its current target was read,
`dialled` and `loggedIn` are the upstream connection before and after the login. -/
structure Relay where
  db : Bytes
  asked : Server
  target : ResolvedTarget
  dialled : Socket
  loggedIn : Socket
  stage : Stage
  pipe : Pipe UInt8

inductive Phase where
  | dispatching
  | routing (routed : Routed)
  | loggingIn (routed : Routed) (asked : Server) (target : ResolvedTarget)
  | relaying (relay : Relay)
  | ended

/-- The handler, its client and the server it belongs to. -/
structure State where
  server : Server
  client : Socket
  phase : Phase

/-- `Current` of the database that `dispatchMongo` found. -/
def currentTarget (s : Server) (name : Bytes) : Option ResolvedTarget :=
  (s.lookupDatabase adapterMongo name).bind Database.current

/-- The bytes of the command that is to be forwarded. -/
def frameOf (routed : Routed) : Bytes :=
  messageBytes routed.hdr.requestID routed.hdr.responseTo routed.hdr.opCode routed.body

/-- The relay right after the login: the command is still to be written. -/
def Relay.start (routed : Routed) (asked : Server) (target : ResolvedTarget)
    (client dialled loggedIn : Socket) : Relay where
  db := routed.db
  asked := asked
  target := target
  dialled := dialled
  loggedIn := loggedIn
  stage := .forwarding
  pipe :=
    { toUp := { Copy.start client.input with pending := frameOf routed },
      toClient := Copy.start loggedIn.input, closed := false }

/-- A write gets some of the command out. -/
def Relay.forward (r : Relay) (part rest : Bytes) : Relay :=
  { r with pipe := { r.pipe with toUp := { r.pipe.toUp with
      pending := rest, written := r.pipe.toUp.written ++ part } } }

/-- An error reply of `routeMongo`, whose own error is ignored, and the end of the connection. -/
def State.reject (s : State) (env : Env) (routed : Routed) (message : GoError) (code : Int32) :
    State :=
  { s with
    client := ((writeMongoReply routed.hdr.opCode routed.hdr.requestID
      (mongoErrorReply (env.render message) code)).run s.client).2,
    phase := .ended }

inductive Event where
  | dispatch
  | route
  | login
  | forward
  | register
  | pipe (event : Pipe.Event)
  | server

/-- One step of the handler or of the server around it. -/
inductive Step (env : Env) (peer : Peer) (s : State) : Event → State → Prop where
  | answer {now : Int64} {client : Socket} (hphase : s.phase = .dispatching)
      (hstep : (dispatchStep env s.server peer now).run s.client = (.ok none, client)) :
      Step env peer s .dispatch { s with client }
  | drop {now : Int64} {error : GoError} {client : Socket} (hphase : s.phase = .dispatching)
      (hstep : (dispatchStep env s.server peer now).run s.client = (fail error, client)) :
      Step env peer s .dispatch { s with client, phase := .ended }
  | dispatch {now : Int64} {routed : Routed} {client : Socket} (hphase : s.phase = .dispatching)
      (hstep : (dispatchStep env s.server peer now).run s.client = (.ok (some routed), client)) :
      Step env peer s .dispatch { s with client, phase := .routing routed }
  | inactive {routed : Routed} (hphase : s.phase = .routing routed)
      (hcurrent : currentTarget s.server routed.db = none) :
      Step env peer s .route
        (s.reject env routed (errorf "database %q has no active target" [.text routed.db])
          mongoErrInternalError)
  | route {routed : Routed} {rt : ResolvedTarget} (hphase : s.phase = .routing routed)
      (hcurrent : currentTarget s.server routed.db = some rt) :
      Step env peer s .route { s with phase := .loggingIn routed s.server rt }
  | dialFails {routed : Routed} {asked : Server} {rt : ResolvedTarget} (error : GoError)
      (hphase : s.phase = .loggingIn routed asked rt) :
      Step env peer s .login
        (s.reject env routed (wrapf "upstream dial failed: %v" [] error) mongoErrHostUnreachable)
  | loginFails {routed : Routed} {asked : Server} {rt : ResolvedTarget} {error : GoError}
      {dialled loggedIn : Socket} (hphase : s.phase = .loggingIn routed asked rt)
      (hdialled : dialled.output = [])
      (hlogin : (authenticateUpstreamMongo env rt.user rt.password rt.authSource).run dialled =
        (fail error, loggedIn)) :
      Step env peer s .login
        (s.reject env routed (wrapf "upstream auth failed: %v" [] error) mongoErrHostUnreachable)
  | login {routed : Routed} {asked : Server} {rt : ResolvedTarget} {dialled loggedIn : Socket}
      (hphase : s.phase = .loggingIn routed asked rt) (hdialled : dialled.output = [])
      (hlogin : (authenticateUpstreamMongo env rt.user rt.password rt.authSource).run dialled =
        (.ok (), loggedIn)) :
      Step env peer s .login
        { s with phase := .relaying (.start routed asked rt s.client dialled loggedIn) }
  | forward {r : Relay} {part rest : Bytes} (hphase : s.phase = .relaying r)
      (hstage : r.stage = .forwarding) (hpart : part ≠ [])
      (hpending : r.pipe.toUp.pending = part ++ rest) :
      Step env peer s .forward { s with phase := .relaying (r.forward part rest) }
  | forwardFails {r : Relay} (hphase : s.phase = .relaying r) (hstage : r.stage = .forwarding) :
      Step env peer s .forward { s with phase := .relaying { r with stage := .failed } }
  | register {r : Relay} (hphase : s.phase = .relaying r) (hstage : r.stage = .forwarding)
      (hpending : r.pipe.toUp.pending = []) :
      Step env peer s .register { s with phase := .relaying { r with stage := .piping } }
  | pipe {r : Relay} {event : Pipe.Event} {p : Pipe UInt8} (hphase : s.phase = .relaying r)
      (hstage : r.stage = .piping) (hstep : r.pipe.Step event p) :
      Step env peer s (.pipe event) { s with phase := .relaying { r with pipe := p } }
  | server {server : Server} (hstep : Proxy.Step s.server server) :
      Step env peer s .server { s with server }

/-! ## What every state of a connection has -/

/-- The bytes of a sequence of commands. -/
def bytesOf (frames : List CommandFrame) : Bytes := (frames.map CommandFrame.bytes).flatten

/-- The client has received one message for each of the frames. -/
def Answered (start s : State) (frames : List CommandFrame) : Prop :=
  ∃ replies : List Bytes, replies.length = frames.length ∧
    (∀ reply ∈ replies, ∃ requestID opCode body, reply = messageBytes 0 requestID opCode body) ∧
    s.client.output = start.client.output ++ replies.flatten

/-- The relay carries the command and what follows it to the target its database was on, and what
the upstream sends after the login to the client. -/
structure Carries (f : CommandFrame) (rest : Bytes) (r : Relay) : Prop where
  db : r.db = f.db
  current : currentTarget r.asked f.db = some r.target
  dialled : r.dialled.output = []
  login : Exchanges r.dialled r.loggedIn
  toUp : r.pipe.toUp.total = f.bytes ++ rest
  toUpUnread : r.pipe.toUp.unread <:+ rest
  toClient : r.pipe.toClient.total = r.loggedIn.input
  toClientUnread : r.pipe.toClient.unread <:+ r.loggedIn.input

/-- Where a connection is with a stream that starts with the frames and then has the routable
command. -/
inductive Inv (start : State) (frames : List CommandFrame) (f : CommandFrame) (rest : Bytes)
    (s : State) : Prop where
  | dispatching {before after : List CommandFrame} (hphase : s.phase = .dispatching)
      (hframes : frames = before ++ after) (hanswered : Answered start s before)
      (hinput : s.client.input = bytesOf after ++ (f.bytes ++ rest))
  | routing (hphase : s.phase = .routing f.routed)
      (hanswered : Answered start s frames) (hinput : s.client.input = rest)
  | loggingIn {asked : Server} {rt : ResolvedTarget}
      (hphase : s.phase = .loggingIn f.routed asked rt)
      (hcurrent : currentTarget asked f.db = some rt) (hanswered : Answered start s frames)
      (hinput : s.client.input = rest)
  | relaying {r : Relay} (hphase : s.phase = .relaying r) (hcarries : Carries f rest r)
      (hanswered : Answered start s frames)
  | ended (hphase : s.phase = .ended)

/-- The names the server routes stay the same. -/
def Served (start s : State) : Prop := ∀ name, Routable s.server name ↔ Routable start.server name

theorem served_step {env : Env} {peer : Peer} {start s s' : State} {event : Event}
    (hs : Served start s) (hstep : Step env peer s event s') : Served start s' := by
  cases hstep with
  | server hstep => exact fun name ↦ (isSome_lookupDatabase_step hstep _ _).trans (hs name)
  | _ => exact hs

theorem Answered.append {start s s' : State} {frames : List CommandFrame} {f : CommandFrame}
    (hanswered : Answered start s frames) {opCode : Int32} {body : Bytes}
    (houtput : s'.client.output = s.client.output ++ messageBytes 0 f.requestID opCode body) :
    Answered start s' (frames ++ [f]) := by
  rcases hanswered with ⟨replies, hlength, hreplies, hbefore⟩
  refine ⟨replies ++ [messageBytes 0 f.requestID opCode body], ?_, fun reply hreply ↦ ?_, ?_⟩
  · rw [List.length_append, List.length_append, hlength]
    rfl
  · rcases List.mem_append.mp hreply with hold | hnew
    · exact hreplies reply hold
    · exact ⟨_, _, _, List.mem_singleton.mp hnew⟩
  · rw [houtput, hbefore, List.flatten_append, List.append_assoc, List.flatten_cons,
      List.flatten_nil, List.append_nil]

section Carry

variable {f : CommandFrame} {rest : Bytes} {r : Relay}

theorem carries_start {asked : Server} {rt : ResolvedTarget} {client dialled loggedIn : Socket}
    (hinput : client.input = rest) (hcurrent : currentTarget asked f.db = some rt)
    (hdialled : dialled.output = []) (hlogin : Exchanges dialled loggedIn) :
    Carries f rest (.start f.routed asked rt client dialled loggedIn) where
  db := rfl
  current := hcurrent
  dialled := hdialled
  login := hlogin
  toUp := by rw [← hinput]; rfl
  toUpUnread := by rw [← hinput]; exact List.suffix_rfl
  toClient := rfl
  toClientUnread := List.suffix_rfl

theorem carries_forward {part left : Bytes} (hr : Carries f rest r)
    (hpending : r.pipe.toUp.pending = part ++ left) : Carries f rest (r.forward part left) :=
  { hr with
    toUp := by
      rw [← hr.toUp]
      simp only [Relay.forward, Copy.total, hpending, List.append_assoc] }

theorem carries_pipe {event : Pipe.Event} {p : Pipe UInt8} (hr : Carries f rest r)
    (hstep : r.pipe.Step event p) : Carries f rest { r with pipe := p } :=
  { hr with
    toUp := (Pipe.total_step hstep).1.trans hr.toUp
    toUpUnread := (Pipe.unread_step hstep).1.trans hr.toUpUnread
    toClient := (Pipe.total_step hstep).2.trans hr.toClient
    toClientUnread := (Pipe.unread_step hstep).2.trans hr.toClientUnread }

end Carry

section Invariant

variable {env : Env} {peer : Peer} {start s s' : State} {frames : List CommandFrame}
  {f : CommandFrame} {rest : Bytes}

theorem Inv.of_dispatching (hs : Inv start frames f rest s) (hphase : s.phase = .dispatching) :
    ∃ before after, frames = before ++ after ∧ Answered start s before ∧
      s.client.input = bytesOf after ++ (f.bytes ++ rest) := by
  cases hs with
  | dispatching _ hframes hanswered hinput => exact ⟨_, _, hframes, hanswered, hinput⟩
  | routing hother => cases hphase.symm.trans hother
  | loggingIn hother => cases hphase.symm.trans hother
  | relaying hother => cases hphase.symm.trans hother
  | ended hother => cases hphase.symm.trans hother

theorem Inv.of_routing (hs : Inv start frames f rest s) {routed : Routed}
    (hphase : s.phase = .routing routed) :
    routed = f.routed ∧ Answered start s frames ∧ s.client.input = rest := by
  cases hs with
  | routing hother hanswered hinput =>
    exact ⟨Phase.routing.inj (hphase.symm.trans hother), hanswered, hinput⟩
  | dispatching hother => cases hphase.symm.trans hother
  | loggingIn hother => cases hphase.symm.trans hother
  | relaying hother => cases hphase.symm.trans hother
  | ended hother => cases hphase.symm.trans hother

theorem Inv.of_loggingIn (hs : Inv start frames f rest s) {routed : Routed} {asked : Server}
    {rt : ResolvedTarget} (hphase : s.phase = .loggingIn routed asked rt) :
    routed = f.routed ∧ currentTarget asked f.db = some rt ∧
      Answered start s frames ∧ s.client.input = rest := by
  cases hs with
  | loggingIn hother hcurrent hanswered hinput =>
    rcases Phase.loggingIn.inj (hphase.symm.trans hother) with ⟨hrouted, hasked, hrt⟩
    rw [hasked, hrt]
    exact ⟨hrouted, hcurrent, hanswered, hinput⟩
  | dispatching hother => cases hphase.symm.trans hother
  | routing hother => cases hphase.symm.trans hother
  | relaying hother => cases hphase.symm.trans hother
  | ended hother => cases hphase.symm.trans hother

theorem Inv.of_relaying (hs : Inv start frames f rest s) {r : Relay}
    (hphase : s.phase = .relaying r) : Carries f rest r ∧ Answered start s frames := by
  cases hs with
  | relaying hother hcarries hanswered =>
    rw [Phase.relaying.inj (hphase.symm.trans hother)]
    exact ⟨hcarries, hanswered⟩
  | dispatching hother => cases hphase.symm.trans hother
  | routing hother => cases hphase.symm.trans hother
  | loggingIn hother => cases hphase.symm.trans hother
  | ended hother => cases hphase.symm.trans hother

theorem bytesOf_cons (g : CommandFrame) (frames : List CommandFrame) (more : Bytes) :
    bytesOf (g :: frames) ++ more = g.bytes ++ (bytesOf frames ++ more) := by
  rw [bytesOf, List.map_cons, List.flatten_cons, List.append_assoc]
  rfl

/-- One round of the dispatch loop that does not fail. -/
theorem inv_dispatch (hs : Inv start frames f rest s)
    (hlocal : ∀ g ∈ frames, ¬ Routable s.server g.db) (hroutable : Routable s.server f.db)
    (hphase : s.phase = .dispatching) {now : Int64} {result : Option Routed} {client : Socket}
    (hstep : (dispatchStep env s.server peer now).run s.client = (.ok result, client)) :
    (result = none → Inv start frames f rest { s with client }) ∧
      ∀ routed, result = some routed →
        Inv start frames f rest { s with client, phase := .routing routed } := by
  rcases hs.of_dispatching hphase with ⟨before, after, hframes, hanswered, hinput⟩
  cases after with
  | nil =>
    rw [List.append_nil] at hframes
    rw [dispatchStep_of_routable hroutable hinput] at hstep
    rcases Prod.mk.inj hstep with ⟨hresult, rfl⟩
    rw [← Except.ok.inj hresult]
    refine ⟨fun hnone ↦ absurd hnone (by simp), fun routed hrouted ↦ ?_⟩
    rw [← Option.some.inj hrouted]
    exact .routing rfl (hframes ▸ hanswered) rfl
  | cons g after =>
    rw [bytesOf_cons] at hinput
    have hg : ¬ Routable s.server g.db := hlocal g (by rw [hframes]; simp)
    rcases dispatchStep_of_not_routable hg hinput hstep with
      ⟨hresult, hrest, opCode, body, houtput⟩
    refine ⟨fun _ ↦ ?_, fun routed hrouted ↦ ?_⟩
    · refine .dispatching hphase ?_ (hanswered.append houtput) hrest
      rw [hframes, List.append_assoc, List.singleton_append]
    · rw [hresult] at hrouted
      cases hrouted

theorem inv_step (hs : Inv start frames f rest s) (hserved : Served start s)
    (hlocal : ∀ g ∈ frames, ¬ Routable start.server g.db) (hroutable : Routable start.server f.db)
    {event : Event} (hstep : Step env peer s event s') : Inv start frames f rest s' := by
  have hlocal : ∀ g ∈ frames, ¬ Routable s.server g.db :=
    fun g hg ↦ mt (hserved g.db).mp (hlocal g hg)
  have hroutable := (hserved f.db).mpr hroutable
  cases hstep with
  | answer hphase hstep => exact (inv_dispatch hs hlocal hroutable hphase hstep).1 rfl
  | drop hphase hstep => exact .ended rfl
  | dispatch hphase hstep => exact (inv_dispatch hs hlocal hroutable hphase hstep).2 _ rfl
  | inactive hphase hcurrent => exact .ended rfl
  | route hphase hcurrent =>
    rcases hs.of_routing hphase with ⟨rfl, hanswered, hinput⟩
    exact .loggingIn rfl hcurrent hanswered hinput
  | dialFails error hphase => exact .ended rfl
  | loginFails hphase hdialled hlogin => exact .ended rfl
  | login hphase hdialled hlogin =>
    rcases hs.of_loggingIn hphase with ⟨rfl, hcurrent, hanswered, hinput⟩
    exact .relaying rfl
      (carries_start hinput hcurrent hdialled (exchanges_authenticate hlogin)) hanswered
  | forward hphase hstage hpart hpending =>
    rcases hs.of_relaying hphase with ⟨hcarries, hanswered⟩
    exact .relaying rfl (carries_forward hcarries hpending) hanswered
  | forwardFails hphase hstage =>
    rcases hs.of_relaying hphase with ⟨hcarries, hanswered⟩
    exact .relaying rfl { hcarries with } hanswered
  | register hphase hstage hpending =>
    rcases hs.of_relaying hphase with ⟨hcarries, hanswered⟩
    exact .relaying rfl { hcarries with } hanswered
  | pipe hphase hstage hstep =>
    rcases hs.of_relaying hphase with ⟨hcarries, hanswered⟩
    exact .relaying rfl (carries_pipe hcarries hstep) hanswered
  | server hstep =>
    cases hs with
    | dispatching hphase hframes hanswered hinput =>
      exact .dispatching hphase hframes hanswered hinput
    | routing hphase hanswered hinput => exact .routing hphase hanswered hinput
    | loggingIn hphase hcurrent hanswered hinput =>
      exact .loggingIn hphase hcurrent hanswered hinput
    | relaying hphase hcarries hanswered => exact .relaying hphase hcarries hanswered
    | ended hphase => exact .ended hphase

/-- What holds in every state of a run. -/
def Tracked (start : State) (frames : List CommandFrame) (f : CommandFrame) (rest : Bytes)
    (s : State) : Prop :=
  Served start s ∧ Inv start frames f rest s

theorem tracked_run (hphase : start.phase = .dispatching)
    (hinput : start.client.input = bytesOf frames ++ (f.bytes ++ rest))
    (hlocal : ∀ g ∈ frames, ¬ Routable start.server g.db) (hroutable : Routable start.server f.db)
    (hrun : Run (Step env peer) start s) : Tracked start frames f rest s := by
  have hanswered : Answered start start [] :=
    ⟨[], rfl, fun _ h ↦ absurd h List.not_mem_nil, (List.append_nil _).symm⟩
  have hstart : Tracked start frames f rest start :=
    ⟨fun _ ↦ Iff.rfl, .dispatching hphase rfl hanswered hinput⟩
  exact hrun.invariant hstart fun _ _ _ hs hstep ↦
    ⟨served_step hs.1 hstep, inv_step hs.2 hs.1 hlocal hroutable hstep⟩

end Invariant

/-! ## A connection that gets through -/

section Through

variable {env : Env} {peer : Peer} {start : State} {f : CommandFrame} {rest : Bytes}

/-- A client that reads what it is sent gets past the commands that are answered locally. -/
theorem run_answers {frames : List CommandFrame} (hphase : start.phase = .dispatching)
    (hinput : start.client.input = bytesOf frames ++ rest)
    (hlocal : ∀ g ∈ frames, ¬ Routable start.server g.db) (hroom : start.client.room = none) :
    ∃ client : Socket, Run (Step env peer) start { start with client } ∧ client.input = rest := by
  induction frames generalizing start with
  | nil => exact ⟨start.client, .refl, hinput⟩
  | cons g frames ih =>
    rw [bytesOf_cons] at hinput
    have hstep : ∃ client : Socket, client.input = bytesOf frames ++ rest ∧ client.room = none ∧
        (dispatchStep env start.server peer 0).run start.client = (.ok none, client) :=
      ⟨_, rfl, rfl, dispatchStep_of_room (hlocal g List.mem_cons_self) hinput hroom⟩
    rcases hstep with ⟨client, hclient, hroom, hstep⟩
    have hafter : ∃ last : Socket, Run (Step env peer) { start with client }
        { start with client := last } ∧ last.input = rest :=
      ih hphase hclient (fun other hother ↦ hlocal other (List.mem_cons_of_mem _ hother)) hroom
    rcases hafter with ⟨last, hrun, hrest⟩
    exact ⟨last, (Run.single (.answer hphase hstep)).trans hrun, hrest⟩

/-- The upstream accepts the login for the current target of the database. -/
structure Reachable (env : Env) (s : Server) (db : Bytes) (rt : ResolvedTarget)
    (dialled loggedIn : Socket) : Prop where
  current : currentTarget s db = some rt
  fresh : dialled.output = []
  login : (authenticateUpstreamMongo env rt.user rt.password rt.authSource).run dialled =
    (.ok (), loggedIn)

theorem Reachable.routable {db : Bytes} {rt : ResolvedTarget} {dialled loggedIn : Socket}
    (hup : Reachable env start.server db rt dialled loggedIn) : Routable start.server db := by
  rcases Option.bind_eq_some_iff.mp hup.current with ⟨d, hlookup, -⟩
  rw [Routable, hlookup, Option.isSome_some]

theorem run_login {s : State} {rt : ResolvedTarget} {dialled loggedIn : Socket}
    (hphase : s.phase = .dispatching) (hinput : s.client.input = f.bytes ++ rest)
    (hup : Reachable env s.server f.db rt dialled loggedIn) :
    ∃ (client : Socket) (r : Relay), client.input = rest ∧
      r = .start f.routed s.server rt client dialled loggedIn ∧
      Run (Step env peer) s { s with client, phase := .relaying r } := by
  refine ⟨{ s.client with input := rest }, _, rfl, rfl, ?_⟩
  have hdispatch : Step env peer s .dispatch _ :=
    @Step.dispatch env peer s 0 _ _ hphase (dispatchStep_of_routable hup.routable hinput)
  have hroute := (Run.single hdispatch).step .route (.route rfl hup.current)
  exact hroute.step .login (.login rfl hup.fresh hup.login)

/-- With such an upstream, the command and all that follows it get through. -/
theorem run_relay {frames : List CommandFrame} {rt : ResolvedTarget} {dialled loggedIn : Socket}
    (hphase : start.phase = .dispatching)
    (hinput : start.client.input = bytesOf frames ++ (f.bytes ++ rest))
    (hlocal : ∀ g ∈ frames, ¬ Routable start.server g.db) (hroom : start.client.room = none)
    (hup : Reachable env start.server f.db rt dialled loggedIn) (hrest : rest ≠ []) :
    ∃ s r, Run (Step env peer) start s ∧ s.phase = .relaying r ∧ r.db = f.db ∧
      r.pipe.toUp.written = f.bytes ++ rest := by
  have hanswers : ∃ client : Socket, Run (Step env peer) start { start with client } ∧
      client.input = f.bytes ++ rest := run_answers hphase hinput hlocal hroom
  rcases hanswers with ⟨middle, hanswers, hmiddle⟩
  rcases run_login (s := { start with client := middle }) hphase hmiddle hup with
    ⟨client, r, hinput, rfl, hlogin⟩
  have hframe : f.bytes ≠ [] := messageBytes_ne_nil _ _ _ _
  have hforward := (hanswers.trans hlogin).step .forward
    (.forward rfl rfl hframe (List.append_nil _).symm)
  have hpiping := hforward.step .register (.register rfl rfl rfl)
  have hread := hpiping.step (.pipe .toUp)
    (.pipe rfl rfl (.toUp rfl (.read rfl rfl hrest (hinput.trans (List.append_nil _).symm))))
  have hwrite := hread.step (.pipe .toUp)
    (.pipe rfl rfl (.toUp rfl (.write rfl hrest (List.append_nil _).symm)))
  exact ⟨_, _, hwrite, rfl, rfl, rfl⟩

end Through

/-! ## A client of two databases -/

/-- An upstream that accepts every login. -/
def openUpstream : Socket where
  input := replyBytes [(str "ok", .double oneBits)] ++
    (replyBytes (saslReply 1 [] false) ++ (replyBytes (saslReply 1 [] true) ++ []))
  output := []
  room := none

def findCommand (db : Bytes) : BSON := [(str "find", .string (str "c")), (str "$db", .string db)]

def pingFrame : CommandFrame :=
  .ofDocument 1 [(str "ping", .int32 1), (str "$db", .string (str "admin"))]
    ⟨⟨by decide, trivial, by decide, trivial, trivial⟩, by decide⟩

def appFrame : CommandFrame :=
  .ofDocument 2 (findCommand (str "app"))
    ⟨⟨by decide, trivial, by decide, trivial, trivial⟩, by decide⟩

def auditFrame : CommandFrame :=
  .ofDocument 3 (findCommand (str "audit"))
    ⟨⟨by decide, trivial, by decide, trivial, trivial⟩, by decide⟩

/-- A client that sends a `ping`, a `find` on `app` and one on `audit`. -/
def pooledClient : State where
  server := twoDatabases
  client := ⟨bytesOf [pingFrame] ++ (appFrame.bytes ++ auditFrame.bytes), [], none⟩
  phase := .dispatching

theorem not_routable_pingFrame : ∀ g ∈ [pingFrame], ¬ Routable pooledClient.server g.db := by
  intro g hg
  rw [List.mem_singleton.mp hg, pooledClient, routable_twoDatabases]
  decide

theorem reachable_app : ∃ rt loggedIn,
    Reachable openEnv pooledClient.server appFrame.db rt openUpstream loggedIn := by
  have hcurrent : ∃ rt, currentTarget pooledClient.server appFrame.db = some rt := by
    rw [currentTarget, Server.lookupDatabase, pooledClient, twoDatabases, GoMap.get_ofKeys]
    exact ⟨_, rfl⟩
  rcases hcurrent with ⟨rt, hcurrent⟩
  have haccepts : Accepts openEnv rt.user rt.password ⟨fun _ ↦ .ok [], fun _ ↦ true⟩ [] [] :=
    ⟨rfl, ⟨_, rfl⟩, ⟨_, rfl⟩, ⟨_, rfl⟩, rfl⟩
  have hreadable : ∀ done, Readable (saslReply 1 [] done) := fun done ↦
    ⟨⟨by decide, trivial, by decide, trivial, by decide, trivial, by decide, trivial, trivial⟩,
      by cases done <;> decide⟩
  have hlogin : ∃ loggedIn, (authenticateUpstreamMongo openEnv rt.user rt.password
      rt.authSource).run openUpstream = (.ok (), loggedIn) ∧ _ :=
    authenticate_of_replies haccepts (hreadable false) (hreadable true) rfl rfl
  rcases hlogin with ⟨loggedIn, hlogin, -⟩
  exact ⟨rt, loggedIn, hcurrent, rfl, hlogin⟩

/-- Both commands end up at the upstream of `app`. -/
theorem run_pooledClient : ∃ s r, Run (Step openEnv ⟨1, []⟩) pooledClient s ∧
    s.phase = .relaying r ∧ r.db = str "app" ∧
    r.pipe.toUp.written = appFrame.bytes ++ auditFrame.bytes := by
  rcases reachable_app with ⟨rt, loggedIn, hup⟩
  exact run_relay rfl rfl not_routable_pingFrame rfl hup (messageBytes_ne_nil _ _ _ _)

/-! ## Byte-exact forwarding -/

/-- After the login, what has been written upstream is the start of the command that was routed and
of what the client sent after it, and between two chunks it is all of it that has been read; the
same goes for what the upstream sent after its last login reply. Writing the parts of a message
re-creates the bytes it was read from. -/
theorem forwarding_exact {env : Env} {peer : Peer} {start s : State} {frames : List CommandFrame}
    {f : CommandFrame} {rest : Bytes} {r : Relay} (hphase : start.phase = .dispatching)
    (hinput : start.client.input = bytesOf frames ++ (f.bytes ++ rest))
    (hlocal : ∀ g ∈ frames, ¬ Routable start.server g.db) (hroutable : Routable start.server f.db)
    (hrun : Run (Step env peer) start s) (hrelay : s.phase = .relaying r) :
    (r.pipe.toUp.written <+: f.bytes ++ rest ∧
      ∃ consumed, rest = consumed ++ r.pipe.toUp.unread ∧
        (r.pipe.toUp.pending = [] → r.pipe.toUp.written = f.bytes ++ consumed)) ∧
    (r.pipe.toClient.written <+: r.loggedIn.input ∧
      ∃ received, r.loggedIn.input = received ++ r.pipe.toClient.unread ∧
        (r.pipe.toClient.pending = [] → r.pipe.toClient.written = received)) ∧
    (r.dialled.output = [] ∧ Exchanges r.dialled r.loggedIn ∧ Answered start s frames) ∧
    ∀ (source source' sink sink' : Socket) (h : MsgHeader) (body : Bytes),
      readMongoMessage.run source = (.ok (h, body), source') →
      (writeMongoMessage h.requestID h.responseTo h.opCode body).run sink = (.ok (), sink') →
      ∃ frame, source.input = frame ++ source'.input ∧ sink'.output = sink.output ++ frame := by
  rcases (tracked_run hphase hinput hlocal hroutable hrun).2.of_relaying hrelay with
    ⟨hcarries, hanswered⟩
  refine ⟨⟨?_, ?_⟩, ⟨?_, ?_⟩, ⟨hcarries.dialled, hcarries.login, hanswered⟩, ?_⟩
  · rw [← hcarries.toUp]
    exact Copy.written_isPrefix _
  · rcases hcarries.toUpUnread with ⟨consumed, hconsumed⟩
    exact ⟨consumed, hconsumed.symm, fun hpending ↦
      Copy.written_eq hpending hcarries.toUp hconsumed.symm⟩
  · rw [← hcarries.toClient]
    exact Copy.written_isPrefix _
  · rcases hcarries.toClientUnread with ⟨received, hreceived⟩
    refine ⟨received, hreceived.symm, fun hpending ↦ ?_⟩
    have htotal : r.pipe.toClient.total = [] ++ r.loggedIn.input := hcarries.toClient
    exact Copy.written_eq hpending htotal hreceived.symm
  · intro source source' sink sink' h body hread hwrite
    exact ⟨_, (transfer_of_readMongoMessage hread).input,
      (transfer_of_writeMongoMessage hwrite).output⟩

theorem forwarding_exact_pooledClient : ∃ s r, Run (Step openEnv ⟨1, []⟩) pooledClient s ∧
    s.phase = .relaying r ∧ r.pipe.toUp.written = appFrame.bytes ++ auditFrame.bytes ∧
    r.pipe.toUp.written <+: appFrame.bytes ++ auditFrame.bytes ∧
    r.pipe.toClient.written <+: r.loggedIn.input := by
  rcases run_pooledClient with ⟨s, r, hrun, hrelay, -, hwritten⟩
  have hroutable : Routable pooledClient.server appFrame.db :=
    (routable_twoDatabases _).mpr (.inl rfl)
  have hexact := forwarding_exact rfl rfl not_routable_pingFrame hroutable hrun hrelay
  exact ⟨s, r, hrun, hrelay, hwritten, hexact.1.1, hexact.2.1.1⟩

/-! ## Where commands are delivered -/

/-- What the connection has sent to the upstream of a database, after the login there. -/
def State.delivered (s : State) (db : Bytes) : Bytes :=
  match s.phase with
  | .relaying r => if r.db = db then r.pipe.toUp.written else []
  | _ => []

/-- A connection whose commands name no configured database stays in the dispatch loop. -/
inductive Unbound (commands : List CommandFrame) (s : State) : Prop where
  | dispatching {after : List CommandFrame} (hphase : s.phase = .dispatching)
      (hafter : ∀ g ∈ after, g ∈ commands) (hinput : s.client.input = bytesOf after)
  | ended (hphase : s.phase = .ended)

theorem State.delivered_of_relaying {s : State} {r : Relay} (hrelay : s.phase = .relaying r)
    (db : Bytes) : s.delivered db = if r.db = db then r.pipe.toUp.written else [] := by
  rw [State.delivered, hrelay]

theorem State.delivered_cases (s : State) (db : Bytes) :
    s.delivered db = [] ∨
      ∃ r, s.phase = .relaying r ∧ r.db = db ∧ s.delivered db = r.pipe.toUp.written := by
  unfold State.delivered
  split
  next r hrelay =>
    by_cases hdb : r.db = db
    · rw [if_pos hdb]
      exact .inr ⟨r, hrelay, hdb, rfl⟩
    · exact .inl (if_neg hdb)
  next => exact .inl rfl

section Delivery

variable {env : Env} {peer : Peer} {start s s' : State} {commands : List CommandFrame}

theorem Unbound.phase_eq (hs : Unbound commands s) :
    s.phase = .dispatching ∨ s.phase = .ended := by
  cases hs with
  | dispatching hphase => exact .inl hphase
  | ended hphase => exact .inr hphase

theorem Unbound.delivered_eq_nil (hs : Unbound commands s) (db : Bytes) : s.delivered db = [] := by
  unfold State.delivered
  rcases hs.phase_eq with hphase | hphase <;> rw [hphase]

theorem unbound_dispatch (hs : Unbound commands s)
    (hlocal : ∀ g ∈ commands, ¬ Routable s.server g.db) (hphase : s.phase = .dispatching)
    {now : Int64} {result : Option Routed} {client : Socket}
    (hstep : (dispatchStep env s.server peer now).run s.client = (.ok result, client)) :
    result = none ∧ Unbound commands { s with client } := by
  cases hs with
  | ended hother => cases hphase.symm.trans hother
  | @dispatching after _ hafter hinput =>
    cases after with
    | nil => exact absurd hstep (dispatchStep_of_nil hinput)
    | cons g after =>
      have hbytes : s.client.input = g.bytes ++ bytesOf after := hinput
      rcases dispatchStep_of_not_routable (hlocal g (hafter g List.mem_cons_self)) hbytes hstep with
        ⟨hresult, hrest, -⟩
      exact ⟨hresult, .dispatching hphase
        (fun other hother ↦ hafter other (List.mem_cons_of_mem _ hother)) hrest⟩

/-- What can happen while no command has been routed. -/
theorem step_of_unrouted (hphase : s.phase = .dispatching ∨ s.phase = .ended) {event : Event}
    (hstep : Step env peer s event s') :
    (∃ now client, s.phase = .dispatching ∧
        (dispatchStep env s.server peer now).run s.client = (.ok none, client) ∧
        s' = { s with client }) ∨
      (∃ now client error, s.phase = .dispatching ∧
        (dispatchStep env s.server peer now).run s.client = (fail error, client) ∧
        s' = { s with client, phase := .ended }) ∨
      (∃ now client routed, s.phase = .dispatching ∧
        (dispatchStep env s.server peer now).run s.client = (.ok (some routed), client) ∧
        s' = { s with client, phase := .routing routed }) ∨
      ∃ server, Proxy.Step s.server server ∧ s' = { s with server } := by
  have hno : ∀ {phase : Phase}, s.phase = phase → phase ≠ .dispatching → phase ≠ .ended →
      False := by
    intro phase hother hdispatching hended
    rcases hphase with h | h
    · exact hdispatching (hother.symm.trans h)
    · exact hended (hother.symm.trans h)
  cases hstep with
  | answer hphase hstep => exact .inl ⟨_, _, hphase, hstep, rfl⟩
  | drop hphase hstep => exact .inr (.inl ⟨_, _, _, hphase, hstep, rfl⟩)
  | dispatch hphase hstep => exact .inr (.inr (.inl ⟨_, _, _, hphase, hstep, rfl⟩))
  | server hstep => exact .inr (.inr (.inr ⟨_, hstep, rfl⟩))
  | inactive hother _ => exact (hno hother nofun nofun).elim
  | route hother _ => exact (hno hother nofun nofun).elim
  | dialFails _ hother => exact (hno hother nofun nofun).elim
  | loginFails hother _ _ => exact (hno hother nofun nofun).elim
  | login hother _ _ => exact (hno hother nofun nofun).elim
  | forward hother _ _ _ => exact (hno hother nofun nofun).elim
  | forwardFails hother _ => exact (hno hother nofun nofun).elim
  | register hother _ _ => exact (hno hother nofun nofun).elim
  | pipe hother _ _ => exact (hno hother nofun nofun).elim

theorem unbound_step (hs : Unbound commands s) (hserved : Served start s)
    (hlocal : ∀ g ∈ commands, ¬ Routable start.server g.db) {event : Event}
    (hstep : Step env peer s event s') : Unbound commands s' := by
  have hlocal : ∀ g ∈ commands, ¬ Routable s.server g.db :=
    fun g hg ↦ mt (hserved g.db).mp (hlocal g hg)
  rcases step_of_unrouted hs.phase_eq hstep with ⟨_, _, hphase, hrun, rfl⟩ | ⟨_, _, _, _, _, rfl⟩ |
    ⟨_, _, _, hphase, hrun, rfl⟩ | ⟨_, _, rfl⟩
  · exact (unbound_dispatch hs hlocal hphase hrun).2
  · exact .ended rfl
  · cases (unbound_dispatch hs hlocal hphase hrun).1
  · cases hs with
    | dispatching hphase hafter hinput => exact .dispatching hphase hafter hinput
    | ended hphase => exact .ended hphase

theorem unbound_run (hphase : start.phase = .dispatching)
    (hinput : start.client.input = bytesOf commands)
    (hlocal : ∀ g ∈ commands, ¬ Routable start.server g.db)
    (hrun : Run (Step env peer) start s) : Served start s ∧ Unbound commands s := by
  induction hrun with
  | refl => exact ⟨fun _ ↦ Iff.rfl, .dispatching hphase (fun _ hg ↦ hg) hinput⟩
  | step event _ hstep ih =>
    exact ⟨served_step ih.1 hstep, unbound_step ih.2 ih.1 hlocal hstep⟩

theorem bytesOf_concat (frames : List CommandFrame) (g : CommandFrame) (more : Bytes) :
    bytesOf (frames ++ [g]) ++ more = bytesOf frames ++ (g.bytes ++ more) := by
  rw [bytesOf, List.map_append, List.flatten_append, List.append_assoc, List.map_singleton,
    List.flatten_singleton]
  rfl

/-- The stream of the client has a command that names a configured database, behind others that name
none. -/
def Binds (start : State) : Prop :=
  ∃ (before : List CommandFrame) (c : CommandFrame) (rest : Bytes),
    start.client.input = bytesOf before ++ (c.bytes ++ rest) ∧
    (∀ g ∈ before, ¬ Routable start.server g.db) ∧ Routable start.server c.db

/-- A connection has ended, has read nothing but commands that name no configured database, or has
found one that does. -/
inductive Reads (start s : State) : Prop where
  | dispatching (before : List CommandFrame) (hphase : s.phase = .dispatching)
      (hinput : start.client.input = bytesOf before ++ s.client.input)
      (hlocal : ∀ g ∈ before, ¬ Routable start.server g.db)
  | bound (hbinds : Binds start)
  | ended (hphase : s.phase = .ended)

theorem reads_step (hs : Reads start s) (hserved : Served start s) {event : Event}
    (hstep : Step env peer s event s') : Reads start s' := by
  cases hs with
  | bound hbinds => exact .bound hbinds
  | ended hphase =>
    rcases step_of_unrouted (.inr hphase) hstep with ⟨_, _, hother, _⟩ | ⟨_, _, _, hother, _⟩ |
      ⟨_, _, _, hother, _⟩ | ⟨_, _, rfl⟩
    · cases hphase.symm.trans hother
    · cases hphase.symm.trans hother
    · cases hphase.symm.trans hother
    · exact .ended hphase
  | dispatching before hphase hinput hlocal =>
    rcases step_of_unrouted (.inl hphase) hstep with ⟨_, client, _, hrun, rfl⟩ |
      ⟨_, _, _, _, _, rfl⟩ | ⟨_, client, routed, _, hrun, rfl⟩ | ⟨_, _, rfl⟩
    · rcases exists_frame_of_dispatchStep hrun with ⟨g, hg, ⟨-, hno⟩ | ⟨hsome, -⟩⟩
      · refine .dispatching (before ++ [g]) hphase ?_ fun other hother ↦ ?_
        · rw [bytesOf_concat, ← hg, hinput]
        · rcases List.mem_append.mp hother with hold | hnew
          · exact hlocal other hold
          · rw [List.mem_singleton.mp hnew]
            exact mt (hserved g.db).mpr hno
      · cases hsome
    · exact .ended rfl
    · rcases exists_frame_of_dispatchStep hrun with ⟨c, hc, ⟨hnone, -⟩ | ⟨-, hyes⟩⟩
      · cases hnone
      · exact .bound ⟨before, c, client.input, hc ▸ hinput, hlocal, (hserved c.db).mp hyes⟩
    · exact .dispatching before hphase hinput hlocal

theorem reads_run (hphase : start.phase = .dispatching) (hrun : Run (Step env peer) start s) :
    Served start s ∧ Reads start s := by
  induction hrun with
  | refl =>
    exact ⟨fun _ ↦ Iff.rfl, .dispatching [] hphase rfl fun _ h ↦
      absurd h List.not_mem_nil⟩
  | step event _ hstep ih => exact ⟨served_step ih.1 hstep, reads_step ih.2 ih.1 hstep⟩

/-- Nothing is delivered for a stream that has no command naming a configured database behind
commands that name none. The first such command binds the connection: it and everything after it go
to the upstream of the database it names and to no other, at the target that database was on when
the connection was bound. -/
theorem delivered_to_bound_database (hphase : start.phase = .dispatching)
    (hrun : Run (Step env peer) start s) :
    (¬ Binds start → ∀ db, s.delivered db = []) ∧
    (∀ commands : List CommandFrame, start.client.input = bytesOf commands →
      (∀ g ∈ commands, ¬ Routable start.server g.db) → ∀ db, s.delivered db = []) ∧
    ∀ (before : List CommandFrame) (c : CommandFrame) (rest : Bytes),
      start.client.input = bytesOf before ++ (c.bytes ++ rest) →
      (∀ g ∈ before, ¬ Routable start.server g.db) → Routable start.server c.db →
      (∀ db, db ≠ c.db → s.delivered db = []) ∧ s.delivered c.db <+: c.bytes ++ rest ∧
        ∀ r, s.phase = .relaying r → r.db = c.db ∧ currentTarget r.asked c.db = some r.target := by
  refine ⟨fun hunbound db ↦ ?_, fun commands hinput hlocal db ↦ ?_,
    fun before c rest hinput hlocal hroutable ↦ ?_⟩
  · rcases s.delivered_cases db with hnone | ⟨r, hrelay, -⟩
    · exact hnone
    · cases (reads_run hphase hrun).2 with
      | dispatching _ hother => cases hrelay.symm.trans hother
      | bound hbinds => exact absurd hbinds hunbound
      | ended hother => cases hrelay.symm.trans hother
  · exact (unbound_run hphase hinput hlocal hrun).2.delivered_eq_nil db
  · have hs := (tracked_run hphase hinput hlocal hroutable hrun).2
    have hcarries : ∀ r, s.phase = .relaying r → Carries c rest r :=
      fun r hrelay ↦ (hs.of_relaying hrelay).1
    refine ⟨fun db hdb ↦ ?_, ?_, fun r hrelay ↦ ?_⟩
    · rcases s.delivered_cases db with hnone | ⟨r, hrelay, hbound, -⟩
      · exact hnone
      · exact absurd (hbound.symm.trans (hcarries r hrelay).db) hdb
    · rcases s.delivered_cases c.db with hnone | ⟨r, hrelay, -, hsome⟩
      · rw [hnone]
        exact List.nil_prefix
      · rw [hsome, ← (hcarries r hrelay).toUp]
        exact Copy.written_isPrefix _
    · exact ⟨(hcarries r hrelay).db, (hcarries r hrelay).current⟩

end Delivery

theorem delivered_to_bound_database_pooledClient :
    ∃ s, Run (Step openEnv ⟨1, []⟩) pooledClient s ∧
      s.delivered (str "app") ≠ [] ∧ s.delivered (str "audit") = [] := by
  rcases run_pooledClient with ⟨s, r, hrun, hrelay, hdb, hwritten⟩
  have hbound := (delivered_to_bound_database rfl hrun).2.2 [pingFrame] appFrame auditFrame.bytes rfl
    not_routable_pingFrame ((routable_twoDatabases _).mpr (.inl rfl))
  refine ⟨s, hrun, ?_, hbound.1 (str "audit") (by decide)⟩
  rw [State.delivered_of_relaying hrelay, if_pos hdb, hwritten]
  exact fun hnil ↦ messageBytes_ne_nil _ _ _ _ (List.append_eq_nil_iff.mp hnil).1

/-- A client that uses one connection for two databases: the second command, which names `audit`,
is delivered to the upstream of `app`. -/
theorem later_command_misdelivered : ∃ s, Run (Step openEnv ⟨1, []⟩) pooledClient s ∧
    pooledClient.client.input = bytesOf [pingFrame, appFrame, auditFrame] ∧
    auditFrame.db = str "audit" ∧ Routable pooledClient.server (str "app") ∧
    Routable pooledClient.server (str "audit") ∧ str "app" ≠ str "audit" ∧
    s.delivered (str "app") = appFrame.bytes ++ auditFrame.bytes := by
  rcases run_pooledClient with ⟨s, r, hrun, hrelay, hdb, hwritten⟩
  refine ⟨s, hrun, ?_, rfl, (routable_twoDatabases _).mpr (.inl rfl),
    (routable_twoDatabases _).mpr (.inr rfl), by decide, ?_⟩
  · rw [pooledClient, ← List.append_nil (bytesOf [pingFrame, appFrame, auditFrame]), bytesOf_cons,
      bytesOf_cons, bytesOf_cons]
    simp [bytesOf]
  · rw [State.delivered_of_relaying hrelay, if_pos hdb, hwritten]

end Session

end DbPivot.Mongo
