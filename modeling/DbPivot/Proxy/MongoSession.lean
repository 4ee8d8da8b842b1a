import DbPivot.Mongo.Session
import DbPivot.Proxy.Net
import DbPivot.Proxy.Runs

/-!
# The MongoDB handler and its sessions

The handler of a MongoDB connection is modelled twice: as a program over the calls it makes, and as
the steps of a session, in which a round of its loop or the answer to a failed login is one step.
Here the program runs on connections while the databases are switched, and every moment of such a
run is a moment of a session: the client has been told the same, and the upstream was sent the same
after its login.
-/

namespace DbPivot.Proxy.MongoSession

open DbPivot.Go DbPivot.Config DbPivot.System
open DbPivot.Mongo (Env Peer Routable Routed MsgHeader)
open DbPivot.Mongo.Session (Relay State)
open DbPivot.Mysql (Crypto)

/-! ## Connections while databases are switched -/

/-- While a call is in progress, databases are switched, time passes, and the pipe copies. -/
inductive Progress (net : Net) (c : Call) : Net → Prop where
  | server {server : Server} (hstep : Step net.server server) : Progress net c { net with server }
  | time (time : Int64) : Progress net c { net with time }
  | pipe {net' : Net} (hprogress : Net.Progress net c net') : Progress net c net'

/-- The calls see the server as it is at the moment of their reply. -/
def liveWorld {Key : Type} (crypto : Crypto Key) (env : Env) (fuel : ℕ) :
    World handlerInterface Net where
  progress := Progress
  reply net c reply net' := Net.handler crypto env fuel c net = (reply, net')

/-! ## What the two have in common -/

/-- What a session has told its client. -/
def told (s : State) : Bytes :=
  match s.phase with
  | .relaying r => s.client.output ++ r.pipe.toClient.written
  | _ => s.client.output

/-- The client has been told the same. Somebody is logged in upstream exactly in a session that
relays, and was sent the same since. -/
structure Agrees (net : Net) (s : State) : Prop where
  client : net.clientWritten = told s
  unbound : (∀ r, s.phase ≠ .relaying r) → net.login = none
  bound : ∀ r, s.phase = .relaying r →
    (∃ link, net.login = some (.plain, link) ∧ link.plain = r.loggedIn) ∧
      net.upWritten .plain = r.loggedIn.output ++ r.pipe.toUp.written

/-- A place in the handler: how the connections and the session are related there, whatever happens
to the server meanwhile. -/
structure Place where
  holds : Net → State → Prop
  agrees : ∀ net s, holds net s → Agrees net s
  server : ∀ net s server, holds net s → Step s.server server →
    holds { net with server } { s with server }
  time : ∀ net s time, holds net s → holds { net with time } s

section Tracking

variable (env : Env) (peer : Peer) (start : State)

/-- The handler has got to the place along with a session. -/
def Tracks (holds : Net → State → Prop) (net : Net) : Prop :=
  ∃ s, Run (Mongo.Session.Step env peer) start s ∧ s.server = net.server ∧ holds net s

/-- The program leads along with a session to the places, from this moment on. -/
abbrev Leads {Key α : Type} (crypto : Crypto Key) (fuel : ℕ) (value : α → Net → State → Prop)
    (error : Net → State → Prop) (program : HandlerM α) (net : Net) : Prop :=
  Ensures (liveWorld crypto env fuel) (Tracks env peer start Agrees)
    (OnReturn (fun v ↦ Tracks env peer start (value v)) (Tracks env peer start error)) program net

end Tracking

section Rules

variable {Key α : Type} {crypto : Crypto Key} {fuel : ℕ} {env : Env} {peer : Peer} {start : State}
  {net net' : Net} {place : Place}

theorem Tracks.agrees (h : Tracks env peer start place.holds net) :
    Tracks env peer start Agrees net := by
  obtain ⟨s, hrun, hserver, hs⟩ := h
  exact ⟨s, hrun, hserver, place.agrees net s hs⟩

/-- While a call is in progress, the session follows. -/
theorem Tracks.during {c : Call}
    (hpipe : ∀ net net', Tracks env peer start place.holds net → Net.Progress net c net' →
      Tracks env peer start place.holds net')
    (h : Tracks env peer start place.holds net)
    (hduring : (liveWorld crypto env fuel).During c net net') :
    Tracks env peer start place.holds net' := by
  induction hduring with
  | refl => exact h
  | tail _ hprogress ih =>
    cases hprogress with
    | pipe hprogress => exact hpipe _ _ ih hprogress
    | server hstep =>
      obtain ⟨s, hrun, hserver, hs⟩ := ih
      rw [← hserver] at hstep
      exact ⟨_, hrun.step _ (.server hstep), rfl, place.server _ s _ hs hstep⟩
    | time time =>
      obtain ⟨s, hrun, hserver, hs⟩ := ih
      exact ⟨s, hrun, hserver, place.time _ s time hs⟩

/-- The rule for a call that may take time. -/
theorem ensures_pipe {c : Call}
    (hpipe : ∀ net net', Tracks env peer start place.holds net → Net.Progress net c net' →
      Tracks env peer start place.holds net')
    (h : Tracks env peer start place.holds net) {next : handlerInterface.Reply c → HandlerM α}
    {post : GoM GoError α → Net → Prop}
    (hnext : ∀ net s, Run (Mongo.Session.Step env peer) start s → s.server = net.server →
      place.holds net s → Ensures (liveWorld crypto env fuel) (Tracks env peer start Agrees) post
        (next (Net.handler crypto env fuel c net).1) (Net.handler crypto env fuel c net).2) :
    Ensures (liveWorld crypto env fuel) (Tracks env peer start Agrees) post (.call c next) net := by
  intro net' hduring
  have h' := Tracks.during hpipe h hduring
  refine ⟨h'.agrees, ?_⟩
  rintro reply net'' hreply
  obtain ⟨s, hrun, hserver, hs⟩ := h'
  have hgoal := hnext net' s hrun hserver hs
  rw [show Net.handler crypto env fuel c net' = (reply, net'') from hreply] at hgoal
  exact hgoal

/-- The rule for any other call. -/
theorem ensures_call {c : Call} (hc : ∀ layer, c ≠ .pipe layer)
    (h : Tracks env peer start place.holds net) {next : handlerInterface.Reply c → HandlerM α}
    {post : GoM GoError α → Net → Prop}
    (hnext : ∀ net s, Run (Mongo.Session.Step env peer) start s → s.server = net.server →
      place.holds net s → Ensures (liveWorld crypto env fuel) (Tracks env peer start Agrees) post
        (next (Net.handler crypto env fuel c net).1) (Net.handler crypto env fuel c net).2) :
    Ensures (liveWorld crypto env fuel) (Tracks env peer start Agrees) post (.call c next) net := by
  refine ensures_pipe (fun net net' _ hprogress ↦ ?_) h hnext
  cases hprogress with
  | start => exact absurd rfl (hc _)
  | step => exact absurd rfl (hc _)

end Rules

/-! ## Before the login -/

/-- Nobody is logged in. -/
structure Unbound (net : Net) (s : State) : Prop where
  phase : ∀ r, s.phase ≠ .relaying r
  output : net.client.conn.output = s.client.output
  login : net.login = none
  pipe : net.pipe = none
  dialled : ∀ link, net.dialled = .ok link → link.plain.output = []

theorem Unbound.agrees {net : Net} {s : State} (h : Unbound net s) : Agrees net s where
  client := by
    rw [Net.clientWritten, h.pipe, h.output, told]
    cases hphase : s.phase with
    | relaying r => exact absurd hphase (h.phase r)
    | _ => rfl
  unbound _ := h.login
  bound r hr := absurd hr (h.phase r)

/-- A place before the login. -/
def Place.unbound (holds : Net → State → Prop)
    (server : ∀ net s server, holds net s → Step s.server server →
      holds { net with server } { s with server })
    (time : ∀ net s time, holds net s → holds { net with time } s) : Place where
  holds net s := Unbound net s ∧ holds net s
  agrees _ _ h := h.1.agrees
  server net s server' h hstep :=
    ⟨⟨h.1.phase, h.1.output, h.1.login, h.1.pipe, h.1.dialled⟩, server net s server' h.2 hstep⟩
  time net s time' h :=
    ⟨⟨h.1.phase, h.1.output, h.1.login, h.1.pipe, h.1.dialled⟩, time net s time' h.2⟩

/-- The session is where the handler is. -/
def Even (phase : Mongo.Session.Phase) (net : Net) (s : State) : Prop :=
  s.phase = phase ∧ net.client.conn = s.client

/-- The handler is in this phase of the session. -/
def within (phase : Mongo.Session.Phase) : Place :=
  .unbound (Even phase) (fun _ _ _ h _ ↦ h) fun _ _ _ h ↦ h

/-- The connection has not got its number yet. -/
def accepted (connID : UInt32) : Place :=
  .unbound (fun net s ↦ Even .dispatching net s ∧ net.connID = connID) (fun _ _ _ h _ ↦ h)
    fun _ _ _ h ↦ h

/-- The handler has read a message that the session has not read yet. -/
def Read (hdr : MsgHeader) (body : Bytes) (net : Net) (s : State) : Prop :=
  s.phase = .dispatching ∧ Mongo.readMongoMessage.run s.client = (.ok (hdr, body), net.client.conn)

def reading (hdr : MsgHeader) (body : Bytes) : Place :=
  .unbound (Read hdr body) (fun _ _ _ h _ ↦ h) fun _ _ _ h ↦ h

/-- It has found out that it has to answer. -/
def answering (hdr : MsgHeader) (body : Bytes) (cmd : Mongo.MongoCommand) : Place :=
  .unbound (fun net s ↦ Read hdr body net s ∧ Mongo.decodeMongoCommand hdr body = .ok cmd ∧
      ¬ Routable s.server cmd.db)
    (fun _ _ _ h hstep ↦ ⟨h.1, h.2.1, mt (isSome_lookupDatabase_step hstep _ _).mp h.2.2⟩)
    fun _ _ _ h ↦ h

/-- The upstream is dialled. -/
def dialled (routed : Routed) (asked : Server) (rt : ResolvedTarget) : Place :=
  .unbound (fun net s ↦ Even (.loggingIn routed asked rt) net s ∧
      ∃ link, net.up = some link ∧ link.plain.output = [])
    (fun _ _ _ h _ ↦ h) fun _ _ _ h ↦ h

/-- The handler is about to write an error reply. The session could have done so some switches
ago. -/
def Rejecting (env : Env) (peer : Peer) (start : State) (routed : Routed) (message : GoError)
    (code : Int32) (net : Net) (s : State) : Prop :=
  net.client.conn = s.client ∧
    ∃ s₀ event, Run (Mongo.Session.Step env peer) start s₀ ∧ s₀.client = s.client ∧
      Relation.ReflTransGen Step s₀.server s.server ∧
      Mongo.Session.Step env peer s₀ event (s₀.reject env routed message code)

def rejecting (env : Env) (peer : Peer) (start : State) (routed : Routed) (message : GoError)
    (code : Int32) : Place :=
  .unbound (Rejecting env peer start routed message code)
    (fun _ _ _ h hstep ↦ by
      obtain ⟨hconn, s₀, event, hrun, hclient, hserver, hreject⟩ := h
      exact ⟨hconn, s₀, event, hrun, hclient, hserver.tail hstep, hreject⟩)
    fun _ _ _ h ↦ h

section Dispatch

variable {Key : Type} {crypto : Crypto Key} {fuel : ℕ} {env : Env} {peer : Peer} {start : State}
  {net : Net}

/-- Switches do not disturb a session. -/
theorem run_switches {s : State} {server : Server}
    (hrun : Run (Mongo.Session.Step env peer) start s)
    (hserver : Relation.ReflTransGen Step s.server server) :
    Run (Mongo.Session.Step env peer) start { s with server } := by
  induction hserver with
  | refl => exact hrun
  | tail _ hstep ih => exact ih.step _ (.server hstep)

/-- The session has ended. -/
abbrev ended : Place := within .ended

/-- The error reply, and the end of the session. -/
theorem leads_reject {routed : Routed} {message : GoError} {code : Int32}
    (h : Tracks env peer start (rejecting env peer start routed message code).holds net) :
    Leads env peer start crypto fuel (fun _ ↦ ended.holds) ended.holds
      (writeMongoError env routed.hdr message code) net := by
  apply ensures_ignoring
  refine ensures_call (by simp) h fun net s _ hserver ⟨hs, hconn, hreject⟩ ↦ ?_
  obtain ⟨s₀, event, hrun, hclient, hswitches, hreject⟩ := hreject
  have hended : Tracks env peer start ended.holds (Net.handler crypto env fuel (.writeMongoReply
      .client routed.hdr.opCode routed.hdr.requestID
        (Mongo.mongoErrorReply (env.render message) code)) net).2 := by
    refine ⟨_, run_switches (hrun.step _ hreject) hswitches, hserver, ?_, rfl, ?_⟩
    · refine ⟨nofun, ?_, hs.login, hs.pipe, hs.dialled⟩
      dsimp only [Net.handler, Net.onConn, State.reject]
      rw [hconn, hclient]
    · dsimp only [Net.handler, Net.onConn, State.reject]
      rw [hconn, hclient]
  exact ⟨hended.agrees, onReturn_of_forall _ (fun _ _ ↦ hended) fun _ _ ↦ hended⟩

/-- The session is over as far as the handler is concerned. -/
def Over (net : Net) (s : State) : Prop :=
  Agrees net s ∧ (s.phase = .ended ∨ ∃ r, s.phase = .relaying r ∧ r.stage ≠ .forwarding)

theorem Tracks.over (h : Tracks env peer start ended.holds net) :
    Tracks env peer start Over net := by
  obtain ⟨s, hrun, hserver, hs⟩ := h
  exact ⟨s, hrun, hserver, hs.1.agrees, .inl hs.2.1⟩

theorem Tracks.of_over (h : Tracks env peer start Over net) : Tracks env peer start Agrees net := by
  obtain ⟨s, hrun, hserver, hs⟩ := h
  exact ⟨s, hrun, hserver, hs.1⟩

/-- The session ends with a round that fails. -/
theorem tracks_drop {s : State} (now : Int64) {error : GoError}
    (hrun : Run (Mongo.Session.Step env peer) start s) (hserver : s.server = net.server)
    (hs : Unbound net s) (hphase : s.phase = .dispatching) {client : Socket}
    (hround : (Mongo.dispatchStep env s.server peer now).run s.client = (fail error, client)) :
    Tracks env peer start Over { net with client := { net.client with conn := client } } := by
  refine Tracks.over ⟨_, hrun.step _ (.drop hphase hround), hserver, ?_, rfl, rfl⟩
  exact ⟨nofun, rfl, hs.login, hs.pipe, hs.dialled⟩

theorem leads_read (h : Tracks env peer start (within .dispatching).holds net) :
    Leads env peer start crypto fuel (fun m ↦ (reading m.1 m.2).holds) Over
      (onError (wrapf "mongo read command: %w" []) (Handler.readMongoMessage .client)) net := by
  apply ensures_onError
  refine ensures_call (by simp) h fun net s hrun hserver ⟨hs, hphase, hconn⟩ ↦ ?_
  have hreturns := Mongo.returns_readMongoMessage net.client.conn
  dsimp only [Net.handler, Net.onConn]
  rcases hread : Mongo.readMongoMessage.run net.client.conn with ⟨result, client⟩
  rw [hread] at hreturns
  match result, hreturns, hread with
  | .ok (hdr, body), _, hread =>
    have hreading : Tracks env peer start (reading hdr body).holds
        { net with client := { net.client with conn := client } } := by
      refine ⟨s, hrun, hserver, ⟨hs.phase, ?_, hs.login, hs.pipe, hs.dialled⟩, hphase, ?_⟩
      · have houtput := (Mongo.transfer_of_readMongoMessage hread).output
        rw [List.append_nil, hs.output] at houtput
        exact houtput
      · rw [← hconn]
        exact hread
    exact ⟨hreading.agrees, hreading⟩
  | .error (.err error), _, hread =>
    have hover := tracks_drop 0 hrun hserver hs hphase
      (Mongo.dispatchStep_of_unread (hconn ▸ hread))
    exact ⟨hover.of_over, hover⟩

/-- The answer to a command, the end of a round. -/
theorem leads_answer {hdr : MsgHeader} {body : Bytes} {cmd : Mongo.MongoCommand}
    (h : Tracks env peer start (answering hdr body cmd).holds net) (time : Int64) :
    Leads env peer start crypto fuel (fun _ ↦ (within .dispatching).holds) Over
      (onError (wrapf (Mongo.localReply env peer time cmd).1 [])
        (Handler.writeMongoReply .client hdr.opCode hdr.requestID
          (Mongo.localReply env peer time cmd).2)) net := by
  apply ensures_onError
  refine ensures_call (by simp) h fun net s hrun hserver hs ↦ ?_
  obtain ⟨hs, ⟨hphase, hread⟩, hdecode, hlocal⟩ := hs
  have hreturns := Mongo.returns_writeMongoReply hdr.opCode hdr.requestID
    (Mongo.localReply env peer time cmd).2 net.client.conn
  dsimp only [Net.handler, Net.onConn]
  rcases hwrite : (Mongo.writeMongoReply hdr.opCode hdr.requestID
    (Mongo.localReply env peer time cmd).2).run net.client.conn with ⟨result, client⟩
  rw [hwrite] at hreturns
  match result, hreturns, hwrite with
  | .ok (), _, hwrite =>
    have hnext : Tracks env peer start (within .dispatching).holds
        { net with client := { net.client with conn := client } } := by
      refine ⟨_, hrun.step _ (.answer hphase
        (Mongo.dispatchStep_of_answered hread hdecode hlocal hwrite)),
        hserver, ?_, hphase, rfl⟩
      exact ⟨hs.phase, rfl, hs.login, hs.pipe, hs.dialled⟩
    exact ⟨hnext.agrees, hnext⟩
  | .error (.err error), _, hwrite =>
    have hover := tracks_drop time hrun hserver hs hphase
      (Mongo.dispatchStep_of_unwritten hread hdecode hlocal hwrite)
    exact ⟨hover.of_over, hover⟩

/-- The loop, from the handler of a routed command on. -/
theorem leads_dispatchMongoLoop
    (hroute : ∀ (routed : Routed) (net : Net),
      Tracks env peer start (within (.routing routed)).holds net →
      Leads env peer start crypto fuel (fun _ ↦ Over) Over
        (routeMongo env routed.db routed.hdr routed.body) net)
    (rounds : ℕ) (h : Tracks env peer start (within .dispatching).holds net) :
    Leads env peer start crypto fuel (fun _ ↦ Over) Over (dispatchMongoLoop env peer rounds)
      net := by
  induction rounds generalizing net with
  | zero => exact ⟨h.agrees, trivial⟩
  | succ rounds ih =>
    apply ensures_bind (leads_read h)
    rintro ⟨hdr, body⟩ net hagrees h
    apply ensures_liftBind_of hagrees
    · intro error hdecode
      obtain ⟨s, hrun, hserver, hs, hphase, hread⟩ := h
      exact tracks_drop 0 hrun hserver hs hphase
        (Mongo.dispatchStep_of_undecoded hread hdecode)
    intro cmd hdecode
    refine ensures_call (by simp) h fun net s hrun hserver hs ↦ ?_
    obtain ⟨hs, hphase, hread⟩ := hs
    dsimp only [Net.handler]
    cases hfound : (net.server.lookupDatabase adapterMongo cmd.db).isSome with
    | true =>
      rw [← hserver] at hfound
      have hround : (Mongo.dispatchStep env s.server peer 0).run s.client =
          (.ok (some ⟨cmd.db, hdr, body⟩), net.client.conn) :=
        Mongo.dispatchStep_of_found hread hdecode hfound
      exact hroute _ net ⟨_, hrun.step _ (.dispatch hphase hround), hserver,
        ⟨nofun, rfl, hs.login, hs.pipe, hs.dialled⟩, rfl, rfl⟩
    | false =>
      have hlocal : ¬ Routable s.server cmd.db := by
        rw [hserver, Routable, hfound]
        exact Bool.false_ne_true
      have hanswer : Tracks env peer start (answering hdr body cmd).holds net :=
        ⟨s, hrun, hserver, hs, ⟨hphase, hread⟩, hdecode, hlocal⟩
      refine ensures_call (by simp) hanswer fun net s hrun hserver hs ↦ ?_
      apply ensures_bind (leads_answer ⟨s, hrun, hserver, hs⟩ net.time)
      exact fun _ net _ h ↦ ih h

end Dispatch

/-! ## After the login -/

/-- The session relays, and the pipe has not been started. The command is forwarded up to what is
pending. -/
structure Relayed (stage : Mongo.Session.Stage) (pending : Bytes) (net : Net) (s : State)
    (r : Relay) : Prop where
  phase : s.phase = .relaying r
  stage : r.stage = stage
  client : net.client.conn = s.client
  pipe : net.pipe = none
  login : ∃ link, net.login = some (.plain, link) ∧ link.plain = r.loggedIn
  up : ∃ link, net.up = some link ∧ link.plain.input = r.loggedIn.input ∧
    link.plain.output = r.loggedIn.output ++ r.pipe.toUp.written
  toUp : r.pipe.toUp = ⟨s.client.input, pending, r.pipe.toUp.written, true⟩
  toClient : r.pipe.toClient = Copy.start r.loggedIn.input
  closed : r.pipe.closed = false

theorem Relayed.agrees {stage : Mongo.Session.Stage} {pending : Bytes} {net : Net} {s : State}
    {r : Relay} (h : Relayed stage pending net s r) : Agrees net s where
  client := by
    rw [Net.clientWritten, h.pipe, h.client, told, h.phase]
    dsimp only
    rw [h.toClient, Copy.start, List.append_nil]
  unbound hnone := absurd h.phase (hnone r)
  bound r' hr' := by
    obtain rfl : r = r' := Mongo.Session.Phase.relaying.inj (h.phase.symm.trans hr')
    obtain ⟨link, hlink, -, houtput⟩ := h.up
    refine ⟨h.login, ?_⟩
    rw [Net.upWritten, h.pipe, hlink]
    exact houtput

def relayed (stage : Mongo.Session.Stage) (pending : Bytes) : Place where
  holds net s := ∃ r, Relayed stage pending net s r
  agrees _ _ h := by
    obtain ⟨r, hr⟩ := h
    exact hr.agrees
  server _ _ _ h _ := by
    obtain ⟨r, hr⟩ := h
    exact ⟨r, hr.phase, hr.stage, hr.client, hr.pipe, hr.login, hr.up, hr.toUp, hr.toClient,
      hr.closed⟩
  time _ _ _ h := by
    obtain ⟨r, hr⟩ := h
    exact ⟨r, hr.phase, hr.stage, hr.client, hr.pipe, hr.login, hr.up, hr.toUp, hr.toClient,
      hr.closed⟩

/-- The pipe copies, in the session and between the connections. -/
structure Piped (net : Net) (s : State) (r : Relay) : Prop where
  phase : s.phase = .relaying r
  stage : r.stage = .piping
  login : ∃ link, net.login = some (.plain, link) ∧ link.plain = r.loggedIn
  pipe : net.pipe = some (.plain, r.pipe.behind r.loggedIn.output s.client.output)

theorem Piped.agrees {net : Net} {s : State} {r : Relay} (h : Piped net s r) : Agrees net s where
  client := by
    rw [Net.clientWritten, h.pipe, told, h.phase]
    rfl
  unbound hnone := absurd h.phase (hnone r)
  bound r' hr' := by
    obtain rfl : r = r' := Mongo.Session.Phase.relaying.inj (h.phase.symm.trans hr')
    refine ⟨h.login, ?_⟩
    rw [Net.upWritten, h.pipe]
    exact if_pos rfl

/-- The connection is registered. -/
def piping : Place where
  holds net s := (relayed .piping []).holds net s ∨ ∃ r, Piped net s r
  agrees net s h := by
    obtain h | ⟨r, hr⟩ := h
    · exact (relayed .piping []).agrees net s h
    · exact hr.agrees
  server net s server h hstep := by
    obtain h | ⟨r, hr⟩ := h
    · exact .inl ((relayed .piping []).server net s server h hstep)
    · exact .inr ⟨r, hr.phase, hr.stage, hr.login, hr.pipe⟩
  time net s time h := by
    obtain h | ⟨r, hr⟩ := h
    · exact .inl ((relayed .piping []).time net s time h)
    · exact .inr ⟨r, hr.phase, hr.stage, hr.login, hr.pipe⟩

section Route

variable {Key : Type} {crypto : Crypto Key} {fuel : ℕ} {env : Env} {peer : Peer} {start : State}
  {net : Net}

theorem Tracks.over_of_relayed {stage : Mongo.Session.Stage} {pending : Bytes}
    (h : Tracks env peer start (relayed stage pending).holds net) (hstage : stage ≠ .forwarding) :
    Tracks env peer start Over net := by
  obtain ⟨s, hrun, hserver, r, hr⟩ := h
  exact ⟨s, hrun, hserver, hr.agrees, .inr ⟨r, hr.phase, hr.stage ▸ hstage⟩⟩

/-- The session writes a beginning of the command. -/
theorem tracks_forward {s : State} {r : Relay} {frame written rest : Bytes} {link : Link}
    (hrun : Run (Mongo.Session.Step env peer) start s) (hserver : s.server = net.server)
    (hr : Relayed .forwarding frame net s r) (hframe : frame = written ++ rest)
    (hinput : link.plain.input = r.loggedIn.input)
    (houtput : link.plain.output = r.loggedIn.output ++ r.pipe.toUp.written ++ written) :
    Tracks env peer start (relayed .forwarding rest).holds { net with up := some link } := by
  by_cases hwritten : written = []
  · rw [hwritten, List.nil_append] at hframe
    rw [hwritten, List.append_nil] at houtput
    subst hframe
    exact ⟨s, hrun, hserver, r, hr.phase, hr.stage, hr.client, hr.pipe, hr.login,
      ⟨link, rfl, hinput, houtput⟩, hr.toUp, hr.toClient, hr.closed⟩
  · have hpending : r.pipe.toUp.pending = written ++ rest := by rw [hr.toUp, hframe]
    refine ⟨_, hrun.step _ (.forward hr.phase hr.stage hwritten hpending), hserver,
      r.forward written rest, rfl, hr.stage, hr.client, hr.pipe, hr.login,
      ⟨link, rfl, hinput, houtput.trans (List.append_assoc ..)⟩, ?_, hr.toClient, hr.closed⟩
    rw [Relay.forward]
    dsimp only
    rw [hr.toUp]

/-- The write of the command. -/
theorem leads_write {hdr : MsgHeader} {body : Bytes} {db : Bytes}
    (h : Tracks env peer start
      (relayed .forwarding (Mongo.Session.frameOf ⟨db, hdr, body⟩)).holds net) :
    Leads env peer start crypto fuel (fun _ ↦ (relayed .forwarding []).holds)
      (fun net s ↦ ∃ rest, (relayed .failed rest).holds net s)
      (Handler.writeMongoMessage (.upstream .plain) hdr body) net := by
  refine ensures_call (by simp) h fun net s hrun hserver ⟨r, hr⟩ ↦ ?_
  obtain ⟨link, hlink, hinput, houtput⟩ := hr.up
  obtain ⟨written, ⟨rest, hrest⟩, hout, hin, hall⟩ := Mongo.run_writeMongoMessage hdr.requestID
    hdr.responseTo hdr.opCode body link.plain
  have hsocket : link.socket .plain = some link.plain := rfl
  obtain ⟨link', hup, hplain⟩ := Net.onUp_of_socket hlink hsocket
    (Mongo.writeMongoMessage hdr.requestID hdr.responseTo hdr.opCode body)
  replace hplain := Option.some.inj hplain
  rw [← hplain, hinput] at hin
  rw [← hplain, houtput] at hout
  -- Whatever the write returns, the session has written as much of the command.
  have hforward := tracks_forward hrun hserver hr hrest.symm hin hout
  dsimp only [Net.handler, Net.onConn]
  rw [hup]
  refine ⟨hforward.agrees, onReturn_of_forall _ (fun _ hok ↦ ?_) fun error _ ↦ ?_⟩
  · rw [hall hok] at hrest
    rwa [List.append_cancel_left (hrest.trans (List.append_nil _).symm)] at hforward
  · obtain ⟨s, hrun, hserver, r, hr⟩ := hforward
    exact ⟨_, hrun.step _ (.forwardFails hr.phase hr.stage), hserver, rest, _, rfl, rfl,
      hr.client, hr.pipe, hr.login, hr.up, hr.toUp, hr.toClient, hr.closed⟩

/-- The command is forwarded. -/
theorem leads_forward {hdr : MsgHeader} {body : Bytes} {db : Bytes}
    (h : Tracks env peer start
      (relayed .forwarding (Mongo.Session.frameOf ⟨db, hdr, body⟩)).holds net) :
    Leads env peer start crypto fuel (fun _ ↦ (relayed .forwarding []).holds) Over
      (orElse (onError (wrapf "mongo forward first command: %w" [])
          (Handler.writeMongoMessage (.upstream .plain) hdr body))
        fun _ ↦ Handler.close (.upstream .plain)) net := by
  apply ensures_orElse (ensures_onError (leads_write h))
  rintro error net - ⟨s, hrun, hserver, rest, hs⟩
  have hfailed : Tracks env peer start (relayed .failed rest).holds net := ⟨s, hrun, hserver, hs⟩
  refine ensures_call (by simp) hfailed fun net s hrun hserver hs ↦ ?_
  have hover := Tracks.over_of_relayed ⟨s, hrun, hserver, hs⟩ (by decide)
  exact ⟨hover.of_over, hover⟩

theorem Tracks.over_of_piping (h : Tracks env peer start piping.holds net) :
    Tracks env peer start Over net := by
  obtain ⟨s, hrun, hserver, h | ⟨r, hr⟩⟩ := h
  · exact Tracks.over_of_relayed ⟨s, hrun, hserver, h⟩ (by decide)
  · exact ⟨s, hrun, hserver, hr.agrees, .inr ⟨r, hr.phase, by rw [hr.stage]; decide⟩⟩

/-- A step of the pipe is one of the session's. -/
theorem tracks_pipe {net' : Net} (h : Tracks env peer start piping.holds net)
    (hprogress : Net.Progress net (.pipe .plain) net') :
    Tracks env peer start piping.holds net' := by
  obtain ⟨s, hrun, hserver, hs⟩ := h
  cases hprogress with
  | start hnone hlink hup =>
    obtain ⟨r, hr⟩ | ⟨r, hr⟩ := hs
    · obtain ⟨link, hlink', hinput, houtput⟩ := hr.up
      obtain rfl := Option.some.inj (hlink.symm.trans hlink')
      obtain rfl := Option.some.inj hup
      refine ⟨s, hrun, hserver, .inr ⟨r, hr.phase, hr.stage, hr.login, ?_⟩⟩
      dsimp only
      rw [Net.startPipe, hinput, houtput, hr.client, Pipe.behind, Copy.behind, Copy.behind, hr.toUp,
        hr.toClient, hr.closed]
      simp [Copy.start]
    · cases hnone.symm.trans hr.pipe
  | step hpipe hstep =>
    obtain ⟨r, hr⟩ | ⟨r, hr⟩ := hs
    · cases hr.pipe.symm.trans hpipe
    · obtain ⟨-, rfl⟩ := Prod.mk.inj (Option.some.inj (hr.pipe.symm.trans hpipe))
      obtain ⟨pipe, hcopy, rfl⟩ := Pipe.step_behind hstep
      exact ⟨_, hrun.step _ (.pipe hr.phase hr.stage hcopy), hserver,
        .inr ⟨_, rfl, hr.stage, hr.login, rfl⟩⟩

theorem ensures_closeConn (h : Tracks env peer start piping.holds net) :
    Ensures (liveWorld crypto env fuel) (Tracks env peer start Agrees)
      (fun _ ↦ Tracks env peer start Over) Handler.closeConn net := by
  refine ensures_call (by simp) h fun net s hrun hserver hs ↦ ?_
  have hover := Tracks.over_of_piping ⟨s, hrun, hserver, hs⟩
  exact ⟨hover.of_over, hover⟩

/-- The registration and the pipe. -/
theorem leads_serveConn (rt : ResolvedTarget)
    (h : Tracks env peer start (relayed .forwarding []).holds net) :
    Leads env peer start crypto fuel (fun _ ↦ Over) Over (serveConn .plain rt) net := by
  refine ensures_call (by simp) h fun net s hrun hserver ⟨r, hr⟩ ↦ ?_
  have hpending : r.pipe.toUp.pending = [] := by rw [hr.toUp]
  have hpiping : Tracks env peer start piping.holds net :=
    ⟨_, hrun.step _ (.register hr.phase hr.stage hpending), hserver, .inl ⟨_, rfl, rfl, hr.client,
      hr.pipe, hr.login, hr.up, hr.toUp, hr.toClient, hr.closed⟩⟩
  apply ensures_deferring
  refine ensures_pipe (fun _ _ ↦ tracks_pipe) hpiping fun net s hrun hserver hs ↦ ?_
  have hpiping : Tracks env peer start piping.holds net := ⟨s, hrun, hserver, hs⟩
  exact ⟨hpiping.agrees, fun _ ↦ ensures_closeConn hpiping⟩

/-- The dial of a routed command. -/
theorem leads_dial {routed : Routed} {asked : Server} {rt : ResolvedTarget}
    (h : Tracks env peer start (within (.loggingIn routed asked rt)).holds net) :
    Leads env peer start crypto fuel (fun _ ↦ (dialled routed asked rt).holds) Over
      (orElse (Handler.dial rt.host rt.port) fun err ↦
        writeMongoError env routed.hdr (wrapf "upstream dial failed: %v" [] err)
          Mongo.mongoErrHostUnreachable) net := by
  refine ensures_orElse_of ?_ fun err net _ h ↦
    ensures_mono (leads_reject h) (fun _ _ h ↦ h.over) fun _ h ↦ h.over
  refine ensures_call (by simp) h fun net s hrun hserver ⟨hs, hphase, hconn⟩ ↦ ?_
  cases hdialled : net.dialled with
  | ok link =>
    have hhandler : Net.handler crypto env fuel (.dial rt.host rt.port) net =
        (.ok (), { net with up := some link }) := by
      rw [Net.handler, hdialled]
    have hdial : Tracks env peer start (dialled routed asked rt).holds
        { net with up := some link } :=
      ⟨s, hrun, hserver, ⟨hs.phase, hs.output, hs.login, hs.pipe, hs.dialled⟩, ⟨hphase, hconn⟩,
        link, rfl, hs.dialled link hdialled⟩
    rw [hhandler]
    exact ⟨hdial.agrees, fun _ _ ↦ hdial, nofun⟩
  | error err =>
    have hhandler : Net.handler crypto env fuel (.dial rt.host rt.port) net = (fail err, net) := by
      rw [Net.handler, hdialled]
    rw [hhandler]
    refine ⟨⟨s, hrun, hserver, hs.agrees⟩, nofun, ?_⟩
    rintro _ ⟨⟩
    exact ⟨s, hrun, hserver, hs, hconn, s, _, hrun, rfl, .refl, .dialFails err hphase⟩

/-- The login upstream. -/
theorem ensures_authenticate {routed : Routed} {asked : Server} {rt : ResolvedTarget}
    (h : Tracks env peer start (dialled routed asked rt).holds net) :
    Ensures (liveWorld crypto env fuel) (Tracks env peer start Agrees)
      (fun (result : GoM GoError Unit) net ↦
        (∀ v, result = .ok v → Tracks env peer start
          (relayed .forwarding (Mongo.Session.frameOf routed)).holds net) ∧
        ∀ err, result = fail err → Tracks env peer start (rejecting env peer start routed
          (wrapf "upstream auth failed: %v" [] err) Mongo.mongoErrHostUnreachable).holds net)
      (Handler.authenticateMongo .plain rt.user rt.password rt.authSource) net := by
  refine ensures_call (by simp) h fun net s hrun hserver ⟨hs, ⟨hphase, hconn⟩, hup⟩ ↦ ?_
  obtain ⟨link, hlink, hfresh⟩ := hup
  have hsocket : link.socket .plain = some link.plain := rfl
  obtain ⟨link', hplain, hresult⟩ := Net.logIn_of_socket hlink hsocket
    (Mongo.authenticateUpstreamMongo env rt.user rt.password rt.authSource)
  replace hplain := Option.some.inj hplain
  dsimp only [Net.handler]
  obtain ⟨hok, hlogin⟩ | ⟨fault, hfault, hlogin⟩ := hresult
  · have hrelayed : Tracks env peer start (relayed .forwarding (Mongo.Session.frameOf routed)).holds
        { net with up := some link', login := some (.plain, link') } :=
      ⟨_, hrun.step _ (.login hphase hfresh (Prod.ext hok hplain.symm)), hserver, _, rfl, rfl,
        hconn, hs.pipe, ⟨link', rfl, rfl⟩, ⟨link', rfl, rfl, (List.append_nil _).symm⟩, rfl, rfl,
        rfl⟩
    rw [hlogin]
    exact ⟨hrelayed.agrees, fun _ _ ↦ hrelayed, nofun⟩
  · have hs' : Unbound { net with up := some link' } s :=
      ⟨hs.phase, hs.output, hs.login, hs.pipe, hs.dialled⟩
    rw [hlogin]
    refine ⟨⟨s, hrun, hserver, hs'.agrees⟩, nofun, fun err herr ↦ ?_⟩
    have hfails : (Mongo.authenticateUpstreamMongo env rt.user rt.password rt.authSource).run
        link.plain = (fail err, link'.plain) := Prod.ext (hfault.trans herr) hplain.symm
    exact ⟨s, hrun, hserver, hs', hconn, s, _, hrun, rfl, .refl, .loginFails hphase hfresh hfails⟩

/-- The login of a routed command. -/
theorem leads_loginMongo {routed : Routed} {asked : Server} {rt : ResolvedTarget}
    (h : Tracks env peer start (within (.loggingIn routed asked rt)).holds net) :
    Leads env peer start crypto fuel
      (fun _ ↦ (relayed .forwarding (Mongo.Session.frameOf routed)).holds) Over
      (loginMongo env rt routed.hdr) net := by
  apply ensures_bind (leads_dial h)
  intro _ net _ h
  refine ensures_orElse_of (ensures_authenticate h) fun err net _ h ↦ ?_
  apply ensures_bind (ensures_mono (leads_reject h) (fun _ _ h ↦ h) fun _ h ↦ h.over)
  intro _ net _ h
  refine ensures_call (by simp) h fun net s hrun hserver hs ↦ ?_
  have hover := Tracks.over ⟨s, hrun, hserver, hs⟩
  exact ⟨hover.of_over, hover⟩

/-- A routed command. -/
theorem leads_routeMongo (routed : Routed) (net : Net)
    (h : Tracks env peer start (within (.routing routed)).holds net) :
    Leads env peer start crypto fuel (fun _ ↦ Over) Over
      (routeMongo env routed.db routed.hdr routed.body) net := by
  refine ensures_call (by simp) h fun net s hrun hserver ⟨hs, hphase, hconn⟩ ↦ ?_
  dsimp only [Net.handler]
  cases hcurrent : (net.server.lookupDatabase adapterMongo routed.db).bind Database.current with
  | none =>
    rw [← hserver] at hcurrent
    exact ensures_mono (leads_reject ⟨s, hrun, hserver, hs, hconn, s, _, hrun, rfl, .refl,
      .inactive hphase hcurrent⟩) (fun _ _ h ↦ h.over) fun _ h ↦ h.over
  | some rt =>
    rw [← hserver] at hcurrent
    have hloggingIn : Tracks env peer start (within (.loggingIn routed s.server rt)).holds net :=
      ⟨_, hrun.step _ (.route hphase hcurrent), hserver,
        ⟨nofun, hs.output, hs.login, hs.pipe, hs.dialled⟩, rfl, hconn⟩
    apply ensures_bind (leads_loginMongo hloggingIn)
    intro _ net _ h
    apply ensures_bind (leads_forward h)
    exact fun _ net _ h ↦ leads_serveConn rt h

end Route

/-! ## Whole runs -/

section Runs

variable {Key : Type} (crypto : Crypto Key) (env : Env) (loginFuel : ℕ) (remoteAddr : Bytes)
  (fuel : ℕ) {net : Net} (hlogin : net.login = none) (hpipe : net.pipe = none)
  (hdialled : ∀ link, net.dialled = .ok link → link.plain.output = [])
  {final : HandlerM Unit × Net}
  (hrun : Run (liveWorld crypto env loginFuel).Step (dispatchMongo env remoteAddr fuel, net) final)

/-- The session that begins with the connection. -/
def session (net : Net) : State := ⟨net.server, net.client.conn, .dispatching⟩

/-- The handler gives the connection its number. -/
def sessionPeer (net : Net) (remoteAddr : Bytes) : Peer := ⟨(net.connID + 1).toInt32, remoteAddr⟩

include hlogin hpipe hdialled hrun

/-- Every moment of a run of the handler is a moment of a session: the client has been told the same
and the upstream was sent the same since its login. When the handler returns, the session has ended,
or the command was forwarded and the pipe is over, or its forwarding failed. -/
theorem dispatchMongo_tracks_session :
    Tracks env (sessionPeer net remoteAddr) (session net) Agrees final.2 ∧
      ∀ result, final.1 = .done result → Returns result →
        Tracks env (sessionPeer net remoteAddr) (session net) Over final.2 := by
  have hstart : Tracks env (sessionPeer net remoteAddr) (session net) (accepted net.connID).holds
      net :=
    ⟨_, .refl, rfl, ⟨nofun, rfl, hlogin, hpipe, hdialled⟩, ⟨rfl, rfl⟩, rfl⟩
  have hleads : Leads env (sessionPeer net remoteAddr) (session net) crypto loginFuel
      (fun _ ↦ Over) Over (dispatchMongo env remoteAddr fuel) net := by
    refine ensures_call (by simp) hstart fun net' s hrun hserver ⟨hs, heven, hconnID⟩ ↦ ?_
    dsimp only [Net.handler]
    rw [hconnID]
    apply leads_dispatchMongoLoop leads_routeMongo fuel
    exact ⟨s, hrun, hserver, ⟨hs.phase, hs.output, hs.login, hs.pipe, hs.dialled⟩, heven⟩
  obtain ⟨hagrees, hpost⟩ := hleads.sound hrun
  refine ⟨hagrees, fun result hdone hreturns ↦ ?_⟩
  have hover := hpost result hdone
  match result, hreturns, hover with
  | .ok _, _, hover => exact hover
  | .error (.err _), _, hover => exact hover

open DbPivot.Mongo (CommandFrame)
open DbPivot.Mongo.Session (Binds bytesOf)

/-- What is known of sessions holds for the handler. It logs in upstream only for a stream that has
a command naming a configured database behind commands that name none, and what it sends there is a
beginning of that command and all that follows it. -/
theorem dispatchMongo_forwards :
    (¬ Binds (session net) → final.2.login = none) ∧
    ∀ (before : List CommandFrame) (c : CommandFrame) (rest : Bytes),
      net.client.conn.input = bytesOf before ++ (c.bytes ++ rest) →
      (∀ g ∈ before, ¬ Routable net.server g.db) → Routable net.server c.db →
      final.2.login = none ∨ ∃ link sent, final.2.login = some (.plain, link) ∧
        final.2.upWritten .plain = link.plain.output ++ sent ∧ sent <+: c.bytes ++ rest := by
  obtain ⟨⟨s, hsession, -, hs⟩, -⟩ :=
    dispatchMongo_tracks_session crypto env loginFuel remoteAddr fuel hlogin hpipe hdialled hrun
  refine ⟨fun hunbound ↦ hs.unbound fun r hr ↦ ?_, fun before c rest hinput hlocal hroutable ↦ ?_⟩
  · cases (Mongo.Session.reads_run rfl hsession).2 with
    | dispatching _ hother => cases hr.symm.trans hother
    | bound hbinds => exact hunbound hbinds
    | ended hother => cases hr.symm.trans hother
  · by_cases hrelay : ∃ r, s.phase = .relaying r
    · obtain ⟨r, hr⟩ := hrelay
      obtain ⟨⟨link, hlink, hplain⟩, hsent⟩ := hs.bound r hr
      have htracked := (Mongo.Session.tracked_run rfl hinput hlocal hroutable hsession).2
      refine .inr ⟨link, r.pipe.toUp.written, hlink, hplain ▸ hsent, ?_⟩
      rw [← (htracked.of_relaying hr).1.toUp]
      exact Copy.written_isPrefix _
    · exact .inl (hs.unbound (not_exists.mp hrelay))

end Runs

end DbPivot.Proxy.MongoSession
