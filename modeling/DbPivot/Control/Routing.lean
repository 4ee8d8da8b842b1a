import DbPivot.Control.Interleaved
import DbPivot.Proxy.Calls

/-!
# Where clients end up

A handler of a client connection runs beside the daemon, and while it does, any number of `use`
requests may be at any point of their switches. It is told twice what the daemon knows: whether
there is a database of the name the client asks for, and which target it is on.

Whatever the client, the upstream and the operator do, the handler dials one address at most. It is
the address of a target that the client's database was on at some moment since the handler was
started, and that the start or a `use` asks for, and nobody else's user or password goes there.
-/

namespace DbPivot.Control

open DbPivot.Go DbPivot.Config DbPivot.System
open DbPivot.Mongo (Env)
open DbPivot.Proxy (ResolvedTarget Call HandlerM handlerInterface openDatabases)
open DbPivot.Proxy.ConcurrentSwitch (State)

/-! ## A handler beside the daemon -/

/-- A call and its reply. -/
abbrev Entry := (c : Call) × handlerInterface.Reply c

/-- The server with the requests on it, what the server was at every moment since the handler was
started, and what the handler has called and was told. -/
structure Site where
  moments : List Proxy.Server
  state : State
  begun : List Call
  log : List Entry

/-- What the server knows; all other replies come from elsewhere. -/
def Truthful (server : Proxy.Server) : (c : Call) → handlerInterface.Reply c → Prop
  | .lookupDatabase adapter name, found => found = (server.lookupDatabase adapter name).isSome
  | .current adapter name, target =>
    target = (server.lookupDatabase adapter name).bind Proxy.Database.current
  | _, _ => True

namespace Site

/-- A handler is started. -/
def start (state : State) : Site := ⟨[state.server], state, [], []⟩

def move (site : Site) (state : State) : Site :=
  { site with moments := site.moments ++ [state.server], state }

def begin (site : Site) (c : Call) : Site := { site with begun := site.begun ++ [c] }

def answer (site : Site) (c : Call) (reply : handlerInterface.Reply c) : Site :=
  { site with begun := site.begun ++ [c], log := site.log ++ [⟨c, reply⟩] }

end Site

/-- While a call is in progress, the requests go on and connections come and go. -/
inductive Progress (op : Operator) (site : Site) (c : Call) : Site → Prop where
  | overlap {state : State} (hstep : OverlapStep op site.state state) :
      Progress op site c (site.move state)
  | begin : Progress op site c (site.begin c)

def siteWorld (op : Operator) : World handlerInterface Site where
  progress := Progress op
  reply site c reply site' := Truthful site.state.server c reply ∧ site' = site.answer c reply

/-! ## What has to hold -/

/-- The client has asked for the database of this name. -/
def Asked (adapter : Bytes) (log : List Entry) (name : Bytes) : Prop :=
  (adapter = adapterPostgres ∧ ∃ n body params, (⟨.readFull n, .ok body⟩ : Entry) ∈ log ∧
    Postgres.parseStartupBody body = .ok params ∧ name = Proxy.startupDatabase params) ∨
  (adapter = adapterMySQL ∧ ∃ packet response,
    (⟨.readPacket .client, .ok packet⟩ : Entry) ∈ log ∧
    Mysql.parseHandshakeResponse41 packet.2 = .ok response ∧ name = Proxy.loginDatabase response) ∨
  (adapter = adapterMongo ∧ ∃ message cmd,
    (⟨.readMongoMessage .client, .ok message⟩ : Entry) ∈ log ∧
    Mongo.decodeMongoCommand message.1 message.2 = .ok cmd ∧ name = cmd.db)

/-- The target that the client's database was on at some moment. The start asks for it, or a `use`
that has begun to commit. -/
structure GivenAs (cfg : Config) (op : Operator) (adapter : Bytes) (site : Site)
    (rt : ResolvedTarget) (name : Bytes) (db : Proxy.Database) : Prop where
  asked : Asked adapter site.log name
  configured : (openDatabases cfg).get name = some db
  sameAdapter : db.adapter = adapter
  moment : ∃ server ∈ site.moments,
    (server.lookupDatabase adapter name).bind Proxy.Database.current = some rt
  chose : op.Chose site.state db rt

def Given (cfg : Config) (op : Operator) (adapter : Bytes) (site : Site) (rt : ResolvedTarget) :
    Prop :=
  ∃ name db, GivenAs cfg op adapter site rt name db

/-- It was dialled, with success. -/
def Reached (cfg : Config) (op : Operator) (adapter : Bytes) (site : Site) (rt : ResolvedTarget) :
    Prop :=
  Given cfg op adapter site rt ∧ (⟨.dial rt.host rt.port, .ok ()⟩ : Entry) ∈ site.log

/-- What a handler may use of the targets it was given and has reached. -/
def Uses (given reached : ResolvedTarget → Prop) : Call → Prop
  | .dial host port => ∃ rt, given rt ∧ host = rt.host ∧ port = rt.port
  | .negotiateTLS serverName => ∃ rt, reached rt ∧ serverName = rt.host
  | .authenticatePostgres _ user password =>
    ∃ rt, reached rt ∧ user = rt.user ∧ password = rt.password
  | .authenticateMySQL _ user password database tlsConfig =>
    ∃ rt, reached rt ∧ user = rt.user ∧ password = rt.password ∧
      (rt.database ≠ [] → database = rt.database) ∧ tlsConfig = Proxy.mysqlTLSConfig rt
  | .authenticateMongo _ user password authSource =>
    ∃ rt, reached rt ∧ user = rt.user ∧ password = rt.password ∧ authSource = rt.authSource
  | .write (.upstream _) _ => ∃ rt, reached rt
  | .writeMongoMessage (.upstream _) _ _ => ∃ rt, reached rt
  | .register _ rt => reached rt
  | .pipe _ => ∃ rt, reached rt
  | _ => True

/-- The handler keeps to the targets of its client, and to one address. -/
structure Confined (cfg : Config) (op : Operator) (adapter : Bytes) (site : Site) : Prop where
  uses : ∀ c ∈ site.begun, Uses (Given cfg op adapter site) (Reached cfg op adapter site) c
  once : ∀ host port host' port', Call.dial host port ∈ site.begun →
    Call.dial host' port' ∈ site.begun → host = host' ∧ port = port'

variable {cfg : Config} {op : Operator} {adapter : Bytes} {env : Env} {site site' : Site}
  {rt : ResolvedTarget} {α β : Type}

/-! ## What cannot be lost -/

/-- More has happened and more was said. -/
structure Grows (site site' : Site) : Prop where
  moments : site.moments <+: site'.moments
  log : site.log <+: site'.log
  begun : ∀ i, Begun (site.state.calls i) → Begun (site'.state.calls i)

theorem Asked.mono {log log' : List Entry} {name : Bytes} (h : Asked adapter log name)
    (hlog : log <+: log') : Asked adapter log' name := by
  rcases h with ⟨rfl, n, body, params, hread, h⟩ | ⟨rfl, packet, response, hread, h⟩ |
    ⟨rfl, message, cmd, hread, h⟩
  · exact .inl ⟨rfl, n, body, params, hlog.subset hread, h⟩
  · exact .inr (.inl ⟨rfl, packet, response, hlog.subset hread, h⟩)
  · exact .inr (.inr ⟨rfl, message, cmd, hlog.subset hread, h⟩)

theorem Given.mono (h : Given cfg op adapter site rt) (hgrows : Grows site site') :
    Given cfg op adapter site' rt := by
  obtain ⟨name, db, h⟩ := h
  obtain ⟨server, hserver, hcurrent⟩ := h.moment
  exact ⟨name, db, h.asked.mono hgrows.log, h.configured, h.sameAdapter,
    ⟨server, hgrows.moments.subset hserver, hcurrent⟩, h.chose.mono hgrows.begun⟩

theorem Reached.mono (h : Reached cfg op adapter site rt) (hgrows : Grows site site') :
    Reached cfg op adapter site' rt :=
  ⟨h.1.mono hgrows, hgrows.log.subset h.2⟩

theorem Uses.mono {given reached given' reached' : ResolvedTarget → Prop} {c : Call}
    (h : Uses given reached c) (hgiven : ∀ rt, given rt → given' rt)
    (hreached : ∀ rt, reached rt → reached' rt) : Uses given' reached' c := by
  cases c with
  | dial host port =>
    obtain ⟨rt, hrt, h⟩ := h
    exact ⟨rt, hgiven rt hrt, h⟩
  | negotiateTLS serverName =>
    obtain ⟨rt, hrt, h⟩ := h
    exact ⟨rt, hreached rt hrt, h⟩
  | authenticatePostgres layer user password =>
    obtain ⟨rt, hrt, h⟩ := h
    exact ⟨rt, hreached rt hrt, h⟩
  | authenticateMySQL layer user password database tlsConfig =>
    obtain ⟨rt, hrt, h⟩ := h
    exact ⟨rt, hreached rt hrt, h⟩
  | authenticateMongo layer user password authSource =>
    obtain ⟨rt, hrt, h⟩ := h
    exact ⟨rt, hreached rt hrt, h⟩
  | write conn bytes =>
    cases conn with
    | client => trivial
    | upstream layer =>
      obtain ⟨rt, hrt⟩ := h
      exact ⟨rt, hreached rt hrt⟩
  | writeMongoMessage conn hdr body =>
    cases conn with
    | client => trivial
    | upstream layer =>
      obtain ⟨rt, hrt⟩ := h
      exact ⟨rt, hreached rt hrt⟩
  | register layer rt => exact hreached rt h
  | pipe layer =>
    obtain ⟨rt, hrt⟩ := h
    exact ⟨rt, hreached rt hrt⟩
  | _ => trivial

theorem Uses.grow {c : Call} (h : Uses (Given cfg op adapter site) (Reached cfg op adapter site) c)
    (hgrows : Grows site site') :
    Uses (Given cfg op adapter site') (Reached cfg op adapter site') c :=
  h.mono (fun _ hgiven ↦ hgiven.mono hgrows) fun _ hreached ↦ hreached.mono hgrows

/-! ## Stages of a handler -/

/-- What a handler has found out, and the one address it may dial. -/
structure Stage (cfg : Config) (op : Operator) (adapter : Bytes) where
  facts : Site → Prop
  dials : Bytes → ℤ → Prop
  mono : ∀ site site', Grows site site' → facts site → facts site'
  once : ∀ host port host' port', dials host port → dials host' port' → host = host' ∧ port = port'

namespace Stage

/-- Nothing is known yet. -/
def searching : Stage cfg op adapter where
  facts _ := True
  dials _ _ := False
  mono _ _ _ _ := trivial
  once _ _ _ _ h := h.elim

/-- The client has asked for a database. -/
def asked (name : Bytes) : Stage cfg op adapter where
  facts site := Asked adapter site.log name
  dials _ _ := False
  mono _ _ hgrows h := h.mono hgrows.log
  once _ _ _ _ h := h.elim

/-- The handler was given a target. -/
def given (rt : ResolvedTarget) : Stage cfg op adapter where
  facts site := Given cfg op adapter site rt
  dials host port := host = rt.host ∧ port = rt.port
  mono _ _ hgrows h := h.mono hgrows
  once _ _ _ _ h h' := ⟨h.1.trans h'.1.symm, h.2.trans h'.2.symm⟩

/-- The handler is connected to the target. -/
def reached (rt : ResolvedTarget) : Stage cfg op adapter where
  facts site := Reached cfg op adapter site rt
  dials host port := host = rt.host ∧ port = rt.port
  mono _ _ hgrows h := h.mono hgrows
  once _ _ _ _ h h' := ⟨h.1.trans h'.1.symm, h.2.trans h'.2.symm⟩

variable (stage : Stage cfg op adapter)

/-- The handler is at this stage and has kept to its limits. -/
structure Holds (site : Site) : Prop where
  facts : stage.facts site
  sound : Sound cfg op site.state
  now : site.state.server ∈ site.moments
  uses : ∀ c ∈ site.begun, Uses (Given cfg op adapter site) (Reached cfg op adapter site) c
  dials : ∀ host port, Call.dial host port ∈ site.begun → stage.dials host port

/-- The calls a handler may make at this stage. -/
def May (c : Call) : Prop :=
  (∀ site, stage.facts site → Uses (Given cfg op adapter site) (Reached cfg op adapter site) c) ∧
    ∀ host port, c = .dial host port → stage.dials host port

variable {stage}

theorem Holds.confined (h : stage.Holds site) : Confined cfg op adapter site :=
  ⟨h.uses, fun _ _ _ _ hdial hdial' ↦ stage.once _ _ _ _ (h.dials _ _ hdial) (h.dials _ _ hdial')⟩

theorem Holds.begin (h : stage.Holds site) {c : Call} (hc : stage.May c) :
    stage.Holds (site.begin c) := by
  have hgrows : Grows site (site.begin c) := ⟨List.prefix_rfl, List.prefix_rfl, fun _ ↦ id⟩
  refine ⟨stage.mono site _ hgrows h.facts, h.sound, h.now, ?_, ?_⟩
  · intro c' hc'
    rcases List.mem_append.mp hc' with hc' | hc'
    · exact (h.uses c' hc').grow hgrows
    · rw [List.mem_singleton] at hc'
      subst hc'
      exact (hc.1 site h.facts).grow hgrows
  · intro host port hdial
    rcases List.mem_append.mp hdial with hdial | hdial
    · exact h.dials host port hdial
    · exact hc.2 host port (List.mem_singleton.mp hdial).symm

theorem Holds.grow (h : stage.Holds site) (hbegun : site'.begun = site.begun)
    (hgrows : Grows site site') (hsound : Sound cfg op site'.state)
    (hnow : site'.state.server ∈ site'.moments) : stage.Holds site' := by
  refine ⟨stage.mono _ _ hgrows h.facts, hsound, hnow, ?_, ?_⟩
  · intro c hc
    rw [hbegun] at hc
    exact (h.uses c hc).grow hgrows
  · intro host port hdial
    rw [hbegun] at hdial
    exact h.dials host port hdial

theorem Holds.progress (h : stage.Holds site) {c : Call} (hc : stage.May c)
    (hprogress : Progress op site c site') : stage.Holds site' := by
  cases hprogress with
  | overlap hstep =>
    exact h.grow rfl ⟨List.prefix_append _ _, List.prefix_rfl, begun_step hstep⟩
      (sound_step h.sound hstep) (List.mem_append_right _ List.mem_cons_self)
  | begin => exact h.begin hc

theorem Holds.answer (h : stage.Holds site) {c : Call} (hc : stage.May c)
    (reply : handlerInterface.Reply c) : stage.Holds (site.answer c reply) :=
  (h.begin hc).grow rfl ⟨List.prefix_rfl, List.prefix_append _ _, fun _ ↦ id⟩ h.sound h.now

end Stage

/-- The handler is at some stage. -/
def Settled (cfg : Config) (op : Operator) (adapter : Bytes) (site : Site) : Prop :=
  ∃ stage : Stage cfg op adapter, stage.Holds site

/-! ## Rules -/

/-- At the end the handler is at some stage, and a value it returns is as it should be. -/
def Post (cfg : Config) (op : Operator) (adapter : Bytes) (value : α → Site → Prop)
    (result : GoM GoError α) (site : Site) : Prop :=
  Settled cfg op adapter site ∧ ∀ v, result = .ok v → value v site

/-- The handler keeps to its limits and leads to the value. -/
abbrev Keeps (cfg : Config) (op : Operator) (adapter : Bytes) (value : α → Site → Prop)
    (program : HandlerM α) (site : Site) : Prop :=
  Ensures (siteWorld op) (Confined cfg op adapter) (Post cfg op adapter value) program site

variable {stage : Stage cfg op adapter} {value : α → Site → Prop}

/-- The rule for one call. -/
theorem keeps_call {c : Call} (hc : stage.May c) (hs : stage.Holds site)
    {next : handlerInterface.Reply c → HandlerM α}
    (hnext : ∀ reply site', stage.Holds site' → Truthful site'.state.server c reply →
      stage.Holds (site'.answer c reply) →
      Keeps cfg op adapter value (next reply) (site'.answer c reply)) :
    Keeps cfg op adapter value (.call c next) site := by
  intro site' hduring
  have hs' : stage.Holds site' := by
    induction hduring with
    | refl => exact hs
    | tail _ hprogress ih => exact ih.progress hc hprogress
  refine ⟨hs'.confined, ?_⟩
  rintro reply _ ⟨htruthful, rfl⟩
  exact hnext reply site' hs' htruthful (hs'.answer hc reply)

/-- The rule for a program all of whose calls are allowed at the stage. -/
theorem keeps_calls {program : HandlerM α} (hcalls : program.Calls stage.May)
    (hs : stage.Holds site) :
    Keeps cfg op adapter (fun _ ↦ stage.Holds) program site := by
  have hkeeps : Ensures (siteWorld op) (Confined cfg op adapter) (fun _ ↦ stage.Holds) program
      site := by
    refine Ensures.of_calls (fun _ hs ↦ hs.confined) ?_ ?_ hcalls hs
    · intro site c site' hc hs hprogress
      exact hs.progress hc hprogress
    · rintro site c reply _ hc hs ⟨-, rfl⟩
      exact hs.answer hc reply
  exact hkeeps.mono fun _ _ hs ↦ ⟨⟨stage, hs⟩, fun _ _ ↦ hs⟩

theorem keeps_bind {first : HandlerM α} {next : α → HandlerM β} {value : β → Site → Prop}
    {middle : α → Site → Prop} (hfirst : Keeps cfg op adapter middle first site)
    (hnext : ∀ v site, middle v site → Keeps cfg op adapter value (next v) site) :
    Keeps cfg op adapter value (first >>= next) site := by
  apply Ensures.bind
  apply hfirst.mono
  rintro (fault | v) site ⟨hsettled, hvalue⟩
  · exact ⟨hsettled, fun v hv ↦ absurd hv (by simp)⟩
  · exact hnext v site (hvalue v rfl)

theorem keeps_done {result : GoM GoError α} (hs : stage.Holds site)
    (hvalue : ∀ v, result = .ok v → value v site) :
    Keeps cfg op adapter value (.done result : HandlerM α) site :=
  ⟨hs.confined, ⟨stage, hs⟩, hvalue⟩

theorem Settled.confined (h : Settled cfg op adapter site) : Confined cfg op adapter site := by
  obtain ⟨stage, hs⟩ := h
  exact hs.confined

theorem keeps_onError {change : GoError → GoError} {program : HandlerM α}
    (h : Keeps cfg op adapter value program site) :
    Keeps cfg op adapter value (onError change program) site := by
  apply Ensures.andThen
  apply h.mono
  rintro result site ⟨hsettled, hvalue⟩
  exact ⟨hsettled.confined, hsettled, fun v hv ↦ hvalue v (mapErr_eq_ok.mp hv)⟩

/-- A call that uses no target. -/
def Quiet (c : Call) : Prop := Uses (fun _ ↦ False) (fun _ ↦ False) c

theorem Stage.may_of_quiet (stage : Stage cfg op adapter) {c : Call} (hc : Quiet c) :
    stage.May c := by
  refine ⟨fun site _ ↦ hc.mono (fun _ h ↦ h.elim) fun _ h ↦ h.elim, ?_⟩
  rintro host port rfl
  obtain ⟨rt, hrt, -⟩ := hc
  exact hrt.elim

/-- The rule for what comes after an error. -/
theorem settled_calls {program : HandlerM α} (hcalls : program.Calls Quiet)
    (hs : Settled cfg op adapter site) :
    Ensures (siteWorld op) (Confined cfg op adapter) (fun _ ↦ Settled cfg op adapter) program
      site := by
  obtain ⟨stage, hs⟩ := hs
  exact (keeps_calls (hcalls.mono fun _ hc ↦ stage.may_of_quiet hc) hs).mono fun _ _ h ↦ h.1

theorem keeps_orElse {program : HandlerM α} {cleanup : GoError → HandlerM Unit}
    (h : Keeps cfg op adapter value program site) (hcleanup : ∀ e, (cleanup e).Calls Quiet) :
    Keeps cfg op adapter value (orElse program cleanup) site := by
  apply Ensures.andThen
  apply h.mono
  rintro ((_ | _ | e) | v) site ⟨hsettled, hvalue⟩
  · exact ⟨hsettled.confined, hsettled, fun v hv ↦ absurd hv (by simp)⟩
  · exact ⟨hsettled.confined, hsettled, fun v hv ↦ absurd hv (by simp)⟩
  · apply Ensures.bind
    apply (settled_calls (calls_ignoring (hcleanup e)) hsettled).mono
    rintro (fault | _) site hsettled
    · exact ⟨hsettled, fun v hv ↦ absurd hv (by simp)⟩
    · exact ⟨hsettled.confined, hsettled, fun v hv ↦ absurd hv (by simp)⟩
  · exact ⟨hsettled.confined, hsettled, hvalue⟩

/-- A handler that was closed in the end. -/
theorem settled_deferring {cleanup program : HandlerM Unit} (hcleanup : cleanup.Calls Quiet)
    (h : Keeps cfg op adapter (fun _ _ ↦ True) program site) :
    Ensures (siteWorld op) (Confined cfg op adapter) (fun _ ↦ Settled cfg op adapter)
      (deferring cleanup program) site := by
  have hclose (result : GoM GoError Unit) {site : Site} (hsettled : Settled cfg op adapter site) :
      Ensures (siteWorld op) (Confined cfg op adapter) (fun _ ↦ Settled cfg op adapter)
        (cleanup.andThen fun _ ↦ (.done result : HandlerM Unit)) site := by
    apply Ensures.andThen
    apply (settled_calls hcleanup hsettled).mono
    exact fun _ _ hsettled ↦ ⟨hsettled.confined, hsettled⟩
  apply Ensures.andThen
  apply h.mono
  rintro ((_ | _ | e) | v) site ⟨hsettled, -⟩
  · exact hclose _ hsettled
  · exact ⟨hsettled.confined, hsettled⟩
  · exact hclose _ hsettled
  · exact hclose _ hsettled

/-! ## Calls of the handlers -/

theorem quiet_writeErrorResponse (sqlstate message : Bytes) :
    (Proxy.writeErrorResponse sqlstate message).Calls Quiet := by
  apply calls_ignoring
  exact ⟨trivial, fun _ ↦ trivial⟩

theorem quiet_close (conn : Proxy.Endpoint) : (Proxy.Handler.close conn).Calls Quiet :=
  ⟨trivial, fun _ ↦ trivial⟩

theorem quiet_writeMySQLErr (seq : UInt8) (code : UInt16) (sqlState msg : Bytes) :
    (Proxy.writeMySQLErr seq code sqlState msg).Calls Quiet := by
  apply calls_ignoring
  exact ⟨trivial, fun _ ↦ trivial⟩

theorem quiet_writeMongoError (env : Env) (hdr : Mongo.MsgHeader) (message : GoError)
    (code : Int32) : (Proxy.writeMongoError env hdr message code).Calls Quiet := by
  apply calls_ignoring
  exact ⟨trivial, fun _ ↦ trivial⟩

theorem Stage.Holds.quiet (hs : stage.Holds site) {program : HandlerM α}
    (hcalls : program.Calls Quiet) : Keeps cfg op adapter (fun _ ↦ stage.Holds) program site :=
  keeps_calls (hcalls.mono fun _ hc ↦ stage.may_of_quiet hc) hs

/-- Nothing is asked of the value. -/
theorem keeps_any {program : HandlerM α} (h : Keeps cfg op adapter value program site) :
    Keeps cfg op adapter (fun _ _ ↦ True) program site :=
  h.mono fun _ _ hpost ↦ ⟨hpost.1, fun _ _ ↦ trivial⟩

/-- A call that uses no other target than the one the handler is connected to. -/
abbrev UsesOnly (rt : ResolvedTarget) : Call → Prop := Uses (fun _ ↦ False) (· = rt)

theorem UsesOnly.of_quiet {program : HandlerM α} (h : program.Calls Quiet) (rt : ResolvedTarget) :
    program.Calls (UsesOnly rt) :=
  h.mono fun _ hc ↦ hc.mono (fun _ h ↦ h) fun _ h ↦ h.elim

theorem UsesOnly.may {c : Call} (hc : UsesOnly rt c) :
    (Stage.reached rt : Stage cfg op adapter).May c := by
  refine ⟨fun site hfacts ↦ hc.mono (fun _ h ↦ h.elim) ?_, ?_⟩
  · rintro _ rfl
    exact hfacts
  · rintro host port rfl
    obtain ⟨rt', hrt, -⟩ := hc
    exact hrt.elim

/-- The rule for a handler that is connected. -/
theorem keeps_reached {program : HandlerM α} (hcalls : program.Calls (UsesOnly rt))
    (hs : (Stage.reached rt : Stage cfg op adapter).Holds site) :
    Keeps cfg op adapter (fun _ ↦ (Stage.reached rt : Stage cfg op adapter).Holds) program site :=
  keeps_calls (hcalls.mono fun _ hc ↦ hc.may) hs

theorem calls_serveConn (layer : Layer) (rt : ResolvedTarget) :
    (Proxy.serveConn layer rt).Calls (UsesOnly rt) := by
  have hregister : (Proxy.Handler.register layer rt).Calls (UsesOnly rt) :=
    ⟨rfl, fun _ ↦ trivial⟩
  have hpipe : (Proxy.Handler.pipe layer).Calls (UsesOnly rt) :=
    ⟨⟨rt, rfl⟩, fun _ ↦ trivial⟩
  have hclose : Proxy.Handler.closeConn.Calls (UsesOnly rt) :=
    ⟨trivial, fun _ ↦ trivial⟩
  exact hregister.bind fun _ ↦ calls_deferring hpipe hclose

/-- A dial of the target that was given. -/
theorem keeps_dial (hs : (Stage.given rt : Stage cfg op adapter).Holds site) :
    Keeps cfg op adapter (fun _ ↦ (Stage.reached rt : Stage cfg op adapter).Holds)
      (Proxy.Handler.dial rt.host rt.port) site := by
  have hmay : (Stage.given rt : Stage cfg op adapter).May (.dial rt.host rt.port) := by
    refine ⟨fun site hgiven ↦ ⟨rt, hgiven, rfl, rfl⟩, ?_⟩
    intro host port hdial
    obtain ⟨rfl, rfl⟩ := Call.dial.inj hdial
    exact ⟨rfl, rfl⟩
  apply keeps_call hmay hs
  intro reply site' hs' _ hanswer
  refine keeps_done hanswer ?_
  rintro _ rfl
  refine ⟨⟨hanswer.facts, ?_⟩, hanswer.sound, hanswer.now, hanswer.uses, hanswer.dials⟩
  exact List.mem_append_right _ List.mem_cons_self

/-- A computation without calls, and what comes behind it. -/
theorem keeps_lift {result : GoM GoError α} {next : α → HandlerM β} {value : β → Site → Prop}
    (hs : stage.Holds site)
    (hnext : ∀ v, result = .ok v → Keeps cfg op adapter value (next v) site) :
    Keeps cfg op adapter value (Program.lift result >>= next) site := by
  cases result with
  | ok v => exact hnext v rfl
  | error fault => exact keeps_done hs fun v hv ↦ absurd hv (by simp)

theorem Stage.Holds.asked (hs : (Stage.searching : Stage cfg op adapter).Holds site) {name : Bytes}
    (hasked : Asked adapter site.log name) : (Stage.asked name : Stage cfg op adapter).Holds site :=
  ⟨hasked, hs.sound, hs.now, hs.uses, hs.dials⟩

theorem Stage.Holds.searching {name : Bytes}
    (hs : (Stage.asked name : Stage cfg op adapter).Holds site) :
    (Stage.searching : Stage cfg op adapter).Holds site :=
  ⟨trivial, hs.sound, hs.now, hs.uses, hs.dials⟩

/-- The target of the client's database is one that was asked for. -/
theorem Stage.Holds.given {name : Bytes} {rt : ResolvedTarget}
    (hs : (Stage.asked name : Stage cfg op adapter).Holds site)
    (htarget : (site.state.server.lookupDatabase adapter name).bind Proxy.Database.current =
      some rt) : (Stage.given rt : Stage cfg op adapter).Holds site := by
  obtain ⟨d, hlookup, hcurrent⟩ := Option.bind_eq_some_iff.mp htarget
  rw [Proxy.Server.lookupDatabase] at hlookup
  cases hget : site.state.server.databases.get name with
  | none =>
    rw [hget] at hlookup
    cases hlookup
  | some d' =>
    rw [hget] at hlookup
    simp only at hlookup
    split at hlookup
    next => cases hlookup
    next hadapter =>
      obtain rfl := Option.some.inj hlookup
      obtain ⟨db, hdb, hd, hchose⟩ := hs.sound.exists_of_get hget
      have hsame : db.adapter = adapter :=
        (congrArg Proxy.Database.adapter hd).symm.trans (not_not.mp hadapter)
      exact ⟨⟨name, db, hs.facts, hdb, hsame, ⟨_, hs.now, htarget⟩, hchose rt hcurrent⟩,
        hs.sound, hs.now, hs.uses, fun host port hdial ↦ (hs.dials host port hdial).elim⟩

/-- The rule for the first question to the daemon. -/
theorem keeps_lookup (hs : stage.Holds site) {name : Bytes} {next : Bool → HandlerM α}
    (hnext : ∀ found site, stage.Holds site → Keeps cfg op adapter value (next found) site) :
    Keeps cfg op adapter value (Proxy.Handler.lookupDatabase adapter name >>= next) site := by
  have hquiet : Quiet (.lookupDatabase adapter name) := trivial
  apply keeps_call (stage.may_of_quiet hquiet) hs
  intro found site' _ _ hs
  exact hnext found _ hs

/-- The rule for the second one. -/
theorem keeps_current {name : Bytes} (hs : (Stage.asked name : Stage cfg op adapter).Holds site)
    {next : Option ResolvedTarget → HandlerM α}
    (hnone : ∀ site, (Stage.asked name : Stage cfg op adapter).Holds site →
      Keeps cfg op adapter value (next none) site)
    (hsome : ∀ rt site, (Stage.given rt : Stage cfg op adapter).Holds site →
      Keeps cfg op adapter value (next (some rt)) site) :
    Keeps cfg op adapter value (Proxy.Handler.current adapter name >>= next) site := by
  have hquiet : Quiet (.current adapter name) := trivial
  apply keeps_call (Stage.may_of_quiet _ hquiet) hs
  intro target site' _ htruthful hs
  cases target with
  | none => exact hnone _ hs
  | some rt => exact hsome rt _ (hs.given htruthful.symm)

/-- The rule for what a client sends: it is in the log. -/
theorem keeps_received {c : Call} (result : handlerInterface.Reply c → GoM GoError α)
    (hquiet : Quiet c) (hs : stage.Holds site) :
    Keeps cfg op adapter
      (fun v site ↦ stage.Holds site ∧
        ∃ reply, result reply = .ok v ∧ (⟨c, reply⟩ : Entry) ∈ site.log)
      (.call c fun reply ↦ .done (result reply)) site := by
  apply keeps_call (stage.may_of_quiet hquiet) hs
  intro reply site' _ _ hs
  exact keeps_done hs fun v hv ↦ ⟨hs, reply, hv, List.mem_append_right _ List.mem_cons_self⟩

/-! ## PostgreSQL -/

theorem quiet_readUint32 : Proxy.readUint32.Calls Quiet :=
  ⟨trivial, fun reply ↦ by cases reply <;> trivial⟩

theorem keeps_dialPostgres (hs : (Stage.given rt : Stage cfg op adapter).Holds site) :
    Keeps cfg op adapter (fun _ ↦ (Stage.reached rt : Stage cfg op adapter).Holds)
      (Proxy.dialPostgres env rt) site := by
  apply keeps_bind (keeps_orElse (keeps_dial hs) fun _ ↦ quiet_writeErrorResponse _ _)
  intro _ site hs
  split
  · have htls : (Proxy.Handler.negotiateTLS rt.host).Calls (UsesOnly rt) :=
      ⟨⟨rt, rfl, rfl⟩, fun _ ↦ trivial⟩
    refine keeps_bind (keeps_orElse (keeps_reached htls hs)
      fun _ ↦ (quiet_writeErrorResponse _ _).bind fun _ ↦ quiet_close _) ?_
    intro _ site hs
    exact keeps_done hs fun _ _ ↦ hs
  · exact keeps_done hs fun _ _ ↦ hs

theorem calls_tunnelPostgres (env : Env) (rt : ResolvedTarget) (layer : Layer) (upStartup : Bytes) :
    (do
      Proxy.loginPostgres env rt layer upStartup
      orElse (onError (wrapf "write AuthenticationOk to client: %w" []) Proxy.writeAuthenticationOk)
        fun _ ↦ Proxy.Handler.close (.upstream layer)
      Proxy.flushBuffered layer
      Proxy.serveConn layer rt : HandlerM Unit).Calls (UsesOnly rt) := by
  have hwrite (bytes : Bytes) : (Proxy.Handler.write (.upstream layer) bytes).Calls
      (UsesOnly rt) := ⟨⟨rt, rfl⟩, fun _ ↦ trivial⟩
  have hauth : (Proxy.Handler.authenticatePostgres layer rt.user rt.password).Calls
      (UsesOnly rt) := ⟨⟨rt, rfl, rfl, rfl⟩, fun _ ↦ trivial⟩
  have hlogin : (Proxy.loginPostgres env rt layer upStartup).Calls
      (UsesOnly rt) := by
    apply (calls_orElse (hwrite upStartup) fun _ ↦
      UsesOnly.of_quiet ((quiet_writeErrorResponse _ _).bind fun _ ↦ quiet_close _) rt).bind
    exact fun _ ↦ calls_orElse hauth fun _ ↦
      UsesOnly.of_quiet ((quiet_writeErrorResponse _ _).bind fun _ ↦ quiet_close _) rt
  have hok : Proxy.writeAuthenticationOk.Calls (UsesOnly rt) :=
    ⟨trivial, fun _ ↦ trivial⟩
  have hflush : (Proxy.flushBuffered layer).Calls (UsesOnly rt) := by
    refine ⟨trivial, fun buffered ↦ ?_⟩
    dsimp only [Program.bindValue, Program.done_andThen]
    split
    · apply (calls_orElse (hwrite buffered) fun _ ↦ UsesOnly.of_quiet (quiet_close _) rt).bind
      exact fun _ ↦ ⟨trivial, fun _ ↦ trivial⟩
    · trivial
  apply hlogin.bind
  intro _
  apply (calls_orElse (calls_onError hok) fun _ ↦ UsesOnly.of_quiet (quiet_close _) rt).bind
  intro _
  exact hflush.bind fun _ ↦ calls_serveConn layer rt

theorem keeps_handleStartup (msgLen : ℕ)
    (hs : (Stage.searching : Stage cfg op adapterPostgres).Holds site) :
    Keeps cfg op adapterPostgres (fun _ _ ↦ True) (Proxy.handleStartup env msgLen) site := by
  have hquiet : Quiet (.readFull (msgLen - 8)) := trivial
  apply keeps_bind (keeps_onError (keeps_received id hquiet hs))
  rintro body site ⟨hs, _, rfl, hmem⟩
  apply keeps_lift hs
  intro params hparams
  have hasked : Asked adapterPostgres site.log (Proxy.startupDatabase params) :=
    .inl ⟨rfl, _, body, params, hmem, hparams, rfl⟩
  apply keeps_lookup (hs.asked hasked)
  intro found site hs
  cases found with
  | false => exact keeps_any (hs.quiet (quiet_writeErrorResponse _ _))
  | true =>
    apply keeps_current hs
    · exact fun site hs ↦ keeps_any (hs.quiet (quiet_writeErrorResponse _ _))
    · intro rt site hs
      apply keeps_lift hs
      intro upStartup _
      apply keeps_bind (keeps_dialPostgres hs)
      intro layer site hs
      exact keeps_any (keeps_reached (calls_tunnelPostgres env rt layer upStartup) hs)

theorem keeps_dispatchLoop (attempts : ℕ)
    (hs : (Stage.searching : Stage cfg op adapterPostgres).Holds site) :
    Keeps cfg op adapterPostgres (fun _ _ ↦ True) (Proxy.dispatchLoop env attempts) site := by
  induction attempts generalizing site with
  | zero => exact keeps_done hs fun _ _ ↦ trivial
  | succ attempts ih =>
    have hreject : (Proxy.Handler.write .client [Postgres.ascii 'N']).Calls Quiet :=
      ⟨trivial, fun _ ↦ trivial⟩
    apply keeps_bind (hs.quiet (calls_onError quiet_readUint32))
    intro msgLen site hs
    apply keeps_lift hs
    intro _ _
    apply keeps_bind (hs.quiet (calls_onError quiet_readUint32))
    intro code site hs
    split
    · apply keeps_bind (hs.quiet (calls_onError hreject))
      exact fun _ site hs ↦ ih hs
    split
    · have hcancel : (Proxy.Handler.readFull (msgLen.toNat - 8)).Calls Quiet :=
        ⟨trivial, fun _ ↦ trivial⟩
      exact keeps_any (hs.quiet ((calls_onError hcancel).bind fun _ ↦ trivial))
    split
    · exact keeps_handleStartup _ hs
    · exact keeps_done hs fun _ _ ↦ trivial

/-! ## MySQL -/

/-- The login packet of a client is in the log. -/
theorem keeps_greetClientMySQL (serverVersion : Bytes) (connectionID : UInt32)
    (hs : (Stage.searching : Stage cfg op adapterMySQL).Holds site) :
    Keeps cfg op adapterMySQL
      (fun login ↦ (Stage.asked (Proxy.loginDatabase login.response) :
        Stage cfg op adapterMySQL).Holds)
      (Proxy.greetClientMySQL serverVersion connectionID) site := by
  have hrand : (Proxy.Handler.rand 20).Calls Quiet := ⟨trivial, fun _ ↦ trivial⟩
  have hsalt : Proxy.newMySQLSalt.Calls Quiet := (calls_onError hrand).bind fun _ ↦ trivial
  have hquiet : Quiet (.readPacket .client) := trivial
  apply keeps_bind (hs.quiet hsalt)
  intro salt site hs
  have hwrite : (Proxy.Handler.writePacket .client 0
      (Proxy.mysqlGreeting serverVersion connectionID salt)).Calls Quiet :=
    ⟨trivial, fun _ ↦ trivial⟩
  apply keeps_bind (hs.quiet (calls_onError hwrite))
  intro _ site hs
  apply keeps_bind (keeps_onError (keeps_received id hquiet hs))
  rintro ⟨seq, payload⟩ site ⟨hs, _, rfl, hmem⟩
  apply keeps_lift hs
  intro response hresponse
  refine keeps_done hs ?_
  intro login hlogin
  obtain rfl := Except.ok.inj hlogin
  exact hs.asked (.inr (.inl ⟨rfl, _, response, hmem, hresponse, rfl⟩))

theorem keeps_loginMySQL (login : Proxy.ClientLogin)
    (hs : (Stage.given rt : Stage cfg op adapter).Holds site) :
    Keeps cfg op adapter (fun _ ↦ (Stage.reached rt : Stage cfg op adapter).Holds)
      (Proxy.loginMySQL env rt login) site := by
  apply keeps_bind (keeps_orElse (keeps_dial hs) fun _ ↦ quiet_writeMySQLErr _ _ _ _)
  intro _ site hs
  have hauth : (Proxy.Handler.authenticateMySQL .plain rt.user rt.password
      (if rt.database = [] then login.response.database else rt.database)
      (Proxy.mysqlTLSConfig rt)).Calls (UsesOnly rt) :=
    ⟨⟨rt, rfl, rfl, rfl, fun hne ↦ if_neg hne, rfl⟩, fun _ ↦ trivial⟩
  exact keeps_orElse (keeps_reached hauth hs) fun _ ↦
    (quiet_writeMySQLErr _ _ _ _).bind fun _ ↦ quiet_close _

theorem calls_concludeMySQL (rt : ResolvedTarget) (login : Proxy.ClientLogin) (layer : Layer)
    (upCaps : UInt32) : (Proxy.concludeMySQL rt login layer upCaps).Calls
      (UsesOnly rt) := by
  rw [Proxy.concludeMySQL]
  split
  · refine UsesOnly.of_quiet ?_ rt
    exact (quiet_writeMySQLErr _ _ _ _).bind fun _ ↦ (quiet_close _).bind fun _ ↦ trivial
  · have hwrite : (Proxy.Handler.writePacket .client login.nextSeq
        (Mysql.encodeOKPacket 0 0 Proxy.serverStatusAutocommit 0)).Calls Quiet :=
      ⟨trivial, fun _ ↦ trivial⟩
    apply (UsesOnly.of_quiet (calls_orElse (calls_onError hwrite) fun _ ↦ quiet_close _) rt).bind
    exact fun _ ↦ calls_serveConn layer rt

theorem keeps_dispatchMySQL (hs : (Stage.searching : Stage cfg op adapterMySQL).Holds site) :
    Keeps cfg op adapterMySQL (fun _ _ ↦ True) (Proxy.dispatchMySQL env) site := by
  have hseq : Proxy.Handler.connSeq.Calls Quiet := ⟨trivial, fun _ ↦ trivial⟩
  apply keeps_bind (hs.quiet hseq)
  intro connID site hs
  apply keeps_bind (keeps_onError (keeps_greetClientMySQL _ connID hs))
  intro login site hs
  apply keeps_lookup hs
  intro found site hs
  cases found with
  | false => exact keeps_any (hs.quiet (quiet_writeMySQLErr _ _ _ _))
  | true =>
    apply keeps_current hs
    · exact fun site hs ↦ keeps_any (hs.quiet (quiet_writeMySQLErr _ _ _ _))
    · intro rt site hs
      apply keeps_bind (keeps_loginMySQL login hs)
      rintro ⟨layer, upCaps⟩ site hs
      exact keeps_any (keeps_reached (calls_concludeMySQL rt login layer upCaps) hs)

/-! ## MongoDB -/

theorem keeps_loginMongo (hdr : Mongo.MsgHeader)
    (hs : (Stage.given rt : Stage cfg op adapter).Holds site) :
    Keeps cfg op adapter (fun _ ↦ (Stage.reached rt : Stage cfg op adapter).Holds)
      (Proxy.loginMongo env rt hdr) site := by
  apply keeps_bind (keeps_orElse (keeps_dial hs) fun _ ↦ quiet_writeMongoError _ _ _ _)
  intro _ site hs
  have hauth : (Proxy.Handler.authenticateMongo .plain rt.user rt.password rt.authSource).Calls
      (UsesOnly rt) := ⟨⟨rt, rfl, rfl, rfl, rfl⟩, fun _ ↦ trivial⟩
  exact keeps_orElse (keeps_reached hauth hs) fun _ ↦
    (quiet_writeMongoError _ _ _ _).bind fun _ ↦ quiet_close _

theorem keeps_routeMongo {name : Bytes} (hdr : Mongo.MsgHeader) (body : Bytes)
    (hs : (Stage.asked name : Stage cfg op adapterMongo).Holds site) :
    Keeps cfg op adapterMongo (fun _ _ ↦ True) (Proxy.routeMongo env name hdr body) site := by
  apply keeps_current hs
  · exact fun site hs ↦ keeps_any (hs.quiet (quiet_writeMongoError _ _ _ _))
  · intro rt site hs
    have hforward : (Proxy.Handler.writeMongoMessage (.upstream .plain) hdr body).Calls
        (UsesOnly rt) := ⟨⟨rt, rfl⟩, fun _ ↦ trivial⟩
    apply keeps_bind (keeps_loginMongo hdr hs)
    intro _ site hs
    apply keeps_bind (keeps_orElse (keeps_onError (keeps_reached hforward hs))
      fun _ ↦ quiet_close _)
    exact fun _ site hs ↦ keeps_any (keeps_reached (calls_serveConn .plain rt) hs)

theorem keeps_dispatchMongoLoop (peer : Mongo.Peer) (fuel : ℕ)
    (hs : (Stage.searching : Stage cfg op adapterMongo).Holds site) :
    Keeps cfg op adapterMongo (fun _ _ ↦ True) (Proxy.dispatchMongoLoop env peer fuel) site := by
  induction fuel generalizing site with
  | zero => exact keeps_done hs fun _ _ ↦ trivial
  | succ fuel ih =>
    have hquiet : Quiet (.readMongoMessage .client) := trivial
    apply keeps_bind (keeps_onError (keeps_received id hquiet hs))
    rintro ⟨hdr, body⟩ site ⟨hs, _, rfl, hmem⟩
    apply keeps_lift hs
    intro cmd hcmd
    apply keeps_lookup (hs.asked (.inr (.inr ⟨rfl, _, cmd, hmem, hcmd, rfl⟩)))
    intro found site hs
    cases found with
    | true => exact keeps_routeMongo hdr body hs
    | false =>
      have hnow : Proxy.Handler.now.Calls Quiet := ⟨trivial, fun _ ↦ trivial⟩
      apply keeps_bind (hs.searching.quiet hnow)
      intro time site hs
      have hreply : (Proxy.Handler.writeMongoReply .client hdr.opCode hdr.requestID
          (Mongo.localReply env peer time cmd).2).Calls Quiet := ⟨trivial, fun _ ↦ trivial⟩
      apply keeps_bind (hs.quiet (calls_onError hreply))
      exact fun _ site hs ↦ ih hs

theorem keeps_dispatchMongo (remoteAddr : Bytes) (fuel : ℕ)
    (hs : (Stage.searching : Stage cfg op adapterMongo).Holds site) :
    Keeps cfg op adapterMongo (fun _ _ ↦ True) (Proxy.dispatchMongo env remoteAddr fuel) site := by
  have hseq : Proxy.Handler.connSeq.Calls Quiet := ⟨trivial, fun _ ↦ trivial⟩
  apply keeps_bind (hs.quiet hseq)
  exact fun connID site hs ↦ keeps_dispatchMongoLoop _ fuel hs

/-! ## Any client -/

theorem keeps_dispatchAdapter (remoteAddr : Bytes) (fuel : ℕ)
    (hadapter : adapter ∈ supportedAdapters)
    (hs : (Stage.searching : Stage cfg op adapter).Holds site) :
    Keeps cfg op adapter (fun _ _ ↦ True)
      (Proxy.dispatchAdapter env remoteAddr fuel adapter) site := by
  unfold Proxy.dispatchAdapter
  split
  next hmysql =>
    subst hmysql
    exact keeps_dispatchMySQL hs
  next hmysql =>
    split
    next hmongo =>
      subst hmongo
      exact keeps_dispatchMongo remoteAddr fuel hs
    next hmongo =>
      obtain rfl : adapter = adapterPostgres := by
        simpa [supportedAdapters, hmysql, hmongo] using hadapter
      exact keeps_dispatchLoop 2 hs

/-- Wherever a handler has got to, beside requests that overlap in any way, it has kept to the
targets of its client and to one address. -/
theorem clients_confined {orders : Proxy.Orders} {s : Proxy.Server} (env : Env)
    (horders : orders.Valid (openDatabases cfg))
    (hnew : Proxy.new cfg op.target op.vars orders = .ok s) {state : State}
    (hbefore : Relation.ReflTransGen (OverlapStep op) ⟨s, fun _ ↦ .idle⟩ state)
    (hadapter : adapter ∈ supportedAdapters) (remoteAddr : Bytes) (fuel : ℕ)
    {final : HandlerM Unit × Site}
    (hrun : System.Run (siteWorld op).Step
      (Proxy.handleConn env remoteAddr fuel adapter, .start state) final) :
    Confined cfg op adapter final.2 := by
  have hsound := sound_run (sound_new horders hnew) hbefore
  have hstart : (Stage.searching : Stage cfg op adapter).Holds (.start state) :=
    ⟨trivial, hsound, List.mem_cons_self, fun _ hc ↦ absurd hc List.not_mem_nil,
      fun _ _ hdial ↦ absurd hdial List.not_mem_nil⟩
  have hdispatch : Ensures (siteWorld op) (Confined cfg op adapter)
      (fun _ ↦ Settled cfg op adapter)
      (deferring (Proxy.Handler.close .client) (Proxy.dispatchAdapter env remoteAddr fuel adapter))
      (.start state) :=
    settled_deferring (quiet_close .client) (keeps_dispatchAdapter remoteAddr fuel hadapter hstart)
  have hkeeps : Ensures (siteWorld op) (Confined cfg op adapter) (fun _ ↦ Settled cfg op adapter)
      (Proxy.handleConn env remoteAddr fuel adapter) (.start state) := by
    apply Ensures.andThen
    apply hdispatch.mono
    rintro ((_ | _ | e) | v) site hsettled
    all_goals exact ⟨hsettled.confined, hsettled⟩
  exact (hkeeps.sound hrun).1

/-! ## A switch under way -/

/-- One more reply in a run. -/
theorem run_answer {start : HandlerM α × Site} {c : Call}
    {next : handlerInterface.Reply c → HandlerM α}
    (hrun : System.Run (siteWorld op).Step start (.call c next, site))
    (reply : handlerInterface.Reply c) (htruthful : Truthful site.state.server c reply) :
    System.Run (siteWorld op).Step start (next reply, site.answer c reply) :=
  hrun.step c (.reply ⟨htruthful, rfl⟩)

/-- One more step of a request, while the handler waits. -/
theorem run_overlap {start : HandlerM α × Site} {c : Call}
    {next : handlerInterface.Reply c → HandlerM α}
    (hrun : System.Run (siteWorld op).Step start (.call c next, site)) {state : State}
    {event : Proxy.ConcurrentSwitch.Event}
    (hstep : Proxy.ConcurrentSwitch.Step (fun i ↦ (op.uses i).target) (fun i ↦ (op.uses i).vars)
      site.state event state) :
    System.Run (siteWorld op).Step start (.call c next, site.move state) :=
  hrun.step c (.progress (.overlap (.switch hstep)))

/-- The target `staging` of `app`, behind its forward. -/
def stagingResolved : ResolvedTarget where
  name := str "staging"
  host := str "10.0.0.1"
  port := 15432
  user := str "app"
  password := str "secret"
  database := str "app_staging"
  sslMode := []
  authSource := []

/-- Every request is a `use staging`. -/
def stagingOperator : Operator where
  target := str "local"
  vars := ∅
  uses := fun _ ↦ useStaging

/-- A client of `app` gets its target from a switch that has written it and nothing else yet. -/
theorem clients_confined_switching :
    ∃ (s : Proxy.Server) (final : HandlerM Unit × Site),
      Proxy.new Proxy.pairConfig (str "local") ∅ Proxy.pairOrders = .ok s ∧
      System.Run (siteWorld stagingOperator).Step
        (Proxy.handleConn Mongo.openEnv [] 0 adapterPostgres, .start ⟨s, fun _ ↦ .idle⟩) final ∧
      (final.2.state.calls 0).InCommit ∧ final.2.state.server.currentTarget = str "local" ∧
      Call.dial (str "10.0.0.1") 15432 ∈ final.2.begun ∧
      Confined Proxy.pairConfig stagingOperator adapterPostgres final.2 := by
  have hnew : ∃ s app, Proxy.new Proxy.pairConfig (str "local") ∅ Proxy.pairOrders = .ok s ∧
      s.currentTarget = str "local" ∧
      (s.lookupDatabase adapterPostgres (str "app")).isSome = true ∧
      s.databases.get (str "app") = some app ∧ app.adapter = adapterPostgres ∧
      Proxy.planOf (str "staging") ∅ app = .switch stagingResolved :=
    ⟨_, _, rfl, rfl, rfl, rfl, rfl, rfl⟩
  obtain ⟨s, app, hnew, hlocal, hfound, happ, hadapter, hplan⟩ := hnew
  have hshows := shows_new Proxy.pairOrders_valid hnew
  have horder : Enumerates [str "app", str "audit"] s.databases :=
    ⟨by decide, fun name ↦ (Proxy.pairOrders_valid.plan.mem_iff name).trans hshows.mem_iff.symm⟩
  have hswitchable := (hshows.switchable_iff (str "staging") ∅).mpr Proxy.switchable_staging
  have hplans := (Proxy.planAll_eq_ok horder).mpr ⟨hswitchable, rfl⟩
  have hstart : System.Run (siteWorld stagingOperator).Step
      (Proxy.handleConn Mongo.openEnv [] 0 adapterPostgres, .start ⟨s, fun _ ↦ .idle⟩)
      (Proxy.handleConn Mongo.openEnv [] 0 adapterPostgres, .start ⟨s, fun _ ↦ .idle⟩) := .refl
  have hlength := run_answer hstart (.ok (be32 18)) trivial
  have hcode := run_answer hlength (.ok (be32 Postgres.protocolV3)) trivial
  have hbody := run_answer hcode (.ok (str "user\x00app\x00\x00")) trivial
  have hlookup := run_answer hbody true hfound.symm
  have hplanned := run_overlap hlookup (.plan (i := 0) rfl horder hplans)
  have hentered := run_overlap hplanned (.enter (State.calls_setCall ..) horder)
  have hloaded := run_overlap hentered (.load (State.calls_setCall ..)
    (by rw [Proxy.get_plansOf horder happ, Option.getD_some, hplan]) happ)
  have hstored := run_overlap hloaded (.store (State.calls_setCall ..) happ)
  have hwritten : ((Proxy.ConcurrentSwitch.putDatabase s (str "app")
      (app.store (some stagingResolved))).lookupDatabase adapterPostgres (str "app")).bind
        Proxy.Database.current = some stagingResolved := by
    simp [Proxy.Server.lookupDatabase, Proxy.ConcurrentSwitch.putDatabase, GoMap.get_insert,
      Proxy.Database.store, hadapter]
  have htarget := run_answer hstored (some stagingResolved) hwritten.symm
  have hdial := run_answer htarget (.ok ()) trivial
  exact ⟨s, _, hnew, hdial, trivial, hlocal, List.mem_append_right _ List.mem_cons_self,
    clients_confined Mongo.openEnv Proxy.pairOrders_valid hnew .refl (by decide) [] 0 hdial⟩

end DbPivot.Control
