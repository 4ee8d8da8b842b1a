import DbPivot.Mongo.Session
import DbPivot.Proxy.Negotiation

/-!
# Probes and handlers

A probe is worth something if it logs in the way the handler of a client does. The two were written
apart: they wrap and report errors differently, and the handler has a client to read from and to
answer. What they write to the upstream until the login is over, and whether it is accepted, can be
compared all the same, since neither depends on the client.

For PostgreSQL and MySQL the two agree. For MongoDB they do not: `probeTarget` knows no MongoDB and
speaks PostgreSQL to the upstream.
-/

namespace DbPivot.Proxy.Agreement

open DbPivot.Go DbPivot.Config DbPivot.System
open DbPivot.Mongo (Env)
open DbPivot.Mysql (Crypto HandshakeResponse41)
open DbPivot.Postgres (KV ascii)
open Net (ClientSide NoLogin SameUpstream calls_writeErrorResponse calls_writeErrorResponse_close
  calls_writeMySQLErr)
open Tunnel (Preamble StartupMessage clientStream)

/-! ## What is compared -/

/-- What was written to the upstream until the login was over, outside TLS and over it, and whether
the login was accepted. -/
structure LoginTrace where
  plain : Bytes
  tls : Option Bytes
  accepted : Bool
deriving DecidableEq

/-- The upstream connection at the end of the login: when it was accepted, or else as it was left. -/
def loginLink (s : Net) : Option Link :=
  match s.login with
  | some (_, link) => some link
  | none => s.up

def loginTrace (s : Net) : LoginTrace where
  plain := ((loginLink s).map fun link ↦ link.plain.output).getD []
  tls := (loginLink s).bind fun link ↦ link.tls.map Socket.output
  accepted := s.login.isSome

theorem loginTrace_of_same {s s' : Net} (h : SameUpstream s s') : loginTrace s' = loginTrace s := by
  obtain ⟨_, _, rfl⟩ := h
  rfl

/-- Once a login is accepted, the trace stays as it is. -/
theorem loginTrace_of_login {s s' : Net} (hsome : s.login.isSome) (h : s'.login = s.login) :
    loginTrace s' = loginTrace s := by
  obtain ⟨held, hheld⟩ := Option.isSome_iff_exists.mp hsome
  simp only [loginTrace, loginLink, h, hheld]

variable {Key α β γ : Type} {crypto : Crypto Key} {env : Env} {fuel : ℕ} {s t : Net}

/-- What comes after a login does not matter. -/
theorem loginTrace_bind {login : HandlerM α} {rest : α → HandlerM β}
    (hlogin : ∀ v s', login.exec (Net.handler crypto env fuel) s = (.ok v, s') → s'.login.isSome)
    (hrest : ∀ v, (rest v).Calls NoLogin) :
    loginTrace ((login >>= rest).exec (Net.handler crypto env fuel) s).2 =
      loginTrace (login.exec (Net.handler crypto env fuel) s).2 := by
  rw [Program.bind_eq, Program.exec_andThen]
  rcases hexec : login.exec (Net.handler crypto env fuel) s with ⟨fault | v, s'⟩
  · rfl
  · apply loginTrace_of_login (hlogin v s' hexec)
    exact (hrest v).exec (K := fun s ↦ s.login = s'.login)
      (fun s c hc hs ↦ (Net.login_handler hc s).trans hs) rfl

/-- The deferred `Close` of a probe changes nothing. -/
theorem exec_closing (program : HandlerM Unit) (s : Net) :
    (deferring (Handler.close (.upstream .plain)) program).exec (Net.handler crypto env fuel) s =
      program.exec (Net.handler crypto env fuel) s := by
  rw [deferring, Program.exec_andThen]
  rcases program.exec (Net.handler crypto env fuel) s with ⟨result, s'⟩
  match result with
  | .ok () => rfl
  | .error (.err _) => rfl
  | .error .panic => rfl
  | .error .outOfFuel => rfl

/-! ## Calls of both -/

abbrev InStep (crypto : Crypto Key) (env : Env) (fuel : ℕ) (p : HandlerM α) (s : Net)
    (q : HandlerM α) (t : Net) : Prop :=
  Lockstep (Net.handler crypto env fuel) SameUpstream p s q t

/-- A call of the login does the same on both sides. -/
theorem inStep_call {c : Call} (hc : Net.LoginCall c)
    (result : handlerInterface.Reply c → GoM GoError α) (h : SameUpstream s t) :
    InStep crypto env fuel (.call c fun reply ↦ .done (result reply)) s
      (.call c fun reply ↦ .done (result reply)) t := by
  obtain ⟨hreply, hstate⟩ := Net.login_of_same h hc
  exact lockstep_call hreply (lockstep_lift _ hstate)

/-- Two logins in lockstep leave the same trace, whatever comes after them. -/
theorem loginTrace_eq {p q : HandlerM α} {restP : α → HandlerM β} {restQ : α → HandlerM γ}
    (h : InStep crypto env fuel p s q t)
    (hlogin : ∀ v t', q.exec (Net.handler crypto env fuel) t = (.ok v, t') → t'.login.isSome)
    (hrestP : ∀ v, (restP v).Calls NoLogin) (hrestQ : ∀ v, (restQ v).Calls NoLogin) :
    loginTrace ((p >>= restP).exec (Net.handler crypto env fuel) s).2 =
      loginTrace ((q >>= restQ).exec (Net.handler crypto env fuel) t).2 := by
  have hclient (v : α) (s' : Net) (hp : p.exec (Net.handler crypto env fuel) s = (.ok v, s')) :
      s'.login.isSome := by
    obtain ⟨hvalue, hstate⟩ := h
    rcases hq : q.exec (Net.handler crypto env fuel) t with ⟨fault | w, t'⟩
    · rw [hp, hq] at hvalue
      exact nomatch hvalue
    · rw [hp, hq] at hstate
      have hsome := hlogin w t' hq
      obtain ⟨_, _, rfl⟩ := hstate
      exact hsome
  rw [loginTrace_bind hclient hrestP, loginTrace_bind hlogin hrestQ]
  exact (loginTrace_of_same h.state).symm

/-- Cleaning up on the client's side leaves the upstream alone. -/
theorem sameUpstream_exec {program : HandlerM α} (hcalls : program.Calls ClientSide)
    (h : SameUpstream s t) :
    SameUpstream (program.exec (Net.handler crypto env fuel) s).2 t :=
  hcalls.exec (K := fun s ↦ SameUpstream s t)
    (fun s _ hc hs ↦ (Net.sameUpstream_handler hc s).symm.trans hs) h

/-! ## PostgreSQL -/

/-- The connection and the login of a PostgreSQL client. -/
def clientLogin (env : Env) (rt : ResolvedTarget) (upStartup : Bytes) : HandlerM Layer := do
  let layer ← dialPostgres env rt
  loginPostgres env rt layer upStartup
  pure layer

/-- The connection and the login of a PostgreSQL probe. -/
def probeLogin (rt : ResolvedTarget) : HandlerM Layer := do
  onError (wrapf "dial: %w" []) (Handler.dial rt.host rt.port)
  let layer ← probeConn rt
  probeLoginPostgres rt layer
  pure layer

theorem inStep_dialPostgres (h : SameUpstream s t) (rt : ResolvedTarget) :
    InStep crypto env fuel (dialPostgres env rt) s
      (do onError (wrapf "dial: %w" []) (Handler.dial rt.host rt.port); probeConn rt) t := by
  apply Lockstep.bind
  · apply Lockstep.onError_right
    apply (inStep_call (c := .dial rt.host rt.port) trivial id h).orElse_left
    exact fun _ _ _ h ↦ sameUpstream_exec (calls_writeErrorResponse _ _) h
  intro _ s t h
  rw [probeConn]
  split
  · apply Lockstep.bind
    · apply Lockstep.onError_right
      apply (inStep_call (c := .negotiateTLS rt.host) trivial id h).orElse_left
      exact fun _ _ _ h ↦ sameUpstream_exec (calls_writeErrorResponse_close _ _ _) h
    exact fun _ _ _ h ↦ lockstep_lift _ h
  · exact lockstep_lift _ h

theorem inStep_loginPostgres (h : SameUpstream s t) (rt : ResolvedTarget) (layer : Layer) :
    InStep crypto env fuel (loginPostgres env rt layer (Postgres.startupFrame (probeParams rt))) s
      (probeLoginPostgres rt layer) t := by
  rw [probeLoginPostgres, Postgres.encodeStartup_eq]
  apply Lockstep.bind
  · apply Lockstep.onError_right
    apply (inStep_call (c := .write (.upstream layer) _) ⟨layer, rfl⟩ id h).orElse_left
    exact fun _ _ _ h ↦ sameUpstream_exec (calls_writeErrorResponse_close _ _ _) h
  intro _ s t h
  apply Lockstep.onError_right
  apply (inStep_call (c := .authenticatePostgres layer _ _) trivial id h).orElse_left
  exact fun _ _ _ h ↦ sameUpstream_exec (calls_writeErrorResponse_close _ _ _) h

theorem inStep_clientLogin (h : SameUpstream s t) (rt : ResolvedTarget) :
    InStep crypto env fuel (clientLogin env rt (Postgres.startupFrame (probeParams rt))) s
      (probeLogin rt) t := by
  have hassoc : probeLogin rt =
      ((do onError (wrapf "dial: %w" []) (Handler.dial rt.host rt.port); probeConn rt) >>=
        fun layer ↦ (do probeLoginPostgres rt layer; pure layer)) := by
    rw [bind_assoc]
    rfl
  rw [hassoc]
  apply (inStep_dialPostgres h rt).bind
  intro layer s t h
  apply (inStep_loginPostgres h rt layer).bind
  exact fun _ _ _ h ↦ lockstep_lift _ h

theorem isSome_login_of_logIn {layer : Layer} {program : SocketM Unit} {result : Unit}
    (h : s.logIn layer program = (.ok result, t)) : t.login.isSome := by
  rcases s with ⟨_, _, _, up, _, _, _, _, _, _⟩
  cases up with
  | none => cases h
  | some link =>
    simp only [Net.logIn, Net.onUp] at h
    cases hresult : (link.on layer program).1 with
    | error fault =>
      rw [hresult] at h
      cases congrArg Prod.fst h
    | ok _ =>
      rw [hresult] at h
      obtain ⟨-, rfl⟩ := Prod.mk.inj h
      rfl

/-- A probe whose login returns is logged in. -/
theorem isSome_login_probeLogin {rt : ResolvedTarget} {layer : Layer}
    (h : (probeLogin rt).exec (Net.handler crypto env fuel) s = (.ok layer, t)) : t.login.isSome := by
  obtain ⟨_, _, -, h⟩ := Program.exec_bind_eq_ok.mp h
  obtain ⟨held, _, -, h⟩ := Program.exec_bind_eq_ok.mp h
  obtain ⟨_, t', hlogin, hpure⟩ := Program.exec_bind_eq_ok.mp h
  obtain ⟨-, rfl⟩ := Prod.mk.inj hpure
  obtain ⟨_, _, -, h⟩ := Program.exec_bind_eq_ok.mp hlogin
  obtain ⟨_, _, -, h⟩ := Program.exec_bind_eq_ok.mp h
  exact isSome_login_of_logIn (exec_onError_eq_ok.mp h)

/-- What the client of a PostgreSQL database is served after the login. -/
def afterLogin (rt : ResolvedTarget) (layer : Layer) : HandlerM Unit := do
  orElse (onError (wrapf "write AuthenticationOk to client: %w" []) writeAuthenticationOk)
    fun _ ↦ Handler.close (.upstream layer)
  flushBuffered layer
  serveConn layer rt

theorem exec_probePostgres (rt : ResolvedTarget) (steps : ℕ) (t : Net) :
    (probePostgres rt steps).exec (Net.handler crypto env fuel) t =
      (probeLogin rt >>= fun layer ↦ probeQueryPostgres layer steps).exec
        (Net.handler crypto env fuel) t := by
  have hassoc : (probeLogin rt >>= fun layer ↦ probeQueryPostgres layer steps) =
      (do
        onError (wrapf "dial: %w" []) (Handler.dial rt.host rt.port)
        let layer ← probeConn rt
        probeLoginPostgres rt layer
        probeQueryPostgres layer steps) := by
    simp only [probeLogin, bind_assoc, pure_bind]
  rw [hassoc, probePostgres]
  apply Program.exec_bind_congr
  intro _ t
  exact exec_closing _ t

/-! ## What a client sends first -/

/-- A client that keeps its connection open and is going to send the stream. -/
structure Reading (net : Net) (stream : Bytes) (s : Net) : Prop where
  same : SameUpstream net s
  stream : s.client.stream = stream
  room : s.client.conn.room = none

theorem Reading.client {net : Net} {stream : Bytes} (h : Reading net stream s) :
    Negotiation.Client net stream s.client.conn.output s :=
  ⟨h.same, h.stream, rfl, h.room⟩

theorem reading_of_client {net : Net} {stream output : Bytes}
    (h : Negotiation.Client net stream output s) : Reading net stream s :=
  ⟨h.same, h.stream, h.room⟩

/-- A database with an active target is found, and so is its target. -/
theorem exec_routes {net : Net} {adapter name : Bytes} {d : Database} {rt : ResolvedTarget}
    (hlookup : net.server.lookupDatabase adapter name = some d) (hcurrent : d.current = some rt)
    (hs : SameUpstream net s) :
    (Handler.lookupDatabase adapter name).exec (Net.handler crypto env fuel) s = (.ok true, s) ∧
      (Handler.current adapter name).exec (Net.handler crypto env fuel) s = (.ok (some rt), s) := by
  have hserver : s.server = net.server := by
    obtain ⟨_, _, rfl⟩ := hs
    rfl
  constructor
  · change (Except.ok (s.server.lookupDatabase adapter name).isSome, s) = _
    rw [hserver, hlookup]
    rfl
  · change (Except.ok ((s.server.lookupDatabase adapter name).bind Database.current), s) = _
    rw [hserver, hlookup, Option.bind_some, hcurrent]

section Reading

variable (crypto : Crypto Key) (env : Env) (fuel : ℕ) {net : Net} {stream : Bytes}

/-- A StartupMessage that names an active database leads to the login at its target. -/
theorem exec_handleStartup {startup : StartupMessage} {msgLen : ℕ} {params : List KV} {d : Database}
    {rt : ResolvedTarget} (hlength : startup.body.length = msgLen - 8)
    (hparams : Postgres.parseStartupBody startup.body = .ok params)
    (hlookup : net.server.lookupDatabase adapterPostgres (startupDatabase params) = some d)
    (hcurrent : d.current = some rt) (hs : Reading net (startup.body ++ stream) s) :
    ∃ s', Reading net stream s' ∧
      (handleStartup env msgLen).exec (Net.handler crypto env fuel) s =
        (clientLogin env rt (Postgres.startupFrame (upstreamParams params rt)) >>=
          afterLogin rt).exec (Net.handler crypto env fuel) s' := by
  obtain ⟨s', hread, hs'⟩ := Negotiation.exec_readFull crypto env fuel hlength hs.client
  refine ⟨s', reading_of_client hs', ?_⟩
  obtain ⟨hfound, htarget⟩ := exec_routes hlookup hcurrent hs'.same
  rw [handleStartup, Program.exec_bind_of_ok (exec_onError_eq_ok.mpr hread), hparams]
  have hlift (result : List KV) (next : List KV → HandlerM Unit) :
      (Program.lift (.ok result) >>= next) = next result := rfl
  rw [hlift, Program.exec_bind_of_ok hfound, if_pos rfl, Program.exec_bind_of_ok htarget]
  dsimp only
  rw [Postgres.encodeStartup_eq]
  simp only [clientLogin, bind_assoc, pure_bind]
  rfl

/-- All that a client sends before its tunnel. -/
theorem exec_dispatch {preamble : Option Preamble} {startup : StartupMessage} {params : List KV}
    {d : Database} {rt : ResolvedTarget}
    (hlength : 8 + startup.body.length ≤ Postgres.maxStartupLen)
    (hparams : Postgres.parseStartupBody startup.body = .ok params)
    (hlookup : net.server.lookupDatabase adapterPostgres (startupDatabase params) = some d)
    (hcurrent : d.current = some rt)
    (hs : Reading net (clientStream preamble startup stream) s) :
    ∃ s', Reading net stream s' ∧
      (dispatch env).exec (Net.handler crypto env fuel) s =
        (clientLogin env rt (Postgres.startupFrame (upstreamParams params rt)) >>=
          afterLogin rt).exec (Net.handler crypto env fuel) s' := by
  have hopening : ∃ o : Negotiation.Opening, o.requests.length ≤ 1 ∧ o.startup = startup ∧
      o.rest = stream ∧ clientStream preamble startup stream = o.stream := by
    cases preamble with
    | none => exact ⟨⟨[], .nil, startup, hlength, stream⟩, Nat.zero_le 1, rfl, rfl, rfl⟩
    | some request =>
      refine ⟨⟨[request], List.nodup_singleton request, startup, hlength, stream⟩, Nat.le_refl 1, rfl,
        rfl, ?_⟩
      rw [Negotiation.Opening.stream, List.flatMap_singleton]
      rfl
  obtain ⟨o, hone, rfl, rfl, hstream⟩ := hopening
  rw [hstream] at hs
  obtain ⟨called, hcalled, hexec⟩ := Negotiation.exec_opening crypto env fuel hone hs.client
  have hbody : o.startup.body.length = 8 + o.startup.body.length - 8 := by omega
  obtain ⟨s', hs', hhandle⟩ := exec_handleStartup crypto env fuel hbody hparams hlookup hcurrent
    (reading_of_client hcalled)
  exact ⟨s', hs', (Negotiation.exec_dispatch_of_negotiate hexec).trans hhandle⟩

end Reading

/-- A client without parameters of its own. -/
theorem upstreamParams_eq {params : List KV} {rt : ResolvedTarget} (hdatabase : rt.database ≠ [])
    (hparams : ∀ kv ∈ params, kv.k = str "user" ∨ kv.k = str "database") :
    upstreamParams params rt = probeParams rt := by
  have hfilter : params.filter (fun kv ↦ kv.k ≠ str "user" ∧ kv.k ≠ str "database") = [] := by
    rw [List.filter_eq_nil_iff]
    intro kv hkv
    rcases hparams kv hkv with huser | hdb
    · simp [huser]
    · simp [hdb]
  simp only [upstreamParams, probeParams, if_pos hdatabase, hfilter, List.append_nil]

/-- The two agree on PostgreSQL. -/
theorem loginTrace_postgres (crypto : Crypto Key) (env : Env) (fuel steps : ℕ) {net : Net}
    {stream : Bytes} {preamble : Option Preamble} {startup : StartupMessage} {params : List KV}
    {d : Database} {rt : ResolvedTarget}
    (hlength : 8 + startup.body.length ≤ Postgres.maxStartupLen)
    (hparams : Postgres.parseStartupBody startup.body = .ok params)
    (hlookup : net.server.lookupDatabase adapterPostgres (startupDatabase params) = some d)
    (hcurrent : d.current = some rt) (hdatabase : rt.database ≠ [])
    (hextra : ∀ kv ∈ params, kv.k = str "user" ∨ kv.k = str "database")
    (hs : Reading net (clientStream preamble startup stream) s) :
    loginTrace ((dispatch env).exec (Net.handler crypto env fuel) s).2 =
      loginTrace ((probePostgres rt steps).exec (Net.handler crypto env fuel) net).2 := by
  obtain ⟨s', hs', hexec⟩ := exec_dispatch crypto env fuel hlength hparams hlookup hcurrent hs
  rw [hexec, exec_probePostgres, upstreamParams_eq hdatabase hextra]
  apply loginTrace_eq (inStep_clientLogin hs'.same.symm rt)
  · exact fun _ _ h ↦ isSome_login_probeLogin h
  · exact fun layer ↦ (Net.calls_tunnel layer rt).mono fun _ hc ↦ hc.1
  · exact fun layer ↦ (Net.calls_probeQueryPostgres layer steps).mono fun _ hc ↦ hc.1

/-! ## MySQL -/

/-- The connection and the login of a MySQL probe. -/
def probeLoginMySQL (rt : ResolvedTarget) : HandlerM (Layer × UInt32) := do
  onError (wrapf "dial: %w" []) (Handler.dial rt.host rt.port)
  onError (wrapf "auth: %w" [])
    (Handler.authenticateMySQL .plain rt.user rt.password rt.database (mysqlTLSConfig rt))

theorem inStep_loginMySQL (h : SameUpstream s t) {rt : ResolvedTarget} (hdatabase : rt.database ≠ [])
    (login : ClientLogin) :
    InStep crypto env fuel (loginMySQL env rt login) s (probeLoginMySQL rt) t := by
  apply Lockstep.bind
  · apply Lockstep.onError_right
    apply (inStep_call (c := .dial rt.host rt.port) trivial id h).orElse_left
    exact fun _ _ _ h ↦ sameUpstream_exec (calls_writeMySQLErr _ _ _ _) h
  intro _ s t h
  rw [if_neg hdatabase]
  apply Lockstep.onError_right
  apply (inStep_call (c := .authenticateMySQL .plain _ _ _ _) trivial id h).orElse_left
  intro _ _ _ h
  apply sameUpstream_exec _ h
  exact (calls_writeMySQLErr _ _ _ _).bind fun _ ↦ ⟨nofun, fun _ ↦ trivial⟩

theorem isSome_login_of_logInMySQL {layer : Layer} {user password database : Bytes}
    {tlsConfig : Option Bytes} {result : Layer × UInt32}
    (h : s.logInMySQL crypto fuel layer user password database tlsConfig = (.ok result, t)) :
    t.login.isSome := by
  rcases s with ⟨_, _, _, up, _, _, _, _, _, seeds⟩
  cases up with
  | none => cases h
  | some link =>
    simp only [Net.logInMySQL] at h
    rcases hexec : (Mysql.authenticateUpstreamMySQL crypto fuel layer user password database false
      tlsConfig).exec Mysql.Upstream.handler ⟨link, seeds⟩ with ⟨fault | value, u⟩
    · rw [hexec] at h
      cases congrArg Prod.fst h
    · rw [hexec] at h
      obtain ⟨-, rfl⟩ := Prod.mk.inj h
      rfl

theorem isSome_login_probeLoginMySQL {rt : ResolvedTarget} {result : Layer × UInt32}
    (h : (probeLoginMySQL rt).exec (Net.handler crypto env fuel) s = (.ok result, t)) :
    t.login.isSome := by
  obtain ⟨_, _, -, h⟩ := Program.exec_bind_eq_ok.mp h
  exact isSome_login_of_logInMySQL (exec_onError_eq_ok.mp h)

theorem exec_probeMySQL (rt : ResolvedTarget) (t : Net) :
    (probeMySQL rt).exec (Net.handler crypto env fuel) t =
      (probeLoginMySQL rt >>= fun login ↦ probeQueryMySQL login.1).exec
        (Net.handler crypto env fuel) t := by
  rw [probeLoginMySQL, bind_assoc, probeMySQL]
  apply Program.exec_bind_congr
  intro _ t
  exact exec_closing _ t

section Greeting

variable (crypto : Crypto Key) (env : Env) (fuel : ℕ) {net : Net}

theorem exec_newMySQLSalt {salt : Bytes} (hrandom : s.random = .ok salt) :
    newMySQLSalt.exec (Net.handler crypto env fuel) s =
      (.ok (salt.map fun b ↦ if b = 0 then 1 else b), s) := by
  have hrand : (Handler.rand 20).exec (Net.handler crypto env fuel) s = (.ok salt, s) := by
    change (Net.returned s.random, s) = _
    rw [hrandom]
    rfl
  rw [newMySQLSalt, Program.exec_bind_of_ok (exec_onError_eq_ok.mpr hrand)]
  rfl

theorem exec_writePacket_client (seq : UInt8) (payload : Bytes) (hroom : s.client.conn.room = none) :
    ∃ s', (Handler.writePacket .client seq payload).exec (Net.handler crypto env fuel) s =
      (.ok (), s') ∧ SameUpstream s s' ∧ s'.client.conn.input = s.client.conn.input := by
  have hrun : (do let _ ← Mysql.writePacket seq payload; pure () : SocketM Unit).run s.client.conn =
      (.ok (), { s.client.conn with
        output := s.client.conn.output ++ Mysql.packetBytes seq payload }) := by
    rw [Mysql.writePacket_eq, bind_assoc, SocketM.bind_of_ok (write_of_room hroom)]
    rfl
  have hexec : (Handler.writePacket .client seq payload).exec (Net.handler crypto env fuel) s =
      s.onConn (do let _ ← Mysql.writePacket seq payload; pure () : SocketM Unit) .client := rfl
  rw [Net.onConn, hrun] at hexec
  exact ⟨_, hexec, ⟨_, _, rfl⟩, rfl⟩

theorem exec_readPacket_client {seq : UInt8} {payload rest : Bytes}
    (hinput : s.client.conn.input = Mysql.packetBytes seq payload ++ rest) :
    ∃ s', (Handler.readPacket .client).exec (Net.handler crypto env fuel) s =
      (.ok (Mysql.lastSeq seq payload, payload), s') ∧ SameUpstream s s' := by
  have hread := Mysql.readPacket_packetBytes seq payload { s.client.conn with input := rest }
  dsimp only at hread
  rw [← hinput] at hread
  have hexec : (Handler.readPacket .client).exec (Net.handler crypto env fuel) s =
      s.onConn Mysql.readPacket .client := rfl
  rw [Net.onConn, hread] at hexec
  exact ⟨_, hexec, ⟨_, _, rfl⟩⟩

theorem exec_greetClientMySQL {salt : Bytes} (hrandom : s.random = .ok salt)
    (hroom : s.client.conn.room = none) {seq : UInt8} {payload rest : Bytes}
    (hinput : s.client.conn.input = Mysql.packetBytes seq payload ++ rest)
    {resp : HandshakeResponse41} (hparse : Mysql.parseHandshakeResponse41 payload = .ok resp)
    (connID : UInt32) :
    ∃ login s', login.response = resp ∧ SameUpstream s s' ∧
      (greetClientMySQL mysqlServerVersion connID).exec (Net.handler crypto env fuel) s =
        (.ok login, s') := by
  obtain ⟨s₁, hwrite, hs₁, hkeeps⟩ := exec_writePacket_client crypto env fuel 0
    (mysqlGreeting mysqlServerVersion connID (salt.map fun b ↦ if b = 0 then 1 else b)) hroom
  obtain ⟨s₂, hread, hs₂⟩ := exec_readPacket_client crypto env fuel (hkeeps.trans hinput)
  refine ⟨⟨resp, resp.capabilities &&& mysqlProxyClientCaps, Mysql.lastSeq seq payload + 1⟩, s₂, rfl,
    hs₁.trans hs₂, ?_⟩
  have hlift (next : HandshakeResponse41 → HandlerM ClientLogin) :
      (Program.lift (.ok resp) >>= next) = next resp := rfl
  rw [greetClientMySQL, Program.exec_bind_of_ok (exec_newMySQLSalt crypto env fuel hrandom),
    Program.exec_bind_of_ok (exec_onError_eq_ok.mpr hwrite),
    Program.exec_bind_of_ok (exec_onError_eq_ok.mpr hread)]
  dsimp only
  rw [hparse, hlift]
  rfl

/-- A client that names an active database is logged in at its target. -/
theorem exec_dispatchMySQL {salt : Bytes} (hrandom : net.random = .ok salt)
    (hroom : s.client.conn.room = none) {seq : UInt8} {payload rest : Bytes}
    (hinput : s.client.conn.input = Mysql.packetBytes seq payload ++ rest)
    {resp : HandshakeResponse41} (hparse : Mysql.parseHandshakeResponse41 payload = .ok resp)
    {d : Database} {rt : ResolvedTarget}
    (hlookup : net.server.lookupDatabase adapterMySQL (loginDatabase resp) = some d)
    (hcurrent : d.current = some rt) (hs : SameUpstream net s) :
    ∃ login s', SameUpstream net s' ∧
      (dispatchMySQL env).exec (Net.handler crypto env fuel) s =
        (loginMySQL env rt login >>= fun result ↦ concludeMySQL rt login result.1 result.2).exec
          (Net.handler crypto env fuel) s' := by
  have hseq : Handler.connSeq.exec (Net.handler crypto env fuel) s =
      (.ok (s.connID + 1), { s with connID := s.connID + 1 }) := rfl
  have hrandom' : s.random = .ok salt := by
    obtain ⟨_, _, rfl⟩ := hs
    exact hrandom
  obtain ⟨login, s', rfl, hsame, hgreet⟩ := exec_greetClientMySQL (s := { s with connID := s.connID + 1 })
    crypto env fuel hrandom' hroom hinput hparse (s.connID + 1)
  have hs' : SameUpstream net s' := (hs.trans ⟨s.client, s.connID + 1, rfl⟩).trans hsame
  obtain ⟨hfound, htarget⟩ := exec_routes hlookup hcurrent hs'
  refine ⟨login, s', hs', ?_⟩
  rw [dispatchMySQL, Program.exec_bind_of_ok hseq,
    Program.exec_bind_of_ok (exec_onError_eq_ok.mpr hgreet), Program.exec_bind_of_ok hfound, if_pos rfl,
    Program.exec_bind_of_ok htarget]

end Greeting

/-- The two agree on MySQL. -/
theorem loginTrace_mysql (crypto : Crypto Key) (env : Env) (fuel : ℕ) {net : Net} {salt : Bytes}
    (hrandom : net.random = .ok salt) (hroom : s.client.conn.room = none) {seq : UInt8}
    {payload rest : Bytes} (hinput : s.client.conn.input = Mysql.packetBytes seq payload ++ rest)
    {resp : HandshakeResponse41} (hparse : Mysql.parseHandshakeResponse41 payload = .ok resp)
    {d : Database} {rt : ResolvedTarget}
    (hlookup : net.server.lookupDatabase adapterMySQL (loginDatabase resp) = some d)
    (hcurrent : d.current = some rt) (hdatabase : rt.database ≠ []) (hs : SameUpstream net s) :
    loginTrace ((dispatchMySQL env).exec (Net.handler crypto env fuel) s).2 =
      loginTrace ((probeMySQL rt).exec (Net.handler crypto env fuel) net).2 := by
  obtain ⟨login, s', hs', hexec⟩ := exec_dispatchMySQL crypto env fuel hrandom hroom hinput hparse
    hlookup hcurrent hs
  rw [hexec, exec_probeMySQL]
  apply loginTrace_eq (inStep_loginMySQL hs'.symm hdatabase login)
  · exact fun _ _ h ↦ isSome_login_probeLoginMySQL h
  · exact fun result ↦ (Net.calls_concludeMySQL result.1 rt login result.2).mono fun _ hc ↦ hc.1
  · exact fun result ↦ (Net.calls_probeQueryMySQL result.1).mono fun _ hc ↦ hc.1

/-! ## All adapters -/

/-- The client names the database and supplies no parameters beyond that. -/
inductive Names (name : Bytes) : Bytes → Bytes → Prop where
  | postgres (preamble : Option Preamble) (startup : StartupMessage) (params : List KV) (rest : Bytes)
      (hlength : 8 + startup.body.length ≤ Postgres.maxStartupLen)
      (hparams : Postgres.parseStartupBody startup.body = .ok params)
      (hname : startupDatabase params = name)
      (hextra : ∀ kv ∈ params, kv.k = str "user" ∨ kv.k = str "database") :
      Names name adapterPostgres (clientStream preamble startup rest)
  | mysql (seq : UInt8) (payload rest : Bytes) (resp : HandshakeResponse41)
      (hparse : Mysql.parseHandshakeResponse41 payload = .ok resp) (hname : loginDatabase resp = name) :
      Names name adapterMySQL (Mysql.packetBytes seq payload ++ rest)
  | mongodb (f : Mongo.CommandFrame) (rest : Bytes) (hname : f.db = name) :
      Names name adapterMongo (f.bytes ++ rest)

/-- Whatever the upstream does, the probe of an active database writes what the handler of a client
of that database writes until the login is over, and its login is accepted when the client's is. -/
def ProbeAgrees (adapter : Bytes) : Prop :=
  ∀ (Key : Type) (crypto : Crypto Key) (env : Env) (fuel steps : ℕ) (net : Net) (salt : Bytes)
    (order : List Bytes) (job : ProbeJob) (remoteAddr stream : Bytes) (chunks : List ℕ),
    net.random = .ok salt → Enumerates order net.server.databases →
    job ∈ probeJobs net.server order → job.adapter = adapter → job.rt.database ≠ [] →
    Names job.name adapter stream →
    loginTrace ((dispatchAdapter env remoteAddr (fuel + 1) adapter).exec
        (Net.handler crypto env fuel) (net.accept stream none chunks)).2 =
      loginTrace ((probeTarget adapter job.rt steps).exec (Net.handler crypto env fuel)
        (net.accept [] none [])).2

theorem probeAgrees_of_ne {adapter : Bytes} (hne : adapter ≠ adapterMongo) : ProbeAgrees adapter := by
  intro Key crypto env fuel steps net salt order job remoteAddr stream chunks hrandom horder hjob
    hadapter hdatabase hnames
  subst hadapter
  obtain ⟨d, hlookup, hcurrent⟩ := (mem_probeJobs horder).mp hjob
  have hsame : SameUpstream (net.accept [] none []) (net.accept stream none chunks) := ⟨_, _, rfl⟩
  have hrandom' : (net.accept [] none []).random = .ok salt := hrandom
  generalize job.adapter = adapter at hnames hlookup hne ⊢
  cases hnames with
  | postgres preamble startup params rest hlength hparams hname hextra =>
    rw [← hname] at hlookup
    exact loginTrace_postgres crypto env fuel steps hlength hparams hlookup hcurrent hdatabase hextra
      ⟨hsame, rfl, rfl⟩
  | mysql seq payload rest resp hparse hname =>
    rw [← hname] at hlookup
    exact loginTrace_mysql crypto env fuel hrandom' rfl rfl hparse hlookup hcurrent hdatabase hsame
  | mongodb f rest hname => exact absurd rfl hne

/-- A MongoDB server that accepts every login. -/
def openMongod : Net :=
  { Net.reaching (.ok ⟨Mongo.Session.openUpstream, none, .error eof⟩) with
    server := Mongo.twoDatabases }

/-- The target of the database `app`. -/
def appTarget : ResolvedTarget := (Mongo.mongoDatabase (str "app")).snapshot
  (singleTarget (str "app")) (str "app")

theorem lookup_openMongod : ∃ d, openMongod.server.lookupDatabase adapterMongo (str "app") = some d ∧
    d.current = some appTarget := by
  have hget : openMongod.server.databases.get (str "app") = some (Mongo.mongoDatabase (str "app")) := by
    rw [openMongod, Mongo.twoDatabases, GoMap.get_ofKeys]
    rfl
  refine ⟨Mongo.mongoDatabase (str "app"), ?_, rfl⟩
  rw [Server.lookupDatabase, hget]
  rfl

/-- A client of `app` is logged in. -/
theorem accepted_client : (loginTrace ((dispatchAdapter Mongo.openEnv [] 1 adapterMongo).exec
    (Net.handler Net.openCrypto Mongo.openEnv 0)
    (openMongod.accept (Mongo.Session.appFrame.bytes ++ []) none [])).2).accepted = true := by
  decide +kernel

/-- The probe sends a StartupMessage and is not logged in. -/
theorem loginTrace_probe : loginTrace ((probeTarget adapterMongo appTarget 0).exec
    (Net.handler Net.openCrypto Mongo.openEnv 0) (openMongod.accept [] none [])).2 =
      ⟨Postgres.startupFrame (probeParams appTarget), none, false⟩ := by
  decide +kernel

theorem not_probeAgrees_mongo : ¬ ProbeAgrees adapterMongo := by
  intro hagrees
  obtain ⟨order, horder⟩ := GoMap.exists_enumerates openMongod.server.databases
  have hjob : ⟨str "app", adapterMongo, appTarget⟩ ∈ probeJobs openMongod.server order :=
    (mem_probeJobs horder).mpr lookup_openMongod
  have hdatabase : appTarget.database ≠ [] := by decide
  have heq := hagrees Unit Net.openCrypto Mongo.openEnv 0 0 openMongod _ order _ [] _ [] rfl horder hjob
    rfl hdatabase (.mongodb Mongo.Session.appFrame [] rfl)
  have haccepted := congrArg LoginTrace.accepted heq
  rw [accepted_client, loginTrace_probe] at haccepted
  exact absurd haccepted (by decide)

/-- The adapters whose probe logs in as the handler does: all but MongoDB. -/
theorem probeAgrees_iff (adapter : Bytes) (hsupported : adapter ∈ supportedAdapters) :
    ProbeAgrees adapter ↔ adapter ≠ adapterMongo := by
  constructor
  · rintro hagrees rfl
    exact not_probeAgrees_mongo hagrees
  · exact probeAgrees_of_ne

/-- Two of the three supported adapters. -/
theorem probeAgrees_iff_postgres_mysql : ProbeAgrees adapterPostgres ∧ ProbeAgrees adapterMySQL :=
  ⟨(probeAgrees_iff adapterPostgres (by decide)).mpr (by decide),
    (probeAgrees_iff adapterMySQL (by decide)).mpr (by decide)⟩

/-- A MongoDB server that serves clients of an active database is reported unreachable: its probe
sends it a PostgreSQL StartupMessage. -/
theorem mongodb_probed_as_postgres :
    (∃ d, openMongod.server.lookupDatabase adapterMongo (str "app") = some d ∧
      d.current = some appTarget) ∧ appTarget.database ≠ [] ∧
    Names (str "app") adapterMongo (Mongo.Session.appFrame.bytes ++ []) ∧
    (loginTrace ((dispatchAdapter Mongo.openEnv [] 1 adapterMongo).exec
      (Net.handler Net.openCrypto Mongo.openEnv 0)
      (openMongod.accept (Mongo.Session.appFrame.bytes ++ []) none [])).2).accepted = true ∧
    loginTrace ((probeTarget adapterMongo appTarget 0).exec
      (Net.handler Net.openCrypto Mongo.openEnv 0) (openMongod.accept [] none [])).2 =
        ⟨Postgres.startupFrame (probeParams appTarget), none, false⟩ :=
  ⟨lookup_openMongod, by decide, .mongodb Mongo.Session.appFrame [] rfl, accepted_client,
    loginTrace_probe⟩

end DbPivot.Proxy.Agreement
