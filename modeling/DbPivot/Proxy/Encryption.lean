import DbPivot.Mysql.Upgrade
import DbPivot.Proxy.Tunnel

/-!
# No fallback to plaintext

A target with `sslmode=require` is spoken to over TLS or not at all. Handlers and probes hold the
TCP connection and the TLS connection in one variable after the other, and each protocol has its own
way from the first to the second: a PostgreSQL client asks before it says anything, and a MySQL
client asks inside of the login, after the server's greeting.

What a program does is confined if the TCP connection has seen nothing but a beginning of that
request, and no login was accepted except over TLS. Until the request, nothing uses the upstream,
and after the handshake nothing uses the TCP connection.
-/

namespace DbPivot.Proxy.Encryption

open DbPivot.Go DbPivot.Config DbPivot.System
open DbPivot.Mongo (Env)
open DbPivot.Mysql (Crypto HandshakeResponse41 SSLRequested)
open DbPivot.Postgres (ascii)
open Net (connOf ClientSide Serves SameUpstream calls_writeErrorResponse
  calls_writeErrorResponse_close calls_readUint32 calls_writeMySQLErr calls_greetClientMySQL)

/-! ## What may be written outside TLS -/

/-- A connection that is dialled has seen nothing before, and there is no TLS over it. -/
def Fresh (dialled : Except GoError Link) : Prop :=
  ∀ link, dialled = .ok link → link.plain.output = [] ∧ link.tls = none

/-- What a PostgreSQL client may write outside TLS. -/
def PostgresRequest (output : Bytes) : Prop := output <+: Postgres.sslRequest

/-- What a MySQL client may write outside TLS to the connection it dials. -/
def MysqlRequest (dialled : Except GoError Link) (output : Bytes) : Prop :=
  match dialled with
  | .ok link => SSLRequested link.plain output
  | .error _ => output = []

/-- Outside TLS there is nothing but a request for it, and a login is over TLS. -/
structure Confined (request : Bytes → Prop) (s : Net) : Prop where
  outside : request (s.upWritten .plain)
  login : ∀ layer link, s.login = some (layer, link) → layer = .tls ∧ link.tls.isSome

/-! ## Calls that keep out of the TCP connection -/

/-- The call does not use the TCP connection to the upstream. -/
def OverTLS (c : Call) : Prop := connOf c ≠ some (.upstream .plain)

theorem overTLS_of_clientSide {c : Call} (hc : ClientSide c) : OverTLS c := hc .plain

theorem overTLS_of_serves {c : Call} (hc : Serves .tls c) : OverTLS c :=
  fun h ↦ nomatch hc.2 .plain h

variable {Key α : Type} {crypto : Crypto Key} {env : Env} {fuel : ℕ}
  {allowed : ResolvedTarget → Prop} {request : Bytes → Prop} {s : Net}

/-- Nobody is logged in, and what was written outside TLS may be. -/
structure Idle (request : Bytes → Prop) (dialled : Except GoError Link) (s : Net) : Prop where
  dialled : s.dialled = dialled
  login : s.login = none
  pipe : s.pipe = none
  outside : ∀ link, s.up = some link → request link.plain.output
  silence : request []

variable {dialled : Except GoError Link}

theorem Idle.confined (h : Idle request dialled s) : Confined request s := by
  refine ⟨?_, fun layer link hlogin ↦ nomatch h.login.symm.trans hlogin⟩
  simp only [Net.upWritten, h.pipe]
  cases hup : s.up with
  | none => exact h.silence
  | some link => exact h.outside link hup

theorem Idle.pipe_tls (h : Idle request dialled s) (layer : Layer) (pipe : Pipe UInt8)
    (hpipe : s.pipe = some (layer, pipe)) : layer = .tls := by
  rw [h.pipe] at hpipe
  cases hpipe

theorem Idle.of_same {s' : Net} (h : Idle request dialled s) (hsame : SameUpstream s s') :
    Idle request dialled s' := by
  obtain ⟨_, _, rfl⟩ := hsame
  exact ⟨h.dialled, h.login, h.pipe, h.outside, h.silence⟩

/-- The TLS connection is there, and only it is in use. -/
structure Secured (request : Bytes → Prop) (s : Net) : Prop where
  up : ∃ link, s.up = some link ∧ request link.plain.output ∧ link.tls.isSome
  login : ∀ layer link, s.login = some (layer, link) → layer = .tls ∧ link.tls.isSome
  pipe : ∀ layer pipe, s.pipe = some (layer, pipe) → layer = .tls

theorem Secured.confined (h : Secured request s) : Confined request s := by
  refine ⟨?_, h.login⟩
  obtain ⟨link, hup, hrequest, -⟩ := h.up
  cases hpipe : s.pipe with
  | none =>
    simp only [Net.upWritten, hpipe, hup]
    exact hrequest
  | some held =>
    obtain ⟨layer, pipe⟩ := held
    obtain rfl := h.pipe layer pipe hpipe
    simp only [Net.upWritten, hpipe, hup]
    exact hrequest

/-- A program on the TLS connection. -/
theorem Secured.onUp (h : Secured request s) (program : SocketM α) :
    ∃ link, s.onUp .tls program = ((s.onUp .tls program).1, { s with up := some link }) ∧
      Secured request { s with up := some link } ∧ link.tls.isSome := by
  obtain ⟨link, hup, hrequest, htls⟩ := h.up
  have htls' : (link.on .tls program).2.tls.isSome := (Link.isSome_tls_on _ _ _).trans htls
  refine ⟨(link.on .tls program).2, ?_, ⟨⟨_, rfl, ?_, htls'⟩, h.login, h.pipe⟩, htls'⟩
  · rw [Net.onUp, hup]
  · rw [Link.plain_on_tls]
    exact hrequest

theorem Secured.onConn (h : Secured request s) {conn : Endpoint}
    (hconn : some conn ≠ some (.upstream .plain)) (program : SocketM α) :
    Secured request (s.onConn program conn).2 := by
  match conn with
  | .client => exact ⟨h.up, h.login, h.pipe⟩
  | .upstream .plain => exact absurd rfl hconn
  | .upstream .tls =>
    obtain ⟨link, hrun, hsecured, -⟩ := h.onUp program
    rw [Net.onConn, hrun]
    exact hsecured

theorem Secured.logIn (h : Secured request s) {layer : Layer}
    (hlayer : some (Endpoint.upstream layer) ≠ some (.upstream .plain)) (program : SocketM Unit) :
    Secured request (s.logIn layer program).2 := by
  match layer with
  | .plain => exact absurd rfl hlayer
  | .tls =>
    obtain ⟨link, hrun, hsecured, htls⟩ := h.onUp program
    rw [Net.logIn, hrun]
    cases (s.onUp .tls program).1 with
    | ok result =>
      refine ⟨hsecured.up, ?_, hsecured.pipe⟩
      intro layer link' hlogin
      obtain ⟨rfl, rfl⟩ := Prod.mk.inj (Option.some.inj hlogin)
      exact ⟨rfl, htls⟩
    | error fault => exact hsecured

theorem secured_handler {c : Call} (hc : OverTLS c) (h : Secured request s) :
    Secured request (Net.handler crypto env fuel c s).2 := by
  cases c with
  | write conn bytes => exact h.onConn hc _
  | readMessage conn => exact h.onConn hc _
  | writeMessage conn typ body => exact h.onConn hc _
  | readPacket conn => exact h.onConn hc _
  | writePacket conn seq payload => exact h.onConn hc _
  | readMongoMessage conn => exact h.onConn hc _
  | writeMongoReply conn reqOpCode responseTo doc => exact h.onConn hc _
  | writeMongoMessage conn hdr body => exact h.onConn hc _
  | dial host port => exact absurd rfl hc
  | negotiateTLS serverName => exact absurd rfl hc
  | authenticatePostgres layer user password => exact h.logIn hc _
  | authenticateMySQL layer user password database tlsConfig => exact absurd rfl hc
  | authenticateMongo layer user password authSource => exact h.logIn hc _
  | _ => exact ⟨h.up, h.login, h.pipe⟩

theorem secured_progress {s' : Net} {c : Call} (hc : OverTLS c) (h : Secured request s)
    (hprogress : Net.Progress s c s') : Secured request s' := by
  cases hprogress with
  | @start layer _ _ _ _ _ =>
    refine ⟨h.up, h.login, ?_⟩
    intro layer' pipe hpipe
    obtain ⟨rfl, -⟩ := Prod.mk.inj (Option.some.inj hpipe)
    cases layer with
    | plain => exact absurd rfl hc
    | tls => rfl
  | step hpipe _ =>
    refine ⟨h.up, h.login, ?_⟩
    intro layer' pipe hpipe'
    obtain ⟨rfl, -⟩ := Prod.mk.inj (Option.some.inj hpipe')
    exact h.pipe _ _ hpipe

/-! ## Programs -/

/-- A part of a handler or a probe that stays confined when every target requires TLS, and what it
leads to. -/
abbrev Confines (crypto : Crypto Key) (env : Env) (fuel : ℕ) (request : Bytes → Prop)
    (value : α → Net → Prop) (error : Net → Prop) (program : HandlerM α) (s : Net) : Prop :=
  Ensures (Net.world crypto env fuel fun rt ↦ rt.sslMode = sslModeRequire) (Confined request)
    (OnReturn value error) program s

theorem confines_clientSide {program : HandlerM α} (hcalls : program.Calls ClientSide)
    (hs : Idle request dialled s) :
    Confines crypto env fuel request (fun _ ↦ SameUpstream s) (SameUpstream s) program s := by
  apply ensures_onReturn
  apply Net.ensures_of_calls (P := ClientSide)
  · exact fun s' hsame ↦ (hs.of_same hsame).confined
  · intro s' c hc hsame
    exact hsame.trans (Net.sameUpstream_handler hc s')
  · intro s' c s'' hc _ hprogress
    cases hprogress with
    | start _ _ _ => exact absurd rfl (hc _)
    | step _ _ => exact absurd rfl (hc _)
  · exact hcalls
  · exact .refl s

theorem confines_overTLS {program : HandlerM α} (hcalls : program.Calls OverTLS)
    (hs : Secured request s) :
    Confines crypto env fuel request (fun _ _ ↦ True) (fun _ ↦ True) program s := by
  have hkeeps : Ensures (Net.world crypto env fuel fun rt ↦ rt.sslMode = sslModeRequire)
      (Confined request) (fun _ ↦ Secured request) program s := by
    apply Net.ensures_of_calls (P := OverTLS)
    · exact fun _ hs ↦ hs.confined
    · exact fun _ _ hc hs ↦ secured_handler hc hs
    · exact fun _ _ _ hc hs hprogress ↦ secured_progress hc hs hprogress
    · exact hcalls
    · exact hs
  exact ensures_mono (ensures_onReturn hkeeps) (fun _ _ _ ↦ trivial) fun _ _ ↦ trivial

/-- Nothing was dialled yet. -/
structure Undialled (request : Bytes → Prop) (dialled : Except GoError Link) (s : Net) : Prop
    extends Idle request dialled s where
  up : s.up = none

theorem Undialled.of_same {s' : Net} (h : Undialled request dialled s) (hsame : SameUpstream s s') :
    Undialled request dialled s' := by
  refine ⟨h.toIdle.of_same hsame, ?_⟩
  obtain ⟨_, _, rfl⟩ := hsame
  exact h.up

theorem confines_undialled {program : HandlerM α} (hcalls : program.Calls ClientSide)
    (hs : Undialled request dialled s) :
    Confines crypto env fuel request (fun _ ↦ Undialled request dialled) (fun _ ↦ True) program s :=
  ensures_mono (confines_clientSide hcalls hs.toIdle) (fun _ _ hsame ↦ hs.of_same hsame)
    fun _ _ ↦ trivial

/-- The connection is there, and nothing was written on it. -/
structure Connected (request : Bytes → Prop) (target : Except GoError Link) (s : Net) : Prop
    extends Idle request target s where
  up : ∃ link, target = .ok link ∧ s.up = some link ∧ link.plain.output = []

theorem confines_dial (hfresh : Fresh dialled) (hs : Undialled request dialled s) (host : Bytes)
    (port : ℤ) :
    Confines crypto env fuel request (fun _ ↦ Connected request dialled) (Idle request dialled)
      (Handler.dial host port) s := by
  apply Net.ensures_direct (c := .dial host port) trivial hs.confined
  simp only [Net.handler]
  cases hdialled : s.dialled with
  | error err => exact ⟨hs.confined, hs.toIdle⟩
  | ok link =>
    have hlink : dialled = .ok link := hs.dialled.symm.trans hdialled
    have hempty := (hfresh link hlink).1
    have hidle : Idle request dialled { s with dialled := .ok link, up := some link } := by
      refine ⟨hlink.symm, hs.login, hs.pipe, ?_, hs.silence⟩
      intro link' hup
      obtain rfl := Option.some.inj hup
      rw [hempty]
      exact hs.silence
    exact ⟨hidle.confined, hidle, link, hlink, rfl, hempty⟩

/-- The negotiation of PostgreSQL. -/
theorem confines_negotiateTLS (hs : Connected PostgresRequest dialled s) (serverName : Bytes) :
    Confines crypto env fuel PostgresRequest (fun _ ↦ Secured PostgresRequest)
      (Idle PostgresRequest dialled) (Handler.negotiateTLS serverName) s := by
  obtain ⟨link, -, hup, hempty⟩ := hs.up
  obtain ⟨⟨written, hpart, houtput⟩, htls⟩ := Postgres.plain_negotiateUpstreamTLS link
  have hrequest : PostgresRequest (Postgres.negotiateUpstreamTLS link).2.plain.output := by
    rw [houtput, hempty, List.nil_append]
    exact hpart
  have hidle : Idle PostgresRequest dialled
      { s with up := some (Postgres.negotiateUpstreamTLS link).2 } := by
    refine ⟨hs.dialled, hs.login, hs.pipe, ?_, hs.silence⟩
    intro link' hup'
    obtain rfl := Option.some.inj hup'
    exact hrequest
  apply Net.ensures_direct (c := .negotiateTLS serverName) trivial hs.confined
  simp only [Net.handler, hup]
  refine ⟨hidle.confined, onReturn_of_forall _ (fun _ hok ↦ ?_) fun _ _ ↦ hidle⟩
  exact ⟨⟨_, rfl, hrequest, htls hok⟩, hidle.confined.login, hidle.pipe_tls⟩

/-- The login of MySQL. -/
theorem confines_authenticateMySQL (hs : Connected (MysqlRequest dialled) dialled s)
    {tlsConfig : Option Bytes} {serverName : Bytes} (htls : tlsConfig = some serverName)
    (user password database : Bytes) :
    Confines crypto env fuel (MysqlRequest dialled)
      (fun result s' ↦ result.1 = .tls ∧ Secured (MysqlRequest dialled) s')
      (Idle (MysqlRequest dialled) dialled)
      (Handler.authenticateMySQL .plain user password database tlsConfig) s := by
  subst htls
  obtain ⟨link, rfl, hup, hempty⟩ := hs.up
  apply Net.ensures_direct (c := .authenticateMySQL .plain _ _ _ _) trivial hs.confined
  simp only [Net.handler, Net.logInMySQL, hup]
  rcases hexec : (Mysql.authenticateUpstreamMySQL crypto fuel .plain user password database false
    (some serverName)).exec Mysql.Upstream.handler ⟨link, s.seeds⟩ with ⟨result, u⟩
  obtain ⟨hrequest, hok⟩ := Mysql.authenticateOverTls crypto fuel user password database serverName
    hempty s.seeds hexec
  have hidle (seeds : List Bytes) : Idle (MysqlRequest (.ok link)) (.ok link)
      { s with up := some u.link, seeds := seeds } := by
    refine ⟨hs.dialled, hs.login, hs.pipe, ?_, hs.silence⟩
    intro link' hup'
    obtain rfl := Option.some.inj hup'
    exact hrequest
  cases result with
  | error fault =>
    refine ⟨(hidle _).confined, onReturn_of_forall _ (fun _ hresult ↦ ?_) fun _ _ ↦ hidle _⟩
    cases hresult
  | ok value =>
    obtain ⟨hlayer, hisSome⟩ := hok value rfl
    have hsecured (seeds : List Bytes) : Secured (MysqlRequest (.ok link))
        { s with up := some u.link, login := some (value.1, u.link), seeds := seeds } := by
      refine ⟨⟨_, rfl, hrequest, hisSome⟩, ?_, (hidle seeds).pipe_tls⟩
      intro layer link' hlogin
      obtain ⟨rfl, rfl⟩ := Prod.mk.inj (Option.some.inj hlogin)
      exact ⟨hlayer, hisSome⟩
    exact ⟨(hsecured _).confined, hlayer, hsecured _⟩

/-! ## PostgreSQL -/

/-- A program that does not come back to the upstream. -/
theorem confines_giveUp {program : HandlerM α} (hcalls : program.Calls ClientSide)
    (hs : Idle request dialled s) :
    Confines crypto env fuel request (fun _ _ ↦ True) (fun _ ↦ True) program s :=
  ensures_mono (confines_clientSide hcalls hs) (fun _ _ _ ↦ trivial) fun _ _ ↦ trivial

theorem confines_dialPostgres (hfresh : Fresh dialled) (hs : Undialled PostgresRequest dialled s)
    {rt : ResolvedTarget} (hrequire : rt.sslMode = sslModeRequire) :
    Confines crypto env fuel PostgresRequest
      (fun layer s' ↦ layer = .tls ∧ Secured PostgresRequest s') (fun _ ↦ True)
      (dialPostgres env rt) s := by
  apply ensures_bind (ensures_orElse (confines_dial hfresh hs rt.host rt.port) fun _ _ _ hs ↦
    confines_giveUp (calls_writeErrorResponse _ _) hs)
  intro _ s _ hs
  rw [if_pos hrequire]
  apply ensures_bind (ensures_orElse (confines_negotiateTLS hs rt.host) fun _ _ _ hs ↦
    confines_giveUp (calls_writeErrorResponse_close _ _ _) hs)
  intro _ s _ hs
  exact ⟨hs.confined, rfl, hs⟩

theorem calls_loginPostgres (rt : ResolvedTarget) (upStartup : Bytes) :
    (loginPostgres env rt .tls upStartup).Calls OverTLS := by
  have hwrite : (Handler.write (.upstream .tls) upStartup).Calls OverTLS := ⟨nofun, fun _ ↦ trivial⟩
  have hauthenticate : (Handler.authenticatePostgres .tls rt.user rt.password).Calls OverTLS :=
    ⟨nofun, fun _ ↦ trivial⟩
  apply (calls_orElse hwrite _).bind
  · intro _
    apply calls_orElse hauthenticate
    exact fun _ ↦ (calls_writeErrorResponse_close _ _ _).mono fun _ hc ↦ overTLS_of_clientSide hc
  · exact fun _ ↦ (calls_writeErrorResponse_close _ _ _).mono fun _ hc ↦ overTLS_of_clientSide hc

theorem confines_handleStartup (hfresh : Fresh dialled) (hs : Undialled PostgresRequest dialled s)
    (msgLen : ℕ) :
    Confines crypto env fuel PostgresRequest (fun _ _ ↦ True) (fun _ ↦ True)
      (handleStartup env msgLen) s := by
  have hread : (Handler.readFull (msgLen - 8)).Calls ClientSide := ⟨nofun, fun _ ↦ trivial⟩
  apply ensures_bind (ensures_onError (confines_undialled hread hs))
  intro body s' hconfined hs'
  apply ensures_liftBind hconfined trivial
  intro params _
  apply Net.ensures_lookupDatabase hconfined
  intro found
  cases found with
  | false => exact confines_giveUp (calls_writeErrorResponse _ _) hs'.toIdle
  | true =>
    apply Net.ensures_current hconfined
    intro target hallowed
    cases target with
    | none => exact confines_giveUp (calls_writeErrorResponse _ _) hs'.toIdle
    | some rt =>
      apply ensures_liftBind hconfined trivial
      intro upStartup _
      apply ensures_bind (confines_dialPostgres hfresh hs' (hallowed rt rfl))
      rintro _ s'' _ ⟨rfl, hs''⟩
      apply confines_overTLS _ hs''
      apply (calls_loginPostgres rt upStartup).bind
      exact fun _ ↦ (Net.calls_tunnel .tls rt).mono fun _ hc ↦ overTLS_of_serves hc

theorem confines_dispatchLoop (hfresh : Fresh dialled) (hs : Undialled PostgresRequest dialled s)
    (attempts : ℕ) :
    Confines crypto env fuel PostgresRequest (fun _ _ ↦ True) (fun _ ↦ True)
      (dispatchLoop env attempts) s := by
  induction attempts generalizing s with
  | zero => exact ⟨hs.confined, trivial⟩
  | succ attempts ih =>
    apply ensures_bind (ensures_onError (confines_undialled calls_readUint32 hs))
    intro msgLen s hconfined hs
    apply ensures_liftBind hconfined trivial
    intro _ _
    apply ensures_bind (ensures_onError (confines_undialled calls_readUint32 hs))
    intro code s hconfined hs
    split
    · have hreject : (Handler.write .client [ascii 'N']).Calls ClientSide := ⟨nofun, fun _ ↦ trivial⟩
      apply ensures_bind (ensures_onError (confines_undialled hreject hs))
      exact fun _ s _ hs ↦ ih hs
    split
    · have hread : (Handler.readFull (msgLen.toNat - 8)).Calls ClientSide :=
        ⟨nofun, fun _ ↦ trivial⟩
      apply confines_giveUp _ hs.toIdle
      exact (calls_onError hread).bind fun _ ↦ trivial
    split
    · exact confines_handleStartup hfresh hs _
    · exact ⟨hconfined, trivial⟩

theorem calls_probeLoginPostgres (rt : ResolvedTarget) :
    (probeLoginPostgres rt .tls).Calls OverTLS := by
  have hencode : (Program.lift (Postgres.encodeStartup (probeParams rt)) : HandlerM Bytes).Calls
      OverTLS := trivial
  apply hencode.bind
  intro upStartup
  have hwrite : (Handler.write (.upstream .tls) upStartup).Calls OverTLS := ⟨nofun, fun _ ↦ trivial⟩
  apply (calls_onError hwrite).bind
  intro _
  apply calls_onError
  exact ⟨nofun, fun _ ↦ trivial⟩

/-- The connection of a probe is closed at the end, and nothing else happens then. -/
theorem confines_closing {program : HandlerM Unit}
    (h : Confines crypto env fuel request (fun _ _ ↦ True) (fun _ ↦ True) program s) :
    Confines crypto env fuel request (fun _ _ ↦ True) (fun _ ↦ True)
      (deferring (Handler.close (.upstream .plain)) program) s := by
  apply ensures_deferring
  apply h.and_always.mono
  intro result s hs _
  apply Net.ensures_direct (c := .close (.upstream .plain)) trivial hs.1
  exact ⟨hs.1, onReturn_of_forall result (fun _ _ ↦ trivial) fun _ _ ↦ trivial⟩

theorem confines_probeConn (hs : Connected PostgresRequest dialled s) {rt : ResolvedTarget}
    (hrequire : rt.sslMode = sslModeRequire) :
    Confines crypto env fuel PostgresRequest
      (fun layer s' ↦ layer = .tls ∧ Secured PostgresRequest s') (fun _ ↦ True) (probeConn rt) s := by
  rw [probeConn, if_pos hrequire]
  apply ensures_bind (ensures_onError (ensures_mono (confines_negotiateTLS hs rt.host)
    (fun _ _ hs ↦ hs) fun _ _ ↦ trivial))
  intro _ s _ hs
  exact ⟨hs.confined, rfl, hs⟩

theorem confines_probePostgres (hfresh : Fresh dialled) (hs : Undialled PostgresRequest dialled s)
    {rt : ResolvedTarget} (hrequire : rt.sslMode = sslModeRequire) (steps : ℕ) :
    Confines crypto env fuel PostgresRequest (fun _ _ ↦ True) (fun _ ↦ True)
      (probePostgres rt steps) s := by
  apply ensures_bind (ensures_onError (ensures_mono (confines_dial hfresh hs rt.host rt.port)
    (fun _ _ hs ↦ hs) fun _ _ ↦ trivial))
  intro _ s _ hs
  apply confines_closing
  apply ensures_bind (confines_probeConn hs hrequire)
  rintro _ s _ ⟨rfl, hs⟩
  apply confines_overTLS _ hs
  apply (calls_probeLoginPostgres rt).bind
  exact fun _ ↦ (Net.calls_probeQueryPostgres .tls steps).mono fun _ hc ↦ overTLS_of_serves hc

/-! ## MySQL -/

theorem mysqlTLSConfig_of_require {rt : ResolvedTarget} (hrequire : rt.sslMode = sslModeRequire) :
    mysqlTLSConfig rt = some rt.host := if_pos hrequire

theorem confines_loginMySQL (hfresh : Fresh dialled)
    (hs : Undialled (MysqlRequest dialled) dialled s) {rt : ResolvedTarget}
    (hrequire : rt.sslMode = sslModeRequire) (login : ClientLogin) :
    Confines crypto env fuel (MysqlRequest dialled)
      (fun result s' ↦ result.1 = .tls ∧ Secured (MysqlRequest dialled) s') (fun _ ↦ True)
      (loginMySQL env rt login) s := by
  apply ensures_bind (ensures_orElse (confines_dial hfresh hs rt.host rt.port) fun _ _ _ hs ↦
    confines_giveUp (calls_writeMySQLErr _ _ _ _) hs)
  intro _ s _ hs
  apply ensures_orElse (confines_authenticateMySQL hs (mysqlTLSConfig_of_require hrequire) _ _ _)
  intro _ s _ hs
  apply confines_giveUp _ hs
  exact (calls_writeMySQLErr _ _ _ _).bind fun _ ↦ ⟨nofun, fun _ ↦ trivial⟩

theorem confines_dispatchMySQL (hfresh : Fresh dialled)
    (hs : Undialled (MysqlRequest dialled) dialled s) :
    Confines crypto env fuel (MysqlRequest dialled) (fun _ _ ↦ True) (fun _ ↦ True)
      (dispatchMySQL env) s := by
  have hseq : Handler.connSeq.Calls ClientSide := ⟨nofun, fun _ ↦ trivial⟩
  apply ensures_bind (confines_undialled hseq hs)
  intro connID s _ hs
  apply ensures_bind (ensures_onError
    (confines_undialled (calls_greetClientMySQL mysqlServerVersion connID) hs))
  intro login s hconfined hs
  apply Net.ensures_lookupDatabase hconfined
  intro found
  cases found with
  | false => exact confines_giveUp (calls_writeMySQLErr _ _ _ _) hs.toIdle
  | true =>
    apply Net.ensures_current hconfined
    intro target hallowed
    cases target with
    | none => exact confines_giveUp (calls_writeMySQLErr _ _ _ _) hs.toIdle
    | some rt =>
      apply ensures_bind (confines_loginMySQL hfresh hs (hallowed rt rfl) login)
      rintro ⟨_, upCaps⟩ s _ ⟨rfl, hs⟩
      apply confines_overTLS _ hs
      exact (Net.calls_concludeMySQL .tls rt login upCaps).mono fun _ hc ↦ overTLS_of_serves hc

theorem confines_probeMySQL (hfresh : Fresh dialled)
    (hs : Undialled (MysqlRequest dialled) dialled s) {rt : ResolvedTarget}
    (hrequire : rt.sslMode = sslModeRequire) :
    Confines crypto env fuel (MysqlRequest dialled) (fun _ _ ↦ True) (fun _ ↦ True)
      (probeMySQL rt) s := by
  apply ensures_bind (ensures_onError (ensures_mono (confines_dial hfresh hs rt.host rt.port)
    (fun _ _ hs ↦ hs) fun _ _ ↦ trivial))
  intro _ s _ hs
  apply confines_closing
  apply ensures_bind (ensures_onError (ensures_mono (confines_authenticateMySQL hs
    (mysqlTLSConfig_of_require hrequire) _ _ _) (fun _ _ hs ↦ hs) fun _ _ ↦ trivial))
  rintro ⟨_, _⟩ s _ ⟨rfl, hs⟩
  apply confines_overTLS _ hs
  exact (Net.calls_probeQueryMySQL .tls).mono fun _ hc ↦ overTLS_of_serves hc

/-! ## Whole runs -/

theorem undialled_accept (hsilence : request []) (net : Net) (input : Bytes) (room : Option ℕ)
    (chunks : List ℕ) : Undialled request net.dialled (net.accept input room chunks) where
  dialled := rfl
  login := rfl
  pipe := rfl
  outside _ hup := nomatch hup
  silence := hsilence
  up := rfl

theorem mysqlRequest_nil (dialled : Except GoError Link) : MysqlRequest dialled [] := by
  cases dialled with
  | ok link => exact .inl rfl
  | error err => rfl

/-- The runs of a program for which every target requires TLS, from a client that was just
accepted. -/
abbrev RequireRun (crypto : Crypto Key) (env : Env) (fuel : ℕ) (program : HandlerM Unit)
    (start : Net) (state : HandlerM Unit × Net) : Prop :=
  Run (Net.world crypto env fuel fun rt ↦ rt.sslMode = sslModeRequire).Step (program, start) state

/-- Whatever the upstream sends and wherever it fails, `sslmode=require` is never served in
plaintext: at every moment of every run of the two handlers and the two probes, the TCP connection
has seen nothing but a beginning of the request for TLS, which has 8 bytes in PostgreSQL and is one
packet of 36 bytes in MySQL that only a server which offers TLS is sent, and no login was accepted
except over TLS. -/
theorem require_never_plaintext (crypto : Crypto Key) (env : Env) (fuel : ℕ) (net : Net)
    (hfresh : Fresh net.dialled) (input : Bytes) (room : Option ℕ) (chunks : List ℕ) :
    Postgres.sslRequest.length = 8 ∧
    (∀ seq hs withDB, (Mysql.sslRequestPacket seq hs withDB).length = 36) ∧
    (∀ state, RequireRun crypto env fuel (dispatch env) (net.accept input room chunks) state →
      Confined PostgresRequest state.2) ∧
    (∀ state, RequireRun crypto env fuel (dispatchMySQL env) (net.accept input room chunks) state →
      Confined (MysqlRequest net.dialled) state.2) ∧
    ∀ rt : ResolvedTarget, rt.sslMode = sslModeRequire →
      (∀ steps state, RequireRun crypto env fuel (probePostgres rt steps)
          (net.accept input room chunks) state → Confined PostgresRequest state.2) ∧
      ∀ state, RequireRun crypto env fuel (probeMySQL rt) (net.accept input room chunks) state →
        Confined (MysqlRequest net.dialled) state.2 := by
  have hnothing : PostgresRequest [] := List.nil_prefix
  have hpostgres : Undialled PostgresRequest net.dialled (net.accept input room chunks) :=
    undialled_accept hnothing net input room chunks
  have hmysql : Undialled (MysqlRequest net.dialled) net.dialled (net.accept input room chunks) :=
    undialled_accept (mysqlRequest_nil _) net input room chunks
  refine ⟨rfl, Mysql.length_sslRequestPacket, ?_, ?_, fun rt hrequire ↦ ⟨?_, ?_⟩⟩
  · exact fun state hrun ↦ ((confines_dispatchLoop hfresh hpostgres 2).sound hrun).1
  · exact fun state hrun ↦ ((confines_dispatchMySQL hfresh hmysql).sound hrun).1
  · exact fun steps state hrun ↦
      ((confines_probePostgres hfresh hpostgres hrequire steps).sound hrun).1
  · exact fun state hrun ↦ ((confines_probeMySQL hfresh hmysql hrequire).sound hrun).1

/-- An upstream that agrees to TLS and asks for no password over it. -/
def encryptingUpstream : Link where
  plain := ⟨[ascii 'S'], [], none⟩
  tls := none
  handshake := .ok ⟨Tunnel.authenticationOk, [], none⟩

def requiringTarget : ResolvedTarget := { Tunnel.trustingTarget with sslMode := sslModeRequire }

/-- A MySQL server that offers TLS and accepts every login over it. -/
def encryptingMysqlUpstream : Link where
  plain := ⟨Mysql.packetBytes 0 (Mysql.encodeHandshakeV10 (str "8.0.36") 7
    (mysqlProxyClientCaps ||| Mysql.clientSSL) Mysql.defaultCharsetUTF8MB4 serverStatusAutocommit
    Mysql.mySQLNativePassword (List.replicate 20 1)), [], none⟩
  tls := none
  handshake := .ok
    ⟨Mysql.packetBytes 3 (Mysql.encodeOKPacket 0 0 serverStatusAutocommit 0), [], none⟩

def mysqlClient : Bytes :=
  Mysql.packetBytes 1 (Mysql.encodeHandshakeResponse41 mysqlProxyClientCaps
    Mysql.defaultCharsetUTF8MB4 (str "app") [] (str "app_dev") Mysql.mySQLNativePassword)

/-- A whole run with a client whose database is on the target above. -/
theorem requireRun_exec (program : HandlerM Unit) (start : Net) :
    RequireRun Net.openCrypto Mongo.openEnv 1 program start
      (.done (program.exec (Net.answering Net.openCrypto Mongo.openEnv 1 requiringTarget) start).1,
        (program.exec (Net.answering Net.openCrypto Mongo.openEnv 1 requiringTarget) start).2) := by
  have hrequire : requiringTarget.sslMode = sslModeRequire := rfl
  exact Program.run_exec (fun s c ↦ Net.reply_answering Net.openCrypto Mongo.openEnv 1 hrequire s c)
    program start

/-- In some run of the program a login is accepted, and it is confined. -/
def LogsInConfined (request : Bytes → Prop) (program : HandlerM Unit) (start : Net) : Prop :=
  ∃ state, RequireRun Net.openCrypto Mongo.openEnv 1 program start state ∧
    state.2.login.isSome ∧ Confined request state.2

/-- Both handlers and both probes log in to the upstreams above, over TLS. -/
theorem require_never_plaintext_logins :
    LogsInConfined PostgresRequest (dispatch Mongo.openEnv)
        ((Net.reaching (.ok encryptingUpstream)).accept Tunnel.eagerClient.frame none []) ∧
      LogsInConfined (MysqlRequest (.ok encryptingMysqlUpstream)) (dispatchMySQL Mongo.openEnv)
        ((Net.reaching (.ok encryptingMysqlUpstream)).accept mysqlClient none []) ∧
      LogsInConfined PostgresRequest (probePostgres requiringTarget 1)
        ((Net.reaching (.ok encryptingUpstream)).accept [] none []) ∧
      LogsInConfined (MysqlRequest (.ok encryptingMysqlUpstream)) (probeMySQL requiringTarget)
        ((Net.reaching (.ok encryptingMysqlUpstream)).accept [] none []) := by
  have hfresh : Fresh (Net.reaching (.ok encryptingUpstream)).dialled := by
    intro link hlink
    obtain rfl := Except.ok.inj hlink
    exact ⟨rfl, rfl⟩
  have hfreshMysql : Fresh (Net.reaching (.ok encryptingMysqlUpstream)).dialled := by
    intro link hlink
    obtain rfl := Except.ok.inj hlink
    exact ⟨rfl, rfl⟩
  have hpostgres := require_never_plaintext Net.openCrypto Mongo.openEnv 1 _ hfresh
  have hmysql := require_never_plaintext Net.openCrypto Mongo.openEnv 1 _ hfreshMysql
  refine ⟨⟨_, requireRun_exec _ _, ?_, ?_⟩, ⟨_, requireRun_exec _ _, ?_, ?_⟩,
    ⟨_, requireRun_exec _ _, ?_, ?_⟩, ⟨_, requireRun_exec _ _, ?_, ?_⟩⟩
  · rfl
  · exact (hpostgres _ _ _).2.2.1 _ (requireRun_exec _ _)
  · decide +kernel
  · exact (hmysql _ _ _).2.2.2.1 _ (requireRun_exec _ _)
  · rfl
  · exact ((hpostgres _ _ _).2.2.2.2 requiringTarget rfl).1 _ _ (requireRun_exec _ _)
  · decide +kernel
  · exact ((hmysql _ _ _).2.2.2.2 requiringTarget rfl).2 _ (requireRun_exec _ _)

end DbPivot.Proxy.Encryption
