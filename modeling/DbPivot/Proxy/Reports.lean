import DbPivot.Go.Trace
import DbPivot.Postgres.ErrorResponse
import DbPivot.Proxy.Net

/-!
# What a PostgreSQL client is told when it cannot be served

`handleStartup` gives up for six reasons and tells the client each time with an ErrorResponse: the
database is not configured, it has no active target, the dial fails, the TLS negotiation fails, the
StartupMessage cannot be written, the login fails. The texts quote what the client or the upstream
has sent.

The first five are in order whatever was sent. The sixth is not when the upstream garbles the error
of the login (`reportsIntact_iff`): the client then gets a message that is cut short, and behind it
bytes that do not belong to any field.
-/

namespace DbPivot.Proxy.Reports

open DbPivot.Go DbPivot.Config DbPivot.System
open DbPivot.Mongo (Env)
open DbPivot.Mysql (Crypto)
open DbPivot.Postgres (ascii Intact Garbles Garbled)

variable {Key : Type}

/-- The calls when the lookups have the given answers; a switch may come between the two. -/
def replying (crypto : Crypto Key) (env : Env) (fuel : ℕ) (found : Bytes → Bytes → Bool)
    (target : Bytes → Bytes → Option ResolvedTarget) : Handler handlerInterface Net
  | .lookupDatabase adapter name, s => (found adapter name, s)
  | .current adapter name, s => (target adapter name, s)
  | c, s => Net.handler crypto env fuel c s

/-- Every ErrorResponse that the program writes to the client is in order. -/
def ReportsIntact (handler : Handler handlerInterface Net) (program : HandlerM Unit) (s : Net) :
    Prop :=
  ∀ body, program.Makes handler (· = .writeMessage .client (ascii 'E') body) s → Intact body

/-- The texts of `net` and `crypto/tls` have no NUL in them. -/
structure Legible (isPrint : ℕ → Bool) (s : Net) : Prop where
  dial : ∀ err, s.dialled = .error err → ¬ Garbles isPrint err
  handshake : ∀ link err, s.dialled = .ok link → link.handshake = .error err → ¬ Garbles isPrint err

/-! ## Where the login starts -/

/-- The connection that the login of a target uses: the one that was dialled, or the one of a TLS
handshake that the upstream has agreed to. -/
def Opens (rt : ResolvedTarget) (link : Link) (conn : Socket) : Prop :=
  if rt.sslMode = sslModeRequire then
    Takes link.plain.room Postgres.sslRequest ∧ link.plain.input.head? = some (ascii 'S') ∧
      link.handshake = .ok conn
  else conn = link.plain

/-- The login at a target is reached, with this to come from the upstream and this much room. -/
inductive LoginReached (found : Bytes → Bytes → Bool)
    (target : Bytes → Bytes → Option ResolvedTarget) (msgLen : ℕ) (s : Net) :
    ResolvedTarget → Bytes → Option ℕ → Prop
  | intro {body rest : Bytes} {params : List Postgres.KV} {rt : ResolvedTarget} {link : Link}
      {conn : Socket} (hlength : body.length = msgLen - 8) (hstream : s.client.stream = body ++ rest)
      (hparams : Postgres.parseStartupBody body = .ok params)
      (hfound : found adapterPostgres (startupDatabase params) = true)
      (htarget : target adapterPostgres (startupDatabase params) = some rt)
      (hdial : s.dialled = .ok link) (hopened : Opens rt link conn)
      (hwrite : Takes conn.room (Postgres.startupFrame (upstreamParams params rt))) :
      LoginReached found target msgLen s rt conn.input
        (roomAfter conn.room (Postgres.startupFrame (upstreamParams params rt)))

/-- The upstream garbles the error of the login. -/
def GarbledLogin (bad : GoError → Prop) (env : Env) (found : Bytes → Bytes → Bool)
    (target : Bytes → Bytes → Option ResolvedTarget) (msgLen : ℕ) (s : Net) : Prop :=
  ∃ rt input room, LoginReached found target msgLen s rt input room ∧
    Garbled bad env rt.user rt.password room input

/-! ## Calls that spoil nothing -/

/-- An ErrorResponse to the client that is not in order. -/
def Spoiled : Call → Prop
  | .writeMessage .client typ body => typ = ascii 'E' ∧ ¬ Intact body
  | _ => False

theorem reportsIntact_iff_not_makes {handler : Handler handlerInterface Net}
    {program : HandlerM Unit} {s : Net} :
    ReportsIntact handler program s ↔ ¬ program.Makes handler Spoiled s := by
  rw [Program.makes_iff_exists]
  constructor
  · rintro h ⟨c, hspoiled, hmakes⟩
    unfold Spoiled at hspoiled
    split at hspoiled
    · obtain ⟨rfl, hbroken⟩ := hspoiled
      exact hbroken (h _ hmakes)
    · exact hspoiled
  · intro h body hmakes
    by_contra hbroken
    exact h ⟨.writeMessage .client (ascii 'E') body, ⟨rfl, hbroken⟩, hmakes⟩

section Handler

variable {crypto : Crypto Key} {env : Env} {fuel : ℕ} {found : Bytes → Bytes → Bool}
  {target : Bytes → Bytes → Option ResolvedTarget} {isPrint : ℕ → Bool} {s s' : Net}

theorem makes_writeErrorResponse {handler : Handler handlerInterface Net} {code message : Bytes}
    (hne : code ≠ []) (hcode : 0 ∉ code) :
    (writeErrorResponse code message).Makes handler Spoiled s ↔ 0 ∈ message := by
  rw [writeErrorResponse, makes_ignoring]
  refine (or_iff_left id).trans ((and_iff_right rfl).trans ?_)
  rw [Postgres.intact_iff hne hcode, not_not]

/-- The ErrorResponse of an error, and the connection to the upstream closed behind it. -/
theorem makes_report {handler : Handler handlerInterface Net} {code message : Bytes} {layer : Layer}
    (hne : code ≠ []) (hcode : 0 ∉ code) :
    (do writeErrorResponse code message; Handler.close (.upstream layer)).Makes handler Spoiled s ↔
      0 ∈ message := by
  rw [Program.makes_bind, makes_writeErrorResponse hne hcode]
  refine or_iff_left ?_
  rintro ⟨_, _, -, h⟩
  exact h.elim id id

theorem calls_tunnel (layer : Layer) (rt : ResolvedTarget) : (do
    orElse (onError (wrapf "write AuthenticationOk to client: %w" []) writeAuthenticationOk)
      fun _ ↦ Handler.close (.upstream layer)
    flushBuffered layer
    serveConn layer rt : HandlerM Unit).Calls fun c ↦ ¬ Spoiled c := by
  have hok : writeAuthenticationOk.Calls fun c ↦ ¬ Spoiled c := by
    refine ⟨fun h ↦ ?_, fun _ ↦ trivial⟩
    exact absurd h.1 (by decide)
  have hclose : (Handler.close (.upstream layer)).Calls fun c ↦ ¬ Spoiled c := ⟨id, fun _ ↦ trivial⟩
  have hflush : (flushBuffered layer).Calls fun c ↦ ¬ Spoiled c := by
    have hpeek : Handler.peek.Calls fun c ↦ ¬ Spoiled c := ⟨id, fun _ ↦ trivial⟩
    refine hpeek.bind fun buffered ↦ ?_
    split
    · have hwrite : (Handler.write (.upstream layer) buffered).Calls fun c ↦ ¬ Spoiled c :=
        ⟨id, fun _ ↦ trivial⟩
      exact (calls_orElse hwrite fun _ ↦ hclose).bind fun _ ↦ ⟨id, fun _ ↦ trivial⟩
    · trivial
  have hserve : (serveConn layer rt).Calls fun c ↦ ¬ Spoiled c :=
    ⟨id, fun _ ↦ ⟨id, fun _ ↦ ⟨id, fun _ ↦ trivial⟩⟩⟩
  exact (calls_orElse (calls_onError hok) fun _ ↦ hclose).bind fun _ ↦
    hflush.bind fun _ ↦ hserve

/-! ## The dial -/

variable {rt : ResolvedTarget}

theorem garbles_report {format : String} (hformat : Verbs format [.verb 'v']) (err : GoError) :
    0 ∈ errorText isPrint (wrapf format [] err) ↔ Garbles isPrint err :=
  zero_mem_errorText_wrapf hformat (.inr rfl) err

theorem exec_dial_of_ok {link : Link} (hdialled : s.dialled = .ok link) (host : Bytes) (port : ℤ) :
    (Handler.dial host port).exec (replying crypto env fuel found target) s =
      (.ok (), { s with up := some link }) := by
  change Net.handler crypto env fuel (.dial host port) s = _
  simp only [Net.handler, hdialled]

theorem exec_dial_of_error {err : GoError} (hdialled : s.dialled = .error err) (host : Bytes)
    (port : ℤ) :
    (Handler.dial host port).exec (replying crypto env fuel found target) s = (fail err, s) := by
  change Net.handler crypto env fuel (.dial host port) s = _
  simp only [Net.handler, hdialled]

theorem exec_dial_eq_ok {host : Bytes} {port : ℤ}
    (h : (Handler.dial host port).exec (replying crypto env fuel found target) s = (.ok (), s')) :
    ∃ link, s.dialled = .ok link ∧ s' = { s with up := some link } := by
  cases hdialled : s.dialled with
  | ok link =>
    rw [exec_dial_of_ok hdialled] at h
    exact ⟨link, rfl, hdialled ▸ (Prod.mk.inj h).2.symm⟩
  | error err =>
    rw [exec_dial_of_error hdialled] at h
    cases (Prod.mk.inj h).1

theorem exec_dial_eq_fail {host : Bytes} {port : ℤ} {err : GoError}
    (h : (Handler.dial host port).exec (replying crypto env fuel found target) s = (fail err, s')) :
    s.dialled = .error err := by
  cases hdialled : s.dialled with
  | ok link =>
    rw [exec_dial_of_ok hdialled] at h
    cases (Prod.mk.inj h).1
  | error err' =>
    rw [exec_dial_of_error hdialled] at h
    exact congrArg Except.error (Fault.err.inj (Except.error.inj (Prod.mk.inj h).1))

theorem exec_negotiateTLS {link : Link} (hup : s.up = some link) (serverName : Bytes) :
    (Handler.negotiateTLS serverName).exec (replying crypto env fuel found target) s =
      ((Postgres.negotiateUpstreamTLS link).1,
        { s with up := some (Postgres.negotiateUpstreamTLS link).2 }) := by
  change Net.handler crypto env fuel (.negotiateTLS serverName) s = _
  simp only [Net.handler, hup]

/-- A dial or a negotiation that fails is reported in order. -/
theorem not_makes_dialPostgres (hprint : isPrint 0 = false)
    (hrender : ∀ err, env.render err = errorText isPrint err) (hlegible : Legible isPrint s) :
    ¬ (dialPostgres env rt).Makes (replying crypto env fuel found target) Spoiled s := by
  rw [dialPostgres, Program.makes_bind, makes_orElse]
  rintro ((hdial | ⟨err, _, hfail, hreport⟩) | ⟨_, _, hok, h⟩)
  · exact hdial.elim id id
  · rw [makes_writeErrorResponse (by decide) (by decide), hrender, garbles_report (by decide)]
      at hreport
    exact hlegible.dial err (exec_dial_eq_fail hfail) hreport
  · obtain ⟨link, hdialled, rfl⟩ := exec_dial_eq_ok (exec_orElse_eq_ok.mp hok)
    split at h
    · rw [Program.makes_bind, makes_orElse] at h
      rcases h with (htls | ⟨err, _, hfail, hreport⟩) | ⟨_, _, -, hpure⟩
      · exact htls.elim id id
      · rw [makes_report (by decide) (by decide), hrender, garbles_report (by decide)] at hreport
        rw [exec_negotiateTLS rfl] at hfail
        exact Postgres.not_failsWith_negotiateUpstreamTLS hprint
          (fun err herr ↦ hlegible.handshake link err hdialled herr)
          ⟨err, (Prod.mk.inj hfail).1, hreport⟩
      · exact hpure
    · exact h

/-- The connection of a dial that succeeds. -/
theorem exec_dialPostgres_eq_ok {layer : Layer}
    (h : (dialPostgres env rt).exec (replying crypto env fuel found target) s = (.ok layer, s')) :
    ∃ link link' conn, s.dialled = .ok link ∧ Opens rt link conn ∧ s'.up = some link' ∧
      link'.socket layer = some conn := by
  obtain ⟨_, _, hdial, hrest⟩ := Program.exec_bind_eq_ok.mp h
  obtain ⟨link, hdialled, rfl⟩ := exec_dial_eq_ok (exec_orElse_eq_ok.mp hdial)
  unfold Opens
  split at hrest
  next hmode =>
    obtain ⟨_, _, htls, hpure⟩ := Program.exec_bind_eq_ok.mp hrest
    have htlsOk := exec_orElse_eq_ok.mp htls
    rw [exec_negotiateTLS rfl] at htlsOk
    obtain ⟨hok, rfl⟩ := Prod.mk.inj htlsOk
    obtain ⟨inner, hinner, hsocket⟩ := Postgres.socket_negotiateUpstreamTLS hok
    obtain ⟨htakes, hanswer, -⟩ := Postgres.negotiateUpstreamTLS_eq_ok.mp hok
    obtain ⟨hlayer, rfl⟩ := Prod.mk.inj hpure
    obtain rfl := Except.ok.inj hlayer
    refine ⟨link, _, inner, hdialled, ?_, rfl, hsocket⟩
    rw [if_pos hmode]
    exact ⟨htakes, hanswer, hinner⟩
  next hmode =>
    obtain ⟨hlayer, rfl⟩ := Prod.mk.inj hrest
    obtain rfl := Except.ok.inj hlayer
    refine ⟨link, link, link.plain, hdialled, ?_, rfl, rfl⟩
    rw [if_neg hmode]

theorem exec_dialPostgres_of_opened {link : Link} {conn : Socket} (hdialled : s.dialled = .ok link)
    (hopened : Opens rt link conn) :
    ∃ layer s' link', (dialPostgres env rt).exec (replying crypto env fuel found target) s =
        (.ok layer, s') ∧ s'.up = some link' ∧ link'.socket layer = some conn := by
  unfold Opens at hopened
  rw [dialPostgres, Program.exec_bind_of_ok (exec_orElse_eq_ok.mpr (exec_dial_of_ok hdialled _ _))]
  split at hopened
  next hmode =>
    obtain ⟨htakes, hanswer, hinner⟩ := hopened
    have hok := Postgres.negotiateUpstreamTLS_eq_ok.mpr ⟨htakes, hanswer, conn, hinner⟩
    obtain ⟨inner, hinner', hsocket⟩ := Postgres.socket_negotiateUpstreamTLS hok
    obtain rfl := Except.ok.inj (hinner'.symm.trans hinner)
    have hexec : (Handler.negotiateTLS rt.host).exec (replying crypto env fuel found target)
        { s with up := some link } =
          (.ok (), { s with up := some (Postgres.negotiateUpstreamTLS link).2 }) := by
      rw [exec_negotiateTLS rfl, hok]
    rw [if_pos hmode, Program.exec_bind_of_ok (exec_orElse_eq_ok.mpr hexec)]
    exact ⟨.tls, _, _, rfl, rfl, hsocket⟩
  next hmode =>
    rw [if_neg hmode, hopened]
    exact ⟨.plain, _, _, rfl, rfl, rfl⟩

/-! ## The login -/

theorem exec_write {layer : Layer} {link : Link} {conn : Socket} (hup : s.up = some link)
    (hconn : link.socket layer = some conn) (bytes : Bytes) :
    ∃ link', (Handler.write (.upstream layer) bytes).exec (replying crypto env fuel found target) s =
        (((write bytes).run conn).1, { s with up := some link' }) ∧
      link'.socket layer = some ((write bytes).run conn).2 :=
  Net.onUp_of_socket hup hconn (write bytes)

theorem exec_authenticatePostgres {layer : Layer} {link : Link} {conn : Socket}
    (hup : s.up = some link) (hconn : link.socket layer = some conn) (user password : Bytes) :
    ((Handler.authenticatePostgres layer user password).exec
        (replying crypto env fuel found target) s).1 =
      ((Postgres.authenticateUpstream env user password).run conn).1 := by
  change (s.logIn layer (Postgres.authenticateUpstream env user password)).1 = _
  obtain ⟨link', -, ⟨hok, hlogIn⟩ | ⟨fault, hfault, hlogIn⟩⟩ :=
    Net.logIn_of_socket hup hconn (Postgres.authenticateUpstream env user password)
  · rw [hlogIn, hok]
  · rw [hlogIn, hfault]

/-- A login that fails is reported in order unless the upstream garbles its error. -/
theorem makes_authenticatePostgres (hrender : ∀ err, env.render err = errorText isPrint err)
    {layer : Layer} {link : Link} {input output user password : Bytes} {room : Option ℕ}
    (hup : s.up = some link) (hconn : link.socket layer = some ⟨input, output, room⟩) :
    (orElse (Handler.authenticatePostgres layer user password) fun err ↦ do
        writeErrorResponse (str "28P01") (env.render (wrapf "upstream auth failed: %v" [] err))
        Handler.close (.upstream layer)).Makes (replying crypto env fuel found target) Spoiled s ↔
      Garbled (Garbles isPrint) env user password room input := by
  rw [makes_orElse, ← Postgres.failsWith_authenticateUpstream]
  have hreport (err : GoError) (s' : Net) : (do
      writeErrorResponse (str "28P01") (env.render (wrapf "upstream auth failed: %v" [] err))
      Handler.close (.upstream layer)).Makes (replying crypto env fuel found target) Spoiled s' ↔
        Garbles isPrint err := by
    rw [makes_report (by decide) (by decide), hrender, garbles_report (by decide)]
  constructor
  · rintro (hauth | ⟨err, _, hfail, hmakes⟩)
    · exact absurd hauth (not_or.mpr ⟨id, id⟩)
    · exact ⟨err, (exec_authenticatePostgres hup hconn user password).symm.trans
        (congrArg Prod.fst hfail), (hreport err _).mp hmakes⟩
  · rintro ⟨err, herr, hbad⟩
    exact .inr ⟨err, _, Prod.ext ((exec_authenticatePostgres hup hconn user password).trans herr) rfl,
      (hreport err _).mpr hbad⟩

/-- A StartupMessage that cannot be written is reported in order. -/
theorem makes_loginPostgres (hrender : ∀ err, env.render err = errorText isPrint err)
    {layer : Layer} {link : Link} {conn : Socket} {upStartup : Bytes} (hup : s.up = some link)
    (hconn : link.socket layer = some conn) :
    (loginPostgres env rt layer upStartup).Makes (replying crypto env fuel found target) Spoiled s ↔
      Takes conn.room upStartup ∧ Garbled (Garbles isPrint) env rt.user rt.password
        (roomAfter conn.room upStartup) conn.input := by
  rcases conn with ⟨input, output, room⟩
  rw [loginPostgres, Program.makes_bind, makes_orElse]
  constructor
  · rintro ((hwrite | ⟨_, _, -, hreport⟩) | ⟨_, _, hok, h⟩)
    · exact absurd hwrite (not_or.mpr ⟨id, id⟩)
    · rw [makes_report (by decide) (by decide)] at hreport
      exact absurd hreport (by decide)
    · obtain ⟨link', hwrite, hconn'⟩ := exec_write hup hconn upStartup
      obtain ⟨hresult, rfl⟩ := Prod.mk.inj (hwrite.symm.trans (exec_orElse_eq_ok.mp hok))
      have hrun : (write upStartup).run ⟨input, output, room⟩ =
          (.ok (), ((write upStartup).run ⟨input, output, room⟩).2) := Prod.ext hresult rfl
      obtain ⟨htakes, hafter⟩ := write_eq_ok.mp hrun
      rw [hrun, hafter] at hconn'
      exact ⟨htakes, (makes_authenticatePostgres hrender rfl hconn').mp h⟩
  · rintro ⟨htakes, hgarbled⟩
    obtain ⟨link', hwrite, hconn'⟩ := exec_write hup hconn upStartup
    rw [write_eq_ok.mpr ⟨htakes, rfl⟩] at hwrite hconn'
    exact .inr ⟨(), _, exec_orElse_eq_ok.mpr hwrite,
      (makes_authenticatePostgres hrender rfl hconn').mpr hgarbled⟩

/-- All that comes behind the lookup of a target. -/
theorem makes_serve (hprint : isPrint 0 = false)
    (hrender : ∀ err, env.render err = errorText isPrint err) (hlegible : Legible isPrint s)
    {upStartup : Bytes} :
    (do
      let layer ← dialPostgres env rt
      loginPostgres env rt layer upStartup
      orElse (onError (wrapf "write AuthenticationOk to client: %w" []) writeAuthenticationOk)
        fun _ ↦ Handler.close (.upstream layer)
      flushBuffered layer
      serveConn layer rt : HandlerM Unit).Makes (replying crypto env fuel found target) Spoiled s ↔
      ∃ link conn, s.dialled = .ok link ∧ Opens rt link conn ∧ Takes conn.room upStartup ∧
        Garbled (Garbles isPrint) env rt.user rt.password (roomAfter conn.room upStartup)
          conn.input := by
  rw [Program.makes_bind, or_iff_right (not_makes_dialPostgres hprint hrender hlegible)]
  constructor
  · rintro ⟨layer, s', hdial, h⟩
    obtain ⟨link, link', conn, hdialled, hopened, hup, hconn⟩ := exec_dialPostgres_eq_ok hdial
    rw [Program.makes_bind] at h
    rcases h with h | ⟨_, _, -, h⟩
    · exact ⟨link, conn, hdialled, hopened, (makes_loginPostgres hrender hup hconn).mp h⟩
    · exact absurd h (calls_tunnel layer rt).not_makes
  · rintro ⟨link, conn, hdialled, hopened, hgarbled⟩
    obtain ⟨layer, s', link', hdial, hup, hconn⟩ := exec_dialPostgres_of_opened hdialled hopened
    refine ⟨layer, s', hdial, ?_⟩
    rw [Program.makes_bind]
    exact .inl ((makes_loginPostgres hrender hup hconn).mpr hgarbled)

/-! ## The startup -/

theorem exec_readFull_eq_ok {n : ℕ} {body : Bytes}
    (h : (Handler.readFull n).exec (replying crypto env fuel found target) s = (.ok body, s')) :
    body.length = n ∧ (∃ rest, s.client.stream = body ++ rest) ∧
      ∃ client, s' = { s with client := client } := by
  obtain ⟨hread, rfl⟩ := Prod.mk.inj h
  rcases s.client.readFull_spec n with ⟨client, hrun, hlength, htook⟩ | ⟨_, _, hrun, -, -⟩
  · change (s.client.readFull n).1 = _ at hread
    rw [hrun] at hread
    obtain rfl := Except.ok.inj hread
    exact ⟨List.length_take_of_le hlength, ⟨_, htook.stream⟩, _, rfl⟩
  · change (s.client.readFull n).1 = _ at hread
    rw [hrun] at hread
    exact absurd hread (fail_ne_ok _ _)

theorem exec_readFull_of_stream {body rest : Bytes} (h : s.client.stream = body ++ rest) :
    ∃ client, (Handler.readFull body.length).exec (replying crypto env fuel found target) s =
      (.ok body, { s with client := client }) := by
  obtain ⟨client, hrun, -⟩ := Bufio.readFull_of_stream h
  refine ⟨client, ?_⟩
  change ((s.client.readFull body.length).1, { s with client := (s.client.readFull _).2 }) = _
  rw [hrun]

theorem makes_lookupDatabase_bind {adapter name : Bytes} {next : Bool → HandlerM Unit} :
    (Handler.lookupDatabase adapter name >>= next).Makes (replying crypto env fuel found target)
        Spoiled s ↔
      (next (found adapter name)).Makes (replying crypto env fuel found target) Spoiled s :=
  or_iff_right id

theorem makes_current_bind {adapter name : Bytes} {next : Option ResolvedTarget → HandlerM Unit} :
    (Handler.current adapter name >>= next).Makes (replying crypto env fuel found target) Spoiled s ↔
      (next (target adapter name)).Makes (replying crypto env fuel found target) Spoiled s :=
  or_iff_right id

/-- An ErrorResponse of `handleStartup` is not in order exactly when the upstream garbles the error of
the login. -/
theorem makes_handleStartup (hprint : isPrint 0 = false)
    (hrender : ∀ err, env.render err = errorText isPrint err) (hlegible : Legible isPrint s)
    {msgLen : ℕ} :
    (handleStartup env msgLen).Makes (replying crypto env fuel found target) Spoiled s ↔
      GarbledLogin (Garbles isPrint) env found target msgLen s := by
  have hlegible' (client : Bufio) : Legible isPrint { s with client := client } :=
    ⟨hlegible.dial, hlegible.handshake⟩
  rw [handleStartup, Program.makes_bind, makes_onError]
  constructor
  · rintro (hread | ⟨body, _, hread, h⟩)
    · exact absurd hread (not_or.mpr ⟨id, id⟩)
    · obtain ⟨hlength, ⟨rest, hstream⟩, client, rfl⟩ :=
        exec_readFull_eq_ok (exec_onError_eq_ok.mp hread)
      obtain ⟨params, hparams, hrouted⟩ := Program.makes_lift_bind.mp h
      -- The name of the database is quoted, so neither of the first two reports has a NUL.
      have hname {format : String} (hformat : Verbs format [.verb 'q']) :
          0 ∉ env.render (errorf format [.text (startupDatabase params)]) := by
        rw [hrender]
        exact zero_notMem_errorText_quote hprint hformat _
      dsimp only at hrouted
      rw [makes_lookupDatabase_bind] at hrouted
      split at hrouted
      next hfound =>
        rw [makes_current_bind] at hrouted
        cases htarget : target adapterPostgres (startupDatabase params) with
        | none =>
          rw [htarget] at hrouted
          exact absurd ((makes_writeErrorResponse (by decide) (by decide)).mp hrouted)
            (hname (by decide))
        | some rt =>
          rw [htarget] at hrouted
          dsimp only at hrouted
          rw [Postgres.encodeStartup_eq, Program.makes_lift_bind] at hrouted
          obtain ⟨_, hframe, hserve⟩ := hrouted
          obtain rfl := Except.ok.inj hframe
          obtain ⟨link, conn, hdial, hopened, hwrite, hgarbled⟩ :=
            (makes_serve hprint hrender (hlegible' client)).mp hserve
          exact ⟨rt, _, _, ⟨hlength, hstream, hparams, hfound, htarget, hdial, hopened, hwrite⟩,
            hgarbled⟩
      next =>
        exact absurd ((makes_writeErrorResponse (by decide) (by decide)).mp hrouted)
          (hname (by decide))
  · rintro ⟨rt, _, _, ⟨hlength, hstream, hparams, hfound, htarget, hdial, hopened, hwrite⟩, hgarbled⟩
    obtain ⟨client, hread⟩ := exec_readFull_of_stream hstream
    rw [hlength] at hread
    refine .inr ⟨_, _, exec_onError_eq_ok.mpr hread, Program.makes_lift_bind.mpr ⟨_, hparams, ?_⟩⟩
    dsimp only
    rw [makes_lookupDatabase_bind, hfound, if_pos rfl, makes_current_bind, htarget]
    dsimp only
    rw [Postgres.encodeStartup_eq, Program.makes_lift_bind]
    exact ⟨_, rfl, (makes_serve hprint hrender (hlegible' client)).mpr
      ⟨_, _, hdial, hopened, hwrite, hgarbled⟩⟩

end Handler

/-- With error texts as `fmt` prints them, and none with a NUL from the network or TLS: whatever the
client sends and whatever the lookups answer, every ErrorResponse of `handleStartup` is well formed
and its code and message can be read back exactly when the login is not reached or the upstream does
not garble its error. -/
theorem reportsIntact_iff (crypto : Crypto Key) (env : Env) (fuel : ℕ)
    (found : Bytes → Bytes → Bool) (target : Bytes → Bytes → Option ResolvedTarget)
    {isPrint : ℕ → Bool} (hprint : isPrint 0 = false)
    (hrender : ∀ err, env.render err = errorText isPrint err) (msgLen : ℕ) {s : Net}
    (hlegible : Legible isPrint s) :
    ReportsIntact (replying crypto env fuel found target) (handleStartup env msgLen) s ↔
      ¬ GarbledLogin (Garbles isPrint) env found target msgLen s := by
  rw [reportsIntact_iff_not_makes, makes_handleStartup hprint hrender hlegible]

/-! ## Two upstreams -/

def printableASCII (r : ℕ) : Bool := 0x20 ≤ r ∧ r < 0x7F

def printingEnv : Env := { Mongo.signingEnv with render := errorText printableASCII }

def appTarget : ResolvedTarget where
  name := str "local"
  host := str "localhost"
  port := 5432
  user := str "alice"
  password := str "secret"
  database := str "app_local"
  sslMode := str "disable"
  authSource := []

/-- A client of the database `app` whose StartupMessage is 18 bytes long, and what the upstream is
going to send. -/
def startedClient (upstream : Bytes) : Net :=
  (Net.reaching (.ok ⟨⟨upstream, [], none⟩, none, .error eof⟩)).accept (str "user\x00app\x00\x00") none
    []

/-- Every database is on the target above. -/
abbrev routing : Handler handlerInterface Net :=
  replying Net.openCrypto printingEnv 0 (fun _ _ ↦ true) fun _ _ ↦ some appTarget

theorem legible_startedClient (upstream : Bytes) : Legible printableASCII (startedClient upstream) where
  dial err h := by cases h
  handshake link err hlink herr := by
    obtain rfl := Except.ok.inj hlink
    obtain rfl := Except.error.inj herr
    exact Postgres.not_garbles_eof

theorem loginReached_startedClient (upstream : Bytes) :
    LoginReached (fun _ _ ↦ true) (fun _ _ ↦ some appTarget) 18 (startedClient upstream) appTarget
      upstream none := by
  have hlength : (str "user\x00app\x00\x00").length = 18 - 8 := rfl
  have hstream : (startedClient upstream).client.stream = str "user\x00app\x00\x00" ++ [] := rfl
  have hopened : Opens appTarget ⟨⟨upstream, [], none⟩, none, .error eof⟩ ⟨upstream, [], none⟩ := by
    rw [Opens, if_neg (by decide)]
  exact .intro hlength hstream rfl rfl rfl rfl hopened (takes_none _)

theorem input_of_loginReached {upstream input : Bytes} {rt : ResolvedTarget} {room : Option ℕ}
    (h : LoginReached (fun _ _ ↦ true) (fun _ _ ↦ some appTarget) 18 (startedClient upstream) rt input
      room) : input = upstream := by
  obtain ⟨-, -, -, -, htarget, hdial, hopened, -⟩ := h
  obtain rfl := Option.some.inj htarget
  obtain rfl := Except.ok.inj hdial
  rw [Opens, if_neg (by decide)] at hopened
  rw [hopened]

/-- An upstream that sends a message of type zero: the client is sent a message with a NUL in it, so
its ErrorResponse has a byte behind the NUL that ends it, and the message comes back without its last
character. -/
theorem nulType_spoils_report :
    ¬ ReportsIntact routing (handleStartup printingEnv 18)
        (startedClient (Postgres.messageBytes 0 [])) ∧
      ((handleStartup printingEnv 18).exec routing
        (startedClient (Postgres.messageBytes 0 []))).2.client.conn.output =
          Postgres.messageBytes (ascii 'E') (Postgres.errorResponseBody (str "FATAL") (str "28P01")
            (str "upstream auth failed: expected Authentication message (R), got \x00")) ∧
      Postgres.parseErrorResponse (Postgres.errorResponseBody (str "FATAL") (str "28P01")
          (str "upstream auth failed: expected Authentication message (R), got \x00")) =
        Postgres.fatalText (str "28P01")
          (str "upstream auth failed: expected Authentication message (R), got ") := by
  refine ⟨?_, by decide +kernel, by decide +kernel⟩
  rw [reportsIntact_iff_not_makes, not_not,
    makes_handleStartup (show printableASCII 0 = false from rfl) (fun _ ↦ rfl)
      (legible_startedClient _)]
  exact ⟨appTarget, _, none, loginReached_startedClient _, .inl ⟨[], [], by decide, rfl⟩⟩

/-- An upstream that rejects the connection is reported in order, and one that sends a message of type
zero is not. -/
theorem reportsIntact_iff_rejected :
    ReportsIntact routing (handleStartup printingEnv 18) (startedClient (Postgres.messageBytes
        (ascii 'E') (Postgres.errorResponseBody (str "FATAL") (str "53300") (str "too many clients")))) ∧
      ¬ ReportsIntact routing (handleStartup printingEnv 18)
        (startedClient (Postgres.messageBytes 0 (str "?"))) := by
  have hprint : printableASCII 0 = false := rfl
  constructor
  · refine (reportsIntact_iff Net.openCrypto printingEnv 0 _ _ hprint (fun _ ↦ rfl) 18
      (legible_startedClient _)).mpr ?_
    rintro ⟨rt, input, room, hreached, hgarbled⟩
    obtain rfl := input_of_loginReached hreached
    -- The first byte is the type of the message.
    rcases hgarbled with ⟨body, rest, -, hinput⟩ | ⟨mechanisms, rest, -, -, hinput, -⟩
    · exact absurd (List.cons.inj hinput).1 (by decide)
    · exact absurd (List.cons.inj hinput).1 (by decide)
  · intro hintact
    refine (reportsIntact_iff Net.openCrypto printingEnv 0 _ _ hprint (fun _ ↦ rfl) 18
      (legible_startedClient _)).mp hintact ?_
    exact ⟨appTarget, _, none, loginReached_startedClient _,
      .inl ⟨str "?", [], by decide, (List.append_nil _).symm⟩⟩

end DbPivot.Proxy.Reports
