import DbPivot.Mysql.Response
import DbPivot.Proxy.Activation
import DbPivot.Proxy.Calls

/-!
# The database that is opened upstream

A client is routed by the database it names, or by its user when it names none. The login at the
target is made with the target's user, and with the target's database when it has one. Otherwise the
client's name is to be passed through.

What is passed through is the database the client sent, and not the name it was routed by. A client
that sent none is left to the upstream's rule: PostgreSQL opens the database named after the user,
which is now the target's, and MySQL opens none.

A target with a database template is not meant to pass anything through. Its template can still
resolve to the empty text, which no check refuses.
-/

namespace DbPivot.Proxy.Opened

open DbPivot.Go DbPivot.Config DbPivot.System
open DbPivot.Mongo (Env)
open DbPivot.Mysql (Crypto HandshakeResponse41 HandshakeV10 LoginM Upstream clientConnectWithDB
  clientSSL mysqlUpstreamCaps)
open DbPivot.Postgres (KV lookupParam)
open Net (ClientSide calls_writeErrorResponse_close calls_writeMySQLErr)

/-! ## The rewritten StartupMessage -/

/-- One round of the loop over the client's parameters. -/
def keepParam (upParams : List KV) (kv : KV) : List KV :=
  if kv.k = str "user" ∨ kv.k = str "database" then upParams else upParams ++ [kv]

/-- `EncodeStartupForTarget`. -/
def encodeStartupForTarget (clientParams : List KV) (rt : ResolvedTarget) : GoM GoError Bytes :=
  let upParams : List KV := [⟨str "user", rt.user⟩]
  let upParams :=
    if rt.database ≠ [] then upParams ++ [⟨str "database", rt.database⟩]
    else
      let d := lookupParam clientParams (str "database")
      if d ≠ [] then upParams ++ [⟨str "database", d⟩] else upParams
  Postgres.encodeStartup (clientParams.foldl keepParam upParams)

/-- A parameter that is passed through. -/
abbrev Other (kv : KV) : Prop := kv.k ≠ str "user" ∧ kv.k ≠ str "database"

theorem foldl_keepParam (params upParams : List KV) :
    params.foldl keepParam upParams = upParams ++ params.filter fun kv ↦ Other kv := by
  induction params generalizing upParams with
  | nil => rw [List.foldl_nil, List.filter_nil, List.append_nil]
  | cons kv params ih =>
    rw [List.foldl_cons, ih, keepParam, List.filter_cons]
    by_cases hother : Other kv
    · rw [if_neg (not_or.mpr hother), if_pos (decide_eq_true hother), List.append_assoc,
        List.singleton_append]
    · have hdrop : kv.k = str "user" ∨ kv.k = str "database" := by
        by_contra hneither
        exact hother (not_or.mp hneither)
      rw [if_pos hdrop, if_neg (by simpa using hother)]

/-- The database parameter of the upstream's StartupMessage, if it has one. -/
def databaseParam (params : List KV) (rt : ResolvedTarget) : List KV :=
  if rt.database ≠ [] then [⟨str "database", rt.database⟩]
  else if lookupParam params (str "database") ≠ [] then
    [⟨str "database", lookupParam params (str "database")⟩]
  else []

theorem upstreamParams_eq_cons (params : List KV) (rt : ResolvedTarget) :
    upstreamParams params rt =
      ⟨str "user", rt.user⟩ :: (databaseParam params rt ++ params.filter fun kv ↦ Other kv) := rfl

/-- The two ways to build the message give the same bytes. -/
theorem encodeStartupForTarget_eq (params : List KV) (rt : ResolvedTarget) :
    encodeStartupForTarget params rt = Postgres.encodeStartup (upstreamParams params rt) := by
  rw [encodeStartupForTarget, upstreamParams_eq_cons, databaseParam]
  simp only [foldl_keepParam]
  by_cases htarget : rt.database ≠ []
  · rw [if_pos htarget, if_pos htarget]
    rfl
  · rw [if_neg htarget, if_neg htarget]
    by_cases hclient : lookupParam params (str "database") ≠ []
    · rw [if_pos hclient, if_pos hclient]
      rfl
    · rw [if_neg hclient, if_neg hclient]
      rfl

/-- The database a PostgreSQL server opens: the parameter, or else the user. -/
def postgresOpens (params : List KV) : Bytes :=
  match params.find? fun kv ↦ kv.k = str "database" with
  | some kv => kv.v
  | none => lookupParam params (str "user")

/-- What becomes of the client's parameters. -/
structure Rewritten (params : List KV) (rt : ResolvedTarget) (up : List KV) : Prop where
  user : (up.filter fun kv ↦ kv.k = str "user") = [⟨str "user", rt.user⟩]
  database : (up.filter fun kv ↦ kv.k = str "database").length ≤ 1
  others : (up.filter fun kv ↦ Other kv) = params.filter fun kv ↦ Other kv

section Rewritten

variable (params : List KV) (rt : ResolvedTarget)

theorem filter_other_eq_nil {key : Bytes} (hkey : key = str "user" ∨ key = str "database") :
    ((params.filter fun kv ↦ Other kv).filter fun kv ↦ kv.k = key) = [] := by
  rw [List.filter_eq_nil_iff]
  intro kv hkv
  have hother : Other kv := of_decide_eq_true (List.mem_filter.mp hkv).2
  rcases hkey with rfl | rfl
  · simpa using hother.1
  · simpa using hother.2

theorem databaseParam_eq : databaseParam params rt = [] ∨
    ∃ database, databaseParam params rt = [⟨str "database", database⟩] := by
  rw [databaseParam]
  split
  · exact .inr ⟨_, rfl⟩
  · split
    · exact .inr ⟨_, rfl⟩
    · exact .inl rfl

theorem rewritten_upstreamParams : Rewritten params rt (upstreamParams params rt) := by
  have huser := filter_other_eq_nil params (.inl rfl)
  have hdatabase := filter_other_eq_nil params (.inr rfl)
  have hidem : ((params.filter fun kv ↦ Other kv).filter fun kv ↦ Other kv) =
      params.filter fun kv ↦ Other kv := by
    rw [List.filter_filter]
    simp only [Bool.and_self]
  have hkeys : str "user" ≠ str "database" := by decide
  constructor
  · rw [upstreamParams_eq_cons, List.filter_cons, List.filter_append, huser]
    rcases databaseParam_eq params rt with hnone | ⟨database, hsome⟩
    · rw [hnone]
      simp
    · rw [hsome]
      simp [hkeys.symm]
  · rw [upstreamParams_eq_cons, List.filter_cons, List.filter_append, hdatabase]
    rcases databaseParam_eq params rt with hnone | ⟨database, hsome⟩
    · rw [hnone]
      simp [hkeys]
    · rw [hsome]
      simp [hkeys]
  · rw [upstreamParams_eq_cons, List.filter_cons, List.filter_append, hidem]
    rcases databaseParam_eq params rt with hnone | ⟨database, hsome⟩
    · rw [hnone]
      simp
    · rw [hsome]
      simp

/-- The database opened by the rewritten message. -/
theorem postgresOpens_upstreamParams :
    postgresOpens (upstreamParams params rt) =
      if rt.database ≠ [] then rt.database
      else if lookupParam params (str "database") ≠ [] then lookupParam params (str "database")
      else rt.user := by
  have hkeys : str "user" ≠ str "database" := by decide
  have hothers : ((params.filter fun kv ↦ Other kv).find? fun kv ↦ kv.k = str "database") = none := by
    rw [← List.head?_filter, filter_other_eq_nil params (.inr rfl)]
    rfl
  rw [postgresOpens, upstreamParams_eq_cons, List.find?_cons_of_neg (by simpa using hkeys),
    List.find?_append, hothers, databaseParam]
  by_cases htarget : rt.database ≠ []
  · rw [if_pos htarget, if_pos htarget]
    rfl
  · rw [if_neg htarget, if_neg htarget]
    by_cases hclient : lookupParam params (str "database") ≠ []
    · rw [if_pos hclient, if_pos hclient]
      rfl
    · rw [if_neg hclient, if_neg hclient]
      rfl

theorem zero_notMem_lookupParam {params : List KV} (hparams : ∀ kv ∈ params, kv.WellFormed)
    (key : Bytes) : 0 ∉ lookupParam params key := by
  rw [lookupParam]
  cases hfind : params.find? fun kv ↦ kv.k = key with
  | none => exact List.not_mem_nil
  | some kv => exact (hparams kv (List.mem_of_find?_eq_some hfind)).2.2

/-- The upstream reads the parameters from the message. -/
theorem parseStartupBody_upstream (hparams : ∀ kv ∈ params, kv.WellFormed) (huser : 0 ∉ rt.user)
    (hdatabase : 0 ∉ rt.database) :
    Postgres.parseStartupBody ((Postgres.startupFrame (upstreamParams params rt)).drop 8) =
      .ok (upstreamParams params rt) := by
  have huserKey : str "user" ≠ [] ∧ 0 ∉ str "user" := by decide
  have hdatabaseKey : str "database" ≠ [] ∧ 0 ∉ str "database" := by decide
  rw [Postgres.drop_startupFrame]
  apply Postgres.parseStartupBody_startupBody
  intro kv hkv
  rw [upstreamParams_eq_cons, List.mem_cons, List.mem_append, databaseParam] at hkv
  rcases hkv with rfl | hkv | hkv
  · exact ⟨huserKey.1, huserKey.2, huser⟩
  · split at hkv
    · obtain rfl := List.mem_singleton.mp hkv
      exact ⟨hdatabaseKey.1, hdatabaseKey.2, hdatabase⟩
    · split at hkv
      · obtain rfl := List.mem_singleton.mp hkv
        exact ⟨hdatabaseKey.1, hdatabaseKey.2, zero_notMem_lookupParam hparams _⟩
      · exact absurd hkv List.not_mem_nil
  · exact hparams kv (List.mem_of_mem_filter hkv)

end Rewritten

/-! ## The MySQL login -/

/-- The database `dispatchMySQL` logs in with. -/
def upDatabase (response : HandshakeResponse41) (rt : ResolvedTarget) : Bytes :=
  if rt.database = [] then response.database else rt.database

/-- The capabilities after the upgrade to TLS. -/
def upgradedCaps (caps : UInt32) : Option Bytes → UInt32
  | none => caps
  | some _ => caps ||| clientSSL

/-- The capabilities `AuthenticateUpstreamMySQL` sends in the login packet. -/
def loginCaps (serverCaps : UInt32) (database : Bytes) (tlsConfig : Option Bytes) : UInt32 :=
  upgradedCaps (mysqlUpstreamCaps serverCaps (database ≠ [])) tlsConfig

/-- The database a MySQL server opens: the one in the login packet, if the capabilities announce
one. -/
def mysqlOpens (capabilities : UInt32) (database : Bytes) : Option Bytes :=
  if capabilities &&& clientConnectWithDB ≠ 0 then some database else none

section LoginCaps

variable {Key σ : Type} {handler : Handler Mysql.loginInterface σ} {u u' : σ}

theorem caps_upgrade {conn conn' : Layer} {hs : HandshakeV10} {caps caps' : UInt32}
    {seq seq' : UInt8} {secure secure' : Bool} {tlsConfig : Option Bytes}
    (h : (Mysql.upgrade conn hs caps seq secure tlsConfig).exec handler u =
      (.ok (conn', caps', seq', secure'), u')) :
    caps' = upgradedCaps caps tlsConfig := by
  cases tlsConfig with
  | none =>
    obtain ⟨hvalue, -⟩ := Prod.mk.inj h
    exact (Prod.mk.inj (Prod.mk.inj (Except.ok.inj hvalue)).2).1.symm
  | some serverName =>
    obtain ⟨_, _, -, h⟩ := Program.exec_bind_eq_ok.mp h
    obtain ⟨_, _, -, h⟩ := Program.exec_bind_eq_ok.mp h
    obtain ⟨_, _, -, h⟩ := Program.exec_bind_eq_ok.mp h
    obtain ⟨hvalue, -⟩ := Prod.mk.inj h
    exact (Prod.mk.inj (Prod.mk.inj (Except.ok.inj hvalue)).2).1.symm

/-- A login that returns says which capabilities it sent. -/
theorem caps_authenticateUpstreamMySQL {crypto : Crypto Key} {fuel : ℕ} {conn conn' : Layer}
    {user password database : Bytes} {secure : Bool} {tlsConfig : Option Bytes} {hs : HandshakeV10}
    {caps : UInt32}
    (h : (Mysql.authenticateUpstreamMySQL crypto fuel conn user password database secure
      tlsConfig).exec handler u = (.ok (conn', hs, caps), u')) :
    caps = loginCaps hs.capabilities database tlsConfig := by
  obtain ⟨⟨_, payload⟩, _, -, h⟩ := Program.exec_bind_eq_ok.mp h
  obtain ⟨_, _, -, h⟩ := Program.exec_bind_eq_ok.mp h
  obtain ⟨greeting, _, -, h⟩ := Program.exec_bind_eq_ok.mp h
  obtain ⟨⟨_, sent, _, _⟩, _, hupgrade, h⟩ := Program.exec_bind_eq_ok.mp h
  obtain ⟨_, _, -, h⟩ := Program.exec_bind_eq_ok.mp h
  obtain ⟨_, _, -, h⟩ := Program.exec_bind_eq_ok.mp h
  obtain ⟨_, _, -, h⟩ := Program.exec_bind_eq_ok.mp h
  obtain ⟨hvalue, -⟩ := Prod.mk.inj h
  obtain ⟨-, rfl, rfl⟩ : _ ∧ greeting = hs ∧ sent = caps := by
    simpa only [Except.ok.injEq, Prod.mk.injEq] using hvalue
  exact caps_upgrade hupgrade

end LoginCaps

theorem connectWithDB_upgradedCaps (caps : UInt32) (tlsConfig : Option Bytes) :
    upgradedCaps caps tlsConfig &&& clientConnectWithDB = caps &&& clientConnectWithDB := by
  cases tlsConfig with
  | none => rfl
  | some serverName => exact Mysql.connectWithDB_or_clientSSL caps

theorem mysqlOpens_loginCaps (serverCaps : UInt32) (database : Bytes) (tlsConfig : Option Bytes) :
    mysqlOpens (loginCaps serverCaps database tlsConfig) database =
      if database ≠ [] then some database else none := by
  rw [mysqlOpens, loginCaps, connectWithDB_upgradedCaps]
  by_cases hdatabase : database ≠ []
  · rw [if_pos hdatabase,
      if_pos ((Mysql.connectWithDB_mysqlUpstreamCaps _ _).mpr (decide_eq_true hdatabase))]
  · rw [if_neg hdatabase, if_neg]
    intro hcaps
    exact hdatabase (of_decide_eq_true ((Mysql.connectWithDB_mysqlUpstreamCaps _ _).mp hcaps))

/-! ## The law -/

/-- What the clients of the two protocols log in with. -/
inductive Client where
  | postgres (params : List KV)
  | mysql (response : HandshakeResponse41)

/-- The upstream session of a client is opened with the message or the login above. -/
def OpensWith (client : Client) (rt : ResolvedTarget) : Call → Prop
  | .write (.upstream _) bytes => ∃ params, client = .postgres params ∧
    bytes = Postgres.startupFrame (upstreamParams params rt)
  | .authenticatePostgres _ user _ => user = rt.user
  | .authenticateMySQL _ user _ database _ => ∃ response, client = .mysql response ∧
    user = rt.user ∧ database = upDatabase response rt
  | _ => True

theorem opensWith_of_clientSide {client : Client} {rt : ResolvedTarget} {c : Call}
    (h : ClientSide c) : OpensWith client rt c := by
  cases c with
  | write conn bytes =>
    cases conn with
    | client => trivial
    | upstream layer => exact absurd rfl (h layer)
  | authenticatePostgres layer user password => exact absurd rfl (h layer)
  | authenticateMySQL layer user password database tlsConfig => exact absurd rfl (h .plain)
  | _ => trivial

/-- The login of `handleStartup` is made with the rewritten parameters. -/
theorem calls_loginPostgres (env : Env) (params : List KV) (rt : ResolvedTarget) (layer : Layer) :
    (loginPostgres env rt layer (Postgres.startupFrame (upstreamParams params rt))).Calls
      (OpensWith (.postgres params) rt) := by
  have hwrite : (Handler.write (.upstream layer)
      (Postgres.startupFrame (upstreamParams params rt))).Calls (OpensWith (.postgres params) rt) :=
    ⟨⟨params, rfl, rfl⟩, fun _ ↦ trivial⟩
  have hauthenticate : (Handler.authenticatePostgres layer rt.user rt.password).Calls
      (OpensWith (.postgres params) rt) := ⟨rfl, fun _ ↦ trivial⟩
  have hgiveUp (sqlstate message : Bytes) :
      (do writeErrorResponse sqlstate message; Handler.close (.upstream layer)).Calls
        (OpensWith (.postgres params) rt) :=
    (calls_writeErrorResponse_close sqlstate message layer).mono fun _ ↦ opensWith_of_clientSide
  apply (calls_orElse hwrite fun _ ↦ hgiveUp _ _).bind
  intro _
  exact calls_orElse hauthenticate fun _ ↦ hgiveUp _ _

/-- The login of `dispatchMySQL` is made with the database above. -/
theorem calls_loginMySQL (env : Env) (rt : ResolvedTarget) (login : ClientLogin) :
    (loginMySQL env rt login).Calls (OpensWith (.mysql login.response) rt) := by
  have hdial : (Handler.dial rt.host rt.port).Calls (OpensWith (.mysql login.response) rt) :=
    ⟨trivial, fun _ ↦ trivial⟩
  have hauthenticate : (Handler.authenticateMySQL .plain rt.user rt.password
      (upDatabase login.response rt) (mysqlTLSConfig rt)).Calls
      (OpensWith (.mysql login.response) rt) :=
    ⟨⟨login.response, rfl, rfl, rfl⟩, fun _ ↦ trivial⟩
  have herror (code : UInt16) (sqlState msg : Bytes) :
      (writeMySQLErr login.nextSeq code sqlState msg).Calls (OpensWith (.mysql login.response) rt) :=
    (calls_writeMySQLErr _ code sqlState msg).mono fun _ ↦ opensWith_of_clientSide
  apply (calls_orElse hdial fun _ ↦ herror _ _ _).bind
  intro _
  exact calls_orElse hauthenticate fun _ ↦ (herror _ _ _).bind fun _ ↦ ⟨trivial, fun _ ↦ trivial⟩

/-- The database to be opened for a client that was routed by the name. -/
def lawfulDatabase (rt : ResolvedTarget) (routedBy : Bytes) : Bytes :=
  if rt.database ≠ [] then rt.database else routedBy

/-- The upstream session of a client has the right user and the right database. -/
def Lawful : Client → ResolvedTarget → Prop
  | .postgres params, rt =>
    Rewritten params rt (upstreamParams params rt) ∧
    encodeStartupForTarget params rt = Postgres.encodeStartup (upstreamParams params rt) ∧
    postgresOpens (upstreamParams params rt) = lawfulDatabase rt (startupDatabase params)
  | .mysql response, rt => ∀ serverCaps tlsConfig,
    mysqlOpens (loginCaps serverCaps (upDatabase response rt) tlsConfig) (upDatabase response rt) =
      some (lawfulDatabase rt (loginDatabase response))

/-- The target or the client names a database. A PostgreSQL client may also have the target's user. -/
def NamesDatabase : Client → ResolvedTarget → Prop
  | .postgres params, rt => rt.database ≠ [] ∨ lookupParam params (str "database") ≠ [] ∨
    rt.user = lookupParam params (str "user")
  | .mysql response, rt => rt.database ≠ [] ∨ response.database ≠ []

instance (client : Client) (rt : ResolvedTarget) : Decidable (NamesDatabase client rt) :=
  match client with
  | .postgres _ => inferInstanceAs (Decidable (_ ∨ _ ∨ _))
  | .mysql _ => inferInstanceAs (Decidable (_ ∨ _))

theorem postgres_opens_iff (params : List KV) (rt : ResolvedTarget) :
    postgresOpens (upstreamParams params rt) = lawfulDatabase rt (startupDatabase params) ↔
      NamesDatabase (.postgres params) rt := by
  rw [postgresOpens_upstreamParams, lawfulDatabase, startupDatabase, NamesDatabase]
  by_cases htarget : rt.database ≠ []
  · rw [if_pos htarget, if_pos htarget]
    exact iff_of_true rfl (.inl htarget)
  · rw [if_neg htarget, if_neg htarget]
    by_cases hclient : lookupParam params (str "database") ≠ []
    · rw [if_pos hclient]
      exact iff_of_true (if_neg hclient).symm (.inr (.inl hclient))
    · rw [if_neg hclient]
      rw [if_pos (not_not.mp hclient)]
      exact ⟨fun h ↦ .inr (.inr h), fun h ↦ (h.resolve_left htarget).resolve_left hclient⟩

theorem mysql_opens_iff (response : HandshakeResponse41) (rt : ResolvedTarget) (serverCaps : UInt32)
    (tlsConfig : Option Bytes) :
    mysqlOpens (loginCaps serverCaps (upDatabase response rt) tlsConfig) (upDatabase response rt) =
        some (lawfulDatabase rt (loginDatabase response)) ↔
      NamesDatabase (.mysql response) rt := by
  rw [mysqlOpens_loginCaps, lawfulDatabase, loginDatabase, upDatabase, NamesDatabase]
  by_cases htarget : rt.database = []
  · by_cases hclient : response.database = []
    · simp [htarget, hclient]
    · simp [htarget, hclient]
  · simp [htarget]

/-- The handlers log in with what the law is about. The upstream of a PostgreSQL client reads the
rewritten parameters from the message, and the login of a MySQL client that returns has sent the
capabilities above. -/
def LogsIn : Client → ResolvedTarget → Prop
  | .postgres params, rt =>
    (∀ env layer,
      (loginPostgres env rt layer (Postgres.startupFrame (upstreamParams params rt))).Calls
        (OpensWith (.postgres params) rt)) ∧
    ((∀ kv ∈ params, kv.WellFormed) → 0 ∉ rt.user → 0 ∉ rt.database →
      Postgres.parseStartupBody ((Postgres.startupFrame (upstreamParams params rt)).drop 8) =
        .ok (upstreamParams params rt))
  | .mysql response, rt =>
    (∀ env (login : ClientLogin), login.response = response →
      (loginMySQL env rt login).Calls (OpensWith (.mysql response) rt)) ∧
    ∀ (Key σ : Type) (crypto : Crypto Key) (handler : Handler Mysql.loginInterface σ) (u u' : σ)
      (fuel : ℕ) (conn conn' : Layer) (password : Bytes) (secure : Bool) (tlsConfig : Option Bytes)
      (hs : HandshakeV10) (caps : UInt32),
      (Mysql.authenticateUpstreamMySQL crypto fuel conn rt.user password (upDatabase response rt)
        secure tlsConfig).exec handler u = (.ok (conn', hs, caps), u') →
      caps = loginCaps hs.capabilities (upDatabase response rt) tlsConfig

theorem logsIn (client : Client) (rt : ResolvedTarget) : LogsIn client rt := by
  cases client with
  | postgres params =>
    exact ⟨fun env layer ↦ calls_loginPostgres env params rt layer,
      parseStartupBody_upstream params rt⟩
  | mysql response =>
    refine ⟨fun env login hresponse ↦ ?_, ?_⟩
    · rw [← hresponse]
      exact calls_loginMySQL env rt login
    · intro Key σ crypto handler u u' fuel conn conn' password secure tlsConfig hs caps h
      exact caps_authenticateUpstreamMySQL h

/-- The session is as it should be exactly when the target or the client names a database, or when
the PostgreSQL user of both is the same. -/
theorem lawful_iff (client : Client) (rt : ResolvedTarget) :
    LogsIn client rt ∧ (Lawful client rt ↔ NamesDatabase client rt) := by
  refine ⟨logsIn client rt, ?_⟩
  cases client with
  | postgres params =>
    constructor
    · intro h
      exact (postgres_opens_iff params rt).mp h.2.2
    · intro h
      exact ⟨rewritten_upstreamParams params rt, encodeStartupForTarget_eq params rt,
        (postgres_opens_iff params rt).mpr h⟩
  | mysql response =>
    constructor
    · intro h
      exact (mysql_opens_iff response rt 0 none).mp (h 0 none)
    · intro h serverCaps tlsConfig
      exact (mysql_opens_iff response rt serverCaps tlsConfig).mpr h

/-- A target without a database of its own. -/
def passThroughTarget : ResolvedTarget where
  name := str "local"
  host := str "127.0.0.1"
  port := 5432
  user := str "alice"
  password := str "secret"
  database := []
  sslMode := []
  authSource := []

/-- A client that is routed by its user gets the database of the target's user. -/
theorem routed_by_user_opens_other :
    startupDatabase [⟨str "user", str "app"⟩] = str "app" ∧
    postgresOpens (upstreamParams [⟨str "user", str "app"⟩] passThroughTarget) = str "alice" ∧
    ¬ Lawful (.postgres [⟨str "user", str "app"⟩]) passThroughTarget := by
  refine ⟨by decide, by decide, fun hlawful ↦ ?_⟩
  exact absurd hlawful.2.2 (by decide)

/-! ## Targets that name a database -/

/-- The target names the database of every session. -/
structure NamesOwn (rt : ResolvedTarget) : Prop where
  valid : rt.database ≠ [] ∧ validIdentifier rt.database
  postgres : ∀ params, postgresOpens (upstreamParams params rt) = rt.database
  mysql : ∀ response serverCaps tlsConfig,
    mysqlOpens (loginCaps serverCaps (upDatabase response rt) tlsConfig) (upDatabase response rt) =
      some rt.database

theorem namesOwn_of_valid {rt : ResolvedTarget} (hne : rt.database ≠ [])
    (hvalid : validIdentifier rt.database) : NamesOwn rt where
  valid := ⟨hne, hvalid⟩
  postgres params := by rw [postgresOpens_upstreamParams, if_pos hne]
  mysql response serverCaps tlsConfig := by
    rw [mysqlOpens_loginCaps, upDatabase, if_neg hne, if_pos hne]

/-- A template keeps its target from passing the client's name through, unless it is made of
references alone and all of them are empty. -/
theorem resolveTarget_namesOwn_iff {d : Database} {t : Target} (ht : d.byName.get t.name = some t)
    (vars : GoMap Bytes Bytes) :
    (∀ rt, d.resolveTarget t.name vars = .ok rt → NamesOwn rt) ↔
      ¬ OnlyEmptyReferences t.database vars := by
  rw [← resolve_eq_ok_nil]
  constructor
  · intro hnames hempty
    have hok : d.resolveTarget t.name vars = .ok (d.snapshot t []) :=
      Database.resolveTarget_eq_ok.mpr ⟨t, [], ht, hempty, .inl rfl, rfl⟩
    exact (hnames _ hok).valid.1 rfl
  · intro hne rt hok
    obtain ⟨t', resolvedDB, ht', hresolve, hvalid, rfl⟩ := Database.resolveTarget_eq_ok.mp hok
    obtain rfl := Option.some.inj (ht.symm.trans ht')
    have hresolved : resolvedDB ≠ [] := by
      rintro rfl
      exact hne hresolve
    exact namesOwn_of_valid hresolved (hvalid.resolve_left hresolved)

/-- `app_${B}` with a value for `B`. -/
theorem resolveTarget_namesOwn_branch :
    ∃ rt, (newDatabase (singleDatabase (str "app_$\x7bB\x7d")) ∅).resolveTarget (str "local")
        (GoMap.ofKeys [str "B"] fun _ ↦ str "main") = .ok rt ∧ NamesOwn rt := by
  have hok : ∃ rt, (newDatabase (singleDatabase (str "app_$\x7bB\x7d")) ∅).resolveTarget
      (str "local") (GoMap.ofKeys [str "B"] fun _ ↦ str "main") = .ok rt := ⟨_, rfl⟩
  obtain ⟨rt, hok⟩ := hok
  refine ⟨rt, hok, (resolveTarget_namesOwn_iff (t := singleTarget (str "app_$\x7bB\x7d")) rfl
    _).mpr ?_ rt hok⟩
  rintro ⟨names, htext, -⟩
  cases names with
  | nil => exact absurd htext (by decide)
  | cons name names => exact absurd (List.cons.inj htext).1 (by decide)

/-- `${B}` with an empty value for `B`: a PostgreSQL client gets the database that it asked for. -/
theorem resolveTarget_passes_through :
    ∃ rt, (newDatabase (singleDatabase (str "$\x7bB\x7d")) ∅).resolveTarget (str "local")
        (GoMap.ofKeys [str "B"] fun _ ↦ []) = .ok rt ∧ rt.database = [] ∧
      postgresOpens (upstreamParams [⟨str "database", str "app"⟩] rt) = str "app" ∧
      ¬ NamesOwn rt :=
  ⟨_, rfl, rfl, by decide, fun hnames ↦ hnames.valid.1 rfl⟩

end DbPivot.Proxy.Opened
