import DbPivot.Proxy.Handler
import DbPivot.Proxy.Server

/-!
# Probing the upstreams

A probe connects to the current target of a database, logs in, asks `select 1` and reports how that
went. Probes are programs over the interface of the handlers, without a client. There is one for
PostgreSQL and one for MySQL, and `probeTarget` chooses by the adapter.
-/

namespace DbPivot.Proxy

open DbPivot.Go DbPivot.Config DbPivot.System
open DbPivot.Mongo (Env)
open DbPivot.Postgres (KV ascii)

/-! ## PostgreSQL -/

/-- `pgWaitReady`. -/
def pgWaitReady (layer : Layer) : ℕ → HandlerM Unit
  | 0 => .lift (.error .outOfFuel)
  | fuel + 1 => do
    let (typ, body) ← onError (wrapf "read: %w" []) (Handler.readMessage (.upstream layer))
    if typ = ascii 'E' then .lift (fail (errorf "%s" [.text (Postgres.parseErrorResponse body)]))
    else if typ = ascii 'Z' then pure ()
    else pgWaitReady layer fuel

/-- The parameters of the StartupMessage of `probePostgres`. -/
def probeParams (rt : ResolvedTarget) : List KV :=
  [⟨str "user", rt.user⟩] ++ if rt.database ≠ [] then [⟨str "database", rt.database⟩] else []

/-- The connection that `probePostgres` sends the StartupMessage on. -/
def probeConn (rt : ResolvedTarget) : HandlerM Layer :=
  if rt.sslMode = sslModeRequire then do
    onError (wrapf "tls: %w" []) (Handler.negotiateTLS rt.host)
    pure .tls
  else pure .plain

/-- The login of `probePostgres`. -/
def probeLoginPostgres (rt : ResolvedTarget) (layer : Layer) : HandlerM Unit := do
  let upStartup ← .lift (Postgres.encodeStartup (probeParams rt))
  onError (wrapf "write startup: %w" []) (Handler.write (.upstream layer) upStartup)
  onError (wrapf "auth: %w" []) (Handler.authenticatePostgres layer rt.user rt.password)

/-- The query of `probePostgres`. -/
def probeQueryPostgres (layer : Layer) (fuel : ℕ) : HandlerM Unit := do
  onError (wrapf "post-auth: %w" []) (pgWaitReady layer fuel)
  onError (wrapf "write query: %w" [])
    (Handler.writeMessage (.upstream layer) (ascii 'Q') (str "select 1" ++ [0]))
  onError (wrapf "query: %w" []) (pgWaitReady layer fuel)

/-- `probePostgres`. The deferred `Close` is of the connection that was dialled. -/
def probePostgres (rt : ResolvedTarget) (fuel : ℕ) : HandlerM Unit := do
  onError (wrapf "dial: %w" []) (Handler.dial rt.host rt.port)
  deferring (Handler.close (.upstream .plain)) (do
    let layer ← probeConn rt
    probeLoginPostgres rt layer
    probeQueryPostgres layer fuel)

/-! ## MySQL -/

def comQuery : UInt8 := 0x03

/-- The query of `probeMySQL`. -/
def probeQueryMySQL (layer : Layer) : HandlerM Unit := do
  onError (wrapf "write query: %w" [])
    (Handler.writePacket (.upstream layer) 0 (comQuery :: str "select 1"))
  let (_, resp) ← onError (wrapf "read: %w" []) (Handler.readPacket (.upstream layer))
  .lift (refuse (Mysql.isErrPacket resp) (errorf "%s" [.text (Mysql.parseERRPacket resp)]))

/-- `probeMySQL`. -/
def probeMySQL (rt : ResolvedTarget) : HandlerM Unit := do
  onError (wrapf "dial: %w" []) (Handler.dial rt.host rt.port)
  deferring (Handler.close (.upstream .plain)) (do
    let (layer, _) ← onError (wrapf "auth: %w" [])
      (Handler.authenticateMySQL .plain rt.user rt.password rt.database (mysqlTLSConfig rt))
    probeQueryMySQL layer)

/-! ## All databases -/

/-- `probeTarget`. -/
def probeTarget (adapter : Bytes) (rt : ResolvedTarget) (fuel : ℕ) : HandlerM Unit :=
  if adapter = adapterMySQL then probeMySQL rt else probePostgres rt fuel

structure ProbeResult where
  virtualName : Bytes
  target : Bytes
  database : Bytes
  addr : Bytes
  ok : Bool
  err : Bytes

/-- A `job` of `ProbeActive`. -/
structure ProbeJob where
  name : Bytes
  adapter : Bytes
  rt : ResolvedTarget

/-- The jobs of `ProbeActive`: one for each database with a current target. -/
def probeJobs (s : Server) (order : List Bytes) : List ProbeJob :=
  (s.databases.entries order).filterMap fun entry ↦
    entry.2.current.map fun rt ↦ ⟨entry.1, entry.2.adapter, rt⟩

/-- The result of a job whose probe has returned. -/
def probeResult (env : Env) (job : ProbeJob) (outcome : Except GoError Unit) : ProbeResult where
  virtualName := job.name
  target := job.rt.name
  database := job.rt.database
  addr := joinHostPort job.rt.host (itoaInt job.rt.port)
  ok := outcome.isOk
  err := match outcome with
    | .ok () => []
    | .error err => env.render err

/-- `ProbeActive`, with what the probe of each job has returned. -/
def probeActive (env : Env) (s : Server) (order : List Bytes)
    (outcome : ProbeJob → Except GoError Unit) : List ProbeResult :=
  (probeJobs s order).map fun job ↦ probeResult env job (outcome job)

/-- The jobs are the active databases. -/
theorem mem_probeJobs {s : Server} {order : List Bytes} (horder : Enumerates order s.databases)
    {job : ProbeJob} :
    job ∈ probeJobs s order ↔
      ∃ d, s.lookupDatabase job.adapter job.name = some d ∧ d.current = some job.rt := by
  simp only [probeJobs, List.mem_filterMap, Option.map_eq_some_iff, Prod.exists]
  constructor
  · rintro ⟨name, d, hentry, rt, hcurrent, rfl⟩
    refine ⟨d, ?_, hcurrent⟩
    rw [Server.lookupDatabase, (GoMap.mem_entries horder).mp hentry]
    exact if_neg (not_not_intro rfl)
  · rintro ⟨d, hlookup, hcurrent⟩
    rw [Server.lookupDatabase] at hlookup
    cases hget : s.databases.get job.name with
    | none =>
      rw [hget] at hlookup
      cases hlookup
    | some found =>
      rw [hget] at hlookup
      dsimp only at hlookup
      split at hlookup
      next => cases hlookup
      next hadapter =>
        obtain rfl := Option.some.inj hlookup
        refine ⟨job.name, found, (GoMap.mem_entries horder).mpr hget, job.rt, hcurrent, ?_⟩
        rw [not_not.mp hadapter]

end DbPivot.Proxy
