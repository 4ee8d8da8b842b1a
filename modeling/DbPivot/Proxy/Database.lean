import DbPivot.Config.Validate

/-!
# One logical database

The routing state of one `virtual_name`: its declared targets, the target it is on and the
connections registered on it. A connection belongs to the database it was registered on for its
whole life, so a database holds its own connections, and closing one is removing it. The operations
are the sequential ones, each run to its end; `DbPivot.Proxy.Handover` takes them apart.
-/

namespace DbPivot.Proxy

open DbPivot.Go DbPivot.Config

/-- A target with its variables and its forward reference resolved. -/
structure ResolvedTarget where
  name : Bytes
  host : Bytes
  port : ℤ
  user : Bytes
  password : Bytes
  database : Bytes
  sslMode : Bytes
  authSource : Bytes
deriving DecidableEq

/-- A registered connection; the two sockets are not part of the model. -/
structure Conn where
  resolved : ResolvedTarget
deriving DecidableEq

/-- The identity of a `*Conn` among the connections of its database. -/
abbrev ConnId := ℕ

structure Database where
  virtualName : Bytes
  adapter : Bytes
  targets : List Target
  byName : GoMap Bytes Target
  fwd : GoMap Bytes ForwardTarget
  current : Option ResolvedTarget
  conns : GoMap ConnId Conn

/-- The loop of `NewDatabase`: a later target of the same name replaces an earlier one. -/
def indexTargets (targets : List Target) : GoMap Bytes Target :=
  GoMap.insertAll Target.name id ∅ targets

/-- `NewDatabase`. -/
def newDatabase (c : Config.Database) (fwd : GoMap Bytes ForwardTarget) : Database where
  virtualName := c.virtualName
  adapter := c.adapter
  targets := c.targets
  byName := indexTargets c.targets
  fwd := fwd
  current := none
  conns := ∅

namespace Database

/-- `HasTarget`. -/
def hasTarget (d : Database) (name : Bytes) : Bool := name ∈ d.byName

/-- The error of `ResolveTarget` when `Resolve` fails. -/
def resolveFailure (name : Bytes) (failure : ResolveError) : ResolveError :=
  if failure.missing.length > 0 then
    ⟨failure.missing,
      errorf "target %q requires variables: %v" [.text name, .texts failure.missing]⟩
  else ⟨[], failure.err⟩

/-- The snapshot `ResolveTarget` returns. -/
def snapshot (d : Database) (t : Target) (resolvedDB : Bytes) : ResolvedTarget :=
  let (host, port) := t.resolveEndpoint d.fwd
  { name := t.name, host, port, user := t.user, password := t.password, database := resolvedDB,
    sslMode := t.sslMode, authSource := t.authSource }

/-- `ResolveTarget`. -/
def resolveTarget (d : Database) (name : Bytes) (vars : GoMap Bytes Bytes) :
    GoM ResolveError ResolvedTarget :=
  match d.byName.get name with
  | none =>
    fail ⟨[], errorf "unknown target %q for database %q" [.text name, .text d.virtualName]⟩
  | some t => do
    let resolvedDB ← mapErr (resolveFailure name) (resolve t.database vars)
    refuse (resolvedDB ≠ [] ∧ ¬ validIdentifier resolvedDB)
      ⟨[], errorf "resolved database %q contains invalid characters" [.text resolvedDB]⟩
    pure (d.snapshot t resolvedDB)

/-- `Register`. -/
def register (d : Database) (c : ConnId) (conn : Conn) : Database :=
  { d with conns := d.conns.insert c conn }

/-- `Conn.Close` of a connection of this database; the second time it does nothing. -/
def close (d : Database) (c : ConnId) : Database := { d with conns := d.conns.erase c }

/-- `dropAll`, with the snapshot of the connections in the given order. -/
def dropAll (d : Database) (snapshot : List ConnId) : Database × ℕ :=
  (snapshot.foldl close d, snapshot.length)

/-- `current.Store`. -/
def store (d : Database) (rt : Option ResolvedTarget) : Database := { d with current := rt }

/-- `Apply`: load, store, drop. -/
def apply (d : Database) (rt : ResolvedTarget) (snapshot : List ConnId) :
    Database × Option ResolvedTarget × ℕ :=
  let prev := d.current
  let (d, closed) := (d.store (some rt)).dropAll snapshot
  (d, prev, closed)

/-- `Clear`: swap, drop. -/
def clear (d : Database) (snapshot : List ConnId) : Database × Option ResolvedTarget × ℕ :=
  let prev := d.current
  let (d, closed) := (d.store none).dropAll snapshot
  (d, prev, closed)

/-! ## Specifications -/

theorem foldl_close (d : Database) (snapshot : List ConnId) :
    snapshot.foldl close d = { d with conns := snapshot.foldl (fun m c ↦ m.erase c) d.conns } := by
  induction snapshot generalizing d with
  | nil => rfl
  | cons c rest ih => rw [List.foldl_cons, List.foldl_cons, ih]; rfl

/-- Dropping the connections in any order leaves none and counts them all. -/
theorem dropAll_eq {d : Database} {snapshot : List ConnId} (horder : Enumerates snapshot d.conns) :
    d.dropAll snapshot = ({ d with conns := ∅ }, d.conns.keys.card) := by
  rw [dropAll, foldl_close, GoMap.foldl_erase_eq_empty horder.mem_iff,
    GoMap.length_eq_card horder]

theorem apply_eq {d : Database} (rt : ResolvedTarget) {snapshot : List ConnId}
    (horder : Enumerates snapshot d.conns) :
    d.apply rt snapshot =
      ({ d with current := some rt, conns := ∅ }, d.current, d.conns.keys.card) := by
  rw [apply, dropAll_eq (d := d.store (some rt)) horder]
  rfl

theorem clear_eq {d : Database} {snapshot : List ConnId} (horder : Enumerates snapshot d.conns) :
    d.clear snapshot = ({ d with current := none, conns := ∅ }, d.current, d.conns.keys.card) := by
  rw [clear, dropAll_eq (d := d.store none) horder]
  rfl

/-- `ResolveTarget` succeeds when the target is declared and its template resolves to nothing or to
an identifier. -/
theorem resolveTarget_eq_ok {d : Database} {name : Bytes} {vars : GoMap Bytes Bytes}
    {rt : ResolvedTarget} :
    d.resolveTarget name vars = .ok rt ↔ ∃ t resolvedDB, d.byName.get name = some t ∧
      resolve t.database vars = .ok resolvedDB ∧
      (resolvedDB = [] ∨ validIdentifier resolvedDB) ∧ rt = d.snapshot t resolvedDB := by
  unfold resolveTarget
  cases hget : d.byName.get name with
  | none => simp
  | some t =>
    simp only
    rw [bind_eq_ok]
    simp only [mapErr_eq_ok, refuse_bind_eq_ok, Option.some.injEq]
    constructor
    · intro h
      rcases h with ⟨resolvedDB, hresolve, hvalid, hsnapshot⟩
      exact ⟨t, resolvedDB, rfl, hresolve, or_iff_not_and_not.mpr hvalid,
        (Except.ok.inj hsnapshot).symm⟩
    · intro h
      rcases h with ⟨t', resolvedDB, rfl, hresolve, hvalid, rfl⟩
      exact ⟨resolvedDB, hresolve, or_iff_not_and_not.mp hvalid, rfl⟩

theorem returns_resolveTarget (d : Database) (name : Bytes) (vars : GoMap Bytes Bytes) :
    Returns (d.resolveTarget name vars) := by
  unfold resolveTarget
  cases d.byName.get name with
  | none => exact returns_fail _
  | some t =>
    refine returns_bind (returns_mapErr.mpr (returns_resolve _ _)) fun resolvedDB _ ↦ ?_
    exact returns_bind (returns_refuse _ _) fun _ _ ↦ returns_pure _

/-- A target that is not declared does not resolve. -/
theorem hasTarget_of_resolveTarget {d : Database} {name : Bytes} {vars : GoMap Bytes Bytes}
    {rt : ResolvedTarget} (hresolve : d.resolveTarget name vars = .ok rt) : d.hasTarget name := by
  rcases resolveTarget_eq_ok.mp hresolve with ⟨t, -, hget, -⟩
  simpa [hasTarget] using GoMap.mem_of_get hget

/-- Resolving a target reads neither the current target nor the connections. -/
theorem resolveTarget_update (d : Database) (current : Option ResolvedTarget)
    (conns : GoMap ConnId Conn) (name : Bytes) (vars : GoMap Bytes Bytes) :
    resolveTarget { d with current, conns } name vars = d.resolveTarget name vars := rfl

end Database

end DbPivot.Proxy
