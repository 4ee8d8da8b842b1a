import DbPivot.Control.History
import DbPivot.Proxy.ConcurrentSwitch

/-!
# Requests that overlap

The daemon handles every request in a goroutine of its own. The switches of several `use` requests
may overlap, with each other and with the connections that come and go, and there is then no board
that all databases agree with: one may be on the target of the last request and another one on that
of the request before.

Whatever overlaps, a database is on no other target than the one that the start or some `use` asks
for, with the variables of that `use`, and the `use` has got as far as its commit.
-/

namespace DbPivot.Control

open DbPivot.Go DbPivot.Config
open DbPivot.Proxy (ResolvedTarget ConnId Conn Plan goal planOf openDatabases)
open DbPivot.Proxy.ConcurrentSwitch (State)

/-- What an operator asks for: the target of the start with its variables, and the `use` requests.
One that never gets as far as `SwitchAll` stays idle. -/
structure Operator where
  target : Bytes
  vars : GoMap Bytes Bytes
  uses : ℕ → Request

/-- One of the requests takes a step of its `SwitchAll`, or a connection comes or goes. -/
inductive OverlapStep (op : Operator) (s : State) : State → Prop where
  | switch {event : Proxy.ConcurrentSwitch.Event} {s' : State}
      (hstep : Proxy.ConcurrentSwitch.Step (fun i ↦ (op.uses i).target) (fun i ↦ (op.uses i).vars) s
        event s') : OverlapStep op s s'
  | register {name : Bytes} {db : Proxy.Database} {c : ConnId} (conn : Conn)
      (hget : s.server.databases.get name = some db) (hfresh : c ∉ db.conns) :
      OverlapStep op s (s.setDatabase name (db.register c conn))
  | close {name : Bytes} {db : Proxy.Database} (c : ConnId)
      (hget : s.server.databases.get name = some db) :
      OverlapStep op s (s.setDatabase name (db.close c))

/-! ## What a request may have written -/

/-- The request has got as far as its commit. -/
def Begun : Proxy.ConcurrentSwitch.Call → Prop
  | .idle => False
  | .planned _ => False
  | .failed _ => False
  | _ => True

/-- The target that the start, or a `use` which has begun to commit, asks for. -/
def Operator.Chose (op : Operator) (s : State) (db : Proxy.Database) (rt : ResolvedTarget) : Prop :=
  goal op.target op.vars db = some rt ∨
    ∃ i, Begun (s.calls i) ∧ goal (op.uses i).target (op.uses i).vars db = some rt

/-- The plans are those of the request for the databases of the configuration. -/
def PlansFor (cfg : Config) (req : Request) (plans : GoMap Bytes Plan) : Prop :=
  ∀ name db, (openDatabases cfg).get name = some db →
    plans.get name = some (planOf req.target req.vars db)

/-- What a request carries along is for the databases of the configuration. -/
def Carries (cfg : Config) (req : Request) : Proxy.ConcurrentSwitch.Call → Prop
  | .planned plans => PlansFor cfg req plans
  | .committing plans _ _ => PlansFor cfg req plans
  | .loaded plans name rt _ _ _ =>
    PlansFor cfg req plans ∧
      ∀ db, (openDatabases cfg).get name = some db → goal req.target req.vars db = some rt
  | .stored plans _ _ _ _ _ => PlansFor cfg req plans
  | _ => True

/-- The databases are those of the configuration, each on a target that was asked for. -/
structure Sound (cfg : Config) (op : Operator) (s : State) : Prop where
  databases : ∀ name, ∃ current conns,
    s.server.databases.get name =
        ((openDatabases cfg).get name).map (fun db ↦ { db with current, conns }) ∧
      ∀ db rt, (openDatabases cfg).get name = some db → current = some rt → op.Chose s db rt
  requests : ∀ i, Carries cfg (op.uses i) (s.calls i)

variable {cfg : Config} {op : Operator} {s s' : State} {i : ℕ} {phase : Proxy.ConcurrentSwitch.Call}

theorem Operator.Chose.mono {db : Proxy.Database} {rt : ResolvedTarget} (h : op.Chose s db rt)
    (hbegun : ∀ i, Begun (s.calls i) → Begun (s'.calls i)) : op.Chose s' db rt := by
  rcases h with hstart | ⟨i, hi, hgoal⟩
  · exact .inl hstart
  · exact .inr ⟨i, hbegun i hi, hgoal⟩

/-! ## One step -/

theorem begun_setCall (h : Begun (s.calls i) → Begun phase) (j : ℕ) (hj : Begun (s.calls j)) :
    Begun ((s.setCall i phase).calls j) := by
  by_cases hsame : j = i
  · subst hsame
    rw [State.calls_setCall]
    exact h hj
  · rwa [State.calls_setCall_of_ne _ _ hsame]

/-- A request that has begun to commit never goes back. -/
theorem begun_step (hstep : OverlapStep op s s') (j : ℕ) (hj : Begun (s.calls j)) :
    Begun (s'.calls j) := by
  cases hstep with
  | switch hstep =>
    cases hstep with
    | plan hphase =>
      refine begun_setCall (fun hbegun ↦ ?_) j hj
      rw [hphase] at hbegun
      exact hbegun.elim
    | planFails hphase =>
      refine begun_setCall (fun hbegun ↦ ?_) j hj
      rw [hphase] at hbegun
      exact hbegun
    | _ =>
      refine begun_setCall (fun _ ↦ ?_) j hj
      trivial
  | register => exact hj
  | close => exact hj

theorem Sound.setCall (hs : Sound cfg op s) (hbegun : Begun (s.calls i) → Begun phase)
    (hcarries : Carries cfg (op.uses i) phase) : Sound cfg op (s.setCall i phase) := by
  refine ⟨fun name ↦ ?_, fun j ↦ ?_⟩
  · obtain ⟨current, conns, hget, hchose⟩ := hs.databases name
    exact ⟨current, conns, hget, fun db rt hdb hrt ↦
      (hchose db rt hdb hrt).mono (begun_setCall hbegun)⟩
  · by_cases hsame : j = i
    · subst hsame
      rwa [State.calls_setCall]
    · rw [State.calls_setCall_of_ne _ _ hsame]
      exact hs.requests j

/-- A database of the server is one of the configuration. -/
theorem Sound.exists_of_get (hs : Sound cfg op s) {name : Bytes} {d : Proxy.Database}
    (hget : s.server.databases.get name = some d) :
    ∃ db, (openDatabases cfg).get name = some db ∧
      d = { db with current := d.current, conns := d.conns } ∧
      ∀ rt, d.current = some rt → op.Chose s db rt := by
  obtain ⟨current, conns, hget', hchose⟩ := hs.databases name
  rw [hget, eq_comm, Option.map_eq_some_iff] at hget'
  obtain ⟨db, hdb, rfl⟩ := hget'
  exact ⟨db, hdb, rfl, fun rt ↦ hchose db rt hdb⟩

theorem Sound.setDatabase (hs : Sound cfg op s) {name : Bytes} {d : Proxy.Database}
    (hget : s.server.databases.get name = some d) (current : Option ResolvedTarget)
    (conns : GoMap ConnId Conn)
    (hcurrent : ∀ db rt, (openDatabases cfg).get name = some db → current = some rt →
      op.Chose s db rt) :
    Sound cfg op (s.setDatabase name { d with current, conns }) := by
  refine ⟨fun other ↦ ?_, hs.requests⟩
  by_cases hsame : other = name
  · subst hsame
    obtain ⟨db, hdb, hd, -⟩ := hs.exists_of_get hget
    refine ⟨current, conns, ?_, hcurrent⟩
    rw [State.setDatabase, Proxy.ConcurrentSwitch.putDatabase, GoMap.get_insert, hdb, hd]
    rfl
  · obtain ⟨current', conns', hget', hchose⟩ := hs.databases other
    refine ⟨current', conns', ?_, hchose⟩
    rw [State.setDatabase, Proxy.ConcurrentSwitch.putDatabase, GoMap.get_insert_of_ne _ _ hsame]
    exact hget'

/-- The connections of a database change. -/
theorem Sound.setConns (hs : Sound cfg op s) {name : Bytes} {d : Proxy.Database}
    (hget : s.server.databases.get name = some d) (conns : GoMap ConnId Conn) :
    Sound cfg op (s.setDatabase name { d with conns }) := by
  refine hs.setDatabase hget d.current conns fun db rt hdb hrt ↦ ?_
  obtain ⟨db', hdb', -, hchose⟩ := hs.exists_of_get hget
  obtain rfl : db' = db := Option.some.inj (hdb'.symm.trans hdb)
  exact hchose rt hrt

/-- The first pass does not see what the others have written. -/
theorem Sound.plansFor (hs : Sound cfg op s) {req : Request} {order : List Bytes}
    {plans : GoMap Bytes Plan} (horder : Enumerates order s.server.databases)
    (hplan : Proxy.planAll s.server.databases req.target req.vars order = .ok plans) :
    PlansFor cfg req plans := by
  intro name db hdb
  obtain ⟨current, conns, hget, -⟩ := hs.databases name
  rw [hdb, Option.map_some] at hget
  have hplanned : plans.get name = some (planOf req.target req.vars { db with current, conns }) :=
    (Proxy.ConcurrentSwitch.planned_of_planAll horder hplan).plan name _ hget
  exact hplanned

theorem PlansFor.goal {req : Request} {plans : GoMap Bytes Plan} (h : PlansFor cfg req plans)
    {name : Bytes} {rt : ResolvedTarget} (hplan : (plans.get name).getD .zero = .switch rt)
    {db : Proxy.Database} (hdb : (openDatabases cfg).get name = some db) :
    goal req.target req.vars db = some rt := by
  rw [h name db hdb, Option.getD_some, planOf] at hplan
  split at hplan
  next => cases hplan
  next rt' hgoal =>
    obtain rfl := Plan.switch.inj hplan
    exact hgoal

theorem Sound.carries (hs : Sound cfg op s) (hphase : s.calls i = phase) :
    Carries cfg (op.uses i) phase := hphase ▸ hs.requests i

theorem sound_step (hs : Sound cfg op s) (hstep : OverlapStep op s s') : Sound cfg op s' := by
  cases hstep with
  | register conn hget => exact hs.setConns hget _
  | close c hget => exact hs.setConns hget _
  | switch hstep =>
    cases hstep with
    | plan hphase horder hplan =>
      refine hs.setCall (fun hbegun ↦ ?_) (hs.plansFor horder hplan)
      rw [hphase] at hbegun
      exact hbegun.elim
    | planFails hphase =>
      refine hs.setCall (fun hbegun ↦ ?_) trivial
      rw [hphase] at hbegun
      exact hbegun
    | enter hphase =>
      have hplans : PlansFor cfg _ _ := hs.carries hphase
      exact hs.setCall (fun _ ↦ trivial) hplans
    | load hphase hplan =>
      have hplans : PlansFor cfg _ _ := hs.carries hphase
      exact hs.setCall (fun _ ↦ trivial) ⟨hplans, fun db hdb ↦ hplans.goal hplan hdb⟩
    | @store i _ name rt _ _ _ d hphase hget =>
      have hcarries := hs.carries hphase
      have hbegun : Begun (s.calls i) := by
        rw [hphase]
        trivial
      refine (hs.setDatabase hget (some rt) d.conns fun db rt' hdb hrt ↦ ?_).setCall
        (fun _ ↦ trivial) hcarries.1
      obtain rfl := Option.some.inj hrt
      exact .inr ⟨i, hbegun, hcarries.2 db hdb⟩
    | swap hphase hplan hget =>
      have hplans : PlansFor cfg _ _ := hs.carries hphase
      exact (hs.setDatabase hget none _ fun _ _ _ h ↦ absurd h (by simp)).setCall
        (fun _ ↦ trivial) hplans
    | drop hphase hget horder =>
      have hplans : PlansFor cfg _ _ := hs.carries hphase
      rw [Proxy.Database.dropAll_eq horder]
      exact (hs.setConns hget ∅).setCall (fun _ ↦ trivial) hplans
    | @finish i _ results hphase =>
      have htarget : Sound cfg op (s.setTarget (op.uses i).target (op.uses i).vars) :=
        ⟨hs.databases, hs.requests⟩
      exact htarget.setCall (i := i) (fun _ ↦ trivial) trivial

theorem sound_run (hs : Sound cfg op s) (hrun : Relation.ReflTransGen (OverlapStep op) s s') :
    Sound cfg op s' := by
  induction hrun with
  | refl => exact hs
  | tail _ hstep ih => exact sound_step ih hstep

/-- So it begins, before any request. -/
theorem sound_new {orders : Proxy.Orders} {server : Proxy.Server}
    (horders : orders.Valid (openDatabases cfg))
    (hnew : Proxy.new cfg op.target op.vars orders = .ok server) :
    Sound cfg op ⟨server, fun _ ↦ .idle⟩ := by
  obtain ⟨conns, -, hget⟩ := (shows_new horders hnew).databases
  refine ⟨fun name ↦ ?_, fun _ ↦ trivial⟩
  cases hdb : (openDatabases cfg).get name with
  | none => exact ⟨none, ∅, (hget name).trans (by rw [hdb]; rfl), fun db rt h ↦ absurd h (by simp)⟩
  | some db =>
    refine ⟨goal op.target op.vars db, conns name, (hget name).trans (by rw [hdb]; rfl), ?_⟩
    rintro _ rt ⟨⟩ hrt
    exact .inl hrt

end DbPivot.Control
