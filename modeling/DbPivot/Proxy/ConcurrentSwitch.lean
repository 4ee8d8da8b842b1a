import DbPivot.Proxy.Runs
import DbPivot.System.Run

/-!
# Overlapping switches

The control server handles each request in its own goroutine, and `SwitchAll` holds no lock while
it commits: it loads, stores or swaps one database's target, drops that database's connections, goes
on to the next, and writes the global target and variables at the end. Calls that overlap while they
commit can leave the databases on different targets.

When a call enters its commit phase only while no other call is in its own, what the calls leave
behind and report is what `switchAll` computes for the successful ones, one after another in the
order in which they finish.
-/

namespace DbPivot.Proxy

open DbPivot.Go DbPivot.Config DbPivot.System

namespace ConcurrentSwitch

/-! ## Calls -/

/-- Where a call is. While it commits it holds its plans, the databases to come and the results so
far. -/
inductive Call where
  | idle
  | planned (plans : GoMap Bytes Plan)
  | committing (plans : GoMap Bytes Plan) (todo : List Bytes) (results : List SwitchResult)
  | loaded (plans : GoMap Bytes Plan) (name : Bytes) (rt : ResolvedTarget)
      (prev : Option ResolvedTarget) (todo : List Bytes) (results : List SwitchResult)
  | stored (plans : GoMap Bytes Plan) (name : Bytes) (p : Plan) (prev : Option ResolvedTarget)
      (todo : List Bytes) (results : List SwitchResult)
  | returned (results : List SwitchResult)
  | failed (error : SwitchError)

/-- The call is in its commit phase. -/
def Call.InCommit : Call → Prop
  | .committing _ _ _ => True
  | .loaded _ _ _ _ _ _ => True
  | .stored _ _ _ _ _ _ => True
  | _ => False

/-- The plans the call holds. -/
def Call.plans? : Call → Option (GoMap Bytes Plan)
  | .planned plans => some plans
  | .committing plans _ _ => some plans
  | .loaded plans _ _ _ _ _ => some plans
  | .stored plans _ _ _ _ _ => some plans
  | _ => none

/-- The call has not begun or has returned. -/
def Call.Over : Call → Prop
  | .idle => True
  | .returned _ => True
  | .failed _ => True
  | _ => False

/-- Put another value of the database of that name. -/
def putDatabase (server : Server) (name : Bytes) (d : Database) : Server :=
  { server with databases := server.databases.insert name d }

theorem Call.not_over_of_inCommit {phase : Call} (hcommit : phase.InCommit) : ¬ phase.Over := by
  cases phase with
  | committing => exact id
  | loaded => exact id
  | stored => exact id
  | _ => exact absurd hcommit id

/-- A server and the calls on it. -/
structure State where
  server : Server
  calls : ℕ → Call

namespace State

def setCall (s : State) (i : ℕ) (phase : Call) : State :=
  { s with calls := Function.update s.calls i phase }

def setDatabase (s : State) (name : Bytes) (d : Database) : State :=
  { s with server := putDatabase s.server name d }

/-- The locked write at the end of a call. -/
def setTarget (s : State) (target : Bytes) (vars : GoMap Bytes Bytes) : State :=
  { s with server := { s.server with currentTarget := target, currentVars := vars } }

@[simp]
theorem calls_setCall (s : State) (i : ℕ) (phase : Call) : (s.setCall i phase).calls i = phase :=
  Function.update_self ..

theorem calls_setCall_of_ne (s : State) {i j : ℕ} (phase : Call) (hne : j ≠ i) :
    (s.setCall i phase).calls j = s.calls j := Function.update_of_ne hne ..

theorem calls_setDatabase (s : State) (name : Bytes) (d : Database) :
    (s.setDatabase name d).calls = s.calls := rfl

theorem calls_setTarget (s : State) (target : Bytes) (vars : GoMap Bytes Bytes) :
    (s.setTarget target vars).calls = s.calls := rfl

/-- A property of all calls, one of which has moved. -/
theorem forall_setCall {P : Call → Prop} {s : State} {i : ℕ} {phase : Call} (hself : P phase)
    (hothers : ∀ j, j ≠ i → P (s.calls j)) (j : ℕ) : P ((s.setCall i phase).calls j) := by
  by_cases hsame : j = i
  · subst hsame
    rwa [calls_setCall]
  · rw [calls_setCall_of_ne _ _ hsame]
    exact hothers j hsame

end State

/-- The step a call takes. -/
inductive Event where
  | plan (i : ℕ)
  | enter (i : ℕ)
  | load (i : ℕ)
  | store (i : ℕ)
  | swap (i : ℕ)
  | drop (i : ℕ)
  | finish (i : ℕ)

/-- One step of one call, when call `i` is `SwitchAll(target i, vars i)`. The first pass reads only
what no call ever changes, so it is one step. -/
inductive Step (target : ℕ → Bytes) (vars : ℕ → GoMap Bytes Bytes) (s : State) :
    Event → State → Prop where
  | plan {i : ℕ} {order : List Bytes} {plans : GoMap Bytes Plan} (hphase : s.calls i = .idle)
      (horder : Enumerates order s.server.databases)
      (hplan : planAll s.server.databases (target i) (vars i) order = .ok plans) :
      Step target vars s (.plan i) (s.setCall i (.planned plans))
  | planFails {i : ℕ} {order : List Bytes} {error : SwitchError} (hphase : s.calls i = .idle)
      (horder : Enumerates order s.server.databases)
      (hplan : planAll s.server.databases (target i) (vars i) order = fail error) :
      Step target vars s (.plan i) (s.setCall i (.failed error))
  | enter {i : ℕ} {plans : GoMap Bytes Plan} {order : List Bytes}
      (hphase : s.calls i = .planned plans) (horder : Enumerates order s.server.databases) :
      Step target vars s (.enter i) (s.setCall i (.committing plans order []))
  | load {i : ℕ} {plans : GoMap Bytes Plan} {name : Bytes} {todo : List Bytes}
      {results : List SwitchResult} {rt : ResolvedTarget} {d : Database}
      (hphase : s.calls i = .committing plans (name :: todo) results)
      (hplan : (plans.get name).getD .zero = .switch rt)
      (hget : s.server.databases.get name = some d) :
      Step target vars s (.load i) (s.setCall i (.loaded plans name rt d.current todo results))
  | store {i : ℕ} {plans : GoMap Bytes Plan} {name : Bytes} {rt : ResolvedTarget}
      {prev : Option ResolvedTarget} {todo : List Bytes} {results : List SwitchResult}
      {d : Database} (hphase : s.calls i = .loaded plans name rt prev todo results)
      (hget : s.server.databases.get name = some d) :
      Step target vars s (.store i)
        ((s.setDatabase name (d.store (some rt))).setCall i
          (.stored plans name (.switch rt) prev todo results))
  | swap {i : ℕ} {plans : GoMap Bytes Plan} {name : Bytes} {todo : List Bytes}
      {results : List SwitchResult} {d : Database}
      (hphase : s.calls i = .committing plans (name :: todo) results)
      (hplan : (plans.get name).getD .zero = .skip)
      (hget : s.server.databases.get name = some d) :
      Step target vars s (.swap i)
        ((s.setDatabase name (d.store none)).setCall i
          (.stored plans name .skip d.current todo results))
  | drop {i : ℕ} {plans : GoMap Bytes Plan} {name : Bytes} {p : Plan}
      {prev : Option ResolvedTarget} {todo : List Bytes} {results : List SwitchResult}
      {d : Database} {snapshot : List ConnId}
      (hphase : s.calls i = .stored plans name p prev todo results)
      (hget : s.server.databases.get name = some d) (horder : Enumerates snapshot d.conns) :
      Step target vars s (.drop i)
        ((s.setDatabase name (d.dropAll snapshot).1).setCall i
          (.committing plans todo
            (results ++ [switchResult name p prev (d.dropAll snapshot).2])))
  | finish {i : ℕ} {plans : GoMap Bytes Plan} {results : List SwitchResult}
      (hphase : s.calls i = .committing plans [] results) :
      Step target vars s (.finish i)
        ((s.setTarget (target i) (vars i)).setCall i (.returned results))

/-- A call enters its commit phase only while no other is in its own. -/
def Exclusive (s : State) : Event → Prop
  | .enter _ => ∀ j, ¬ (s.calls j).InCommit
  | _ => True

/-- The calls of the log, each with its results, run one after another. -/
inductive Replay (target : ℕ → Bytes) (vars : ℕ → GoMap Bytes Bytes) (start : Server) :
    List (ℕ × List SwitchResult) → Server → Prop where
  | nil : Replay target vars start [] start
  | snoc {log : List (ℕ × List SwitchResult)} {s s' : Server} {i : ℕ} {orders : Orders}
      {results : List SwitchResult} (hlog : Replay target vars start log s)
      (horders : orders.Valid s.databases)
      (hcall : switchAll s (target i) (vars i) orders = (.ok results, s')) :
      Replay target vars start (log ++ [(i, results)]) s'

/-- The calls that returned, with the results they returned, and the server they left behind are
those of a sequential run. -/
def Serial (target : ℕ → Bytes) (vars : ℕ → GoMap Bytes Bytes) (start s : State) : Prop :=
  ∃ log : List (ℕ × List SwitchResult), (log.map Prod.fst).Nodup ∧
    (∀ i results, s.calls i = .returned results ↔ (i, results) ∈ log) ∧
    Replay target vars start.server log s.server

theorem Replay.onTarget {target : ℕ → Bytes} {vars : ℕ → GoMap Bytes Bytes} {start s : Server}
    {log : List (ℕ × List SwitchResult)} (hlog : Replay target vars start log s)
    (h : log ≠ [] ∨ OnTarget start) : OnTarget s := by
  cases hlog with
  | nil => exact h.resolve_left fun hne ↦ hne rfl
  | snoc _ horders hcall => exact onTarget_of_ok horders hcall

/-! ## A commit under way -/

section Commit

variable {target : Bytes} {vars : GoMap Bytes Bytes}

/-- The server is `base` with every database changed as `touched` says. -/
structure Between (base server : Server) (touched : Bytes → Database → Database) : Prop where
  databases : ∀ name, server.databases.get name = (base.databases.get name).map (touched name)
  listenAddrs : server.listenAddrs = base.listenAddrs
  currentTarget : server.currentTarget = base.currentTarget
  currentVars : server.currentVars = base.currentVars

/-- What a commit has done to a database when it is through with the names in `done` and has stored
the target of the database `storing`. -/
def progress (target : Bytes) (vars : GoMap Bytes Bytes) (done : List Bytes)
    (storing : Option Bytes) (name : Bytes) (d : Database) : Database :=
  if name ∈ done then switched target vars d
  else if storing = some name then d.store (goal target vars d)
  else d

theorem Between.get {base server : Server} {touched : Bytes → Database → Database}
    (hserver : Between base server touched) {name : Bytes} {d d' : Database}
    (hbase : base.databases.get name = some d) (hget : server.databases.get name = some d') :
    d' = touched name d := by
  rw [hserver.databases, hbase] at hget
  exact (Option.some.inj hget).symm

/-- The commit moves on with one database. -/
theorem Between.insert {base server : Server} {touched touched' : Bytes → Database → Database}
    (hserver : Between base server touched) {name : Bytes} {d d' : Database}
    (hbase : base.databases.get name = some d) (hname : touched' name d = d')
    (hother : ∀ other, other ≠ name → touched' other = touched other) :
    Between base (putDatabase server name d') touched' := by
  refine ⟨fun other ↦ ?_, hserver.listenAddrs, hserver.currentTarget, hserver.currentVars⟩
  rw [putDatabase]
  by_cases hsame : other = name
  · subst hsame
    rw [GoMap.get_insert, hbase, Option.map_some, hname]
  · rw [GoMap.get_insert_of_ne _ _ hsame, hserver.databases, hother other hsame]

theorem between_refl (base : Server) : Between base base (progress target vars [] none) := by
  refine ⟨fun name ↦ ?_, rfl, rfl, rfl⟩
  have hid : progress target vars [] none name = id := by
    funext d
    simp [progress]
  rw [hid, Option.map_id_fun, id]

/-- A database in the middle of a commit has the targets it had. -/
theorem exists_progress (done : List Bytes) (storing : Option Bytes) (name : Bytes) (d : Database) :
    ∃ current conns, progress target vars done storing name d = { d with current, conns } := by
  unfold progress
  split
  · exact ⟨_, _, rfl⟩
  · split
    · exact ⟨_, _, rfl⟩
    · exact ⟨_, _, rfl⟩

/-- The store of one database. -/
theorem between_store {base server : Server} {done : List Bytes} {name : Bytes} {d : Database}
    (hserver : Between base server (progress target vars done none)) (hdone : name ∉ done)
    (hbase : base.databases.get name = some d) :
    Between base (putDatabase server name (d.store (goal target vars d)))
      (progress target vars done (some name)) := by
  refine hserver.insert hbase ?_ fun other hother ↦ ?_
  · simp [progress, hdone]
  · funext d
    simp [progress, hother.symm]

/-- The drop of one database, the last step before it is done. -/
theorem between_drop {base server : Server} {done : List Bytes} {name : Bytes} {d : Database}
    (hserver : Between base server (progress target vars done (some name)))
    (hbase : base.databases.get name = some d) :
    Between base (putDatabase server name (switched target vars d))
      (progress target vars (done ++ [name]) none) := by
  refine hserver.insert hbase ?_ fun other hother ↦ ?_
  · simp [progress]
  · funext d
    simp [progress, hother, hother.symm]

/-- The plans are those of databases that can be switched. -/
structure Planned (databases : GoMap Bytes Database) (target : Bytes) (vars : GoMap Bytes Bytes)
    (plans : GoMap Bytes Plan) : Prop where
  switchable : Switchable databases target vars
  plan : ∀ name d, databases.get name = some d → plans.get name = some (planOf target vars d)

theorem planned_of_planAll {databases : GoMap Bytes Database} {order : List Bytes}
    {plans : GoMap Bytes Plan} (horder : Enumerates order databases)
    (hplan : planAll databases target vars order = .ok plans) :
    Planned databases target vars plans := by
  rcases (planAll_eq_ok horder).mp hplan with ⟨hswitchable, rfl⟩
  exact ⟨hswitchable, fun name d hget ↦ get_plansOf horder hget⟩

/-- A commit of another call, under way or over, makes no difference to the plans. -/
theorem planned_iff {base server : Server} {touched : Bytes → Database → Database}
    (hserver : Between base server touched)
    (hkept : ∀ name d, ∃ current conns, touched name d = { d with current, conns })
    {plans : GoMap Bytes Plan} :
    Planned server.databases target vars plans ↔ Planned base.databases target vars plans := by
  have hhas : ∀ name d, (touched name d).hasTarget target ↔ d.hasTarget target := by
    intro name d
    rcases hkept name d with ⟨current, conns, heq⟩
    rw [heq]
    rfl
  have hresolve : ∀ name d,
      (touched name d).resolveTarget target vars = d.resolveTarget target vars := by
    intro name d
    rcases hkept name d with ⟨current, conns, heq⟩
    rw [heq, Database.resolveTarget_update]
  have hplanOf : ∀ name d, planOf target vars (touched name d) = planOf target vars d := by
    intro name d
    rw [planOf, planOf, goal, goal, hresolve]
  have hget : ∀ name d, base.databases.get name = some d →
      server.databases.get name = some (touched name d) := by
    intro name d hbase
    rw [hserver.databases, hbase, Option.map_some]
  have hback : ∀ name d', server.databases.get name = some d' →
      ∃ d, base.databases.get name = some d ∧ touched name d = d' := by
    intro name d' hget'
    rwa [hserver.databases, Option.map_eq_some_iff] at hget'
  constructor
  · intro h
    rcases h with ⟨⟨⟨name, d', hget', hdeclared⟩, hresolves⟩, hplan⟩
    rcases hback name d' hget' with ⟨d, hbase, rfl⟩
    refine ⟨⟨⟨name, d, hbase, (hhas name d).mp hdeclared⟩, fun name d hbase hdeclared ↦ ?_⟩,
      fun name d hbase ↦ ?_⟩
    · have hres := hresolves name _ (hget name d hbase) ((hhas name d).mpr hdeclared)
      rwa [hresolve] at hres
    · rw [hplan name _ (hget name d hbase), hplanOf]
  · intro h
    rcases h with ⟨⟨⟨name, d, hbase, hdeclared⟩, hresolves⟩, hplan⟩
    refine ⟨⟨⟨name, _, hget name d hbase, (hhas name d).mpr hdeclared⟩,
      fun name d' hget' hdeclared ↦ ?_⟩, fun name d' hget' ↦ ?_⟩
    · rcases hback name d' hget' with ⟨d, hbase, rfl⟩
      rw [hresolve]
      exact hresolves name d hbase ((hhas name d).mp hdeclared)
    · rcases hback name d' hget' with ⟨d, hbase, rfl⟩
      rw [hplan name d hbase, hplanOf]

/-- What a commit reports of the databases it is through with. -/
def resultsOf (target : Bytes) (vars : GoMap Bytes Bytes) (base : Server) (done : List Bytes) :
    List SwitchResult :=
  (base.databases.entries done).map fun entry ↦ resultOf target vars entry.1 entry.2

theorem resultsOf_append {base : Server} {done : List Bytes} {name : Bytes} {d : Database}
    (hbase : base.databases.get name = some d) :
    resultsOf target vars base (done ++ [name]) =
      resultsOf target vars base done ++ [resultOf target vars name d] := by
  simp [resultsOf, GoMap.entries, List.filterMap_append, hbase]

/-- How far a call in its commit phase has taken the server from `base`. -/
inductive Partway (target : Bytes) (vars : GoMap Bytes Bytes) (base server : Server) :
    Call → Prop where
  | committing {plans : GoMap Bytes Plan} {done todo : List Bytes}
      (horder : Enumerates (done ++ todo) base.databases)
      (hserver : Between base server (progress target vars done none)) :
      Partway target vars base server
        (.committing plans todo (resultsOf target vars base done))
  | loaded {plans : GoMap Bytes Plan} {done todo : List Bytes} {name : Bytes} {d : Database}
      {rt : ResolvedTarget} (horder : Enumerates (done ++ name :: todo) base.databases)
      (hbase : base.databases.get name = some d) (hgoal : goal target vars d = some rt)
      (hserver : Between base server (progress target vars done none)) :
      Partway target vars base server
        (.loaded plans name rt d.current todo (resultsOf target vars base done))
  | stored {plans : GoMap Bytes Plan} {done todo : List Bytes} {name : Bytes} {d : Database}
      (horder : Enumerates (done ++ name :: todo) base.databases)
      (hbase : base.databases.get name = some d)
      (hserver : Between base server (progress target vars done (some name))) :
      Partway target vars base server
        (.stored plans name (planOf target vars d) d.current todo (resultsOf target vars base done))

theorem Partway.between {base server : Server} {phase : Call}
    (hpart : Partway target vars base server phase) :
    ∃ done storing, Between base server (progress target vars done storing) := by
  cases hpart with
  | committing _ hserver => exact ⟨_, _, hserver⟩
  | loaded _ _ _ hserver => exact ⟨_, _, hserver⟩
  | stored _ _ hserver => exact ⟨_, _, hserver⟩

/-- The next name of a commit is one of the server's databases, and not one that is done. -/
theorem notMem_done {base : Server} {done todo : List Bytes} {name : Bytes}
    (horder : Enumerates (done ++ name :: todo) base.databases) :
    name ∉ done ∧ ∃ d, base.databases.get name = some d := by
  constructor
  · intro hdone
    exact List.disjoint_of_nodup_append horder.nodup hdone List.mem_cons_self
  · exact GoMap.mem_iff_get.mp ((horder.mem_iff name).mp (by simp))

theorem progress_of_notMem {done : List Bytes} {name : Bytes} (hdone : name ∉ done) (d : Database) :
    progress target vars done none name d = d := by
  simp [progress, hdone]

/-- The plan the commit reads for its next database. -/
theorem planOf_of_planned {base : Server} {plans : GoMap Bytes Plan} {name : Bytes} {d : Database}
    {p : Plan} (hplanned : Planned base.databases target vars plans)
    (hbase : base.databases.get name = some d) (hplan : (plans.get name).getD .zero = p) :
    planOf target vars d = p := by
  rwa [hplanned.plan name d hbase, Option.getD_some] at hplan

theorem partway_load {base server : Server} {plans : GoMap Bytes Plan} {name : Bytes}
    {todo : List Bytes} {results : List SwitchResult} {rt : ResolvedTarget} {d : Database}
    (hplanned : Planned base.databases target vars plans)
    (hpart : Partway target vars base server (.committing plans (name :: todo) results))
    (hplan : (plans.get name).getD .zero = .switch rt)
    (hget : server.databases.get name = some d) :
    Partway target vars base server (.loaded plans name rt d.current todo results) := by
  cases hpart with
  | committing horder hserver =>
    rcases notMem_done horder with ⟨hdone, d', hbase⟩
    have hd : d = d' := (hserver.get hbase hget).trans (progress_of_notMem hdone d')
    subst hd
    have hgoal : goal target vars d = some rt := by
      have hp := planOf_of_planned hplanned hbase hplan
      unfold planOf at hp
      split at hp
      next => cases hp
      next found hfound => rw [hfound, Plan.switch.inj hp]
    exact .loaded horder hbase hgoal hserver

theorem partway_store {base server : Server} {plans : GoMap Bytes Plan} {name : Bytes}
    {todo : List Bytes} {results : List SwitchResult} {rt : ResolvedTarget}
    {prev : Option ResolvedTarget} {d : Database}
    (hpart : Partway target vars base server (.loaded plans name rt prev todo results))
    (hget : server.databases.get name = some d) :
    Partway target vars base (putDatabase server name (d.store (some rt)))
      (.stored plans name (.switch rt) prev todo results) := by
  cases hpart with
  | @loaded _ _ _ _ d' _ horder hbase hgoal hserver =>
    have hdone := (notMem_done horder).1
    have hd : d = d' := (hserver.get hbase hget).trans (progress_of_notMem hdone d')
    subst hd
    have hplan : planOf target vars d = .switch rt := by rw [planOf, hgoal]
    have hstored := between_store hserver hdone hbase
    rw [hgoal] at hstored
    rw [← hplan]
    exact .stored horder hbase hstored

theorem partway_swap {base server : Server} {plans : GoMap Bytes Plan} {name : Bytes}
    {todo : List Bytes} {results : List SwitchResult} {d : Database}
    (hplanned : Planned base.databases target vars plans)
    (hpart : Partway target vars base server (.committing plans (name :: todo) results))
    (hplan : (plans.get name).getD .zero = .skip) (hget : server.databases.get name = some d) :
    Partway target vars base (putDatabase server name (d.store none))
      (.stored plans name .skip d.current todo results) := by
  cases hpart with
  | committing horder hserver =>
    rcases notMem_done horder with ⟨hdone, d', hbase⟩
    have hd : d = d' := (hserver.get hbase hget).trans (progress_of_notMem hdone d')
    subst hd
    have hp := planOf_of_planned hplanned hbase hplan
    have hgoal : goal target vars d = none := by
      unfold planOf at hp
      split at hp
      next hnone => exact hnone
      next => cases hp
    have hstored := between_store hserver hdone hbase
    rw [hgoal] at hstored
    rw [← hp]
    exact .stored horder hbase hstored

theorem partway_drop {base server : Server} {plans : GoMap Bytes Plan} {name : Bytes} {p : Plan}
    {prev : Option ResolvedTarget} {todo : List Bytes} {results : List SwitchResult} {d : Database}
    {snapshot : List ConnId}
    (hpart : Partway target vars base server (.stored plans name p prev todo results))
    (hget : server.databases.get name = some d) (hsnapshot : Enumerates snapshot d.conns) :
    Partway target vars base (putDatabase server name (d.dropAll snapshot).1)
      (.committing plans todo
        (results ++ [switchResult name p prev (d.dropAll snapshot).2])) := by
  cases hpart with
  | @stored _ done _ _ d' horder hbase hserver =>
    have hdone := (notMem_done horder).1
    have hd : d = d'.store (goal target vars d') := by
      rw [hserver.get hbase hget]
      simp [progress, hdone]
    subst hd
    rw [Database.dropAll_eq hsnapshot]
    rw [List.append_cons] at horder
    have hpart : Partway target vars base (putDatabase server name (switched target vars d'))
        (.committing plans todo (resultsOf target vars base (done ++ [name]))) :=
      .committing horder (between_drop hserver hbase)
    rwa [resultsOf_append hbase] at hpart

/-- A commit that has come to its end is a whole call. -/
theorem switchAll_of_partway {base server : Server} {plans : GoMap Bytes Plan}
    {results : List SwitchResult}
    (hpart : Partway target vars base server (.committing plans [] results))
    (hswitchable : Switchable base.databases target vars) :
    ∃ orders : Orders, orders.Valid base.databases ∧
      switchAll base target vars orders =
        (.ok results, { server with currentTarget := target, currentVars := vars }) := by
  cases hpart with
  | @committing _ done _ horder hserver =>
    rw [List.append_nil] at horder
    rcases exists_orders horder with ⟨conns, hvalid⟩
    rcases switchAll_of_switchable hvalid hswitchable with ⟨databases, hcall, hdatabases⟩
    refine ⟨_, hvalid, hcall.trans ?_⟩
    have hsame : server.databases = databases := by
      refine GoMap.ext_get fun name ↦ ?_
      rw [hdatabases, hserver.databases]
      cases hget : base.databases.get name with
      | none => rfl
      | some d =>
        have hdone : name ∈ done := (horder.mem_iff name).mpr (GoMap.mem_of_get hget)
        simp [progress, hdone]
    have hserver' : { server with currentTarget := target, currentVars := vars } =
        ({ base with databases, currentTarget := target, currentVars := vars } : Server) := by
      rw [← hsame, ← hserver.listenAddrs]
    rw [hserver']
    rfl

end Commit

/-! ## Exclusive commits -/

section Exclusive

variable {target : ℕ → Bytes} {vars : ℕ → GoMap Bytes Bytes} {start base : Server} {s : State}
  {log : List (ℕ × List SwitchResult)}

/-- The calls that returned have been replayed up to `base`, and at most one call is on its way from
there. -/
structure Inv (target : ℕ → Bytes) (vars : ℕ → GoMap Bytes Bytes) (start : Server) (s : State)
    (log : List (ℕ × List SwitchResult)) (base : Server) : Prop where
  replay : Replay target vars start log base
  nodup : (log.map Prod.fst).Nodup
  returned : ∀ i results, s.calls i = .returned results ↔ (i, results) ∈ log
  planned : ∀ i plans, (s.calls i).plans? = some plans →
    Planned base.databases (target i) (vars i) plans
  commit : (s.server = base ∧ ∀ i, ¬ (s.calls i).InCommit) ∨
    ∃ i, (∀ j, j ≠ i → ¬ (s.calls j).InCommit) ∧
      Partway (target i) (vars i) base s.server (s.calls i)

/-- What every state of an exclusive run has. -/
def Tracked (target : ℕ → Bytes) (vars : ℕ → GoMap Bytes Bytes) (start : Server) (s : State) :
    Prop :=
  ∃ log base, Inv target vars start s log base

theorem inCommit_of_partway {target : Bytes} {vars : GoMap Bytes Bytes} {server : Server}
    {phase : Call} (hpart : Partway target vars base server phase) : phase.InCommit := by
  cases hpart <;> trivial

/-- The call in its commit phase is the one on its way. -/
theorem Inv.partway (hs : Inv target vars start s log base) {i : ℕ} {phase : Call}
    (hphase : s.calls i = phase) (hcommit : phase.InCommit) :
    (∀ j, j ≠ i → ¬ (s.calls j).InCommit) ∧ Partway (target i) (vars i) base s.server phase := by
  rw [← hphase] at hcommit
  rcases hs.commit with ⟨-, hnone⟩ | ⟨k, hothers, hpart⟩
  · exact absurd hcommit (hnone i)
  · have hsame : i = k := by
      by_contra hne
      exact hothers i hne hcommit
    subst hsame
    exact ⟨hothers, hphase ▸ hpart⟩

theorem Inv.planned_of_eq (hs : Inv target vars start s log base) {i : ℕ} {phase : Call}
    (hphase : s.calls i = phase) {plans : GoMap Bytes Plan} (hheld : phase.plans? = some plans) :
    Planned base.databases (target i) (vars i) plans :=
  hs.planned i plans (hphase ▸ hheld)

/-- The server is somewhere between `base` and the end of a commit. -/
theorem Inv.between (hs : Inv target vars start s log base) :
    ∃ (i : ℕ) (done : List Bytes) (storing : Option Bytes),
      Between base s.server (progress (target i) (vars i) done storing) := by
  rcases hs.commit with ⟨hserver, -⟩ | ⟨i, -, hpart⟩
  · rw [hserver]
    exact ⟨0, [], none, between_refl base⟩
  · rcases hpart.between with ⟨done, storing, hserver⟩
    exact ⟨i, done, storing, hserver⟩

/-- A change of phase that the log does not see. -/
theorem Inv.returned_setCall (hs : Inv target vars start s log base) {i : ℕ} {phase : Call}
    (hbefore : ∀ results, s.calls i ≠ .returned results)
    (hafter : ∀ results, phase ≠ .returned results) (j : ℕ) (results : List SwitchResult) :
    (s.setCall i phase).calls j = .returned results ↔ (j, results) ∈ log := by
  rw [← hs.returned]
  by_cases hsame : j = i
  · subst hsame
    rw [State.calls_setCall]
    exact iff_of_false (hafter results) (hbefore results)
  · rw [State.calls_setCall_of_ne _ _ hsame]

theorem Inv.planned_setCall (hs : Inv target vars start s log base) {i : ℕ} {phase : Call}
    (hplans : ∀ plans, phase.plans? = some plans →
      Planned base.databases (target i) (vars i) plans) (j : ℕ) (plans : GoMap Bytes Plan)
    (hheld : ((s.setCall i phase).calls j).plans? = some plans) :
    Planned base.databases (target j) (vars j) plans := by
  by_cases hsame : j = i
  · subst hsame
    rw [State.calls_setCall] at hheld
    exact hplans plans hheld
  · rw [State.calls_setCall_of_ne _ _ hsame] at hheld
    exact hs.planned j plans hheld

/-- A call plans, or fails to. -/
theorem inv_plan (hs : Inv target vars start s log base) {i : ℕ} {phase : Call}
    (hidle : s.calls i = .idle) (hcommit : ¬ phase.InCommit)
    (hreturned : ∀ results, phase ≠ .returned results)
    (hplans : ∀ plans, phase.plans? = some plans →
      Planned base.databases (target i) (vars i) plans) :
    Inv target vars start (s.setCall i phase) log base := by
  have hout : ∀ j, ¬ (s.calls j).InCommit → ¬ ((s.setCall i phase).calls j).InCommit := by
    intro j hj
    by_cases hsame : j = i
    · subst hsame
      rwa [State.calls_setCall]
    · rwa [State.calls_setCall_of_ne _ _ hsame]
  refine ⟨hs.replay, hs.nodup, hs.returned_setCall (by simp [hidle]) hreturned,
    hs.planned_setCall hplans, ?_⟩
  rcases hs.commit with ⟨hserver, hnone⟩ | ⟨k, hothers, hpart⟩
  · exact .inl ⟨hserver, fun j ↦ hout j (hnone j)⟩
  · have hne : k ≠ i := by
      intro hsame
      have hin := inCommit_of_partway hpart
      rw [hsame, hidle] at hin
      exact hin
    refine .inr ⟨k, fun j hj ↦ hout j (hothers j hj), ?_⟩
    rw [State.calls_setCall_of_ne _ _ hne]
    exact hpart

/-- A call enters its commit phase, alone. -/
theorem inv_enter (hs : Inv target vars start s log base) {i : ℕ} {plans : GoMap Bytes Plan}
    {order : List Bytes} (hphase : s.calls i = .planned plans)
    (horder : Enumerates order s.server.databases) (halone : ∀ j, ¬ (s.calls j).InCommit) :
    Inv target vars start (s.setCall i (.committing plans order [])) log base := by
  have hserver : s.server = base := by
    rcases hs.commit with ⟨hserver, -⟩ | ⟨k, -, hpart⟩
    · exact hserver
    · exact absurd (inCommit_of_partway hpart) (halone k)
  have hpart : Partway (target i) (vars i) base base (.committing plans order []) := by
    rw [hserver, ← List.nil_append order] at horder
    exact .committing horder (between_refl base)
  refine ⟨hs.replay, hs.nodup, hs.returned_setCall (by simp [hphase]) (by simp),
    hs.planned_setCall fun plans' heq ↦ ?_, .inr ⟨i, fun j hj ↦ ?_, ?_⟩⟩
  · exact hs.planned_of_eq hphase heq
  · rw [State.calls_setCall_of_ne _ _ hj]
    exact halone j
  · rw [State.calls_setCall]
    change Partway (target i) (vars i) base s.server _
    rwa [hserver]

/-- The call in its commit phase takes a step of it. -/
theorem inv_advance (hs : Inv target vars start s log base) {i : ℕ} {server : Server}
    {phase phase' : Call} (hphase : s.calls i = phase) (hcommit : phase.InCommit)
    (hplans : phase'.plans? = phase.plans?)
    (hpart : Partway (target i) (vars i) base server phase') :
    Inv target vars start ({ s with server }.setCall i phase') log base := by
  have hout := (hs.partway hphase hcommit).1
  have hbefore : ∀ results, s.calls i ≠ .returned results := by
    intro results heq
    rw [← hphase, heq] at hcommit
    exact hcommit
  have hafter : ∀ results, phase' ≠ .returned results := by
    intro results heq
    rw [heq] at hpart
    cases hpart
  refine ⟨hs.replay, hs.nodup, hs.returned_setCall hbefore hafter,
    hs.planned_setCall fun plans heq ↦ hs.planned_of_eq hphase (hplans ▸ heq),
    .inr ⟨i, fun j hj ↦ ?_, ?_⟩⟩
  · rw [State.calls_setCall_of_ne _ _ hj]
    exact hout j hj
  · rw [State.calls_setCall]
    exact hpart

/-- The call in its commit phase returns, and the log goes on with it. -/
theorem inv_finish (hs : Inv target vars start s log base) {i : ℕ} {plans : GoMap Bytes Plan}
    {results : List SwitchResult} (hphase : s.calls i = .committing plans [] results) :
    Tracked target vars start
      ((s.setTarget (target i) (vars i)).setCall i (.returned results)) := by
  rcases hs.partway hphase trivial with ⟨hothers, hpart⟩
  have hplanned := hs.planned_of_eq hphase rfl
  rcases switchAll_of_partway hpart hplanned.switchable with ⟨orders, horders, hcall⟩
  have hfresh : ∀ results', (i, results') ∉ log := by
    intro results' hmem
    rw [← hs.returned, hphase] at hmem
    cases hmem
  refine ⟨log ++ [(i, results)], _, hs.replay.snoc horders hcall, ?_, fun j results' ↦ ?_,
    fun j plans' hheld ↦ ?_,
    .inl ⟨rfl, State.forall_setCall (P := fun phase ↦ ¬ phase.InCommit) id hothers⟩⟩
  · rw [List.map_append]
    refine hs.nodup.append (List.nodup_singleton _) fun j hj hmem ↦ ?_
    rw [List.map_singleton, List.mem_singleton] at hmem
    rcases List.mem_map.mp hj with ⟨⟨k, results'⟩, hentry, hk⟩
    have hki : k = i := hk.trans hmem
    exact hfresh results' (hki ▸ hentry)
  · rw [List.mem_append, List.mem_singleton]
    by_cases hsame : j = i
    · subst hsame
      rw [State.calls_setCall, Call.returned.injEq]
      constructor
      · intro heq
        exact .inr (by rw [heq])
      · intro h
        rcases h with h | h
        · exact absurd h (hfresh results')
        · exact (Prod.mk.inj h).2.symm
    · rw [State.calls_setCall_of_ne _ _ hsame]
      refine (hs.returned j results').trans (or_iff_left fun h ↦ ?_).symm
      exact hsame (Prod.mk.inj h).1
  · rcases hpart.between with ⟨done, storing, hserver⟩
    refine (planned_iff hserver fun name d ↦ exists_progress done storing name d).mpr ?_
    have hnone : ∀ plans, (Call.returned results).plans? = some plans →
        Planned base.databases (target i) (vars i) plans := by
      intro plans hplans
      cases hplans
    exact hs.planned_setCall hnone j plans' hheld

theorem tracked_step {event : Event} {s' : State} (hs : Tracked target vars start s)
    (hstep : Guarded Exclusive (Step target vars) s event s') : Tracked target vars start s' := by
  rcases hs with ⟨log, base, hs⟩
  rcases hstep with ⟨hguard, hstep⟩
  cases hstep with
  | plan hphase horder hplan =>
    rcases hs.between with ⟨i, done, storing, hserver⟩
    refine ⟨log, base, inv_plan hs hphase id (by simp) fun plans hheld ↦ ?_⟩
    rw [← Option.some.inj hheld]
    exact (planned_iff hserver fun name d ↦ exists_progress done storing name d).mp
      (planned_of_planAll horder hplan)
  | planFails hphase horder hplan =>
    exact ⟨log, base, inv_plan hs hphase id (by simp) fun plans hheld ↦ by cases hheld⟩
  | enter hphase horder => exact ⟨log, base, inv_enter hs hphase horder hguard⟩
  | load hphase hplan hget =>
    have hpart := (hs.partway hphase trivial).2
    have hplanned := hs.planned_of_eq hphase rfl
    exact ⟨log, base, inv_advance hs hphase trivial rfl
      (partway_load hplanned hpart hplan hget)⟩
  | store hphase hget =>
    have hpart := (hs.partway hphase trivial).2
    exact ⟨log, base, inv_advance hs hphase trivial rfl (partway_store hpart hget)⟩
  | swap hphase hplan hget =>
    have hpart := (hs.partway hphase trivial).2
    have hplanned := hs.planned_of_eq hphase rfl
    exact ⟨log, base, inv_advance hs hphase trivial rfl
      (partway_swap hplanned hpart hplan hget)⟩
  | drop hphase hget horder =>
    have hpart := (hs.partway hphase trivial).2
    exact ⟨log, base, inv_advance hs hphase trivial rfl (partway_drop hpart hget horder)⟩
  | finish hphase => exact inv_finish hs hphase

theorem inv_start {start : State} (hidle : ∀ i, start.calls i = .idle) :
    Inv target vars start.server start [] start.server := by
  refine ⟨.nil, List.nodup_nil, fun i results ↦ ?_, fun i plans hheld ↦ ?_,
    .inl ⟨rfl, fun i ↦ ?_⟩⟩
  · rw [hidle]
    exact iff_of_false (by simp) List.not_mem_nil
  · rw [hidle] at hheld
    cases hheld
  · rw [hidle]
    exact id

/-- When calls enter their commit phase one at a time, a run that leaves none of them under way is a
sequential run of those that succeeded, and the databases are on the one global target. -/
theorem serial_of_exclusive {start : State} (hidle : ∀ i, start.calls i = .idle)
    (hrun : Run (Guarded Exclusive (Step target vars)) start s)
    (hover : ∀ i, (s.calls i).Over) :
    Serial target vars start s ∧
      ((∃ i results, s.calls i = .returned results) ∨ OnTarget start.server →
        OnTarget s.server) := by
  have hstart : Tracked target vars start.server start := ⟨[], _, inv_start hidle⟩
  have htracked : Tracked target vars start.server s :=
    hrun.invariant hstart fun _ _ _ hs hstep ↦ tracked_step hs hstep
  rcases htracked with ⟨log, base, hs⟩
  have hserver : s.server = base := by
    rcases hs.commit with ⟨hserver, -⟩ | ⟨i, -, hpart⟩
    · exact hserver
    · exact absurd (hover i) (Call.not_over_of_inCommit (inCommit_of_partway hpart))
  have hreplay := hs.replay
  rw [← hserver] at hreplay
  refine ⟨⟨log, hs.nodup, hs.returned, hreplay⟩, fun h ↦ ?_⟩
  refine hreplay.onTarget (h.imp_left fun hreturned ↦ ?_)
  rcases hreturned with ⟨i, results, hreturned⟩
  exact List.ne_nil_of_mem ((hs.returned i results).mp hreturned)

end Exclusive

/-! ## A server with one database -/

section Single

/-- The server has the one database, and no client is connected. -/
structure Only (name : Bytes) (d : Database) (server : Server) : Prop where
  get : ∀ other, server.databases.get other = if other = name then some d else none
  conns : d.conns = ∅

theorem Only.get_self {name : Bytes} {d : Database} {server : Server} (honly : Only name d server) :
    server.databases.get name = some d := by
  rw [honly.get, if_pos rfl]

theorem Only.enumerates {name : Bytes} {d : Database} {server : Server}
    (honly : Only name d server) : Enumerates [name] server.databases := by
  refine ⟨List.nodup_singleton _, fun other ↦ ?_⟩
  rw [List.mem_singleton, GoMap.mem_iff_get, honly.get]
  constructor
  · intro hsame
    exact ⟨d, if_pos hsame⟩
  · intro h
    rcases h with ⟨d', hget⟩
    by_contra hne
    rw [if_neg hne] at hget
    cases hget

theorem Only.put {name : Bytes} {d : Database} {server : Server} (honly : Only name d server)
    {d' : Database} (hconns : d'.conns = ∅) : Only name d' (putDatabase server name d') := by
  refine ⟨fun other ↦ ?_, hconns⟩
  rw [putDatabase]
  by_cases hsame : other = name
  · subst hsame
    rw [GoMap.get_insert, if_pos rfl]
  · rw [GoMap.get_insert_of_ne _ _ hsame, honly.get, if_neg hsame, if_neg hsame]

/-- A call on its own takes the database to its target, up to the locked write. -/
theorem run_commit (target : ℕ → Bytes) (vars : ℕ → GoMap Bytes Bytes)
    {guard : State → Event → Prop} {s : State} {i : ℕ} {name : Bytes} {d : Database}
    {rt : ResolvedTarget} (hfree : ∀ s event, (∀ j, event ≠ .enter j) → guard s event)
    (henter : ∀ plans, guard (s.setCall i (.planned plans)) (.enter i))
    (hidle : s.calls i = .idle) (honly : Only name d s.server)
    (hrt : d.resolveTarget (target i) (vars i) = .ok rt) :
    ∃ s' plans results, Run (Guarded guard (Step target vars)) s s' ∧
      s'.calls i = .committing plans [] results ∧ (∀ j, j ≠ i → s'.calls j = s.calls j) ∧
      Only name { d with current := some rt } s'.server := by
  have hswitchable : Switchable s.server.databases (target i) (vars i) := by
    refine ⟨⟨name, d, honly.get_self, Database.hasTarget_of_resolveTarget hrt⟩,
      fun other d' hget _ ↦ ?_⟩
    rw [honly.get] at hget
    split at hget
    next => exact ⟨rt, by rw [← Option.some.inj hget, hrt]⟩
    next => cases hget
  have hplan := (planAll_eq_ok honly.enumerates).mpr ⟨hswitchable, rfl⟩
  have hget : (GoMap.get (plansOf (target i) (vars i) (s.server.databases.entries [name]) ∅)
      name).getD .zero = .switch rt := by
    rw [get_plansOf honly.enumerates honly.get_self, Option.getD_some, planOf,
      goal_eq_some.mpr hrt]
  have hstored : Only name (d.store (some rt)) (putDatabase s.server name (d.store (some rt))) :=
    honly.put honly.conns
  have hnone : Enumerates [] (d.store (some rt)).conns := by
    rw [hstored.conns]
    exact ⟨List.nodup_nil, fun _ ↦ iff_of_false List.not_mem_nil Finmap.notMem_empty⟩
  have hplanned : Run (Guarded guard (Step target vars)) s _ :=
    .step (.plan i) .refl ⟨hfree _ _ (by simp), .plan hidle honly.enumerates hplan⟩
  have hentered : Run (Guarded guard (Step target vars)) s _ :=
    hplanned.step (.enter i) ⟨henter _, .enter (State.calls_setCall ..) honly.enumerates⟩
  have hloaded : Run (Guarded guard (Step target vars)) s _ :=
    hentered.step (.load i)
      ⟨hfree _ _ (by simp), .load (State.calls_setCall ..) hget honly.get_self⟩
  have hwritten : Run (Guarded guard (Step target vars)) s _ :=
    hloaded.step (.store i) ⟨hfree _ _ (by simp), .store (State.calls_setCall ..) honly.get_self⟩
  have hdropped : Run (Guarded guard (Step target vars)) s _ :=
    hwritten.step (.drop i)
      ⟨hfree _ _ (by simp), .drop (State.calls_setCall ..) hstored.get_self hnone⟩
  refine ⟨_, _, _, hdropped, State.calls_setCall .., fun j hj ↦ ?_, ?_⟩
  · simp only [State.calls_setCall_of_ne _ _ hj, State.calls_setDatabase]
  · exact hstored.put honly.conns

end Single

/-! ## Two calls -/

/-- One database with the targets `staging` and `local`, on the latter. -/
def twoTargets : Database :=
  let local' := singleTarget (str "app_main")
  let d := newDatabase
    { singleDatabase [] with targets := [{ local' with name := str "staging" }, local'] } ∅
  d.store (goal (str "local") ∅ d)

/-- The first call is `use staging`, the others are `use local`. -/
def twoCalls (i : ℕ) : Bytes := if i = 0 then str "staging" else str "local"

def twoState : State where
  server :=
    { listenAddrs := ∅, databases := GoMap.ofKeys [str "app"] fun _ ↦ twoTargets,
      currentTarget := str "local", currentVars := ∅ }
  calls := fun _ ↦ .idle

theorem only_twoState : Only (str "app") twoTargets twoState.server := by
  refine ⟨fun other ↦ ?_, rfl⟩
  rw [twoState, GoMap.get_ofKeys]
  simp

theorem resolveTarget_twoTargets (current : Option ResolvedTarget) :
    (∃ rt, ({ twoTargets with current } : Database).resolveTarget (str "staging") ∅ = .ok rt ∧
      rt.name = str "staging") ∧
    ∃ rt, ({ twoTargets with current } : Database).resolveTarget (str "local") ∅ = .ok rt ∧
      rt.name = str "local" :=
  ⟨⟨_, rfl, rfl⟩, ⟨_, rfl, rfl⟩⟩

theorem exclusive_of_ne_enter (s : State) (event : Event) (h : ∀ j, event ≠ .enter j) :
    Exclusive s event := by
  cases event with
  | enter j => exact absurd rfl (h j)
  | _ => trivial

theorem exclusive_enter {s : State} (hover : ∀ j, (s.calls j).Over) (i : ℕ)
    (plans : GoMap Bytes Plan) : Exclusive (s.setCall i (.planned plans)) (.enter i) :=
  State.forall_setCall (P := fun phase ↦ ¬ phase.InCommit) id fun j _ hcommit ↦
    Call.not_over_of_inCommit hcommit (hover j)

/-- A call from its beginning to its end while no other is under way. -/
theorem run_call (target : ℕ → Bytes) (vars : ℕ → GoMap Bytes Bytes) {s : State} {i : ℕ}
    {name : Bytes} {d : Database} {rt : ResolvedTarget} (hover : ∀ j, (s.calls j).Over)
    (hidle : s.calls i = .idle) (honly : Only name d s.server)
    (hrt : d.resolveTarget (target i) (vars i) = .ok rt) :
    ∃ s', Run (Guarded Exclusive (Step target vars)) s s' ∧
      (∃ results, s'.calls i = .returned results) ∧ (∀ j, j ≠ i → s'.calls j = s.calls j) ∧
      (∀ j, (s'.calls j).Over) ∧ Only name { d with current := some rt } s'.server := by
  rcases run_commit target vars exclusive_of_ne_enter (exclusive_enter hover i) hidle honly hrt with
    ⟨s₁, plans, results, hrun, hphase, hothers, honly'⟩
  have hfinish : Guarded Exclusive (Step target vars) s₁ (.finish i) _ :=
    ⟨trivial, .finish hphase⟩
  refine ⟨_, hrun.step _ hfinish, ⟨results, State.calls_setCall ..⟩, fun j hj ↦ ?_, ?_,
    honly'.get, honly'.conns⟩
  · rw [State.calls_setCall_of_ne _ _ hj, State.calls_setTarget, hothers j hj]
  · refine State.forall_setCall trivial fun j hj ↦ ?_
    rw [State.calls_setTarget, hothers j hj]
    exact hover j

/-- Two calls that commit one after the other. -/
theorem serial_of_exclusive_two :
    ∃ s, Run (Guarded Exclusive (Step twoCalls fun _ ↦ ∅)) twoState s ∧
      (∃ results, s.calls 0 = .returned results) ∧ (∃ results, s.calls 1 = .returned results) ∧
      Serial twoCalls (fun _ ↦ ∅) twoState s ∧ OnTarget s.server := by
  rcases (resolveTarget_twoTargets twoTargets.current).1 with ⟨rt, hrt, -⟩
  rcases (resolveTarget_twoTargets (some rt)).2 with ⟨rt', hrt', -⟩
  rcases run_call twoCalls (fun _ ↦ ∅) (s := twoState) (i := 0) (fun _ ↦ trivial) rfl
    only_twoState hrt with ⟨s, hfirst, hreturned, hothers, hover, honly⟩
  rcases run_call twoCalls (fun _ ↦ ∅) hover (hothers 1 (by decide)) honly hrt' with
    ⟨s', hsecond, hreturned', hothers', hover', -⟩
  have hrun := hfirst.trans hsecond
  have hserial := serial_of_exclusive (fun _ ↦ rfl) hrun hover'
  rw [← hothers' 0 (by decide)] at hreturned
  exact ⟨s', hrun, hreturned, hreturned', hserial.1, hserial.2 (.inl ⟨1, hreturned'⟩)⟩

/-- Two calls commit the one database in one order and write the global target in the other: the
database is on `local` while the server says `staging`. -/
theorem overlapping_switches_not_serial :
    (∀ i, twoState.calls i = .idle) ∧
    ∃ s, Run (Step twoCalls fun _ ↦ ∅) twoState s ∧ (∀ i, (s.calls i).Over) ∧
      ¬ OnTarget s.server ∧ ¬ Serial twoCalls (fun _ ↦ ∅) twoState s := by
  refine ⟨fun _ ↦ rfl, ?_⟩
  rcases (resolveTarget_twoTargets twoTargets.current).1 with ⟨rt, hrt, -⟩
  rcases (resolveTarget_twoTargets (some rt)).2 with ⟨rt', hrt', hlocal⟩
  have hany : ∀ (s : State) (event : Event), (∀ j, event ≠ .enter j) → True :=
    fun _ _ _ ↦ trivial
  rcases run_commit twoCalls (fun _ ↦ ∅) (i := 0) hany (fun _ ↦ trivial) rfl only_twoState hrt with
    ⟨s, plans, results, hfirst, hphase, hothers, honly⟩
  have hidle : s.calls 1 = .idle := hothers 1 (by decide)
  rcases run_commit twoCalls (fun _ ↦ ∅) hany (fun _ ↦ trivial) hidle honly hrt' with
    ⟨s', plans', results', hsecond, hphase', hothers', honly'⟩
  have hrun : Run (Step twoCalls fun _ ↦ ∅) twoState _ :=
    (hfirst.unguard.trans hsecond.unguard).step (.finish 1) (.finish hphase')
  have hfinish : Run (Step twoCalls fun _ ↦ ∅) twoState _ :=
    hrun.step (.finish 0) (.finish (by
      rw [State.calls_setCall_of_ne _ _ (by decide)]
      exact (hothers' 0 (by decide)).trans hphase))
  have hoff : ¬ OnTarget
      { s'.server with currentTarget := str "staging", currentVars := ∅ } := by
    intro hon
    rcases (resolveTarget_twoTargets (some rt')).1 with ⟨staging, hstaging, hname⟩
    rcases (hon _ _ honly'.get_self).1 (Database.hasTarget_of_resolveTarget hstaging) with
      ⟨found, hfound, hcurrent⟩
    have hsame : staging = rt' :=
      (Except.ok.inj (hstaging.symm.trans hfound)).trans (Option.some.inj hcurrent).symm
    rw [hsame, hlocal] at hname
    exact absurd hname (by decide)
  refine ⟨_, hfinish, State.forall_setCall trivial fun j hzero ↦ ?_, hoff, fun hserial ↦ ?_⟩
  · rw [State.calls_setTarget]
    by_cases hone : j = 1
    · subst hone
      rw [State.calls_setCall]
      trivial
    · rw [State.calls_setCall_of_ne _ _ hone, State.calls_setTarget, hothers' j hone,
        hothers j hzero]
      trivial
  · rcases hserial with ⟨log, -, hreturned, hreplay⟩
    have hlogged : (0, results) ∈ log := (hreturned 0 results).mp (State.calls_setCall ..)
    exact hoff (hreplay.onTarget (.inl (List.ne_nil_of_mem hlogged)))

end ConcurrentSwitch

end DbPivot.Proxy
