import DbPivot.Proxy.Server
import DbPivot.Proxy.Activation

/-!
# Sequential runs of a server

From a successful `New`, a server sees switches that succeed or fail, connections that register and
connections that close, one at a time. In every state of such a run all databases are on the one
global target with the one set of variables, and a successful switch reports each database once.
-/

namespace DbPivot.Proxy

open DbPivot.Go DbPivot.Config

/-- One event in the life of a server. -/
inductive Step : Server → Server → Prop where
  | switch {s : Server} {orders : Orders} (target : Bytes) (vars : GoMap Bytes Bytes)
      (horders : orders.Valid s.databases) : Step s (switchAll s target vars orders).2
  | register {s : Server} {name : Bytes} {d : Database} {c : ConnId} (conn : Conn)
      (hget : s.databases.get name = some d) (hfresh : c ∉ d.conns) :
      Step s { s with databases := s.databases.insert name (d.register c conn) }
  | close {s : Server} {name : Bytes} {d : Database} (c : ConnId)
      (hget : s.databases.get name = some d) :
      Step s { s with databases := s.databases.insert name (d.close c) }

/-- Every database that declares the current target is on its resolution, and the others are
inactive. -/
def OnTarget (s : Server) : Prop :=
  ∀ name d, s.databases.get name = some d →
    (d.hasTarget s.currentTarget →
      ∃ rt, d.resolveTarget s.currentTarget s.currentVars = .ok rt ∧ d.current = some rt) ∧
    (¬ d.hasTarget s.currentTarget → d.current = none)

/-- The results of a switch from `s` to `s'` describe each configured database once. -/
structure Reported (cfg : Config) (target : Bytes) (s s' : Server) (results : List SwitchResult) :
    Prop where
  nodup : (results.map SwitchResult.virtualName).Nodup
  names : ∀ name, name ∈ results.map SwitchResult.virtualName ↔
    name ∈ cfg.databases.map Config.Database.virtualName
  result : ∀ r ∈ results, ∃ d d', s.databases.get r.virtualName = some d ∧
    s'.databases.get r.virtualName = some d' ∧
    r.previous = (d.current.map ResolvedTarget.name).getD [] ∧
    r.previousDatabase = (d.current.map ResolvedTarget.database).getD [] ∧
    (r.skipped ↔ ¬ d.hasTarget target) ∧ r.closedConns = d.conns.keys.card ∧ d'.conns = ∅

/-- What every state of a run has: the databases of the configuration, all on target. -/
structure Consistent (cfg : Config) (s : Server) : Prop where
  names : ∀ name, name ∈ s.databases ↔ name ∈ cfg.databases.map Config.Database.virtualName
  onTarget : OnTarget s

/-! ## One step -/

/-- After a successful switch every database is on the target it was asked for. -/
theorem onTarget_of_ok {s s' : Server} {target : Bytes} {vars : GoMap Bytes Bytes} {orders : Orders}
    {results : List SwitchResult} (horders : orders.Valid s.databases)
    (hcall : switchAll s target vars orders = (.ok results, s')) : OnTarget s' := by
  have hswitchable := switchable_of_ok horders hcall
  have hfields : s'.currentTarget = target ∧ s'.currentVars = vars := by
    rcases switchAll_of_switchable horders hswitchable with ⟨databases, heq, -⟩
    rw [hcall] at heq
    rw [(Prod.mk.inj heq).2]
    exact ⟨rfl, rfl⟩
  intro name d' hget'
  rw [get_databases_of_ok horders hcall, Option.map_eq_some_iff] at hget'
  rcases hget' with ⟨d, hget, rfl⟩
  rw [hfields.1, hfields.2]
  constructor
  · intro hdeclared
    rcases hswitchable.resolves name d hget hdeclared with ⟨rt, hrt⟩
    exact ⟨rt, hrt, goal_eq_some.mpr hrt⟩
  · intro hdeclared
    exact goal_eq_none_of_not_hasTarget hdeclared

theorem mem_databases_of_ok {s s' : Server} {target : Bytes} {vars : GoMap Bytes Bytes}
    {orders : Orders} {results : List SwitchResult} (horders : orders.Valid s.databases)
    (hcall : switchAll s target vars orders = (.ok results, s')) (name : Bytes) :
    name ∈ s'.databases ↔ name ∈ s.databases := by
  rw [GoMap.mem_iff_get, GoMap.mem_iff_get, get_databases_of_ok horders hcall]
  cases s.databases.get name <;> simp

theorem consistent_switchAll {cfg : Config} {s : Server} (hs : Consistent cfg s) {orders : Orders}
    (target : Bytes) (vars : GoMap Bytes Bytes) (horders : orders.Valid s.databases) :
    Consistent cfg (switchAll s target vars orders).2 := by
  by_cases hswitchable : Switchable s.databases target vars
  · rcases switchAll_of_switchable horders hswitchable with ⟨databases, hcall, -⟩
    refine ⟨fun name ↦ ?_, ?_⟩
    · rw [hcall, ← hs.names]
      exact mem_databases_of_ok horders hcall name
    · rw [hcall]
      exact onTarget_of_ok horders hcall
  · rcases switchAll_of_not_switchable horders hswitchable with ⟨error, hcall⟩
    rw [hcall]
    exact hs

/-- An event on one database that leaves its targets and its current target alone. -/
theorem consistent_insert {cfg : Config} {s : Server} (hs : Consistent cfg s) {name : Bytes}
    {d : Database} (hget : s.databases.get name = some d) (conns : GoMap ConnId Conn) :
    Consistent cfg { s with databases := s.databases.insert name { d with conns } } := by
  refine ⟨fun other ↦ ?_, fun other d' hget' ↦ ?_⟩
  · rw [Finmap.mem_insert, ← hs.names]
    constructor
    · intro h
      rcases h with rfl | h
      · exact GoMap.mem_of_get hget
      · exact h
    · exact .inr
  · by_cases hother : other = name
    · subst hother
      rw [GoMap.get_insert] at hget'
      rw [← Option.some.inj hget']
      exact hs.onTarget other d hget
    · rw [GoMap.get_insert_of_ne _ _ hother] at hget'
      exact hs.onTarget other d' hget'

theorem consistent_step {cfg : Config} {s s' : Server} (hs : Consistent cfg s) (hstep : Step s s') :
    Consistent cfg s' := by
  cases hstep with
  | switch target vars horders => exact consistent_switchAll hs target vars horders
  | register conn hget _ => exact consistent_insert hs hget _
  | close c hget => exact consistent_insert hs hget _

/-- No event changes what does not depend on the target and the connections of a database. -/
theorem map_get_step {α : Type} {f : Database → α}
    (hf : ∀ d current conns, f { d with current, conns } = f d) {s s' : Server}
    (hstep : Step s s') (name : Bytes) :
    (s'.databases.get name).map f = (s.databases.get name).map f := by
  have hinsert : ∀ {d : Database} {changed : Bytes} (conns : GoMap ConnId Conn),
      s.databases.get changed = some d →
      (GoMap.get (s.databases.insert changed { d with conns }) name).map f =
        (s.databases.get name).map f := by
    intro d changed conns hget
    by_cases hsame : name = changed
    · subst hsame
      rw [GoMap.get_insert, hget, Option.map_some, Option.map_some, hf d d.current conns]
    · rw [GoMap.get_insert_of_ne _ _ hsame]
  cases hstep with
  | @switch orders target vars horders =>
    by_cases hswitchable : Switchable s.databases target vars
    · rcases switchAll_of_switchable horders hswitchable with ⟨databases, hcall, hdatabases⟩
      rw [hcall]
      change (databases.get name).map f = _
      rw [hdatabases, Option.map_map]
      exact congrArg (fun g ↦ (s.databases.get name).map g) (funext fun d ↦ hf d _ _)
    · rcases switchAll_of_not_switchable horders hswitchable with ⟨error, hcall⟩
      rw [hcall]
  | register conn hget _ => exact hinsert _ hget
  | close c hget => exact hinsert _ hget

/-- No event changes which names are served on a port. -/
theorem isSome_lookupDatabase_step {s s' : Server} (hstep : Step s s') (adapter name : Bytes) :
    (s'.lookupDatabase adapter name).isSome ↔ (s.lookupDatabase adapter name).isSome := by
  rw [Server.isSome_lookupDatabase, Server.isSome_lookupDatabase,
    map_get_step (fun _ _ _ ↦ rfl) hstep]

/-! ## Whole runs -/

theorem mem_openDatabases {cfg : Config} {name : Bytes} :
    name ∈ openDatabases cfg ↔ name ∈ cfg.databases.map Config.Database.virtualName := by
  rw [openDatabases, GoMap.mem_insertAll]
  exact or_iff_right Finmap.notMem_empty

theorem consistent_new {cfg : Config} {target : Bytes} {vars : GoMap Bytes Bytes} {orders : Orders}
    {s : Server} (horders : orders.Valid (openDatabases cfg))
    (hnew : new cfg target vars orders = .ok s) : Consistent cfg s := by
  rcases bind_eq_ok.mp hnew with ⟨listenAddrs, -, hrest⟩
  simp only at hrest
  split at hrest
  next => exact absurd hrest (by simp)
  next results s' hcall =>
    rw [← Except.ok.inj hrest]
    refine ⟨fun name ↦ ?_, onTarget_of_ok horders hcall⟩
    rw [mem_databases_of_ok horders hcall]
    exact mem_openDatabases

theorem consistent_run {cfg : Config} {s s' : Server} (hs : Consistent cfg s)
    (hrun : Relation.ReflTransGen Step s s') : Consistent cfg s' := by
  induction hrun with
  | refl => exact hs
  | tail _ hstep ih => exact consistent_step ih hstep

theorem skipped_resultOf {databases : GoMap Bytes Database} {target : Bytes}
    {vars : GoMap Bytes Bytes} (hswitchable : Switchable databases target vars) {name : Bytes}
    {d : Database} (hget : databases.get name = some d) :
    (resultOf target vars name d).skipped ↔ ¬ d.hasTarget target := by
  by_cases hdeclared : d.hasTarget target
  · rcases hswitchable.resolves name d hget hdeclared with ⟨rt, hrt⟩
    simp [resultOf, switchResult, planOf, goal_eq_some.mpr hrt, hdeclared]
  · simp [resultOf, switchResult, planOf, goal_eq_none_of_not_hasTarget hdeclared, hdeclared]

theorem reported_of_ok {cfg : Config} {s s' : Server} (hs : Consistent cfg s) {target : Bytes}
    {vars : GoMap Bytes Bytes} {orders : Orders} {results : List SwitchResult}
    (horders : orders.Valid s.databases)
    (hcall : switchAll s target vars orders = (.ok results, s')) :
    Reported cfg target s s' results := by
  have hmem := mem_results_of_ok horders hcall
  refine ⟨names_results_of_ok horders hcall, fun name ↦ ?_, fun r hr ↦ ?_⟩
  · rw [← hs.names, List.mem_map, GoMap.mem_iff_get]
    constructor
    · intro h
      rcases h with ⟨r, hr, rfl⟩
      rcases (hmem r).mp hr with ⟨name, d, hget, rfl⟩
      exact ⟨d, hget⟩
    · intro h
      rcases h with ⟨d, hget⟩
      exact ⟨_, (hmem _).mpr ⟨name, d, hget, rfl⟩, rfl⟩
  · rcases (hmem r).mp hr with ⟨name, d, hget, rfl⟩
    have hget' : s'.databases.get name = some (switched target vars d) := by
      rw [get_databases_of_ok horders hcall, hget]
      rfl
    exact ⟨d, _, hget, hget', rfl, rfl,
      skipped_resultOf (switchable_of_ok horders hcall) hget, rfl, rfl⟩

/-- In every state of a sequential run all databases are on the one global target, and a switch
that succeeds there reports every configured database once, as it was before the call. -/
theorem onTarget_run {cfg : Config} {target : Bytes} {vars : GoMap Bytes Bytes} {orders : Orders}
    {s₀ s : Server} (horders : orders.Valid (openDatabases cfg))
    (hnew : new cfg target vars orders = .ok s₀) (hrun : Relation.ReflTransGen Step s₀ s) :
    OnTarget s ∧
    ∀ (target : Bytes) (vars : GoMap Bytes Bytes) (orders : Orders) (results : List SwitchResult)
      (s' : Server), orders.Valid s.databases →
      switchAll s target vars orders = (.ok results, s') → Reported cfg target s s' results := by
  have hs := consistent_run (consistent_new horders hnew) hrun
  exact ⟨hs.onTarget, fun target vars orders results s' horders hcall ↦
    reported_of_ok hs horders hcall⟩

/-- What a switch needs to know about a database. -/
def Database.offer (target : Bytes) (vars : GoMap Bytes Bytes) (d : Database) :
    Bool × GoM ResolveError ResolvedTarget :=
  (d.hasTarget target, d.resolveTarget target vars)

/-- Whether a switch can be planned depends on that alone. -/
theorem switchable_congr {databases databases' : GoMap Bytes Database} {target : Bytes}
    {vars : GoMap Bytes Bytes}
    (h : ∀ name, (databases'.get name).map (Database.offer target vars) =
      (databases.get name).map (Database.offer target vars)) :
    Switchable databases' target vars ↔ Switchable databases target vars := by
  have hforward : ∀ {left right : GoMap Bytes Database},
      (∀ name, (right.get name).map (Database.offer target vars) =
        (left.get name).map (Database.offer target vars)) →
      Switchable left target vars → Switchable right target vars := by
    intro left right hsame hleft
    refine ⟨?_, fun name d hget hdeclared ↦ ?_⟩
    · rcases hleft.declared with ⟨name, d, hget, hdeclared⟩
      have hname := hsame name
      rw [hget, Option.map_some, Option.map_eq_some_iff] at hname
      rcases hname with ⟨d', hget', hoffer⟩
      exact ⟨name, d', hget', (congrArg Prod.fst hoffer).trans hdeclared⟩
    · have hname := (hsame name).symm
      rw [hget, Option.map_some, Option.map_eq_some_iff] at hname
      rcases hname with ⟨d', hget', hoffer⟩
      have hdeclared' := (congrArg Prod.fst hoffer).trans hdeclared
      rcases hleft.resolves name d' hget' hdeclared' with ⟨rt, hrt⟩
      exact ⟨rt, (congrArg Prod.snd hoffer).symm.trans hrt⟩
  exact ⟨hforward fun name ↦ (h name).symm, hforward h⟩

/-- The only orders there are for a server with one database and no connections. -/
def singleOrders : Orders where
  plan := [str "app"]
  commit := [str "app"]
  conns := fun _ ↦ []

theorem singleOrders_valid (database : Bytes) :
    singleOrders.Valid (openDatabases (singleConfig database)) := by
  have hmem : ∀ name, name ∈ [str "app"] ↔ name ∈ openDatabases (singleConfig database) := by
    intro name
    rw [mem_openDatabases]
    rfl
  refine ⟨⟨List.nodup_singleton _, hmem⟩, ⟨List.nodup_singleton _, hmem⟩, fun name d hget ↦ ?_⟩
  rcases GoMap.exists_of_get_insertAll hget with ⟨c, -, -, rfl⟩
  exact ⟨List.nodup_nil, fun _ ↦ iff_of_false List.not_mem_nil Finmap.notMem_empty⟩

/-! ## Two databases -/

/-- The run time has some orders for every call, with any order of the databases. -/
theorem exists_orders {databases : GoMap Bytes Database} {order : List Bytes}
    (horder : Enumerates order databases) :
    ∃ conns : Bytes → List ConnId, Orders.Valid ⟨order, order, conns⟩ databases := by
  have hconns : ∀ name, ∃ conns : List ConnId,
      ∀ d, databases.get name = some d → Enumerates conns d.conns := by
    intro name
    cases hget : databases.get name with
    | none => exact ⟨[], fun d h ↦ absurd h (by simp)⟩
    | some d =>
      rcases GoMap.exists_enumerates d.conns with ⟨conns, hconns⟩
      refine ⟨conns, fun d' h ↦ ?_⟩
      rw [← Option.some.inj h]
      exact hconns
  choose conns hconns using hconns
  exact ⟨conns, horder, horder, hconns⟩

/-- A PostgreSQL database with a target behind a forward and one that takes a variable. -/
def appDatabase : Config.Database where
  adapter := adapterPostgres
  virtualName := str "app"
  targets :=
    [singleTarget (str "app_main"),
      { singleTarget (str "app_staging") with
        name := str "staging", host := [], port := 0, forwardTo := str "bastion" },
      { singleTarget (str "app_$\x7bB\x7d") with name := str "review" }]

/-- A MySQL database without the target `staging`. -/
def auditDatabase : Config.Database where
  adapter := adapterMySQL
  virtualName := str "audit"
  targets :=
    [{ singleTarget (str "audit_main") with port := 3306 },
      { singleTarget (str "audit_$\x7bA\x7d") with name := str "review", port := 3306 }]

def pairConfig : Config where
  listenHost := []
  listenPorts := GoMap.ofKeys [adapterPostgres, adapterMySQL] fun adapter ↦
    if adapter = adapterPostgres then 6432 else 6306
  forwardTargets := GoMap.ofKeys [str "bastion"] fun _ ↦ ⟨str "10.0.0.1", 15432⟩
  databases := [appDatabase, auditDatabase]

/-- Orders for the two databases while they have no connections. -/
def pairOrders : Orders where
  plan := [str "app", str "audit"]
  commit := [str "audit", str "app"]
  conns := fun _ ↦ []

theorem get_openDatabases_pair {name : Bytes} {d : Database}
    (hget : (openDatabases pairConfig).get name = some d) :
    (name = str "app" ∧ d = newDatabase appDatabase pairConfig.forwardTargets) ∨
      name = str "audit" ∧ d = newDatabase auditDatabase pairConfig.forwardTargets := by
  rcases GoMap.exists_of_get_insertAll hget with ⟨c, hc, hname, hd⟩
  have hc : c = appDatabase ∨ c = auditDatabase := by simpa [pairConfig] using hc
  rcases hc with rfl | rfl
  · exact .inl ⟨hname.symm, hd.symm⟩
  · exact .inr ⟨hname.symm, hd.symm⟩

theorem pairOrders_valid : pairOrders.Valid (openDatabases pairConfig) := by
  have hmem : ∀ name, name ∈ [str "app", str "audit"] ↔ name ∈ openDatabases pairConfig := by
    intro name
    rw [mem_openDatabases]
    rfl
  refine ⟨⟨by decide, hmem⟩, ⟨by decide, fun name ↦ ?_⟩, fun name d hget ↦ ?_⟩
  · rw [← hmem]
    exact (List.Perm.swap (str "app") (str "audit") []).mem_iff
  · rcases get_openDatabases_pair hget with ⟨-, rfl⟩ | ⟨-, rfl⟩
    all_goals exact ⟨List.nodup_nil, fun _ ↦ iff_of_false List.not_mem_nil Finmap.notMem_empty⟩

/-- Only one of them has to resolve `staging`, and it can. -/
theorem switchable_staging : Switchable (openDatabases pairConfig) (str "staging") ∅ := by
  refine ⟨⟨str "app", newDatabase appDatabase pairConfig.forwardTargets, by rfl, by decide⟩, ?_⟩
  intro name d hget hdeclared
  rcases get_openDatabases_pair hget with ⟨-, rfl⟩ | ⟨-, rfl⟩
  · exact ⟨_, rfl⟩
  · exact absurd hdeclared (by decide)

/-- Both of them lack a variable for `review`. -/
theorem not_switchable_review : ¬ Switchable (openDatabases pairConfig) (str "review") ∅ := by
  intro h
  rcases h.resolves (str "app") (newDatabase appDatabase pairConfig.forwardTargets) (by rfl)
    (by decide) with ⟨rt, hrt⟩
  cases hrt

/-- The switches that can be planned during a run are those that can be planned at its start. -/
theorem switchable_run {cfg : Config} {target : Bytes} {vars : GoMap Bytes Bytes} {orders : Orders}
    {s₀ s : Server} (horders : orders.Valid (openDatabases cfg))
    (hnew : new cfg target vars orders = .ok s₀) (hrun : Relation.ReflTransGen Step s₀ s)
    (target' : Bytes) (vars' : GoMap Bytes Bytes) :
    Switchable s.databases target' vars' ↔ Switchable (openDatabases cfg) target' vars' := by
  induction hrun with
  | refl =>
    rcases bind_eq_ok.mp hnew with ⟨listenAddrs, -, hrest⟩
    simp only at hrest
    split at hrest
    next => exact absurd hrest (by simp)
    next results s' hcall =>
      rw [← Except.ok.inj hrest]
      refine switchable_congr fun name ↦ ?_
      rw [get_databases_of_ok horders hcall, Option.map_map]
      rfl
  | tail _ hstep ih =>
    exact (switchable_congr fun name ↦ map_get_step (fun _ _ _ ↦ rfl) hstep name).trans ih

/-- A client connects to one of two databases. A switch that lacks its variables changes nothing,
and one to a target that the other database does not declare is reported. -/
theorem onTarget_run_pair :
    ∃ (s₀ s₁ s₂ : Server) (d : Database) (c : ConnId) (conn : Conn) (orders : Orders)
      (results : List SwitchResult) (error : SwitchError),
      new pairConfig (str "local") ∅ pairOrders = .ok s₀ ∧
      s₁ = { s₀ with databases := s₀.databases.insert (str "app") (d.register c conn) } ∧
      switchAll s₁ (str "review") ∅ orders = (fail error, s₁) ∧
      switchAll s₁ (str "staging") ∅ orders = (.ok results, s₂) ∧
      OnTarget s₂ ∧ Reported pairConfig (str "staging") s₁ s₂ results := by
  have hnew : ∃ s₀, new pairConfig (str "local") ∅ pairOrders = .ok s₀ := ⟨_, rfl⟩
  rcases hnew with ⟨s₀, hnew⟩
  have happ : ∃ d, s₀.databases.get (str "app") = some d := by
    rw [← GoMap.mem_iff_get, (consistent_new pairOrders_valid hnew).names]
    decide
  rcases happ with ⟨d, hget⟩
  rcases Infinite.exists_notMem_finset d.conns.keys with ⟨c, hfresh⟩
  let conn : Conn := ⟨d.snapshot (singleTarget (str "app_main")) (str "app_main")⟩
  have hregister : ∃ s₁ : Server, Step s₀ s₁ ∧
      s₁ = { s₀ with databases := s₀.databases.insert (str "app") (d.register c conn) } :=
    ⟨_, .register conn hget (mt Finmap.mem_keys.mpr hfresh), rfl⟩
  rcases hregister with ⟨s₁, hregister, hs₁⟩
  rcases GoMap.exists_enumerates s₁.databases with ⟨order, horder⟩
  rcases exists_orders horder with ⟨conns, horders⟩
  have hswitchable := switchable_run pairOrders_valid hnew (.single hregister)
  rcases switchAll_of_not_switchable horders
    (mt (hswitchable (str "review") ∅).mp not_switchable_review) with ⟨error, hfails⟩
  rcases switchAll_of_switchable horders
    ((hswitchable (str "staging") ∅).mpr switchable_staging) with ⟨databases, hswitch, -⟩
  have hfailed : Step s₁ s₁ := by
    have hstep := Step.switch (str "review") ∅ horders
    rw [hfails] at hstep
    exact hstep
  have hsucceeded := Step.switch (str "staging") ∅ horders
  rw [hswitch] at hsucceeded
  have hbefore : Relation.ReflTransGen Step s₀ s₁ :=
    (Relation.ReflTransGen.single hregister).tail hfailed
  exact ⟨s₀, s₁, _, d, c, conn, _, _, error, hnew, hs₁, hfails, hswitch,
    (onTarget_run pairOrders_valid hnew (hbefore.tail hsucceeded)).1,
    (onTarget_run pairOrders_valid hnew hbefore).2 _ _ _ _ _ horders hswitch⟩

end DbPivot.Proxy
