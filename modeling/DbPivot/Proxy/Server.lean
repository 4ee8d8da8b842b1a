import DbPivot.Proxy.Database

/-!
# The server and its switch

All databases of a server are meant to share one target name and one set of variables. `SwitchAll`
plans every database first and touches nothing until all of them resolve; then it commits them one
after another and records the target and the variables last. Both passes range over the map of
databases, and each drop ranges over a database's connections, so a call takes the orders the run
time chooses.

What a call amounts to does not depend on the orders: with `Switchable` databases every one of them
moves to its own resolution of the target and loses its connections, and otherwise the call errs and
the server stays as it is.
-/

namespace DbPivot.Proxy

open DbPivot.Go DbPivot.Config

/-- One database's outcome in a `SwitchAll` call. -/
structure SwitchResult where
  virtualName : Bytes
  previous : Bytes
  previousDatabase : Bytes
  current : Bytes
  currentDatabase : Bytes
  closedConns : ℕ
  skipped : Bool
deriving DecidableEq

/-- The errors of `SwitchAll`; the first one is a `*SwitchPlanError`. -/
inductive SwitchError where
  | plan (virtualName : Bytes) (missing : List Bytes) (err : GoError)
  | other (err : GoError)

/-- What the first pass of `SwitchAll` decides for a database. -/
inductive Plan where
  | skip
  | switch (rt : ResolvedTarget)

structure Server where
  listenAddrs : GoMap Bytes Bytes
  databases : GoMap Bytes Database
  currentTarget : Bytes
  currentVars : GoMap Bytes Bytes

/-- `lookupDatabase`: only a database of the given adapter is found. -/
def Server.lookupDatabase (s : Server) (adapter name : Bytes) : Option Database :=
  match s.databases.get name with
  | none => none
  | some d => if d.adapter ≠ adapter then none else some d

theorem Server.isSome_lookupDatabase {s : Server} {adapter name : Bytes} :
    (s.lookupDatabase adapter name).isSome ↔
      (s.databases.get name).map Database.adapter = some adapter := by
  unfold Server.lookupDatabase
  cases s.databases.get name with
  | none => simp
  | some d =>
    by_cases hadapter : d.adapter = adapter <;> simp [hadapter]

/-- The orders in which one call ranges over the databases, twice, and over the connections. -/
structure Orders where
  plan : List Bytes
  commit : List Bytes
  conns : Bytes → List ConnId

/-- The run time may choose these orders. -/
structure Orders.Valid (orders : Orders) (databases : GoMap Bytes Database) : Prop where
  plan : Enumerates orders.plan databases
  commit : Enumerates orders.commit databases
  conns : ∀ name d, databases.get name = some d → Enumerates (orders.conns name) d.conns

/-! ## Planning -/

/-- The loop of the first pass. -/
def planLoop (target : Bytes) (vars : GoMap Bytes Bytes) :
    List (Bytes × Database) → GoMap Bytes Plan → ℕ → GoM SwitchError (GoMap Bytes Plan × ℕ)
  | [], plans, declared => pure (plans, declared)
  | (name, d) :: rest, plans, declared =>
    if ¬ d.hasTarget target then planLoop target vars rest (plans.insert name .skip) declared
    else do
      let rt ← mapErr (fun e ↦ SwitchError.plan name e.missing e.err) (d.resolveTarget target vars)
      planLoop target vars rest (plans.insert name (.switch rt)) (declared + 1)

/-- The first pass of `SwitchAll`. -/
def planAll (databases : GoMap Bytes Database) (target : Bytes) (vars : GoMap Bytes Bytes)
    (order : List Bytes) : GoM SwitchError (GoMap Bytes Plan) := do
  let (plans, declared) ← planLoop target vars (databases.entries order) ∅ 0
  refuse (declared = 0) (.other (errorf "no databases declare target %q" [.text target]))
  pure plans

/-! ## Committing -/

/-- The zero value of `plan`, which a missing key reads as. -/
def Plan.zero : Plan :=
  .switch { name := [], host := [], port := 0, user := [], password := [], database := [],
            sslMode := [], authSource := [] }

/-- The result of a database that was planned, was on `prev` and lost `closed` connections. -/
def switchResult (name : Bytes) (p : Plan) (prev : Option ResolvedTarget) (closed : ℕ) :
    SwitchResult where
  virtualName := name
  previous := (prev.map ResolvedTarget.name).getD []
  previousDatabase := (prev.map ResolvedTarget.database).getD []
  current := match p with
    | .skip => []
    | .switch rt => rt.name
  currentDatabase := match p with
    | .skip => []
    | .switch rt => rt.database
  closedConns := closed
  skipped := match p with
    | .skip => true
    | .switch _ => false

/-- The body of the second pass for one database. -/
def commitDatabase (p : Plan) (name : Bytes) (d : Database) (snapshot : List ConnId) :
    Database × SwitchResult :=
  let (d, prev, closed) := match p with
    | .skip => d.clear snapshot
    | .switch rt => d.apply rt snapshot
  (d, switchResult name p prev closed)

/-- The loop of the second pass. A name the map does not have cannot come up. -/
def commitLoop (plans : GoMap Bytes Plan) (conns : Bytes → List ConnId) :
    List Bytes → GoMap Bytes Database → List SwitchResult →
      GoMap Bytes Database × List SwitchResult
  | [], databases, results => (databases, results)
  | name :: rest, databases, results =>
    match databases.get name with
    | none => commitLoop plans conns rest databases results
    | some d =>
      let (d, r) := commitDatabase ((plans.get name).getD .zero) name d (conns name)
      commitLoop plans conns rest (databases.insert name d) (results ++ [r])

/-- `SwitchAll`: the result and the server after the call. -/
def switchAll (s : Server) (target : Bytes) (vars : GoMap Bytes Bytes) (orders : Orders) :
    GoM SwitchError (List SwitchResult) × Server :=
  match planAll s.databases target vars orders.plan with
  | .error fault => (.error fault, s)
  | .ok plans =>
    let (databases, results) := commitLoop plans orders.conns orders.commit s.databases []
    (.ok results, { s with databases, currentTarget := target, currentVars := vars })

/-! ## Construction -/

/-- `net.JoinHostPort`: a host with a colon is put in brackets. -/
def joinHostPort (host port : Bytes) : Bytes :=
  if 58 ∈ host then [91] ++ host ++ [93, 58] ++ port else host ++ [58] ++ port

/-- The loop of `New` over the adapters in use. -/
def listenLoop (cfg : Config) : List Bytes → GoMap Bytes Bytes → GoM GoError (GoMap Bytes Bytes)
  | [], listenAddrs => pure listenAddrs
  | adapter :: rest, listenAddrs =>
    match cfg.listenPort adapter with
    | none => fail (errorf "adapter %q has no listen_ports entry" [.text adapter])
    | some port =>
      listenLoop cfg rest
        (listenAddrs.insert adapter (joinHostPort cfg.listenHostOrDefault (itoaInt port)))

/-- The databases `New` starts from; a later entry of the same name replaces an earlier one. -/
def openDatabases (cfg : Config) : GoMap Bytes Database :=
  GoMap.insertAll Config.Database.virtualName (newDatabase · cfg.forwardTargets) ∅ cfg.databases

/-- `New`. -/
def new (cfg : Config) (target : Bytes) (vars : GoMap Bytes Bytes) (orders : Orders) :
    GoM SwitchError Server := do
  let listenAddrs ← mapErr SwitchError.other (listenLoop cfg cfg.usedAdapters ∅)
  let s : Server :=
    { listenAddrs, databases := openDatabases cfg, currentTarget := [], currentVars := vars }
  match switchAll s target vars orders with
  | (.error fault, _) => .error fault
  | (.ok _, s) => pure s

/-! ## What a switch is for -/

/-- Some database declares the target, and every one that does resolves it. -/
structure Switchable (databases : GoMap Bytes Database) (target : Bytes)
    (vars : GoMap Bytes Bytes) : Prop where
  declared : ∃ name d, databases.get name = some d ∧ d.hasTarget target
  resolves : ∀ name d, databases.get name = some d → d.hasTarget target →
    ∃ rt, d.resolveTarget target vars = .ok rt

/-- The target a database is on when all of them are on one name and one set of variables. -/
def goal (target : Bytes) (vars : GoMap Bytes Bytes) (d : Database) : Option ResolvedTarget :=
  (d.resolveTarget target vars).toOption

/-- The plan of a database that declares the target only if it resolves it. -/
def planOf (target : Bytes) (vars : GoMap Bytes Bytes) (d : Database) : Plan :=
  match goal target vars d with
  | none => .skip
  | some rt => .switch rt

/-- The database after a switch. -/
def switched (target : Bytes) (vars : GoMap Bytes Bytes) (d : Database) : Database :=
  { d with current := goal target vars d, conns := ∅ }

/-- Its result in the switch. -/
def resultOf (target : Bytes) (vars : GoMap Bytes Bytes) (name : Bytes) (d : Database) :
    SwitchResult :=
  switchResult name (planOf target vars d) d.current d.conns.keys.card

theorem goal_eq_some {target : Bytes} {vars : GoMap Bytes Bytes} {d : Database}
    {rt : ResolvedTarget} :
    goal target vars d = some rt ↔ d.resolveTarget target vars = .ok rt := by
  unfold goal
  cases d.resolveTarget target vars <;> simp [Except.toOption]

theorem goal_eq_none_of_not_hasTarget {target : Bytes} {vars : GoMap Bytes Bytes} {d : Database}
    (hdeclared : ¬ d.hasTarget target) : goal target vars d = none := by
  cases hgoal : goal target vars d with
  | none => rfl
  | some rt => exact absurd (Database.hasTarget_of_resolveTarget (goal_eq_some.mp hgoal)) hdeclared

theorem commitDatabase_planOf {d : Database} (target : Bytes) (vars : GoMap Bytes Bytes)
    (name : Bytes) {snapshot : List ConnId} (horder : Enumerates snapshot d.conns) :
    commitDatabase (planOf target vars d) name d snapshot =
      (switched target vars d, resultOf target vars name d) := by
  unfold commitDatabase resultOf switched planOf
  cases goal target vars d with
  | none =>
    simp only
    rw [Database.clear_eq horder]
  | some rt =>
    simp only
    rw [Database.apply_eq rt horder]

/-! ## The first pass -/

/-- The plans the loop records, entry by entry. -/
def plansOf (target : Bytes) (vars : GoMap Bytes Bytes) (entries : List (Bytes × Database))
    (plans : GoMap Bytes Plan) : GoMap Bytes Plan :=
  GoMap.insertAll Prod.fst (fun entry ↦ planOf target vars entry.2) plans entries

theorem plansOf_cons (target : Bytes) (vars : GoMap Bytes Bytes) (name : Bytes) (d : Database)
    (rest : List (Bytes × Database)) (plans : GoMap Bytes Plan) :
    plansOf target vars ((name, d) :: rest) plans =
      plansOf target vars rest (plans.insert name (planOf target vars d)) := rfl

/-- The databases among the entries that declare the target. -/
def declaring (target : Bytes) (entries : List (Bytes × Database)) : List (Bytes × Database) :=
  entries.filter fun entry ↦ entry.2.hasTarget target

theorem planLoop_eq_ok {target : Bytes} {vars : GoMap Bytes Bytes}
    {entries : List (Bytes × Database)} {plans plans' : GoMap Bytes Plan} {declared total : ℕ} :
    planLoop target vars entries plans declared = .ok (plans', total) ↔
      (∀ entry ∈ declaring target entries, ∃ rt, entry.2.resolveTarget target vars = .ok rt) ∧
        plans' = plansOf target vars entries plans ∧
        total = declared + (declaring target entries).length := by
  induction entries generalizing plans declared with
  | nil =>
    have hplans : plansOf target vars [] plans = plans := rfl
    simp only [planLoop, declaring, hplans, pure, Except.pure, Except.ok.injEq, Prod.mk.injEq]
    simp [eq_comm]
  | cons entry rest ih =>
    rcases entry with ⟨name, d⟩
    rw [planLoop]
    by_cases hdeclared : d.hasTarget target
    · have hfilter : declaring target ((name, d) :: rest) = (name, d) :: declaring target rest := by
        simp [declaring, hdeclared]
      rw [if_neg (not_not.mpr hdeclared), bind_eq_ok, hfilter, List.forall_mem_cons,
        List.length_cons]
      simp only [mapErr_eq_ok, ih]
      constructor
      · intro h
        rcases h with ⟨rt, hrt, hrest, hplans, htotal⟩
        refine ⟨⟨⟨rt, hrt⟩, hrest⟩, ?_, by omega⟩
        rw [hplans, plansOf_cons, planOf, goal_eq_some.mpr hrt]
      · intro h
        rcases h with ⟨⟨⟨rt, hrt⟩, hrest⟩, hplans, htotal⟩
        refine ⟨rt, hrt, hrest, ?_, by omega⟩
        rw [hplans, plansOf_cons, planOf, goal_eq_some.mpr hrt]
    · have hfilter : declaring target ((name, d) :: rest) = declaring target rest := by
        simp [declaring, hdeclared]
      rw [if_pos hdeclared, ih, hfilter]
      rw [plansOf_cons, planOf, goal_eq_none_of_not_hasTarget hdeclared]

theorem returns_planLoop (target : Bytes) (vars : GoMap Bytes Bytes)
    (entries : List (Bytes × Database)) (plans : GoMap Bytes Plan) (declared : ℕ) :
    Returns (planLoop target vars entries plans declared) := by
  induction entries generalizing plans declared with
  | nil => exact returns_pure _
  | cons entry rest ih =>
    rcases entry with ⟨name, d⟩
    rw [planLoop]
    split
    · exact ih _ _
    · exact returns_bind (returns_mapErr.mpr (Database.returns_resolveTarget _ _ _))
        fun rt _ ↦ ih _ _

/-- The first pass succeeds on switchable databases, and plans each of them. -/
theorem planAll_eq_ok {databases : GoMap Bytes Database} {target : Bytes}
    {vars : GoMap Bytes Bytes} {order : List Bytes} (horder : Enumerates order databases)
    {plans : GoMap Bytes Plan} :
    planAll databases target vars order = .ok plans ↔
      Switchable databases target vars ∧
        plans = plansOf target vars (databases.entries order) ∅ := by
  have hmem : ∀ entry, entry ∈ declaring target (databases.entries order) ↔
      databases.get entry.1 = some entry.2 ∧ entry.2.hasTarget target := by
    intro entry
    rw [declaring, List.mem_filter, GoMap.mem_entries horder]
  rw [planAll, bind_eq_ok]
  constructor
  · intro h
    rcases h with ⟨⟨plans', total⟩, hloop, hrest⟩
    rcases planLoop_eq_ok.mp hloop with ⟨hresolves, rfl, rfl⟩
    rcases refuse_bind_eq_ok.mp hrest with ⟨htotal, hplans⟩
    rw [Nat.zero_add, List.length_eq_zero_iff] at htotal
    rcases List.exists_mem_of_ne_nil _ htotal with ⟨entry, hentry⟩
    refine ⟨⟨⟨entry.1, entry.2, (hmem entry).mp hentry⟩, fun name d hget hdeclared ↦ ?_⟩,
      (Except.ok.inj hplans).symm⟩
    exact hresolves (name, d) ((hmem (name, d)).mpr ⟨hget, hdeclared⟩)
  · intro h
    rcases h with ⟨⟨⟨name, d, hdeclared⟩, hresolves⟩, rfl⟩
    have hentry := (hmem (name, d)).mpr hdeclared
    refine ⟨⟨_, _⟩, planLoop_eq_ok.mpr ⟨fun entry hmem' ↦ ?_, rfl, rfl⟩, ?_⟩
    · exact hresolves entry.1 entry.2 ((hmem entry).mp hmem').1 ((hmem entry).mp hmem').2
    · refine refuse_bind_eq_ok.mpr ⟨?_, rfl⟩
      have hlength := List.length_pos_of_mem hentry
      omega

/-- The plan of a database among those of the first pass. -/
theorem get_plansOf {databases : GoMap Bytes Database} {target : Bytes} {vars : GoMap Bytes Bytes}
    {order : List Bytes} (horder : Enumerates order databases) {name : Bytes} {d : Database}
    (hget : databases.get name = some d) :
    (plansOf target vars (databases.entries order) ∅).get name = some (planOf target vars d) :=
  GoMap.get_insertAll ∅ (GoMap.nodup_keys_entries horder) ((GoMap.mem_entries horder).mpr hget)

theorem returns_planAll (databases : GoMap Bytes Database) (target : Bytes)
    (vars : GoMap Bytes Bytes) (order : List Bytes) :
    Returns (planAll databases target vars order) :=
  returns_bind (returns_planLoop _ _ _ _ _) fun _ _ ↦
    returns_bind (returns_refuse _ _) fun _ _ ↦ returns_pure _

/-! ## The second pass -/

section Commit

variable {plans : GoMap Bytes Plan} {conns : Bytes → List ConnId} {target : Bytes}
  {vars : GoMap Bytes Bytes}

/-- The second pass over names still to come, none of them twice. -/
theorem commitLoop_eq {order : List Bytes} {databases : GoMap Bytes Database}
    (results : List SwitchResult) (hnodup : order.Nodup)
    (hplans : ∀ name ∈ order, ∀ d, databases.get name = some d →
      plans.get name = some (planOf target vars d))
    (hconns : ∀ name ∈ order, ∀ d, databases.get name = some d →
      Enumerates (conns name) d.conns) :
    (∀ name, (commitLoop plans conns order databases results).1.get name =
      if name ∈ order then (databases.get name).map (switched target vars)
      else databases.get name) ∧
    (commitLoop plans conns order databases results).2 =
      results ++
        (databases.entries order).map fun entry ↦ resultOf target vars entry.1 entry.2 := by
  induction order generalizing databases results with
  | nil => simp [commitLoop, GoMap.entries]
  | cons first rest ih =>
    rcases List.nodup_cons.mp hnodup with ⟨hfirst, hrest⟩
    rw [commitLoop]
    cases hget : databases.get first with
    | none =>
      simp only
      rcases ih results hrest (fun name hname ↦ hplans name (List.mem_cons_of_mem _ hname))
        (fun name hname ↦ hconns name (List.mem_cons_of_mem _ hname)) with ⟨hdatabases, hresults⟩
      refine ⟨fun name ↦ ?_, by rw [hresults, GoMap.entries_cons_none hget]⟩
      rw [hdatabases]
      by_cases hname : name = first
      · subst hname
        rw [if_neg hfirst, if_pos List.mem_cons_self, hget]
        rfl
      · simp [hname]
    | some d =>
      simp only
      rw [hplans first List.mem_cons_self d hget, Option.getD_some,
        commitDatabase_planOf target vars first (hconns first List.mem_cons_self d hget)]
      have hother : ∀ name, name ≠ first →
          GoMap.get (databases.insert first (switched target vars d)) name = databases.get name :=
        fun name hname ↦ GoMap.get_insert_of_ne _ _ hname
      have hne : ∀ name ∈ rest, name ≠ first := fun name hname hsame ↦ hfirst (hsame ▸ hname)
      have hplans' : ∀ name ∈ rest, ∀ other,
          GoMap.get (databases.insert first (switched target vars d)) name = some other →
          plans.get name = some (planOf target vars other) := by
        intro name hname other hget'
        rw [hother name (hne name hname)] at hget'
        exact hplans name (List.mem_cons_of_mem _ hname) other hget'
      have hconns' : ∀ name ∈ rest, ∀ other,
          GoMap.get (databases.insert first (switched target vars d)) name = some other →
          Enumerates (conns name) other.conns := by
        intro name hname other hget'
        rw [hother name (hne name hname)] at hget'
        exact hconns name (List.mem_cons_of_mem _ hname) other hget'
      rcases ih (results ++ [resultOf target vars first d]) hrest hplans' hconns' with
        ⟨hdatabases, hresults⟩
      refine ⟨fun name ↦ ?_, ?_⟩
      · rw [hdatabases]
        by_cases hname : name = first
        · subst hname
          rw [if_neg hfirst, if_pos List.mem_cons_self, GoMap.get_insert, hget]
          rfl
        · rw [hother name hname]
          simp [hname]
      · rw [hresults, GoMap.entries_cons_some hget, List.map_cons, List.append_assoc,
          List.singleton_append,
          GoMap.entries_congr fun name hname ↦ hother name (hne name hname)]

end Commit

/-! ## The whole call -/

section Call

variable {s : Server} {target : Bytes} {vars : GoMap Bytes Bytes} {orders : Orders}

/-- On switchable databases a call switches every one of them and reports each. -/
theorem switchAll_of_switchable (horders : orders.Valid s.databases)
    (hswitchable : Switchable s.databases target vars) :
    ∃ databases : GoMap Bytes Database,
      switchAll s target vars orders =
        (.ok ((s.databases.entries orders.commit).map fun entry ↦
            resultOf target vars entry.1 entry.2),
          { s with databases, currentTarget := target, currentVars := vars }) ∧
      ∀ name, databases.get name = (s.databases.get name).map (switched target vars) := by
  have hplan := (planAll_eq_ok horders.plan).mpr ⟨hswitchable, rfl⟩
  rcases commitLoop_eq [] horders.commit.nodup (fun name _ d hget ↦ get_plansOf horders.plan hget)
    (fun name _ d hget ↦ horders.conns name d hget) with ⟨hdatabases, hresults⟩
  refine ⟨(commitLoop (plansOf target vars (s.databases.entries orders.plan) ∅) orders.conns
    orders.commit s.databases []).1, ?_, fun name ↦ ?_⟩
  · rw [switchAll, hplan]
    simp only
    rw [hresults, List.nil_append]
  · rw [hdatabases]
    split
    · rfl
    next hname =>
      rw [GoMap.get_eq_none.mpr fun hmem ↦ hname ((horders.commit.mem_iff name).mpr hmem)]
      rfl

/-- On any others it errs and leaves the server alone. -/
theorem switchAll_of_not_switchable (horders : orders.Valid s.databases)
    (hswitchable : ¬ Switchable s.databases target vars) :
    ∃ error, switchAll s target vars orders = (fail error, s) := by
  have herrs : Errs (planAll s.databases target vars orders.plan) := by
    refine errs_of_returns (returns_planAll _ _ _ _) fun plans hplan ↦ ?_
    exact hswitchable ((planAll_eq_ok horders.plan).mp hplan).1
  rw [switchAll]
  cases hplan : planAll s.databases target vars orders.plan with
  | ok plans =>
    rw [hplan] at herrs
    exact absurd herrs (not_errs_ok _)
  | error fault =>
    cases fault with
    | panic =>
      rw [hplan] at herrs
      exact absurd herrs id
    | outOfFuel =>
      rw [hplan] at herrs
      exact absurd herrs id
    | err error => exact ⟨error, rfl⟩

theorem switchable_of_ok (horders : orders.Valid s.databases) {results : List SwitchResult}
    {s' : Server} (hcall : switchAll s target vars orders = (.ok results, s')) :
    Switchable s.databases target vars := by
  by_contra hnot
  rcases switchAll_of_not_switchable horders hnot with ⟨error, herror⟩
  rw [herror] at hcall
  exact fail_ne_ok _ _ (Prod.mk.inj hcall).1

/-- The databases after a call that succeeded. -/
theorem get_databases_of_ok (horders : orders.Valid s.databases) {results : List SwitchResult}
    {s' : Server} (hcall : switchAll s target vars orders = (.ok results, s')) (name : Bytes) :
    s'.databases.get name = (s.databases.get name).map (switched target vars) := by
  rcases switchAll_of_switchable horders (switchable_of_ok horders hcall) with
    ⟨databases, hcall', hdatabases⟩
  rw [hcall] at hcall'
  rw [(Prod.mk.inj hcall').2]
  exact hdatabases name

/-- The results of a call that succeeded. -/
theorem mem_results_of_ok (horders : orders.Valid s.databases) {results : List SwitchResult}
    {s' : Server} (hcall : switchAll s target vars orders = (.ok results, s')) (r : SwitchResult) :
    r ∈ results ↔ ∃ name d, s.databases.get name = some d ∧ r = resultOf target vars name d := by
  rcases switchAll_of_switchable horders (switchable_of_ok horders hcall) with
    ⟨databases, hcall', -⟩
  rw [hcall] at hcall'
  rw [Except.ok.inj (Prod.mk.inj hcall').1, List.mem_map]
  constructor
  · intro h
    rcases h with ⟨⟨name, d⟩, hentry, rfl⟩
    exact ⟨name, d, (GoMap.mem_entries horders.commit).mp hentry, rfl⟩
  · intro h
    rcases h with ⟨name, d, hget, rfl⟩
    exact ⟨(name, d), (GoMap.mem_entries horders.commit).mpr hget, rfl⟩

theorem names_results_of_ok (horders : orders.Valid s.databases) {results : List SwitchResult}
    {s' : Server} (hcall : switchAll s target vars orders = (.ok results, s')) :
    (results.map SwitchResult.virtualName).Nodup := by
  rcases switchAll_of_switchable horders (switchable_of_ok horders hcall) with
    ⟨databases, hcall', -⟩
  rw [hcall] at hcall'
  rw [Except.ok.inj (Prod.mk.inj hcall').1, List.map_map]
  exact GoMap.nodup_keys_entries horders.commit

end Call

/-- The two ways in which databases fail to be switchable. -/
theorem not_switchable_iff {databases : GoMap Bytes Database} {target : Bytes}
    {vars : GoMap Bytes Bytes} :
    ¬ Switchable databases target vars ↔
      (∀ name d, databases.get name = some d → ¬ d.hasTarget target) ∨
        ∃ name d, databases.get name = some d ∧ d.hasTarget target ∧
          Errs (d.resolveTarget target vars) := by
  constructor
  · intro hnot
    by_contra hneither
    push Not at hneither
    rcases hneither with ⟨⟨name, d, hget, hdeclared⟩, hresolves⟩
    refine hnot ⟨⟨name, d, hget, hdeclared⟩, fun name d hget hdeclared ↦ ?_⟩
    by_contra hnone
    exact hresolves name d hget hdeclared
      (errs_of_returns (Database.returns_resolveTarget _ _ _) (not_exists.mp hnone))
  · intro h hswitchable
    rcases h with hnone | ⟨name, d, hget, hdeclared, herrs⟩
    · rcases hswitchable.declared with ⟨name, d, hget, hdeclared⟩
      exact hnone name d hget hdeclared
    · rcases hswitchable.resolves name d hget hdeclared with ⟨rt, hrt⟩
      rw [hrt] at herrs
      exact not_errs_ok _ herrs

theorem errs_switchAll_iff {s : Server} {target : Bytes} {vars : GoMap Bytes Bytes}
    {orders : Orders} (horders : orders.Valid s.databases) :
    Errs (switchAll s target vars orders).1 ↔ ¬ Switchable s.databases target vars := by
  by_cases hswitchable : Switchable s.databases target vars
  · rcases switchAll_of_switchable horders hswitchable with ⟨databases, hcall, -⟩
    rw [hcall]
    exact iff_of_false (not_errs_ok _) (not_not.mpr hswitchable)
  · rcases switchAll_of_not_switchable horders hswitchable with ⟨error, hcall⟩
    rw [hcall]
    exact iff_of_true (errs_fail _) hswitchable

/-- A call errs exactly when no database declares the target or one that does cannot resolve it; it
then changes nothing, and otherwise the orders decide neither the final state nor the results. -/
theorem switchAll_all_or_nothing (s : Server) (target : Bytes) (vars : GoMap Bytes Bytes) :
    (∀ orders : Orders, orders.Valid s.databases →
      (Errs (switchAll s target vars orders).1 ↔
        (∀ name d, s.databases.get name = some d → ¬ d.hasTarget target) ∨
          ∃ name d, s.databases.get name = some d ∧ d.hasTarget target ∧
            Errs (d.resolveTarget target vars)) ∧
      (Errs (switchAll s target vars orders).1 → (switchAll s target vars orders).2 = s) ∧
      (¬ Errs (switchAll s target vars orders).1 →
        ∃ results, (switchAll s target vars orders).1 = .ok results)) ∧
    ∀ (orders orders' : Orders) (results results' : List SwitchResult) (s' s'' : Server),
      orders.Valid s.databases → orders'.Valid s.databases →
      switchAll s target vars orders = (.ok results, s') →
      switchAll s target vars orders' = (.ok results', s'') →
      s' = s'' ∧ ∀ r, r ∈ results ↔ r ∈ results' := by
  refine ⟨fun orders horders ↦ ⟨?_, fun herrs ↦ ?_, fun herrs ↦ ?_⟩, ?_⟩
  · rw [errs_switchAll_iff horders, not_switchable_iff]
  · rw [errs_switchAll_iff horders] at herrs
    rcases switchAll_of_not_switchable horders herrs with ⟨error, hcall⟩
    rw [hcall]
  · rw [errs_switchAll_iff horders, not_not] at herrs
    rcases switchAll_of_switchable horders herrs with ⟨databases, hcall, -⟩
    rw [hcall]
    exact ⟨_, rfl⟩
  · intro orders orders' results results' s' s'' horders horders' hcall hcall'
    have hswitchable := switchable_of_ok horders hcall
    rcases switchAll_of_switchable horders hswitchable with ⟨databases, heq, hdatabases⟩
    rcases switchAll_of_switchable horders' hswitchable with ⟨databases', heq', hdatabases'⟩
    have hsame : databases = databases' :=
      GoMap.ext_get fun name ↦ by rw [hdatabases, hdatabases']
    refine ⟨?_, fun r ↦ ?_⟩
    · rw [hcall] at heq
      rw [hcall'] at heq'
      rw [(Prod.mk.inj heq).2, (Prod.mk.inj heq').2, hsame]
    · rw [mem_results_of_ok horders hcall, mem_results_of_ok horders' hcall']

end DbPivot.Proxy
