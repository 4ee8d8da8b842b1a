import DbPivot.Proxy.Runs

/-!
# What a validated configuration gives a server

`New`, `NewDatabase` and `ResolveEndpoint` check nothing of what they rely on: a second database or
target of one name would replace the first, a reference to a forward target that is not there would
read as no host and port zero, and an adapter without a port would make `New` fail. The rules of
`Validate` exclude all of it. So a server that `New` builds from a validated configuration has one
live database for each entry, which keeps its targets for its whole life, it has an address for each
adapter in use, and every target it resolves can be dialled.
-/

namespace DbPivot.Proxy

open DbPivot.Go DbPivot.Config

/-! ## What the server should be -/

/-- The live database of an entry, whatever target it is on and whatever is connected to it. -/
structure Live (cfg : Config) (c : Config.Database) (d : Database) : Prop where
  virtualName : d.virtualName = c.virtualName
  adapter : d.adapter = c.adapter
  targets : d.targets = c.targets
  byName : d.byName = indexTargets c.targets
  fwd : d.fwd = cfg.forwardTargets

/-- Each entry has one live database, and each target of it is found under its name. -/
structure Housed (cfg : Config) (s : Server) : Prop where
  database : ∀ c ∈ cfg.databases, ∃ d, s.databases.get c.virtualName = some d ∧ Live cfg c d
  entry : ∀ name d, s.databases.get name = some d →
    ∃! c, c ∈ cfg.databases ∧ c.virtualName = name ∧ Live cfg c d
  target : ∀ c ∈ cfg.databases, ∀ d, Live cfg c d → ∀ name t,
    d.byName.get name = some t ↔ t ∈ c.targets ∧ t.name = name

/-- Each adapter in use has an address of its own port. -/
structure Listening (cfg : Config) (s : Server) : Prop where
  used : ∀ c ∈ cfg.databases, ∃ addr, s.listenAddrs.get c.adapter = some addr
  address : ∀ adapter addr, s.listenAddrs.get adapter = some addr →
    ∃ port, cfg.listenPorts.get adapter = some port ∧ 1 ≤ port ∧ port ≤ 65535 ∧
      addr = joinHostPort cfg.listenHostOrDefault (itoaInt port)
  distinct : ∀ adapter other port, adapter ∈ s.listenAddrs → other ∈ s.listenAddrs →
    cfg.listenPorts.get adapter = some port → cfg.listenPorts.get other = some port →
    adapter = other

/-- A resolved target of which everything is there. -/
structure Dialable (cfg : Config) (t : Target) (rt : ResolvedTarget) : Prop where
  host_ne : rt.host ≠ []
  port : 1 ≤ rt.port ∧ rt.port ≤ 65535
  endpoint : (t.forwardTo = [] ∧ rt.host = t.host ∧ rt.port = t.port) ∨
    (t.forwardTo ≠ [] ∧ ∃ ft, cfg.forwardTargets.get t.forwardTo = some ft ∧ rt.host = ft.host ∧
      rt.port = ft.port)
  user_ne : rt.user ≠ []
  password_ne : rt.password ≠ []
  sslMode : rt.sslMode = [] ∨ rt.sslMode = sslModeDisable ∨ rt.sslMode = sslModeRequire

variable {cfg : Config}

/-! ## Resolving a target -/

/-- The endpoint of a valid target is the one it gives or the one it refers to. -/
theorem resolveEndpoint_of_targetOk (hcfg : ConfigOk cfg) {t : Target} (ht : TargetOk cfg t) :
    (t.resolveEndpoint cfg.forwardTargets).1 ≠ [] ∧
    (1 ≤ (t.resolveEndpoint cfg.forwardTargets).2 ∧
      (t.resolveEndpoint cfg.forwardTargets).2 ≤ 65535) ∧
    ((t.forwardTo = [] ∧ t.resolveEndpoint cfg.forwardTargets = (t.host, t.port)) ∨
      (t.forwardTo ≠ [] ∧ ∃ ft, cfg.forwardTargets.get t.forwardTo = some ft ∧
        t.resolveEndpoint cfg.forwardTargets = (ft.host, ft.port))) := by
  rcases ht.endpoint with ⟨hhost, hlow, hhigh, hforward⟩ | ⟨hhost, -, hforward, hmem⟩
  · have hinline : t.resolveEndpoint cfg.forwardTargets = (t.host, t.port) := if_pos hhost
    rw [hinline]
    exact ⟨hhost, ⟨hlow, hhigh⟩, .inl ⟨hforward, rfl⟩⟩
  · obtain ⟨ft, hft⟩ := GoMap.mem_iff_get.mp hmem
    have hreference : t.resolveEndpoint cfg.forwardTargets = (ft.host, ft.port) := by
      rw [Target.resolveEndpoint, if_neg (not_not.mpr hhost), hft]
      rfl
    obtain ⟨-, hne, hlow, hhigh⟩ := hcfg.forwardTargets _ ft hft
    rw [hreference]
    exact ⟨hne, ⟨hlow, hhigh⟩, .inr ⟨hforward, ft, hft, rfl⟩⟩

theorem dialable_snapshot (hcfg : ConfigOk cfg) {c : Config.Database} {d : Database}
    (hd : Live cfg c d) {t : Target} (ht : TargetOk cfg t) (resolvedDB : Bytes) :
    Dialable cfg t (d.snapshot t resolvedDB) := by
  obtain ⟨hhost, hport, hendpoint⟩ := resolveEndpoint_of_targetOk hcfg ht
  rw [← hd.fwd] at hhost hport hendpoint
  refine ⟨hhost, hport, ?_, ht.user_ne, ht.password_ne, ?_⟩
  · apply hendpoint.imp
    · exact fun h ↦ ⟨h.1, congrArg Prod.fst h.2, congrArg Prod.snd h.2⟩
    · rintro ⟨hforward, ft, hft, heq⟩
      exact ⟨hforward, ft, hd.fwd ▸ hft, congrArg Prod.fst heq, congrArg Prod.snd heq⟩
  · apply ht.sslMode.imp_right
    intro hsupported
    have hmode : t.sslMode = sslModeDisable ∨ t.sslMode = sslModeRequire := by
      simpa [isSupportedSSLMode, supportedSSLModes] using hsupported
    exact hmode

/-! ## The databases -/

theorem live_newDatabase (c : Config.Database) : Live cfg c (newDatabase c cfg.forwardTargets) :=
  ⟨rfl, rfl, rfl, rfl, rfl⟩

theorem Live.update {c : Config.Database} {d : Database} (hd : Live cfg c d)
    (current : Option ResolvedTarget) (conns : GoMap ConnId Conn) :
    Live cfg c { d with current, conns } :=
  { hd with }

theorem get_byName_iff {c : Config.Database} (hc : DatabaseOk cfg c) {d : Database}
    (hd : Live cfg c d) (name : Bytes) (t : Target) :
    d.byName.get name = some t ↔ t ∈ c.targets ∧ t.name = name := by
  rw [hd.byName]
  constructor
  · intro hget
    obtain ⟨item, hitem, hname, rfl⟩ := GoMap.exists_of_get_insertAll hget
    exact ⟨hitem, hname⟩
  · rintro ⟨ht, rfl⟩
    exact GoMap.get_insertAll ∅ hc.nodup ht

/-- The databases of a state are those of the configuration. -/
def Kept (cfg : Config) (databases : GoMap Bytes Database) : Prop :=
  (∀ c ∈ cfg.databases, ∃ d, databases.get c.virtualName = some d ∧ Live cfg c d) ∧
    ∀ name d, databases.get name = some d → ∃ c ∈ cfg.databases, c.virtualName = name ∧ Live cfg c d

theorem kept_openDatabases (hcfg : ConfigOk cfg) : Kept cfg (openDatabases cfg) := by
  constructor
  · exact fun c hc ↦ ⟨_, GoMap.get_insertAll ∅ hcfg.nodup hc, live_newDatabase c⟩
  · intro name d hget
    obtain ⟨c, hc, hname, rfl⟩ := GoMap.exists_of_get_insertAll hget
    exact ⟨c, hc, hname, live_newDatabase c⟩

/-- A change of every database in its target and its connections. -/
theorem Kept.map {databases databases' : GoMap Bytes Database} (h : Kept cfg databases)
    {change : Database → Database} (hchange : ∀ c d, Live cfg c d → Live cfg c (change d))
    (hget : ∀ name, databases'.get name = (databases.get name).map change) :
    Kept cfg databases' := by
  constructor
  · intro c hc
    obtain ⟨d, hd, hlive⟩ := h.1 c hc
    exact ⟨change d, by rw [hget, hd, Option.map_some], hchange c d hlive⟩
  · intro name d' hd'
    rw [hget, Option.map_eq_some_iff] at hd'
    obtain ⟨d, hd, rfl⟩ := hd'
    obtain ⟨c, hc, hname, hlive⟩ := h.2 name d hd
    exact ⟨c, hc, hname, hchange c d hlive⟩

/-- A change of one database in its connections. -/
theorem Kept.insert {databases : GoMap Bytes Database} (h : Kept cfg databases) {name : Bytes}
    {d : Database} (hd : databases.get name = some d) (conns : GoMap ConnId Conn) :
    Kept cfg (databases.insert name { d with conns }) := by
  have hget (other : Bytes) (d' : Database)
      (hd' : GoMap.get (databases.insert name { d with conns }) other = some d') :
      ∃ before, databases.get other = some before ∧ d' = { before with conns := d'.conns } := by
    by_cases hother : other = name
    · subst hother
      rw [GoMap.get_insert] at hd'
      obtain rfl := Option.some.inj hd'
      exact ⟨d, hd, rfl⟩
    · rw [GoMap.get_insert_of_ne _ _ hother] at hd'
      exact ⟨d', hd', rfl⟩
  constructor
  · intro c hc
    obtain ⟨before, hbefore, hlive⟩ := h.1 c hc
    by_cases hname : c.virtualName = name
    · rw [hname, hd] at hbefore
      obtain rfl := Option.some.inj hbefore
      rw [hname, GoMap.get_insert]
      exact ⟨_, rfl, hlive.update _ conns⟩
    · rw [GoMap.get_insert_of_ne _ _ hname]
      exact ⟨before, hbefore, hlive⟩
  · intro other d' hd'
    obtain ⟨before, hbefore, heq⟩ := hget other d' hd'
    obtain ⟨c, hc, hname, hlive⟩ := h.2 other before hbefore
    rw [heq]
    exact ⟨c, hc, hname, hlive.update _ _⟩

theorem kept_switchAll {s : Server} (h : Kept cfg s.databases) {orders : Orders} (target : Bytes)
    (vars : GoMap Bytes Bytes) (horders : orders.Valid s.databases) :
    Kept cfg (switchAll s target vars orders).2.databases ∧
      (switchAll s target vars orders).2.listenAddrs = s.listenAddrs := by
  by_cases hswitchable : Switchable s.databases target vars
  · obtain ⟨databases, hcall, hget⟩ := switchAll_of_switchable horders hswitchable
    rw [hcall]
    exact ⟨h.map (fun c d hlive ↦ hlive.update _ _) hget, rfl⟩
  · obtain ⟨error, hcall⟩ := switchAll_of_not_switchable horders hswitchable
    rw [hcall]
    exact ⟨h, rfl⟩

/-- What one event keeps. -/
theorem kept_step {s s' : Server} (h : Kept cfg s.databases) (hstep : Step s s') :
    Kept cfg s'.databases ∧ s'.listenAddrs = s.listenAddrs := by
  cases hstep with
  | switch target vars horders => exact kept_switchAll h target vars horders
  | register conn hget _ => exact ⟨h.insert hget _, rfl⟩
  | close c hget => exact ⟨h.insert hget _, rfl⟩

theorem kept_run {s s' : Server} (h : Kept cfg s.databases)
    (hrun : Relation.ReflTransGen Step s s') :
    Kept cfg s'.databases ∧ s'.listenAddrs = s.listenAddrs := by
  induction hrun with
  | refl => exact ⟨h, rfl⟩
  | tail _ hstep ih =>
    obtain ⟨hkept, hsame⟩ := kept_step ih.1 hstep
    exact ⟨hkept, hsame.trans ih.2⟩

theorem housed_of_kept (hcfg : ConfigOk cfg) {s : Server} (h : Kept cfg s.databases) :
    Housed cfg s := by
  refine ⟨h.1, fun name d hget ↦ ?_, fun c hc d hd name t ↦ ?_⟩
  · obtain ⟨c, hc, hname, hlive⟩ := h.2 name d hget
    refine ⟨c, ⟨hc, hname, hlive⟩, ?_⟩
    rintro other ⟨hother, hsame, -⟩
    exact List.inj_on_of_nodup_map hcfg.nodup hother hc (hsame.trans hname.symm)
  · exact get_byName_iff (hcfg.databases c hc) hd name t

/-! ## The addresses -/

/-- The address `New` gives an adapter. -/
def addressOf (cfg : Config) (adapter : Bytes) : Bytes :=
  joinHostPort cfg.listenHostOrDefault (itoaInt ((cfg.listenPort adapter).getD 0))

theorem listenLoop_eq_ok (adapters : List Bytes) (listenAddrs : GoMap Bytes Bytes)
    (hports : ∀ adapter ∈ adapters, adapter ∈ cfg.listenPorts) :
    listenLoop cfg adapters listenAddrs =
      .ok (GoMap.insertAll id (addressOf cfg) listenAddrs adapters) := by
  induction adapters generalizing listenAddrs with
  | nil => rfl
  | cons adapter rest ih =>
    obtain ⟨port, hport⟩ := GoMap.mem_iff_get.mp (hports adapter List.mem_cons_self)
    have haddress : addressOf cfg adapter = joinHostPort cfg.listenHostOrDefault (itoaInt port) := by
      rw [addressOf, Config.listenPort, hport, Option.getD_some]
    rw [listenLoop, Config.listenPort, hport]
    dsimp only
    rw [ih _ fun other hother ↦ hports other (List.mem_cons_of_mem _ hother), ← haddress]
    rfl

theorem mem_usedAdapters {adapter : Bytes} :
    adapter ∈ cfg.usedAdapters ↔ adapter ≠ [] ∧ ∃ c ∈ cfg.databases, c.adapter = adapter := by
  simp only [Config.usedAdapters, List.mem_insertionSort, List.mem_dedup, List.mem_filter,
    List.mem_map, decide_eq_true_eq]
  exact and_comm

theorem nodup_usedAdapters (cfg : Config) : cfg.usedAdapters.Nodup :=
  (List.perm_insertionSort _ _).nodup_iff.mpr (List.nodup_dedup _)

theorem mem_listenPorts_of_used (hcfg : ConfigOk cfg) {adapter : Bytes}
    (hadapter : adapter ∈ cfg.usedAdapters) : adapter ∈ cfg.listenPorts := by
  obtain ⟨-, c, hc, rfl⟩ := mem_usedAdapters.mp hadapter
  exact (hcfg.databases c hc).listens

theorem used_of_mem (hcfg : ConfigOk cfg) {c : Config.Database} (hc : c ∈ cfg.databases) :
    c.adapter ∈ cfg.usedAdapters := by
  refine mem_usedAdapters.mpr ⟨?_, c, hc, rfl⟩
  intro hnil
  have hsupported := (hcfg.databases c hc).adapter
  rw [hnil] at hsupported
  exact absurd hsupported (by decide)

theorem listening_of_addresses (hcfg : ConfigOk cfg) {s : Server}
    (hs : s.listenAddrs = GoMap.insertAll id (addressOf cfg) ∅ cfg.usedAdapters) :
    Listening cfg s := by
  have hnodup : (cfg.usedAdapters.map id).Nodup := by
    rw [List.map_id]
    exact nodup_usedAdapters cfg
  refine ⟨fun c hc ↦ ⟨addressOf cfg c.adapter, ?_⟩, fun adapter addr hget ↦ ?_, ?_⟩
  · rw [hs]
    exact GoMap.get_insertAll ∅ hnodup (used_of_mem hcfg hc)
  · rw [hs] at hget
    obtain ⟨_, hused, rfl, rfl⟩ := GoMap.exists_of_get_insertAll hget
    obtain ⟨port, hport⟩ := GoMap.mem_iff_get.mp (mem_listenPorts_of_used hcfg hused)
    obtain ⟨-, hlow, hhigh⟩ := hcfg.listenPorts _ port hport
    refine ⟨port, hport, hlow, hhigh, ?_⟩
    rw [addressOf, Config.listenPort, hport, Option.getD_some]
  · exact fun adapter other port _ _ ↦ hcfg.ports_injective adapter other port

/-! ## Construction -/

/-- The server on which `New` calls `SwitchAll`. -/
def opened (cfg : Config) (vars : GoMap Bytes Bytes) : Server where
  listenAddrs := GoMap.insertAll id (addressOf cfg) ∅ cfg.usedAdapters
  databases := openDatabases cfg
  currentTarget := []
  currentVars := vars

/-- For a validated configuration, `New` is a switch of the databases it opens. -/
theorem new_eq (hcfg : ConfigOk cfg) (target : Bytes) (vars : GoMap Bytes Bytes) (orders : Orders) :
    new cfg target vars orders =
      (switchAll (opened cfg vars) target vars orders).1.map fun _ ↦
        (switchAll (opened cfg vars) target vars orders).2 := by
  have hloop : listenLoop cfg cfg.usedAdapters ∅ = .ok (opened cfg vars).listenAddrs :=
    listenLoop_eq_ok _ _ fun adapter hadapter ↦ mem_listenPorts_of_used hcfg hadapter
  rcases hswitch : switchAll (opened cfg vars) target vars orders with ⟨fault | results, s⟩
  all_goals
    rw [opened] at hswitch
    rw [new, hloop]
    simp only [mapErr, ok_bind, opened, hswitch]
    rfl

/-- Whether a switch fails, and how, is up to the databases alone. -/
theorem switchAll_eq_error {s : Server} {target : Bytes} {vars : GoMap Bytes Bytes} {orders : Orders}
    {fault : Fault SwitchError} : (switchAll s target vars orders).1 = .error fault ↔
      planAll s.databases target vars orders.plan = .error fault := by
  rw [switchAll]
  cases planAll s.databases target vars orders.plan with
  | error other =>
    constructor
    · exact fun h ↦ congrArg Except.error (Except.error.inj h)
    · exact fun h ↦ congrArg Except.error (Except.error.inj h)
  | ok plans =>
    constructor
    · intro h
      cases h
    · intro h
      cases h

theorem new_eq_error (hcfg : ConfigOk cfg) {target : Bytes} {vars : GoMap Bytes Bytes}
    {orders : Orders} {fault : Fault SwitchError} :
    new cfg target vars orders = .error fault ↔
      planAll (openDatabases cfg) target vars orders.plan = .error fault := by
  calc new cfg target vars orders = .error fault
      ↔ (switchAll (opened cfg vars) target vars orders).1 = .error fault := by
        rw [new_eq hcfg]
        cases (switchAll (opened cfg vars) target vars orders).1 with
        | error other =>
          constructor
          · exact fun h ↦ congrArg Except.error (Except.error.inj h)
          · exact fun h ↦ congrArg Except.error (Except.error.inj h)
        | ok results =>
          constructor
          · exact fun h ↦ nomatch h
          · exact fun h ↦ nomatch h
    _ ↔ planAll (openDatabases cfg) target vars orders.plan = .error fault := switchAll_eq_error

theorem kept_new (hcfg : ConfigOk cfg) {target : Bytes} {vars : GoMap Bytes Bytes} {orders : Orders}
    (horders : orders.Valid (openDatabases cfg)) {s : Server}
    (hnew : new cfg target vars orders = .ok s) :
    Kept cfg s.databases ∧ s.listenAddrs = (opened cfg vars).listenAddrs := by
  have hkept := kept_switchAll (s := opened cfg vars) (kept_openDatabases hcfg) target vars horders
  rw [new_eq hcfg] at hnew
  cases hresult : (switchAll (opened cfg vars) target vars orders).1 with
  | error fault =>
    rw [hresult] at hnew
    exact nomatch hnew
  | ok results =>
    rw [hresult] at hnew
    obtain rfl := Except.ok.inj hnew
    exact hkept

theorem card_of_kept (hcfg : ConfigOk cfg) {s : Server} (h : Kept cfg s.databases) :
    s.databases.keys.card = cfg.databases.length := by
  have hkeys : s.databases.keys = (cfg.databases.map Config.Database.virtualName).toFinset := by
    ext name
    rw [Finmap.mem_keys, List.mem_toFinset, List.mem_map, GoMap.mem_iff_get]
    constructor
    · rintro ⟨d, hd⟩
      obtain ⟨c, hc, hname, -⟩ := h.2 name d hd
      exact ⟨c, hc, hname⟩
    · rintro ⟨c, hc, rfl⟩
      obtain ⟨d, hd, -⟩ := h.1 c hc
      exact ⟨d, hd⟩
  rw [hkeys, List.toFinset_card_of_nodup hcfg.nodup, List.length_map]

/-- A configuration that passes validation passes it whatever order its maps are visited in. `New`
fails on it only if the switch of its databases fails. In every later state of the server there is
one live database for each entry, which finds each of its targets under its name, each adapter in
use has an address of its own port, and whatever a database resolves can be dialled. -/
theorem validated_usable {portOrder forwardOrder : List Bytes}
    (hports : Enumerates portOrder cfg.listenPorts)
    (hforward : Enumerates forwardOrder cfg.forwardTargets)
    (hvalid : validate cfg portOrder forwardOrder = .ok ()) :
    (∀ portOrder' forwardOrder', Enumerates portOrder' cfg.listenPorts →
      Enumerates forwardOrder' cfg.forwardTargets → validate cfg portOrder' forwardOrder' = .ok ()) ∧
    ∀ (target : Bytes) (vars : GoMap Bytes Bytes) (orders : Orders),
      orders.Valid (openDatabases cfg) →
      (∀ s₀ : Server, s₀.databases = openDatabases cfg → ∀ fault,
        new cfg target vars orders = .error fault →
        (switchAll s₀ target vars orders).1 = .error fault) ∧
      ∀ s₀ s, new cfg target vars orders = .ok s₀ → Relation.ReflTransGen Step s₀ s →
        Housed cfg s ∧ s.databases.keys.card = cfg.databases.length ∧ Listening cfg s ∧
        ∀ name d, s.databases.get name = some d → ∀ target vars rt,
          d.resolveTarget target vars = .ok rt →
          ∃ c ∈ cfg.databases, c.virtualName = name ∧ ∃ t ∈ c.targets, t.name = target ∧
            Dialable cfg t rt := by
  have hcfg : ConfigOk cfg := (validate_eq_ok hports hforward).mp hvalid
  refine ⟨fun _ _ hports' hforward' ↦ (validate_eq_ok hports' hforward').mpr hcfg, ?_⟩
  intro target vars orders horders
  constructor
  · intro s₀ hs₀ fault hnew
    rw [switchAll_eq_error, hs₀]
    exact (new_eq_error hcfg).mp hnew
  · intro s₀ s hnew hrun
    obtain ⟨hkept₀, haddrs₀⟩ := kept_new hcfg horders hnew
    obtain ⟨hkept, haddrs⟩ := kept_run hkept₀ hrun
    refine ⟨housed_of_kept hcfg hkept, card_of_kept hcfg hkept,
      listening_of_addresses hcfg (haddrs.trans haddrs₀), ?_⟩
    intro name d hget target vars rt hresolve
    obtain ⟨c, hc, hname, hlive⟩ := hkept.2 name d hget
    obtain ⟨t, resolvedDB, ht, -, -, rfl⟩ := Database.resolveTarget_eq_ok.mp hresolve
    obtain ⟨hmem, htarget⟩ := (get_byName_iff (hcfg.databases c hc) hlive target t).mp ht
    exact ⟨c, hc, hname, t, hmem, htarget,
      dialable_snapshot hcfg hlive ((hcfg.databases c hc).targets t hmem) resolvedDB⟩

theorem enumerates_pairConfig :
    Enumerates [adapterPostgres, adapterMySQL] pairConfig.listenPorts ∧
      Enumerates [str "bastion"] pairConfig.forwardTargets :=
  ⟨⟨by decide, fun _ ↦ GoMap.mem_ofKeys.symm⟩,
    ⟨List.nodup_singleton _, fun _ ↦ GoMap.mem_ofKeys.symm⟩⟩

/-- Two databases of two adapters. The target behind a forward can be dialled there. -/
theorem validated_usable_pair :
    ∃ s, new pairConfig (str "local") ∅ pairOrders = .ok s ∧ Housed pairConfig s ∧
      s.databases.keys.card = 2 ∧ Listening pairConfig s ∧
      ∃ d rt t, s.databases.get (str "app") = some d ∧
        d.resolveTarget (str "staging") ∅ = .ok rt ∧ t.name = str "staging" ∧
        t.forwardTo = str "bastion" ∧ Dialable pairConfig t rt := by
  have horders := enumerates_pairConfig
  have hnew : ∃ s, new pairConfig (str "local") ∅ pairOrders = .ok s := ⟨_, rfl⟩
  obtain ⟨s, hnew⟩ := hnew
  obtain ⟨hhoused, hcard, hlistening, hdialable⟩ :=
    ((validated_usable horders.1 horders.2 (by rfl)).2 _ _ _ pairOrders_valid).2 s s hnew .refl
  obtain ⟨d, hget, hlive⟩ := hhoused.database appDatabase List.mem_cons_self
  have hdeclared : d.hasTarget (str "staging") := by
    rw [Database.hasTarget, hlive.byName]
    decide
  obtain ⟨rt, hrt⟩ := ((switchable_run pairOrders_valid hnew .refl (str "staging") ∅).mpr
    switchable_staging).resolves _ d hget hdeclared
  obtain ⟨c, hc, hname, t, ht, htarget, hdial⟩ := hdialable _ d hget _ _ rt hrt
  refine ⟨s, hnew, hhoused, hcard, hlistening, d, rt, t, hget, hrt, htarget, ?_, hdial⟩
  -- The entries are told apart by their names, and so are the targets of an entry.
  have hforward : ∀ c ∈ pairConfig.databases, c.virtualName = str "app" → ∀ t ∈ c.targets,
      t.name = str "staging" → t.forwardTo = str "bastion" := by
    decide
  exact hforward c hc hname t ht htarget

end DbPivot.Proxy
