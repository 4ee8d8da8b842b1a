import DbPivot.Config.Variables

/-!
# The configuration and its validation

`Validate` is a chain of checks, two of them loops over Go maps. It accepts a configuration exactly
when every record of it is well-formed, so the order in which the maps are visited decides at most
which error is reported. Warnings go to a logger only and are not part of the model.
-/

set_option linter.dupNamespace false

namespace DbPivot.Config

open DbPivot.Go

/-! ## Identifiers -/

/-- The class `[A-Za-z0-9_]`. -/
def identStart (c : UInt8) : Bool :=
  (65 ≤ c && c ≤ 90) || (97 ≤ c && c ≤ 122) || (48 ≤ c && c ≤ 57) || c == 95

/-- The class `[A-Za-z0-9_$-]`. -/
def identInner (c : UInt8) : Bool := identStart c || c == 36 || c == 45

/-- `ValidIdentifier`: the expression `^[A-Za-z0-9_][A-Za-z0-9_$-]{0,62}$`. -/
def validIdentifier : Bytes → Bool
  | [] => false
  | c :: rest => identStart c && rest.all identInner && decide (rest.length ≤ 62)

/-! ## The configuration -/

structure ForwardTarget where
  host : Bytes
  port : ℤ
deriving DecidableEq

structure Target where
  name : Bytes
  host : Bytes
  port : ℤ
  forwardTo : Bytes
  user : Bytes
  password : Bytes
  database : Bytes
  authSource : Bytes
  sslMode : Bytes
deriving DecidableEq

structure Database where
  adapter : Bytes
  virtualName : Bytes
  targets : List Target
deriving DecidableEq

structure Config where
  listenHost : Bytes
  listenPorts : GoMap Bytes ℤ
  forwardTargets : GoMap Bytes ForwardTarget
  databases : List Database

def adapterPostgres : Bytes := str "postgres"

def adapterMySQL : Bytes := str "mysql"

def adapterMongo : Bytes := str "mongodb"

def sslModeDisable : Bytes := str "disable"

def sslModeRequire : Bytes := str "require"

def supportedSSLModes : List Bytes := [sslModeDisable, sslModeRequire]

def supportedAdapters : List Bytes := [adapterMongo, adapterMySQL, adapterPostgres]

def isSupportedAdapter (s : Bytes) : Bool := supportedAdapters.contains s

def isSupportedSSLMode (s : Bytes) : Bool := supportedSSLModes.contains s

def defaultListenHost : Bytes := str "127.0.0.1"

/-- `ListenHostOrDefault`. -/
def Config.listenHostOrDefault (cfg : Config) : Bytes :=
  if cfg.listenHost = [] then defaultListenHost else cfg.listenHost

/-- `ListenPort`. -/
def Config.listenPort (cfg : Config) (adapter : Bytes) : Option ℤ := cfg.listenPorts.get adapter

/-- `UsedAdapters`, in the order of `sort.Strings`. -/
def Config.usedAdapters (cfg : Config) : List Bytes :=
  ((cfg.databases.map Database.adapter).filter (· ≠ [])).dedup.insertionSort (· ≤ ·)

/-- `ResolveEndpoint`; a missing forward target reads as the zero value. -/
def Target.resolveEndpoint (t : Target) (fwd : GoMap Bytes ForwardTarget) : Bytes × ℤ :=
  if t.host ≠ [] then (t.host, t.port)
  else
    let ft := (fwd.get t.forwardTo).getD ⟨[], 0⟩
    (ft.host, ft.port)

/-! ## Validation -/

/-- A loop over a slice that checks its items in turn and remembers the names it has seen. -/
def checkEach {τ : Type} (check : ℕ → τ → List Bytes → GoM GoError Unit) (name : τ → Bytes) :
    ℕ → List τ → List Bytes → GoM GoError Unit
  | _, [], _ => pure ()
  | i, item :: rest, seen => do
    check i item seen
    checkEach check name (i + 1) rest (name item :: seen)

/-- The loop of `Validate` over `listen_ports`. -/
def validateListenPorts : List (Bytes × ℤ) → GoMap ℤ Bytes → GoM GoError Unit
  | [], _ => pure ()
  | (adapter, port) :: rest, seenPorts => do
    refuse (¬ isSupportedAdapter adapter)
      (errorf "listen_ports has unsupported adapter %q (supported: %v)"
        [.text adapter, .texts supportedAdapters])
    refuse (port < 1 ∨ port > 65535)
      (errorf "listen_ports[%q] must be in [1, 65535], got %d" [.text adapter, .number port])
    match seenPorts.get port with
    | some other =>
      fail (errorf "listen_ports[%q] and listen_ports[%q] both use port %d"
        [.text other, .text adapter, .number port])
    | none => validateListenPorts rest (seenPorts.insert port adapter)

/-- The loop of `Validate` over `forward_targets`. -/
def validateForwardTargets : List (Bytes × ForwardTarget) → GoM GoError Unit
  | [] => pure ()
  | (name, ft) :: rest => do
    refuse (name = []) (errorf "forward_targets has an empty key" [])
    refuse (ft.host = []) (errorf "forward_targets[%q].host is empty" [.text name])
    refuse (ft.port < 1 ∨ ft.port > 65535)
      (errorf "forward_targets[%q].port out of range: %d" [.text name, .number ft.port])
    validateForwardTargets rest

/-- The endpoint is given by host and port. -/
def Target.inline (t : Target) : Bool := t.host ≠ [] ∨ t.port ≠ 0

/-- The endpoint is the name of a forward target. -/
def Target.forward (t : Target) : Bool := t.forwardTo ≠ []

/-- The checks `Validate` makes on one target, the `j`-th of its database. -/
def validateTarget (cfg : Config) (d : Database) (j : ℕ) (t : Target) (seenTargets : List Bytes) :
    GoM GoError Unit := do
  refuse (t.name = [])
    (errorf "database %q targets[%d].name is empty" [.text d.virtualName, .number j])
  refuse (t.name ∈ seenTargets)
    (errorf "database %q has duplicate target name %q" [.text d.virtualName, .text t.name])
  refuse (t.inline ∧ t.forward)
    (errorf "database %q target %q: host/port and forward_to are mutually exclusive"
      [.text d.virtualName, .text t.name])
  refuse (¬ t.inline ∧ ¬ t.forward)
    (errorf "database %q target %q: either host+port or forward_to is required"
      [.text d.virtualName, .text t.name])
  refuse (t.inline ∧ t.host = [])
    (errorf "database %q target %q: host is required when using inline endpoint"
      [.text d.virtualName, .text t.name])
  refuse (t.inline ∧ (t.port < 1 ∨ t.port > 65535))
    (errorf "database %q target %q: port out of range: %d"
      [.text d.virtualName, .text t.name, .number t.port])
  refuse (¬ t.inline ∧ t.forwardTo ∉ cfg.forwardTargets)
    (errorf "database %q target %q: forward_to %q not defined in forward_targets"
      [.text d.virtualName, .text t.name, .text t.forwardTo])
  refuse (t.user = [])
    (errorf "database %q target %q: user is required" [.text d.virtualName, .text t.name])
  refuse (t.password = [])
    (errorf "database %q target %q: password is required" [.text d.virtualName, .text t.name])
  refuse (t.sslMode ≠ [] ∧ ¬ isSupportedSSLMode t.sslMode)
    (errorf "database %q target %q: unsupported sslmode %q (supported: %v)"
      [.text d.virtualName, .text t.name, .text t.sslMode, .texts supportedSSLModes])
  refuse (t.authSource ≠ [] ∧ ¬ validIdentifier t.authSource)
    (errorf "database %q target %q: auth_source %q is not a valid identifier"
      [.text d.virtualName, .text t.name, .text t.authSource])
  refuse (t.database ≠ [] ∧ (requiredVars t.database).length = 0 ∧ ¬ validIdentifier t.database)
    (errorf "database %q target %q: database %q is not a valid identifier"
      [.text d.virtualName, .text t.name, .text t.database])

/-- The checks `Validate` makes on one database, the `i`-th. -/
def validateDatabase (cfg : Config) (i : ℕ) (d : Database) (seenDatabases : List Bytes) :
    GoM GoError Unit := do
  refuse (d.virtualName = []) (errorf "databases[%d].virtual_name is empty" [.number i])
  refuse (¬ validIdentifier d.virtualName)
    (errorf "virtual_name %q is not a valid identifier" [.text d.virtualName])
  refuse (d.virtualName ∈ seenDatabases)
    (errorf "duplicate virtual_name %q" [.text d.virtualName])
  refuse (d.adapter = [])
    (errorf "database %q: adapter is required (supported: %v)"
      [.text d.virtualName, .texts supportedAdapters])
  refuse (¬ isSupportedAdapter d.adapter)
    (errorf "database %q: unsupported adapter %q (supported: %v)"
      [.text d.virtualName, .text d.adapter, .texts supportedAdapters])
  refuse (d.adapter ∉ cfg.listenPorts)
    (errorf "database %q: adapter %q has no listen_ports entry"
      [.text d.virtualName, .text d.adapter])
  refuse (d.targets.length = 0) (errorf "database %q has no targets" [.text d.virtualName])
  checkEach (validateTarget cfg d) Target.name 0 d.targets []

/-- `Validate`, visiting the two maps in the given orders. -/
def validate (cfg : Config) (portOrder forwardOrder : List Bytes) : GoM GoError Unit := do
  refuse (cfg.listenPorts = ∅) (errorf "listen_ports must define at least one adapter port" [])
  validateListenPorts (cfg.listenPorts.entries portOrder) ∅
  validateForwardTargets (cfg.forwardTargets.entries forwardOrder)
  refuse (cfg.databases.length = 0) (errorf "at least one database must be defined" [])
  checkEach (validateDatabase cfg) Database.virtualName 0 cfg.databases []

/-! ## Well-formed configurations -/

structure TargetOk (cfg : Config) (t : Target) : Prop where
  name_ne : t.name ≠ []
  endpoint : (t.host ≠ [] ∧ 1 ≤ t.port ∧ t.port ≤ 65535 ∧ t.forwardTo = []) ∨
    (t.host = [] ∧ t.port = 0 ∧ t.forwardTo ≠ [] ∧ t.forwardTo ∈ cfg.forwardTargets)
  user_ne : t.user ≠ []
  password_ne : t.password ≠ []
  sslMode : t.sslMode = [] ∨ isSupportedSSLMode t.sslMode
  authSource : t.authSource = [] ∨ validIdentifier t.authSource
  database : t.database = [] ∨ requiredVars t.database ≠ [] ∨ validIdentifier t.database

structure DatabaseOk (cfg : Config) (d : Database) : Prop where
  virtualName : validIdentifier d.virtualName
  adapter : isSupportedAdapter d.adapter
  listens : d.adapter ∈ cfg.listenPorts
  targets_ne : d.targets ≠ []
  nodup : (d.targets.map Target.name).Nodup
  targets : ∀ t ∈ d.targets, TargetOk cfg t

structure ConfigOk (cfg : Config) : Prop where
  listenPorts_ne : cfg.listenPorts ≠ ∅
  listenPorts : ∀ adapter port, cfg.listenPorts.get adapter = some port →
    isSupportedAdapter adapter ∧ 1 ≤ port ∧ port ≤ 65535
  ports_injective : ∀ adapter other port, cfg.listenPorts.get adapter = some port →
    cfg.listenPorts.get other = some port → adapter = other
  forwardTargets : ∀ name ft, cfg.forwardTargets.get name = some ft →
    name ≠ [] ∧ ft.host ≠ [] ∧ 1 ≤ ft.port ∧ ft.port ≤ 65535
  databases_ne : cfg.databases ≠ []
  nodup : (cfg.databases.map Database.virtualName).Nodup
  databases : ∀ d ∈ cfg.databases, DatabaseOk cfg d

/-! ## Validation accepts the well-formed configurations -/

/-- The five checks on host, port and `forward_to` leave exactly the two forms of an endpoint. -/
theorem endpoint_iff {t : Target} {declared : Prop} :
    (¬ (t.inline ∧ t.forward) ∧ ¬ (¬ t.inline ∧ ¬ t.forward) ∧ ¬ (t.inline ∧ t.host = []) ∧
      ¬ (t.inline ∧ (t.port < 1 ∨ t.port > 65535)) ∧ ¬ (¬ t.inline ∧ ¬ declared)) ↔
      (t.host ≠ [] ∧ 1 ≤ t.port ∧ t.port ≤ 65535 ∧ t.forwardTo = []) ∨
        (t.host = [] ∧ t.port = 0 ∧ t.forwardTo ≠ [] ∧ declared) := by
  simp only [Target.inline, Target.forward, decide_eq_true_eq]
  by_cases hhost : t.host = []
  · by_cases hport : t.port = 0
    · simp only [hhost, hport, ne_eq, not_true_eq_false, or_self, false_and, not_false_eq_true,
        true_and, and_true]
      tauto
    · simp [hhost, hport]
  · simp only [hhost, ne_eq, not_false_eq_true, true_or, true_and, not_true_eq_false, false_and,
      or_false, not_or, not_lt]
    tauto

/-- The loop succeeds when every item passes its check and no name comes twice. -/
theorem checkEach_eq_ok {τ : Type} {check : ℕ → τ → List Bytes → GoM GoError Unit}
    {name : τ → Bytes} {Ok : τ → Prop}
    (hcheck : ∀ i item seen, check i item seen = .ok () ↔ Ok item ∧ name item ∉ seen) (i : ℕ)
    (items : List τ) (seen : List Bytes) :
    checkEach check name i items seen = .ok () ↔
      (∀ item ∈ items, Ok item ∧ name item ∉ seen) ∧ (items.map name).Nodup := by
  induction items generalizing i seen with
  | nil => simp [checkEach, pure, Except.pure]
  | cons item rest ih =>
    rw [checkEach, bind_unit_eq_ok, hcheck, ih, List.forall_mem_cons, List.map_cons,
      List.nodup_cons]
    constructor
    · intro h
      rcases h with ⟨hfirst, hrest, hnodup⟩
      refine ⟨⟨hfirst, fun other hother ↦ ?_⟩, ?_, hnodup⟩
      · exact ⟨(hrest other hother).1, List.not_mem_of_not_mem_cons (hrest other hother).2⟩
      · intro hdup
        rcases List.mem_map.mp hdup with ⟨other, hother, hname⟩
        exact (hrest other hother).2 (hname ▸ List.mem_cons_self)
    · intro h
      rcases h with ⟨⟨hfirst, hrest⟩, hnew, hnodup⟩
      refine ⟨hfirst, fun other hother ↦ ⟨(hrest other hother).1, ?_⟩, hnodup⟩
      refine List.not_mem_cons_of_ne_of_not_mem ?_ (hrest other hother).2
      exact fun hname ↦ hnew (hname ▸ List.mem_map_of_mem hother)

theorem validateTarget_eq_ok {cfg : Config} {d : Database} (j : ℕ) (t : Target)
    (seenTargets : List Bytes) :
    validateTarget cfg d j t seenTargets = .ok () ↔ TargetOk cfg t ∧ t.name ∉ seenTargets := by
  simp only [validateTarget, refuse_bind_eq_ok, refuse_eq_ok, List.length_eq_zero_iff]
  constructor
  · intro h
    rcases h with ⟨hname, hseen, hboth, hneither, hhost, hport, hforward, huser, hpassword, hssl,
      hauth, hdatabase⟩
    refine ⟨⟨hname, endpoint_iff.mp ⟨hboth, hneither, hhost, hport, hforward⟩, huser, hpassword,
      or_iff_not_and_not.mpr hssl, or_iff_not_and_not.mpr hauth, ?_⟩, hseen⟩
    by_contra hnot
    push Not at hnot
    exact hdatabase ⟨hnot.1, hnot.2.1, by simp [hnot.2.2]⟩
  · intro h
    rcases h with ⟨⟨hname, hendpoint, huser, hpassword, hssl, hauth, hdatabase⟩, hseen⟩
    rcases endpoint_iff.mpr hendpoint with ⟨hboth, hneither, hhost, hport, hforward⟩
    refine ⟨hname, hseen, hboth, hneither, hhost, hport, hforward, huser, hpassword,
      or_iff_not_and_not.mp hssl, or_iff_not_and_not.mp hauth, ?_⟩
    intro hbad
    rcases hdatabase with hnil | hvars | hident
    · exact hbad.1 hnil
    · exact hvars hbad.2.1
    · exact hbad.2.2 hident

theorem validateDatabase_eq_ok {cfg : Config} (i : ℕ) (d : Database) (seenDatabases : List Bytes) :
    validateDatabase cfg i d seenDatabases = .ok () ↔
      DatabaseOk cfg d ∧ d.virtualName ∉ seenDatabases := by
  simp only [validateDatabase, refuse_bind_eq_ok, not_not, List.length_eq_zero_iff,
    checkEach_eq_ok validateTarget_eq_ok, List.not_mem_nil, not_false_eq_true, and_true]
  constructor
  · intro h
    rcases h with ⟨-, hname, hseen, -, hadapter, hlistens, hne, htargets, hnodup⟩
    exact ⟨⟨hname, hadapter, hlistens, hne, hnodup, htargets⟩, hseen⟩
  · intro h
    rcases h with ⟨⟨hname, hadapter, hlistens, hne, hnodup, htargets⟩, hseen⟩
    refine ⟨?_, hname, hseen, ?_, hadapter, hlistens, hne, htargets, hnodup⟩
    · intro hnil
      rw [hnil] at hname
      exact absurd hname (by decide)
    · intro hnil
      rw [hnil] at hadapter
      exact absurd hadapter (by decide)

/-- The loop over the ports succeeds when the adapters are supported and the ports are in range,
new and pairwise different. -/
theorem validateListenPorts_eq_ok (entries : List (Bytes × ℤ)) (seenPorts : GoMap ℤ Bytes) :
    validateListenPorts entries seenPorts = .ok () ↔
      (∀ entry ∈ entries, (isSupportedAdapter entry.1 ∧ 1 ≤ entry.2 ∧ entry.2 ≤ 65535) ∧
        entry.2 ∉ seenPorts) ∧ (entries.map Prod.snd).Nodup := by
  induction entries generalizing seenPorts with
  | nil => simp [validateListenPorts, pure, Except.pure]
  | cons entry rest ih =>
    rcases entry with ⟨adapter, port⟩
    simp only [validateListenPorts, refuse_bind_eq_ok, not_not, not_or, not_lt]
    rw [List.forall_mem_cons, List.map_cons, List.nodup_cons]
    cases hport : seenPorts.get port with
    | some other =>
      have hmem := GoMap.mem_of_get hport
      simp [hmem]
    | none =>
      have hnew := GoMap.get_eq_none.mp hport
      simp only [ih, Finmap.mem_insert, not_or, hnew, not_false_eq_true, and_true, List.mem_map]
      constructor
      · intro h
        rcases h with ⟨hadapter, hrange, hrest, hnodup⟩
        refine ⟨⟨⟨hadapter, hrange⟩, fun other hother ↦ ?_⟩, ?_, hnodup⟩
        · exact ⟨(hrest other hother).1, (hrest other hother).2.2⟩
        · intro hdup
          rcases hdup with ⟨other, hother, hsame⟩
          exact (hrest other hother).2.1 hsame
      · intro h
        rcases h with ⟨⟨⟨hadapter, hrange⟩, hrest⟩, hfresh, hnodup⟩
        refine ⟨hadapter, hrange, fun other hother ↦ ⟨(hrest other hother).1, ?_,
          (hrest other hother).2⟩, hnodup⟩
        exact fun hsame ↦ hfresh ⟨other, hother, hsame⟩

theorem validateForwardTargets_eq_ok (entries : List (Bytes × ForwardTarget)) :
    validateForwardTargets entries = .ok () ↔
      ∀ entry ∈ entries, entry.1 ≠ [] ∧ entry.2.host ≠ [] ∧ 1 ≤ entry.2.port ∧
        entry.2.port ≤ 65535 := by
  induction entries with
  | nil => simp [validateForwardTargets, pure, Except.pure]
  | cons entry rest ih =>
    rcases entry with ⟨name, ft⟩
    simp only [validateForwardTargets, refuse_bind_eq_ok, not_or, not_lt, ih,
      List.forall_mem_cons, ne_eq, and_assoc, gt_iff_lt]

/-- Two entries with the same port are the same entry when the ports are pairwise different. -/
theorem key_eq_of_nodup_values {entries : List (Bytes × ℤ)} (hnodup : (entries.map Prod.snd).Nodup)
    {adapter other : Bytes} {port : ℤ} (hadapter : (adapter, port) ∈ entries)
    (hother : (other, port) ∈ entries) : adapter = other :=
  congrArg Prod.fst (List.inj_on_of_nodup_map hnodup hadapter hother rfl)

theorem nodup_values {ports : GoMap Bytes ℤ} {order : List Bytes} (horder : Enumerates order ports)
    (hinjective : ∀ adapter other port, ports.get adapter = some port →
      ports.get other = some port → adapter = other) :
    ((ports.entries order).map Prod.snd).Nodup := by
  refine List.Nodup.map_on ?_ (List.Nodup.of_map _ (GoMap.nodup_keys_entries horder))
  intro entry hentry other hother hsame
  rcases entry with ⟨adapter, port⟩
  rcases other with ⟨adapter', port'⟩
  simp only at hsame
  subst hsame
  rw [hinjective adapter adapter' port ((GoMap.mem_entries horder).mp hentry)
    ((GoMap.mem_entries horder).mp hother)]

/-- Whatever orders the maps are visited in, validation succeeds exactly on the well-formed
configurations. -/
theorem validate_eq_ok {cfg : Config} {portOrder forwardOrder : List Bytes}
    (hports : Enumerates portOrder cfg.listenPorts)
    (hforward : Enumerates forwardOrder cfg.forwardTargets) :
    validate cfg portOrder forwardOrder = .ok () ↔ ConfigOk cfg := by
  simp only [validate, refuse_eq_ok, bind_unit_eq_ok, validateListenPorts_eq_ok,
    validateForwardTargets_eq_ok, checkEach_eq_ok validateDatabase_eq_ok, List.length_eq_zero_iff,
    List.not_mem_nil, not_false_eq_true, and_true, Finmap.notMem_empty]
  constructor
  · intro h
    rcases h with ⟨hne, ⟨hlisten, hnodup⟩, hfwd, hdatabases, hok, hnames⟩
    refine ⟨hne, fun adapter port hget ↦ ?_, fun adapter other port hget hother ↦ ?_,
      fun name ft hget ↦ ?_, hdatabases, hnames, hok⟩
    · exact hlisten _ ((GoMap.mem_entries hports).mpr hget)
    · exact key_eq_of_nodup_values hnodup ((GoMap.mem_entries hports).mpr hget)
        ((GoMap.mem_entries hports).mpr hother)
    · exact hfwd _ ((GoMap.mem_entries hforward).mpr hget)
  · intro hcfg
    refine ⟨hcfg.listenPorts_ne, ⟨fun entry hentry ↦ ?_, nodup_values hports hcfg.ports_injective⟩,
      fun entry hentry ↦ ?_, hcfg.databases_ne, hcfg.databases, hcfg.nodup⟩
    · exact hcfg.listenPorts _ _ ((GoMap.mem_entries hports).mp hentry)
    · exact hcfg.forwardTargets _ _ ((GoMap.mem_entries hforward).mp hentry)

end DbPivot.Config
