import DbPivot.Control.Server

/-!
# What the clients of a daemon see

The requests of a daemon and its answers, in order, are its history, together with the connections
that come and go in between. The board is what an operator would write down from that history: the
target and the variables of the last `use` that was answered with success, and how many connections
each database has had since. It knows nothing of the databases of the server.

The daemon handles every request in a goroutine of its own. The histories here are those of serial
runs, in which requests do not overlap and no connection comes or goes while one is handled. Along
every serial run the daemon shows what is on the board: a `status` reports it, and a `use` reports
the change from one board to the next.
-/

namespace DbPivot.Control

open DbPivot.Go DbPivot.Config
open DbPivot.Mongo (Env)
open DbPivot.Proxy (ResolvedTarget ConnId Conn Switchable goal planOf resultOf switchResult
  openDatabases switchAll probeActive)

/-! ## Histories -/

/-- What happens to a daemon, as far as it can be seen from outside. -/
inductive Event where
  | answered (req : Request) (resp : Response)
  | unreadable
  | registered (name : Bytes)
  | closed (name : Bytes)
  | shutdown

/-- One event in the life of a daemon that does one thing after another: a request is answered
before the next one is read, and before a connection comes or goes. A connection that is closed
again, or after a switch has closed it, is no event. -/
inductive SerialStep (env : Env) : Daemon → Event → Daemon → Prop where
  | answered {d d' : Daemon} {choices : Choices} {req : Request} {resp : Response}
      (hchoices : choices.Valid d) (hserve : serve env choices d req = (d', some resp)) :
      SerialStep env d (.answered req resp) d'
  | unreadable {d : Daemon} : SerialStep env d .unreadable d
  | registered {d : Daemon} {name : Bytes} {db : Proxy.Database} {c : ConnId} (conn : Conn)
      (hget : d.server.databases.get name = some db) (hfresh : c ∉ db.conns) :
      SerialStep env d (.registered name)
        { d with server := { d.server with
          databases := d.server.databases.insert name (db.register c conn) } }
  | closed {d : Daemon} {name : Bytes} {db : Proxy.Database} {c : ConnId}
      (hget : d.server.databases.get name = some db) (hmem : c ∈ db.conns) :
      SerialStep env d (.closed name)
        { d with server := { d.server with
          databases := d.server.databases.insert name (db.close c) } }
  | shutdown {d : Daemon} : SerialStep env d .shutdown { d with closed := true }

/-- A run in which no two requests overlap, with its history, the latest event last. -/
inductive SerialRun (env : Env) (start : Daemon) : List Event → Daemon → Prop where
  | refl : SerialRun env start [] start
  | step {history : List Event} {d d' : Daemon} {event : Event}
      (hrun : SerialRun env start history d) (hstep : SerialStep env d event d') :
      SerialRun env start (history ++ [event]) d'

/-! ## The board -/

/-- The last successful `use`, the connections since then, and whether the daemon is closing. -/
structure Board where
  target : Bytes
  vars : GoMap Bytes Bytes
  conns : Bytes → ℕ
  closing : Bool

namespace Board

/-- What an event changes. -/
def note (b : Board) : Event → Board
  | .answered req resp =>
    if req.cmd = cmdUse ∧ resp.ok then
      { b with target := req.target, vars := req.vars, conns := fun _ ↦ 0 }
    else b
  | .unreadable => b
  | .registered name => { b with conns := Function.update b.conns name (b.conns name + 1) }
  | .closed name => { b with conns := Function.update b.conns name (b.conns name - 1) }
  | .shutdown => { b with closing := true }

/-- The board after a history. -/
def after (b : Board) (history : List Event) : Board := history.foldl note b

/-- The target a database of the configuration should be on. -/
def current (b : Board) (d : Proxy.Database) : Option ResolvedTarget := goal b.target b.vars d

/-- The line of a database on the board. -/
def entry (b : Board) (name : Bytes) (d : Proxy.Database) : DatabaseStatus where
  virtualName := name
  adapter := d.adapter
  current := ((b.current d).map ResolvedTarget.name).getD []
  currentDatabase := ((b.current d).map ResolvedTarget.database).getD []
  currentHost := ((b.current d).map ResolvedTarget.host).getD []
  currentPort := ((b.current d).map fun rt ↦ Int64.ofInt rt.port).getD 0
  activeConns := Int64.ofNat (b.conns name)
  inactive := (b.current d).isNone

/-- The change of a database from one board to the next. -/
def change (b b' : Board) (name : Bytes) (d : Proxy.Database) : SwitchResult where
  virtualName := name
  previous := (b.entry name d).current
  previousDatabase := (b.entry name d).currentDatabase
  current := (b'.entry name d).current
  currentDatabase := (b'.entry name d).currentDatabase
  closedConns := (b.entry name d).activeConns
  skipped := (b'.entry name d).inactive

end Board

/-- One item for each database of the configuration, in some order. -/
def ForEach {α : Type} (cfg : Config) (items : List α) (name : α → Bytes)
    (item : Bytes → Proxy.Database → α) : Prop :=
  (items.map name).Nodup ∧
    ∀ a, a ∈ items ↔ ∃ key d, (openDatabases cfg).get key = some d ∧ a = item key d

/-- A daemon that shows what is on the board: its databases are those of the configuration, each on
its target and with as many connections as were noted. -/
structure Shows (cfg : Config) (b : Board) (d : Daemon) : Prop where
  sameCfg : d.cfg = cfg
  closed : d.closed = b.closing
  target : d.server.currentTarget = b.target
  databases : ∃ conns : Bytes → GoMap ConnId Conn, (∀ name, (conns name).keys.card = b.conns name) ∧
    ∀ name, d.server.databases.get name = ((openDatabases cfg).get name).map fun db ↦
      { db with current := b.current db, conns := conns name }

variable {cfg : Config} {b : Board} {env : Env} {choices : Choices} {d d' : Daemon} {req : Request}
  {resp : Response}

/-! ## The board and the databases -/

/-- Whether a `use` is possible does not depend on what happened before. -/
theorem Shows.switchable_iff (h : Shows cfg b d) (target : Bytes) (vars : GoMap Bytes Bytes) :
    Switchable d.server.databases target vars ↔ Switchable (openDatabases cfg) target vars := by
  obtain ⟨conns, -, hget⟩ := h.databases
  refine Proxy.switchable_congr fun name ↦ ?_
  rw [hget, Option.map_map]
  rfl

/-- A `use` that the daemon accepts, as far as the board goes. -/
structure Board.Accepts (cfg : Config) (b : Board) (req : Request) : Prop where
  isOpen : b.closing = false
  cmd : req.cmd = cmdUse
  target_ne : req.target ≠ []
  switchable : Switchable (openDatabases cfg) req.target req.vars

theorem Shows.accepts_iff (h : Shows cfg b d) : Accepts d req ↔ b.Accepts cfg req := by
  constructor
  · intro ha
    exact ⟨h.closed ▸ ha.isOpen, ha.cmd, ha.target_ne, (h.switchable_iff _ _).mp ha.switchable⟩
  · intro ha
    exact ⟨h.closed.trans ha.isOpen, ha.cmd, ha.target_ne, (h.switchable_iff _ _).mpr ha.switchable⟩

theorem databaseStatus_eq (b : Board) (name : Bytes) (db : Proxy.Database)
    {conns : GoMap ConnId Conn} (hconns : conns.keys.card = b.conns name) :
    databaseStatus name { db with current := b.current db, conns } = b.entry name db := by
  unfold databaseStatus Board.entry
  cases b.current db with
  | none => simp [hconns]
  | some rt => simp [hconns]

/-- The entries of a loop over the databases. -/
theorem Shows.mem_entries (h : Shows cfg b d) {order : List Bytes}
    (horder : Enumerates order d.server.databases) {α : Type} (item : Bytes → Proxy.Database → α)
    {item' : Bytes → Proxy.Database → α}
    (hitem : ∀ name db conns, conns.keys.card = b.conns name →
      item name { db with current := b.current db, conns } = item' name db) (a : α) :
    a ∈ (d.server.databases.entries order).map (fun entry ↦ item entry.1 entry.2) ↔
      ∃ name db, (openDatabases cfg).get name = some db ∧ a = item' name db := by
  obtain ⟨conns, hcard, hget⟩ := h.databases
  rw [List.mem_map]
  constructor
  · rintro ⟨⟨name, db⟩, hentry, rfl⟩
    rw [GoMap.mem_entries horder, hget, Option.map_eq_some_iff] at hentry
    obtain ⟨db₀, hdb₀, rfl⟩ := hentry
    exact ⟨name, db₀, hdb₀, hitem name db₀ _ (hcard name)⟩
  · rintro ⟨name, db, hdb, rfl⟩
    refine ⟨(name, { db with current := b.current db, conns := conns name }), ?_,
      hitem name db _ (hcard name)⟩
    rw [GoMap.mem_entries horder, hget, hdb]
    rfl

/-- A `status` reports the board. -/
theorem Shows.status (h : Shows cfg b d) (hchoices : choices.Valid d) :
    (handleStatus choices d).ports = listenPorts cfg ∧
      (handleStatus choices d).currentTarget = b.target ∧
      ForEach cfg (handleStatus choices d).databases DatabaseStatus.virtualName b.entry := by
  refine ⟨congrArg listenPorts h.sameCfg, h.target, ?_, ?_⟩
  · have hnames : (handleStatus choices d).databases.map DatabaseStatus.virtualName =
        (d.server.databases.entries choices.status).map Prod.fst := by
      rw [handleStatus, List.map_map]
      exact List.map_congr_left fun entry _ ↦ virtualName_databaseStatus _ _
    rw [hnames]
    exact GoMap.nodup_keys_entries hchoices.status
  · exact h.mem_entries hchoices.status databaseStatus fun name db conns hconns ↦
      databaseStatus_eq b name db hconns

/-! ## A switch -/

/-- The board after a successful `use`. -/
def Board.use (b : Board) (req : Request) : Board :=
  { b with target := req.target, vars := req.vars, conns := fun _ ↦ 0 }

theorem Board.note_of_ok (b : Board) (hcmd : req.cmd = cmdUse) (hok : resp.ok) :
    b.note (.answered req resp) = b.use req := if_pos ⟨hcmd, hok⟩

theorem Board.note_of_not_ok (b : Board) (hok : resp.ok → req.cmd = cmdStatus) :
    b.note (.answered req resp) = b := by
  refine if_neg fun h ↦ ?_
  have hcmd := hok h.2
  rw [h.1] at hcmd
  exact absurd hcmd (by decide)

theorem wireSwitch_resultOf (b : Board) (req : Request) (name : Bytes) (db : Proxy.Database)
    {conns : GoMap ConnId Conn} (hconns : conns.keys.card = b.conns name) :
    wireSwitch (resultOf req.target req.vars name { db with current := b.current db, conns }) =
      b.change (b.use req) name db := by
  have hgoal : goal req.target req.vars { db with current := b.current db, conns } =
      (b.use req).current db := rfl
  unfold resultOf planOf
  rw [hgoal]
  unfold Board.change Board.entry wireSwitch switchResult
  cases (b.use req).current db with
  | none => simp [hconns]
  | some rt => simp [hconns]

/-- A successful switch moves the daemon to the next board. -/
theorem Shows.switch (h : Shows cfg b d) {orders : Proxy.Orders}
    (horders : orders.Valid d.server.databases) {results : List Proxy.SwitchResult}
    {server : Proxy.Server}
    (hcall : switchAll d.server req.target req.vars orders = (.ok results, server)) :
    Shows cfg (b.use req) { d with server } := by
  obtain ⟨conns, -, hget⟩ := h.databases
  obtain ⟨databases, hcall', hdatabases⟩ :=
    Proxy.switchAll_of_switchable horders (Proxy.switchable_of_ok horders hcall)
  rw [hcall] at hcall'
  obtain rfl := (Prod.mk.inj hcall').2
  refine ⟨h.sameCfg, h.closed, rfl, fun _ ↦ ∅, fun _ ↦ rfl, fun name ↦ ?_⟩
  rw [hdatabases, hget, Option.map_map]
  rfl

/-- The probes after a switch: one for each database on a target, with what it returned. -/
def Probed (env : Env) (outcome : Proxy.ProbeJob → Except GoError Unit) (cfg : Config) (b : Board)
    (probes : List ProbeResult) : Prop :=
  (probes.map ProbeResult.virtualName).Nodup ∧
    ∀ p, p ∈ probes ↔ ∃ name db rt, (openDatabases cfg).get name = some db ∧
      b.current db = some rt ∧
      p = wireProbe (Proxy.probeResult env ⟨name, db.adapter, rt⟩ (outcome ⟨name, db.adapter, rt⟩))

theorem sublist_probeJobs (s : Proxy.Server) (order : List Bytes) :
    ((Proxy.probeJobs s order).map Proxy.ProbeJob.name).Sublist
      ((s.databases.entries order).map Prod.fst) := by
  unfold Proxy.probeJobs
  induction s.databases.entries order with
  | nil => exact List.Sublist.slnil
  | cons entry rest ih =>
    rw [List.filterMap_cons]
    cases entry.2.current with
    | none => exact ih.trans (List.sublist_cons_self _ _)
    | some rt => exact ih.cons_cons _

theorem Shows.probed (h : Shows cfg b d) {order : List Bytes}
    (horder : Enumerates order d.server.databases)
    (outcome : Proxy.ProbeJob → Except GoError Unit) :
    Probed env outcome cfg b ((probeActive env d.server order outcome).map wireProbe) := by
  obtain ⟨conns, -, hget⟩ := h.databases
  constructor
  · rw [probeActive, List.map_map, List.map_map]
    exact (sublist_probeJobs d.server order).nodup (GoMap.nodup_keys_entries horder)
  · intro p
    rw [probeActive, List.map_map, List.mem_map]
    constructor
    · rintro ⟨job, hjob, rfl⟩
      obtain ⟨⟨name, db⟩, hentry, hcurrent⟩ := List.mem_filterMap.mp hjob
      rw [GoMap.mem_entries horder, hget, Option.map_eq_some_iff] at hentry
      obtain ⟨db₀, hdb₀, rfl⟩ := hentry
      obtain ⟨rt, hrt, rfl⟩ := Option.map_eq_some_iff.mp hcurrent
      exact ⟨name, db₀, rt, hdb₀, hrt, rfl⟩
    · rintro ⟨name, db, rt, hdb, hcurrent, rfl⟩
      refine ⟨⟨name, db.adapter, rt⟩, List.mem_filterMap.mpr
        ⟨(name, { db with current := b.current db, conns := conns name }), ?_, ?_⟩, rfl⟩
      · rw [GoMap.mem_entries horder, hget, hdb]
        rfl
      · rw [hcurrent]
        rfl

/-- An accepted `use`: the daemon moves to the next board and reports the change. -/
theorem Shows.use (h : Shows cfg b d) (env : Env) (hchoices : choices.Valid d)
    (haccepts : Accepts d req) :
    ∃ d' resp, serve env choices d req = (d', some resp) ∧ resp.ok ∧ resp.target = req.target ∧
      Shows cfg (b.use req) d' ∧
      ForEach cfg resp.switched SwitchResult.virtualName (b.change (b.use req)) ∧
      Probed env choices.outcome cfg (b.use req) resp.probes := by
  obtain ⟨results, server, hcall, hserve⟩ := serve_of_accepts env hchoices haccepts
  have hshows := h.switch hchoices.orders hcall
  refine ⟨_, _, hserve, rfl, rfl, hshows, ⟨?_, ?_⟩, ?_⟩
  · rw [List.map_map]
    exact Proxy.names_results_of_ok hchoices.orders hcall
  · obtain ⟨databases, hcall', -⟩ :=
      Proxy.switchAll_of_switchable hchoices.orders haccepts.switchable
    rw [hcall] at hcall'
    obtain rfl := Except.ok.inj (Prod.mk.inj hcall').1
    rw [List.map_map]
    exact h.mem_entries hchoices.orders.commit
      (fun name db ↦ wireSwitch (resultOf req.target req.vars name db))
      fun name db conns hconns ↦ wireSwitch_resultOf b req name db hconns
  · refine hshows.probed ⟨hchoices.probes.nodup, fun name ↦ ?_⟩ choices.outcome
    rw [hchoices.probes.mem_iff]
    exact (Proxy.mem_databases_of_ok hchoices.orders hcall name).symm

/-! ## Whole runs -/

/-- The board of a daemon that has just started. -/
def Board.start (target : Bytes) (vars : GoMap Bytes Bytes) : Board where
  target := target
  vars := vars
  conns := fun _ ↦ 0
  closing := false

/-- `New` ends with a switch of the databases of the configuration. -/
theorem switchAll_of_new {target : Bytes} {vars : GoMap Bytes Bytes} {orders : Proxy.Orders}
    {s : Proxy.Server} (hnew : Proxy.new cfg target vars orders = .ok s) :
    ∃ s₀ results, s₀.databases = openDatabases cfg ∧
      switchAll s₀ target vars orders = (.ok results, s) := by
  obtain ⟨listenAddrs, -, hrest⟩ := bind_eq_ok.mp hnew
  simp only at hrest
  split at hrest
  next => exact absurd hrest (by simp)
  next results s' hcall =>
    obtain rfl := Except.ok.inj hrest
    exact ⟨_, results, rfl, hcall⟩

theorem shows_new {target : Bytes} {vars : GoMap Bytes Bytes} {orders : Proxy.Orders}
    {s : Proxy.Server} (horders : orders.Valid (openDatabases cfg))
    (hnew : Proxy.new cfg target vars orders = .ok s) :
    Shows cfg (.start target vars) ⟨s, false, cfg⟩ := by
  obtain ⟨s₀, results, hs₀, hcall⟩ := switchAll_of_new hnew
  rw [← hs₀] at horders
  obtain ⟨databases, hcall', hdatabases⟩ :=
    Proxy.switchAll_of_switchable horders (Proxy.switchable_of_ok horders hcall)
  rw [hcall] at hcall'
  obtain rfl := (Prod.mk.inj hcall').2
  exact ⟨rfl, rfl, rfl, fun _ ↦ ∅, fun _ ↦ rfl, fun name ↦ hs₀ ▸ hdatabases name⟩

/-- The connections of one database change. -/
theorem Shows.insert (h : Shows cfg b d) {name : Bytes} {db : Proxy.Database}
    (hget : d.server.databases.get name = some db) (conns : GoMap ConnId Conn) {count : ℕ}
    (hcount : conns.keys.card = count) :
    Shows cfg { b with conns := Function.update b.conns name count }
      { d with server := { d.server with
        databases := d.server.databases.insert name { db with conns } } } := by
  obtain ⟨conns₀, hcard, hget₀⟩ := h.databases
  refine ⟨h.sameCfg, h.closed, h.target, Function.update conns₀ name conns, ?_, ?_⟩
  · intro other
    dsimp only
    by_cases hother : other = name
    · subst hother
      rw [Function.update_self, Function.update_self, hcount]
    · rw [Function.update_of_ne hother, Function.update_of_ne hother, hcard]
  · intro other
    by_cases hother : other = name
    · subst hother
      rw [hget₀, Option.map_eq_some_iff] at hget
      obtain ⟨db₀, hdb₀, rfl⟩ := hget
      rw [GoMap.get_insert, Function.update_self, hdb₀]
      rfl
    · rw [GoMap.get_insert_of_ne _ _ hother, Function.update_of_ne hother]
      exact hget₀ other

theorem Shows.card (h : Shows cfg b d) {name : Bytes} {db : Proxy.Database}
    (hget : d.server.databases.get name = some db) : db.conns.keys.card = b.conns name := by
  obtain ⟨conns, hcard, hget'⟩ := h.databases
  rw [hget', Option.map_eq_some_iff] at hget
  obtain ⟨db₀, -, rfl⟩ := hget
  exact hcard name

theorem shows_step (h : Shows cfg b d) {event : Event} (hstep : SerialStep env d event d') :
    Shows cfg (b.note event) d' := by
  cases hstep with
  | @answered _ choices req resp hchoices hserve =>
    by_cases haccepts : Accepts d req
    · obtain ⟨d₁, resp₁, hserve₁, hok, -, hshows, -⟩ := h.use env hchoices haccepts
      rw [hserve] at hserve₁
      obtain ⟨rfl, hresp⟩ := Prod.mk.inj hserve₁
      obtain rfl := Option.some.inj hresp
      rw [b.note_of_ok haccepts.cmd hok]
      exact hshows
    · obtain ⟨resp₁, hserve₁, hok⟩ := serve_of_not_accepts env hchoices haccepts
      rw [hserve] at hserve₁
      obtain ⟨rfl, hresp⟩ := Prod.mk.inj hserve₁
      obtain rfl := Option.some.inj hresp
      rw [b.note_of_not_ok fun hok' ↦ (hok hok').2.1]
      exact h
  | unreadable => exact h
  | @registered name db c conn hget hfresh =>
    refine h.insert hget (db.conns.insert c conn) ?_
    rw [← h.card hget]
    exact GoMap.card_keys_insert hfresh conn
  | @closed name db c hget hmem =>
    refine h.insert hget (db.conns.erase c) ?_
    rw [← h.card hget]
    exact GoMap.card_keys_erase hmem
  | shutdown => exact ⟨h.sameCfg, rfl, h.target, h.databases⟩

theorem shows_run {start : Daemon} (h : Shows cfg b start) {history : List Event}
    (hrun : SerialRun env start history d) : Shows cfg (b.after history) d := by
  induction hrun with
  | refl => exact h
  | step _ hstep ih =>
    rw [Board.after, List.foldl_append]
    exact shows_step ih hstep

theorem Board.closing_after (b : Board) (history : List Event) :
    (b.after history).closing = true ↔ b.closing = true ∨ Event.shutdown ∈ history := by
  induction history generalizing b with
  | nil => simp [Board.after]
  | cons event rest ih =>
    rw [Board.after, List.foldl_cons, ← Board.after, ih, List.mem_cons]
    cases event with
    | answered req resp =>
      rw [Board.note]
      split <;> simp
    | unreadable => simp [Board.note]
    | registered name => simp [Board.note]
    | closed name => simp [Board.note]
    | shutdown => simp [Board.note]

theorem Shows.mem_iff (h : Shows cfg b d) {name : Bytes} :
    name ∈ d.server.databases ↔ name ∈ openDatabases cfg := by
  obtain ⟨conns, -, hget⟩ := h.databases
  simp only [GoMap.mem_iff_get, hget, Option.map_eq_some_iff]
  constructor
  · rintro ⟨db, db₀, hdb₀, -⟩
    exact ⟨db₀, hdb₀⟩
  · rintro ⟨db₀, hdb₀⟩
    exact ⟨_, db₀, hdb₀, rfl⟩

theorem pairChoices_valid {target : Bytes} {vars : GoMap Bytes Bytes}
    (h : Shows Proxy.pairConfig (.start target vars) d) : pairChoices.Valid d := by
  have horder {order : List Bytes} (horder : Enumerates order (openDatabases Proxy.pairConfig)) :
      Enumerates order d.server.databases :=
    ⟨horder.nodup, fun name ↦ (horder.mem_iff name).trans h.mem_iff.symm⟩
  have hplan := horder Proxy.pairOrders_valid.plan
  have hcommit := horder Proxy.pairOrders_valid.commit
  refine ⟨⟨hplan, hcommit, fun name db hget ↦ ⟨List.nodup_nil, fun c ↦ ?_⟩⟩, hplan, hcommit⟩
  refine iff_of_false List.not_mem_nil fun hc ↦ ?_
  have hempty := Finset.card_eq_zero.mp (h.card hget)
  exact Finset.notMem_empty c (hempty ▸ Finmap.mem_keys.mpr hc)

/-- A client may connect to any database. -/
theorem Shows.exists_registered (h : Shows cfg b d) (env : Env) {name : Bytes}
    (hname : name ∈ openDatabases cfg) : ∃ d', SerialStep env d (.registered name) d' := by
  obtain ⟨db, hget⟩ := GoMap.mem_iff_get.mp (h.mem_iff.mpr hname)
  obtain ⟨c, hfresh⟩ := Infinite.exists_notMem_finset db.conns.keys
  exact ⟨_, .registered ⟨db.snapshot (Proxy.singleTarget []) []⟩ hget
    (mt Finmap.mem_keys.mpr hfresh)⟩

def useStaging : Request := { cmd := cmdUse, target := str "staging" }

/-- A client connects to `app` before and after a switch to `staging`. -/
theorem serialRun_staging (env : Env) :
    ∃ (s : Proxy.Server) (resp : Response) (d : Daemon),
      Proxy.new Proxy.pairConfig (str "local") ∅ Proxy.pairOrders = .ok s ∧ resp.ok ∧
      SerialRun env ⟨s, false, Proxy.pairConfig⟩
        [.registered (str "app"), .answered useStaging resp, .registered (str "app")] d := by
  have hnew : ∃ s, Proxy.new Proxy.pairConfig (str "local") ∅ Proxy.pairOrders = .ok s := ⟨_, rfl⟩
  obtain ⟨s, hnew⟩ := hnew
  have happ : str "app" ∈ openDatabases Proxy.pairConfig := by decide
  have hshows := shows_new Proxy.pairOrders_valid hnew
  obtain ⟨d₁, hregistered⟩ := hshows.exists_registered env happ
  have hshows₁ := shows_step hshows hregistered
  obtain ⟨choices, hchoices⟩ := exists_choices d₁
  have haccepts : Accepts d₁ useStaging :=
    hshows₁.accepts_iff.mpr ⟨rfl, rfl, by decide, Proxy.switchable_staging⟩
  obtain ⟨d₂, resp, hserve, hok, -, hshows₂, -⟩ := hshows₁.use env hchoices haccepts
  obtain ⟨d₃, hagain⟩ := hshows₂.exists_registered env happ
  exact ⟨s, resp, d₃, hnew, hok,
    ((SerialRun.refl.step hregistered).step (.answered hchoices hserve)).step hagain⟩

theorem Board.after_staging {resp : Response} (hok : resp.ok) :
    (Board.start (str "local") ∅).after
        [.registered (str "app"), .answered useStaging resp, .registered (str "app")] =
      { target := str "staging", vars := ∅, conns := Function.update (fun _ ↦ 0) (str "app") 1,
        closing := false } :=
  congrArg (Board.note · (.registered (str "app"))) (Board.note_of_ok _ rfl hok)

section Reports

variable {target : Bytes} {vars : GoMap Bytes Bytes} {orders : Proxy.Orders} {s : Proxy.Server}
  {history : List Event}

theorem closing_start (target : Bytes) (vars : GoMap Bytes Bytes) (history : List Event) :
    ((Board.start target vars).after history).closing = false ↔ Event.shutdown ∉ history := by
  rw [← Bool.not_eq_true, Board.closing_after]
  simp [Board.start]

/-- A `status` in a serial run reports the last successful `use` and the connections since. -/
theorem status_reports_history (env : Env) (req : Request)
    (horders : orders.Valid (openDatabases cfg))
    (hnew : Proxy.new cfg target vars orders = .ok s)
    (hrun : SerialRun env ⟨s, false, cfg⟩ history d) (hopen : Event.shutdown ∉ history)
    (hchoices : choices.Valid d) (hcmd : req.cmd = cmdStatus) :
    ∃ resp, serve env choices d req = (d, some resp) ∧ resp.ok ∧ resp.ports = listenPorts cfg ∧
      resp.currentTarget = ((Board.start target vars).after history).target ∧
      ForEach cfg resp.databases DatabaseStatus.virtualName
        ((Board.start target vars).after history).entry := by
  have hshows := shows_run (shows_new horders hnew) hrun
  have hclosed : d.closed = false := hshows.closed.trans ((closing_start _ _ _).mpr hopen)
  refine ⟨handleStatus choices d, ?_, rfl, hshows.status hchoices⟩
  rw [serve, if_neg (by rw [hclosed]; exact Bool.false_ne_true),
    if_neg (by rw [hcmd]; decide), if_pos hcmd]

/-- The status of two databases after a switch that only one of them takes part in. -/
theorem status_reports_history_staging :
    ∃ (s : Proxy.Server) (d : Daemon) (choices : Choices) (used resp : Response),
      SerialRun Mongo.openEnv ⟨s, false, Proxy.pairConfig⟩
        [.registered (str "app"), .answered useStaging used, .registered (str "app")] d ∧
      serve Mongo.openEnv choices d { cmd := cmdStatus } = (d, some resp) ∧
      resp.currentTarget = str "staging" ∧
      (∃ e ∈ resp.databases, e.virtualName = str "app" ∧ e.currentDatabase = str "app_staging" ∧
        e.currentHost = str "10.0.0.1" ∧ e.activeConns = 1) ∧
      ∃ e ∈ resp.databases, e.virtualName = str "audit" ∧ e.inactive ∧ e.activeConns = 0 := by
  obtain ⟨s, used, d, hnew, hok, hrun⟩ := serialRun_staging Mongo.openEnv
  obtain ⟨choices, hchoices⟩ := exists_choices d
  obtain ⟨resp, hserve, -, -, htarget, -, hentries⟩ :=
    status_reports_history Mongo.openEnv { cmd := cmdStatus } Proxy.pairOrders_valid hnew hrun
      (by simp) hchoices rfl
  rw [Board.after_staging hok] at htarget hentries
  exact ⟨s, d, choices, used, resp, hrun, hserve, htarget,
    ⟨_, (hentries _).mpr ⟨str "app", _, rfl, rfl⟩, rfl, rfl, rfl, rfl⟩,
    ⟨_, (hentries _).mpr ⟨str "audit", _, rfl, rfl⟩, rfl, rfl, rfl⟩⟩

/-- A `use` in a serial run succeeds as it would have at its start, whatever happened since. It then
reports each database as it was and as it is, and probes those that are on a target. -/
theorem use_reports_change (env : Env) (req : Request) (horders : orders.Valid (openDatabases cfg))
    (hnew : Proxy.new cfg target vars orders = .ok s)
    (hrun : SerialRun env ⟨s, false, cfg⟩ history d) (hchoices : choices.Valid d)
    (hcmd : req.cmd = cmdUse) :
    ∃ d' resp, serve env choices d req = (d', some resp) ∧
      (resp.ok ↔ Event.shutdown ∉ history ∧ req.target ≠ [] ∧
        Switchable (openDatabases cfg) req.target req.vars) ∧
      (resp.ok → resp.target = req.target ∧
        ForEach cfg resp.switched SwitchResult.virtualName
          (((Board.start target vars).after history).change
            (((Board.start target vars).after history).use req)) ∧
        Probed env choices.outcome cfg (((Board.start target vars).after history).use req)
          resp.probes) ∧
      (¬ resp.ok → d' = d) := by
  have hshows := shows_run (shows_new horders hnew) hrun
  have haccepts_iff : Accepts d req ↔ Event.shutdown ∉ history ∧ req.target ≠ [] ∧
      Switchable (openDatabases cfg) req.target req.vars := by
    rw [hshows.accepts_iff, ← closing_start target vars]
    exact ⟨fun h ↦ ⟨h.isOpen, h.target_ne, h.switchable⟩, fun h ↦ ⟨h.1, hcmd, h.2.1, h.2.2⟩⟩
  rw [← haccepts_iff]
  by_cases haccepts : Accepts d req
  · obtain ⟨d', resp, hserve, hok, htarget, -, hswitched, hprobed⟩ :=
      hshows.use env hchoices haccepts
    exact ⟨d', resp, hserve, iff_of_true hok haccepts, fun _ ↦ ⟨htarget, hswitched, hprobed⟩,
      fun hnot ↦ absurd hok hnot⟩
  · obtain ⟨resp, hserve, hok⟩ := serve_of_not_accepts env hchoices haccepts
    have hnot : ¬ resp.ok := by
      intro hok'
      have hstatus := (hok hok').2.1
      rw [hcmd] at hstatus
      exact absurd hstatus (by decide)
    exact ⟨d, resp, hserve, iff_of_false hnot haccepts, fun hok' ↦ absurd hok' hnot, fun _ ↦ rfl⟩

/-- The way back from `staging`, which closes the one connection, and a `use` without its variables,
which changes nothing. -/
theorem use_reports_change_staging :
    ∃ (s : Proxy.Server) (d d' : Daemon) (choices : Choices) (used resp refused : Response),
      SerialRun Mongo.openEnv ⟨s, false, Proxy.pairConfig⟩
        [.registered (str "app"), .answered useStaging used, .registered (str "app")] d ∧
      serve Mongo.openEnv choices d { cmd := cmdUse, target := str "local" } = (d', some resp) ∧
      resp.ok ∧
      (∃ r ∈ resp.switched, r.virtualName = str "app" ∧ r.previous = str "staging" ∧
        r.current = str "local" ∧ r.closedConns = 1) ∧
      (∃ r ∈ resp.switched, r.virtualName = str "audit" ∧ r.previous = [] ∧
        r.current = str "local" ∧ r.closedConns = 0) ∧
      serve Mongo.openEnv choices d { cmd := cmdUse, target := str "review" } =
        (d, some refused) ∧ ¬ refused.ok := by
  obtain ⟨s, used, d, hnew, hok, hrun⟩ := serialRun_staging Mongo.openEnv
  obtain ⟨choices, hchoices⟩ := exists_choices d
  obtain ⟨d', resp, hserve, hiff, hreports, -⟩ :=
    use_reports_change Mongo.openEnv { cmd := cmdUse, target := str "local" }
      Proxy.pairOrders_valid hnew hrun hchoices rfl
  obtain ⟨d'', refused, hrefuses, hiff', -, hsame⟩ :=
    use_reports_change Mongo.openEnv { cmd := cmdUse, target := str "review" }
      Proxy.pairOrders_valid hnew hrun hchoices rfl
  have hresp : resp.ok := by
    obtain ⟨s₀, results, hs₀, hcall⟩ := switchAll_of_new hnew
    refine hiff.mpr ⟨by simp, by decide, ?_⟩
    exact hs₀ ▸ Proxy.switchable_of_ok (hs₀.symm ▸ Proxy.pairOrders_valid) hcall
  have hrefused : ¬ refused.ok := fun hok ↦ Proxy.not_switchable_review (hiff'.mp hok).2.2
  obtain rfl := hsame hrefused
  have hswitched := (hreports hresp).2.1.2
  rw [Board.after_staging hok] at hswitched
  exact ⟨s, _, d', choices, used, resp, refused, hrun, hserve, hresp,
    ⟨_, (hswitched _).mpr ⟨str "app", _, rfl, rfl⟩, rfl, rfl, rfl, rfl⟩,
    ⟨_, (hswitched _).mpr ⟨str "audit", _, rfl, rfl⟩, rfl, rfl, rfl, rfl⟩, hrefuses, hrefused⟩

end Reports

/-! ## Whatever is sent -/

/-- What one connection does, by what it has sent. -/
theorem handle_cases (env : Env) (choices : Choices) (d : Daemon) (c : Socket) :
    ((0x0A : UInt8) ∉ c.input ∧ handle env choices d c = (d, { c with input := [] })) ∨
    ∃ text rest, (0x0A : UInt8) ∉ text ∧ c.input = text ++ 0x0A :: rest ∧
      handle env choices d c = ((respond env choices d (text ++ [0x0A])).1,
        writeResp (respond env choices d (text ++ [0x0A])).2 { c with input := rest }) := by
  by_cases hline : (0x0A : UInt8) ∈ c.input
  · right
    obtain ⟨text, rest, hinput, htext⟩ := List.eq_append_cons_of_mem hline
    obtain ⟨input, output, room⟩ := c
    obtain rfl : input = text ++ 0x0A :: rest := hinput
    exact ⟨text, rest, htext, rfl, handle_line env htext⟩
  · exact .inl ⟨hline, handle_of_notMem env hline⟩

/-- A response is written from its beginning, if there is one. -/
theorem output_writeResp (resp : Option Response) (c : Socket) :
    ∃ written, (writeResp resp c).output = c.output ++ written ∧
      (written = [] ∨ ∃ r, resp = some r ∧ written <+: line Response.codec r) := by
  cases resp with
  | none => exact ⟨[], (List.append_nil _).symm, .inl rfl⟩
  | some r =>
    obtain ⟨written, hbegin, houtput, -, -⟩ := run_write (line Response.codec r) c
    exact ⟨written, houtput, .inr ⟨r, rfl, hbegin⟩⟩

/-- Whatever comes in on a connection to the control socket, handled before anything else happens,
is one event of a serial run. It changes the daemon only if its first line is a `use` that is
accepted, and it is answered with one line at most. -/
theorem connection_is_event (env : Env) {start : Daemon} {history : List Event}
    (hrun : SerialRun env start history d) (hchoices : choices.Valid d) (c : Socket) :
    (∃ event, SerialRun env start (history ++ [event]) (handle env choices d c).1) ∧
    ((handle env choices d c).1 = d ∨
      ∃ text rest req, (0x0A : UInt8) ∉ text ∧ c.input = text ++ 0x0A :: rest ∧
        Request.codec.unmarshal (text ++ [0x0A]) = some req ∧ Accepts d req) ∧
    ∃ resp written, written <+: line Response.codec resp ∧
      (handle env choices d c).2.output = c.output ++ written := by
  rcases handle_cases env choices d c with ⟨-, hhandle⟩ | ⟨text, rest, htext, hinput, hhandle⟩
  · rw [hhandle]
    exact ⟨⟨.unreadable, hrun.step .unreadable⟩, .inl rfl, {}, [], List.nil_prefix,
      (List.append_nil _).symm⟩
  · obtain ⟨written, houtput, hwritten⟩ :=
      output_writeResp (respond env choices d (text ++ [0x0A])).2 { c with input := rest }
    have hanswer : ∃ resp written, written <+: line Response.codec resp ∧
        (handle env choices d c).2.output = c.output ++ written := by
      rw [hhandle]
      rcases hwritten with rfl | ⟨resp, -, hbegin⟩
      · exact ⟨{}, [], List.nil_prefix, houtput⟩
      · exact ⟨resp, written, hbegin, houtput⟩
    suffices hdaemon :
        (∃ event, SerialRun env start (history ++ [event]) (handle env choices d c).1) ∧
        ((handle env choices d c).1 = d ∨ ∃ req,
          Request.codec.unmarshal (text ++ [0x0A]) = some req ∧ Accepts d req) by
      refine ⟨hdaemon.1, hdaemon.2.imp_right ?_, hanswer⟩
      rintro ⟨req, hreq, haccepts⟩
      exact ⟨text, rest, req, htext, hinput, hreq, haccepts⟩
    rw [hhandle, respond]
    cases hreq : Request.codec.unmarshal (text ++ [0x0A]) with
    | none => exact ⟨⟨.unreadable, hrun.step .unreadable⟩, .inl rfl⟩
    | some req =>
      obtain ⟨d', resp, hserve⟩ := exists_serve env hchoices req
      have hstep : SerialStep env d (.answered req resp) (serve env choices d req).1 :=
        .answered hchoices (by rw [hserve])
      refine ⟨⟨_, hrun.step hstep⟩, ?_⟩
      by_cases haccepts : Accepts d req
      · exact .inr ⟨req, rfl, haccepts⟩
      · obtain ⟨resp', hserve', -⟩ := serve_of_not_accepts env hchoices haccepts
        exact .inl (congrArg Prod.fst hserve')

/-- A connection that sends a `use` and more. -/
theorem connection_is_event_staging :
    ∃ (s : Proxy.Server) (c : Socket) (event : Event) (req : Request) (resp : Response),
      Proxy.new Proxy.pairConfig (str "local") ∅ Proxy.pairOrders = .ok s ∧
      c.input = line Request.codec useStaging ++ str "garbage" ∧
      SerialRun Mongo.openEnv ⟨s, false, Proxy.pairConfig⟩ [event]
        (handle Mongo.openEnv pairChoices ⟨s, false, Proxy.pairConfig⟩ c).1 ∧
      (handle Mongo.openEnv pairChoices ⟨s, false, Proxy.pairConfig⟩ c).1.server.currentTarget =
        str "staging" ∧
      Accepts ⟨s, false, Proxy.pairConfig⟩ req ∧
      (handle Mongo.openEnv pairChoices ⟨s, false, Proxy.pairConfig⟩ c).2.output <+:
        line Response.codec resp := by
  have hhandled : ∃ s, Proxy.new Proxy.pairConfig (str "local") ∅ Proxy.pairOrders = .ok s ∧
      s.currentTarget = str "local" ∧
      (handle Mongo.openEnv pairChoices ⟨s, false, Proxy.pairConfig⟩
        ⟨line Request.codec useStaging ++ str "garbage", [], none⟩).1.server.currentTarget =
          str "staging" := ⟨_, rfl, rfl, by decide +kernel⟩
  obtain ⟨s, hnew, hbefore, hafter⟩ := hhandled
  obtain ⟨⟨event, hrun⟩, hchange, resp, written, hwritten, houtput⟩ :=
    connection_is_event Mongo.openEnv .refl
      (pairChoices_valid (shows_new Proxy.pairOrders_valid hnew))
      ⟨line Request.codec useStaging ++ str "garbage", [], none⟩
  obtain hsame | ⟨text, rest, req, -, -, -, haccepts⟩ := hchange
  · rw [hsame, hbefore] at hafter
    exact absurd hafter (by decide)
  · exact ⟨s, _, event, req, resp, hnew, rfl, hrun, hafter, haccepts, houtput ▸ hwritten⟩

end DbPivot.Control
