import DbPivot.Control.Protocol
import DbPivot.Go.Line
import DbPivot.Proxy.Probe
import DbPivot.Proxy.Usable

/-!
# The control server

The daemon answers one request on each connection to its control socket. A request that cannot be
read, that comes after the shutdown has begun or that names no command is answered with an error
and changes nothing; a `status` changes nothing either. A `use` switches all databases or none, and
the probes that follow it only report.
-/

namespace DbPivot.Control

open DbPivot.Go DbPivot.Config
open DbPivot.Mongo (Env)
open DbPivot.Proxy (Orders ProbeJob SwitchError Switchable switchAll probeActive)

/-- The running daemon: the server, whether its shutdown has begun, and its configuration. -/
structure Daemon where
  server : Proxy.Server
  closed : Bool
  cfg : Config

/-- What is left open in the answer to a request: the orders of the `range` loops, the outcomes of
the probes, and the text of an error of `encoding/json`. -/
structure Choices where
  orders : Orders
  probes : List Bytes
  outcome : ProbeJob → Except GoError Unit
  status : List Bytes
  parseError : Bytes

/-- The run time may choose these orders. -/
structure Choices.Valid (choices : Choices) (d : Daemon) : Prop where
  orders : choices.orders.Valid d.server.databases
  probes : Enumerates choices.probes d.server.databases
  status : Enumerates choices.status d.server.databases

/-! ## Answers -/

/-- `err.Error()` of an error of `SwitchAll`. -/
def switchErrorText (env : Env) : SwitchError → Bytes
  | .plan virtualName _ err => env.render (wrapf "database %q: %v" [.text virtualName] err)
  | .other err => env.render err

/-- The variables a `*SwitchPlanError` names. -/
def missingVars : SwitchError → List Bytes
  | .plan _ missing _ => missing
  | .other _ => []

def wireSwitch (r : Proxy.SwitchResult) : SwitchResult where
  virtualName := r.virtualName
  previous := r.previous
  previousDatabase := r.previousDatabase
  current := r.current
  currentDatabase := r.currentDatabase
  closedConns := Int64.ofNat r.closedConns
  skipped := r.skipped

def wireProbe (p : Proxy.ProbeResult) : ProbeResult where
  virtualName := p.virtualName
  target := p.target
  database := p.database
  addr := p.addr
  ok := p.ok
  err := p.err

/-- `handleUse`: the daemon after it, and the answer unless `SwitchAll` panics. -/
def handleUse (env : Env) (choices : Choices) (d : Daemon) (req : Request) :
    Daemon × Option Response :=
  if req.target = [] then (d, some { error := str "target is required" })
  else
    match switchAll d.server req.target req.vars choices.orders with
    | (.ok results, server) =>
      ({ d with server }, some {
        ok := true
        target := req.target
        switched := results.map wireSwitch
        probes := (probeActive env server choices.probes choices.outcome).map wireProbe })
    | (.error (.err err), server) =>
      ({ d with server }, some { error := switchErrorText env err, missing := missingVars err })
    | (.error _, server) => ({ d with server }, none)

/-- The entry of a database in a `status`. -/
def databaseStatus (name : Bytes) (d : Proxy.Database) : DatabaseStatus :=
  let ds : DatabaseStatus :=
    { virtualName := name, adapter := d.adapter, activeConns := Int64.ofNat d.conns.keys.card }
  match d.current with
  | some cur =>
    { ds with
      current := cur.name
      currentDatabase := cur.database
      currentHost := cur.host
      currentPort := Int64.ofInt cur.port }
  | none => { ds with inactive := true }

@[simp] theorem virtualName_databaseStatus (name : Bytes) (d : Proxy.Database) :
    (databaseStatus name d).virtualName = name := by
  unfold databaseStatus
  cases d.current <;> rfl

/-- The ports of the configuration as Go's `int`. -/
def listenPorts (cfg : Config) : GoMap Bytes Int64 :=
  GoMap.ofKeys (Codec.sortedKeys cfg.listenPorts) fun adapter ↦
    Int64.ofInt ((cfg.listenPorts.get adapter).getD 0)

/-- `handleStatus`. -/
def handleStatus (choices : Choices) (d : Daemon) : Response where
  ok := true
  ports := listenPorts d.cfg
  currentTarget := d.server.currentTarget
  databases := (d.server.databases.entries choices.status).map fun entry ↦
    databaseStatus entry.1 entry.2

/-- The part of `handle` after a request was read. -/
def serve (env : Env) (choices : Choices) (d : Daemon) (req : Request) : Daemon × Option Response :=
  if d.closed then (d, some { error := str "shutting down" })
  else if req.cmd = cmdUse then handleUse env choices d req
  else if req.cmd = cmdStatus then (d, some (handleStatus choices d))
  else (d, some { error := str "unknown command: " ++ req.cmd })

/-- The part of `handle` after a line was read. -/
def respond (env : Env) (choices : Choices) (d : Daemon) (text : Bytes) :
    Daemon × Option Response :=
  match Request.codec.unmarshal text with
  | none => (d, some { error := str "parse: " ++ choices.parseError })
  | some req => serve env choices d req

/-- `writeResp`; a failed write is ignored. -/
def writeResp (resp : Option Response) (c : Socket) : Socket :=
  match resp with
  | none => c
  | some resp => ((write (line Response.codec resp)).run c).2

/-- `handle`. -/
def handle (env : Env) (choices : Choices) (d : Daemon) (c : Socket) : Daemon × Socket :=
  match (readBytes 0x0A).run c with
  | (.error _, c) => (d, c)
  | (.ok text, c) =>
    let (d, resp) := respond env choices d text
    (d, writeResp resp c)

/-! ## What a request does -/

variable {choices : Choices} {d : Daemon} {req : Request}

/-- A `use` that the daemon accepts. -/
structure Accepts (d : Daemon) (req : Request) : Prop where
  isOpen : d.closed = false
  cmd : req.cmd = cmdUse
  target_ne : req.target ≠ []
  switchable : Switchable d.server.databases req.target req.vars

/-- An accepted `use` is one successful switch. -/
theorem serve_of_accepts (env : Env) (hchoices : choices.Valid d) (h : Accepts d req) :
    ∃ results server, switchAll d.server req.target req.vars choices.orders = (.ok results, server) ∧
      serve env choices d req = ({ d with server }, some {
        ok := true
        target := req.target
        switched := results.map wireSwitch
        probes := (probeActive env server choices.probes choices.outcome).map wireProbe }) := by
  obtain ⟨databases, hcall, -⟩ := Proxy.switchAll_of_switchable hchoices.orders h.switchable
  refine ⟨_, _, hcall, ?_⟩
  rw [serve, if_neg (by rw [h.isOpen]; exact Bool.false_ne_true), if_pos h.cmd, handleUse,
    if_neg h.target_ne, hcall]

/-- Any other request changes nothing, and is answered. -/
theorem serve_of_not_accepts (env : Env) (hchoices : choices.Valid d) (h : ¬ Accepts d req) :
    ∃ resp, serve env choices d req = (d, some resp) ∧
      (resp.ok → d.closed = false ∧ req.cmd = cmdStatus ∧ resp = handleStatus choices d) := by
  unfold serve
  split
  next => exact ⟨_, rfl, fun hok ↦ absurd hok Bool.false_ne_true⟩
  next hopen =>
    replace hopen : d.closed = false := Bool.not_eq_true _ ▸ hopen
    split
    next hcmd =>
      unfold handleUse
      split
      next => exact ⟨_, rfl, fun hok ↦ absurd hok Bool.false_ne_true⟩
      next htarget =>
        have hnot : ¬ Switchable d.server.databases req.target req.vars :=
          fun hswitchable ↦ h ⟨hopen, hcmd, htarget, hswitchable⟩
        obtain ⟨error, hcall⟩ := Proxy.switchAll_of_not_switchable hchoices.orders hnot
        rw [hcall]
        exact ⟨_, rfl, fun hok ↦ absurd hok Bool.false_ne_true⟩
    next =>
      split
      next hcmd => exact ⟨_, rfl, fun _ ↦ ⟨hopen, hcmd, rfl⟩⟩
      next => exact ⟨_, rfl, fun hok ↦ absurd hok Bool.false_ne_true⟩

/-- Every request is answered. -/
theorem exists_serve (env : Env) (hchoices : choices.Valid d) (req : Request) :
    ∃ d' resp, serve env choices d req = (d', some resp) := by
  by_cases h : Accepts d req
  · obtain ⟨results, server, -, hserve⟩ := serve_of_accepts env hchoices h
    exact ⟨_, _, hserve⟩
  · obtain ⟨resp, hserve, -⟩ := serve_of_not_accepts env hchoices h
    exact ⟨_, _, hserve⟩

/-! ## Lines on the socket -/

/-- Without a line nothing happens. -/
theorem handle_of_notMem (env : Env) {c : Socket} (h : (0x0A : UInt8) ∉ c.input) :
    handle env choices d c = (d, { c with input := [] }) := by
  rw [handle, readBytes_of_notMem h]
  rfl

/-- What a line leads to, whatever follows it. -/
theorem handle_line (env : Env) {text rest output : Bytes} {room : Option ℕ}
    (htext : (0x0A : UInt8) ∉ text) :
    handle env choices d ⟨text ++ 0x0A :: rest, output, room⟩ =
      ((respond env choices d (text ++ [0x0A])).1,
        writeResp (respond env choices d (text ++ [0x0A])).2 ⟨rest, output, room⟩) := by
  rw [handle, readBytes_line htext]

/-! ## Choices -/

/-- The run time has some orders for every request. -/
theorem exists_choices (d : Daemon) : ∃ choices : Choices, choices.Valid d := by
  obtain ⟨order, horder⟩ := GoMap.exists_enumerates d.server.databases
  obtain ⟨conns, horders⟩ := Proxy.exists_orders horder
  exact ⟨⟨_, order, fun _ ↦ .ok (), order, []⟩, horders, horder, horder⟩

/-- Orders for the two databases while they have no connections; every probe succeeds. -/
def pairChoices : Choices where
  orders := Proxy.pairOrders
  probes := [str "app", str "audit"]
  outcome := fun _ ↦ .ok ()
  status := [str "audit", str "app"]
  parseError := []

/-! ## A daemon with one database -/

/-- The only orders for a daemon with the one database and no connections; every probe succeeds. -/
def singleChoices : Choices where
  orders := Proxy.singleOrders
  probes := [str "app"]
  outcome := fun _ ↦ .ok ()
  status := [str "app"]
  parseError := []

/-- A daemon with one database that is on no target yet. -/
def singleDaemon : Daemon where
  server :=
    { listenAddrs := ∅, databases := Proxy.openDatabases (Proxy.singleConfig (str "app_main")),
      currentTarget := [], currentVars := ∅ }
  closed := false
  cfg := Proxy.singleConfig (str "app_main")

theorem singleDaemon_valid : singleChoices.Valid singleDaemon :=
  have horders := Proxy.singleOrders_valid (str "app_main")
  ⟨horders, horders.plan, horders.plan⟩

end DbPivot.Control
