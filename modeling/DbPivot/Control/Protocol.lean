import DbPivot.Go.JsonCodec

/-!
# The messages of the control socket

The command line tool and the daemon exchange one JSON object each way, on a line of its own. A
request or a response comes out of its line as it went in, except that texts become UTF-8: strings
of the program are bytes, and `encoding/json` writes U+FFFD for each stray one.
-/

namespace DbPivot.Control

open DbPivot.Go Codec

def cmdUse : Bytes := str "use"

def cmdStatus : Bytes := str "status"

structure Request where
  cmd : Bytes := []
  target : Bytes := []
  vars : GoMap Bytes Bytes := ∅

/-- One database's outcome of a `use`. -/
structure SwitchResult where
  virtualName : Bytes := []
  previous : Bytes := []
  previousDatabase : Bytes := []
  current : Bytes := []
  currentDatabase : Bytes := []
  closedConns : Int64 := 0
  skipped : Bool := false
deriving DecidableEq

/-- The health probe of one database after a `use`. -/
structure ProbeResult where
  virtualName : Bytes := []
  target : Bytes := []
  database : Bytes := []
  addr : Bytes := []
  ok : Bool := false
  err : Bytes := []
deriving DecidableEq

/-- One database in a `status`. -/
structure DatabaseStatus where
  virtualName : Bytes := []
  adapter : Bytes := []
  current : Bytes := []
  currentDatabase : Bytes := []
  currentHost : Bytes := []
  currentPort : Int64 := 0
  activeConns : Int64 := 0
  inactive : Bool := false
deriving DecidableEq

structure Response where
  ok : Bool := false
  error : Bytes := []
  target : Bytes := []
  switched : List SwitchResult := []
  missing : List Bytes := []
  probes : List ProbeResult := []
  ports : GoMap Bytes Int64 := ∅
  currentTarget : Bytes := []
  databases : List DatabaseStatus := []

/-! ## Their fields -/

section Fields

variable {σ τ : Type}

/-- A field that is always written. -/
def required (name : String) (codec : Codec τ) (get : σ → τ) (set : σ → τ → σ) : StructField σ :=
  ⟨str name, false, τ, codec, get, set⟩

/-- A field with `omitempty`. -/
def optional (name : String) (codec : Codec τ) (get : σ → τ) (set : σ → τ → σ) : StructField σ :=
  ⟨str name, true, τ, codec, get, set⟩

end Fields

def Request.fields : List (StructField Request) := [
  required "cmd" string Request.cmd fun r v ↦ { r with cmd := v },
  optional "target" string Request.target fun r v ↦ { r with target := v },
  optional "variables" string.map Request.vars fun r v ↦ { r with vars := v }]

def SwitchResult.fields : List (StructField SwitchResult) := [
  required "virtual_name" string virtualName fun r v ↦ { r with virtualName := v },
  optional "previous" string previous fun r v ↦ { r with previous := v },
  optional "previous_database" string previousDatabase fun r v ↦ { r with previousDatabase := v },
  optional "current" string current fun r v ↦ { r with current := v },
  optional "current_database" string currentDatabase fun r v ↦ { r with currentDatabase := v },
  required "closed_conns" int closedConns fun r v ↦ { r with closedConns := v },
  optional "skipped" bool skipped fun r v ↦ { r with skipped := v }]

def ProbeResult.fields : List (StructField ProbeResult) := [
  required "virtual_name" string virtualName fun r v ↦ { r with virtualName := v },
  optional "target" string target fun r v ↦ { r with target := v },
  optional "database" string database fun r v ↦ { r with database := v },
  optional "addr" string addr fun r v ↦ { r with addr := v },
  required "ok" bool ok fun r v ↦ { r with ok := v },
  optional "err" string err fun r v ↦ { r with err := v }]

def DatabaseStatus.fields : List (StructField DatabaseStatus) := [
  required "virtual_name" string virtualName fun r v ↦ { r with virtualName := v },
  optional "adapter" string adapter fun r v ↦ { r with adapter := v },
  optional "current" string current fun r v ↦ { r with current := v },
  optional "current_database" string currentDatabase fun r v ↦ { r with currentDatabase := v },
  optional "current_host" string currentHost fun r v ↦ { r with currentHost := v },
  optional "current_port" int currentPort fun r v ↦ { r with currentPort := v },
  required "active_conns" int activeConns fun r v ↦ { r with activeConns := v },
  optional "inactive" bool inactive fun r v ↦ { r with inactive := v }]

def Request.codec : Codec Request := struct {} fields

def SwitchResult.codec : Codec SwitchResult := struct {} fields

def ProbeResult.codec : Codec ProbeResult := struct {} fields

def DatabaseStatus.codec : Codec DatabaseStatus := struct {} fields

def Response.fields : List (StructField Response) := [
  required "ok" bool ok fun r v ↦ { r with ok := v },
  optional "error" string error fun r v ↦ { r with error := v },
  optional "target" string target fun r v ↦ { r with target := v },
  optional "switched" SwitchResult.codec.slice switched fun r v ↦ { r with switched := v },
  optional "missing" string.slice missing fun r v ↦ { r with missing := v },
  optional "probes" ProbeResult.codec.slice probes fun r v ↦ { r with probes := v },
  optional "ports" int.map ports fun r v ↦ { r with ports := v },
  optional "current_target" string currentTarget fun r v ↦ { r with currentTarget := v },
  optional "databases" DatabaseStatus.codec.slice databases fun r v ↦ { r with databases := v }]

def Response.codec : Codec Response := struct {} fields

/-! ## What becomes of them on the way -/

/-- The request with its texts in UTF-8. -/
def Request.coerce (r : Request) : Request where
  cmd := toValid r.cmd
  target := toValid r.target
  vars := coerceMap toValid r.vars

def SwitchResult.coerce (r : SwitchResult) : SwitchResult where
  virtualName := toValid r.virtualName
  previous := toValid r.previous
  previousDatabase := toValid r.previousDatabase
  current := toValid r.current
  currentDatabase := toValid r.currentDatabase
  closedConns := r.closedConns
  skipped := r.skipped

def ProbeResult.coerce (r : ProbeResult) : ProbeResult where
  virtualName := toValid r.virtualName
  target := toValid r.target
  database := toValid r.database
  addr := toValid r.addr
  ok := r.ok
  err := toValid r.err

def DatabaseStatus.coerce (r : DatabaseStatus) : DatabaseStatus where
  virtualName := toValid r.virtualName
  adapter := toValid r.adapter
  current := toValid r.current
  currentDatabase := toValid r.currentDatabase
  currentHost := toValid r.currentHost
  currentPort := r.currentPort
  activeConns := r.activeConns
  inactive := r.inactive

/-- The response with its texts in UTF-8. -/
def Response.coerce (r : Response) : Response where
  ok := r.ok
  error := toValid r.error
  target := toValid r.target
  switched := r.switched.map SwitchResult.coerce
  missing := r.missing.map toValid
  probes := r.probes.map ProbeResult.coerce
  ports := coerceMap id r.ports
  currentTarget := toValid r.currentTarget
  databases := r.databases.map DatabaseStatus.coerce

theorem Request.lawful : Lawful (σ := Request) {} fields where
  nodup := by decide
  valid := by simp only [fields, List.forall_mem_cons]; decide
  zero := by simp [fields, required, optional]
  get_set := by simp [fields, required, optional]
  apart := by simp [fields, required, optional, Apart]
  ext s s' h := by
    cases s
    cases s'
    simpa [fields, required, optional] using h

theorem SwitchResult.lawful : Lawful (σ := SwitchResult) {} fields where
  nodup := by decide
  valid := by simp only [fields, List.forall_mem_cons]; decide
  zero := by simp [fields, required, optional]
  get_set := by simp [fields, required, optional]
  apart := by simp [fields, required, optional, Apart]
  ext s s' h := by
    cases s
    cases s'
    simpa [fields, required, optional] using h

theorem ProbeResult.lawful : Lawful (σ := ProbeResult) {} fields where
  nodup := by decide
  valid := by simp only [fields, List.forall_mem_cons]; decide
  zero := by simp [fields, required, optional]
  get_set := by simp [fields, required, optional]
  apart := by simp [fields, required, optional, Apart]
  ext s s' h := by
    cases s
    cases s'
    simpa [fields, required, optional] using h

theorem DatabaseStatus.lawful : Lawful (σ := DatabaseStatus) {} fields where
  nodup := by decide
  valid := by simp only [fields, List.forall_mem_cons]; decide
  zero := by simp [fields, required, optional]
  get_set := by simp [fields, required, optional]
  apart := by simp [fields, required, optional, Apart]
  ext s s' h := by
    cases s
    cases s'
    simpa [fields, required, optional] using h

theorem Response.lawful : Lawful (σ := Response) {} fields where
  nodup := by decide
  valid := by simp only [fields, List.forall_mem_cons]; decide
  zero := by simp [fields, required, optional]
  get_set := by simp [fields, required, optional]
  apart := by simp [fields, required, optional, Apart]
  ext s s' h := by
    cases s
    cases s'
    simpa [fields, required, optional] using h

section Carries

variable {depth : ℕ}

theorem Request.carries (r : Request) : codec.Carries (depth + 2) r r.coerce := by
  apply carries_struct lawful
  simp only [fields, required, optional, List.forall_mem_cons]
  exact ⟨carries_string _, carries_string _, carries_map fun _ _ _ ↦ carries_string _, by simp⟩

theorem SwitchResult.carries (r : SwitchResult) : codec.Carries (depth + 1) r r.coerce := by
  apply carries_struct lawful
  simp only [fields, required, optional, List.forall_mem_cons]
  exact ⟨carries_string _, carries_string _, carries_string _, carries_string _, carries_string _,
    carries_int _, carries_bool _, by simp⟩

theorem ProbeResult.carries (r : ProbeResult) : codec.Carries (depth + 1) r r.coerce := by
  apply carries_struct lawful
  simp only [fields, required, optional, List.forall_mem_cons]
  exact ⟨carries_string _, carries_string _, carries_string _, carries_string _, carries_bool _,
    carries_string _, by simp⟩

theorem DatabaseStatus.carries (r : DatabaseStatus) : codec.Carries (depth + 1) r r.coerce := by
  apply carries_struct lawful
  simp only [fields, required, optional, List.forall_mem_cons]
  exact ⟨carries_string _, carries_string _, carries_string _, carries_string _, carries_string _,
    carries_int _, carries_int _, carries_bool _, by simp⟩

theorem Response.carries (r : Response) : codec.Carries (depth + 3) r r.coerce := by
  apply carries_struct lawful
  simp only [fields, required, optional, List.forall_mem_cons]
  exact ⟨carries_bool _, carries_string _, carries_string _,
    carries_slice fun a _ ↦ a.carries, carries_slice fun _ _ ↦ carries_string _,
    carries_slice fun a _ ↦ a.carries, carries_map fun _ _ _ ↦ carries_int _, carries_string _,
    carries_slice fun a _ ↦ a.carries, by simp⟩

end Carries

/-! ## Lines -/

/-- A message on a line of its own. -/
def line {α : Type} (codec : Codec α) (a : α) : Bytes := codec.marshal a ++ [0x0A]

theorem Request.carries_max (r : Request) : codec.Carries Json.maxNestingDepth r r.coerce :=
  (r.carries : codec.Carries (9998 + 2) r r.coerce)

theorem Response.carries_max (r : Response) : codec.Carries Json.maxNestingDepth r r.coerce :=
  (r.carries : codec.Carries (9997 + 3) r r.coerce)

/-- The daemon reads the request of a client with its texts in UTF-8. -/
theorem Request.unmarshal_line (r : Request) : codec.unmarshal (line codec r) = some r.coerce :=
  unmarshal_marshal r.carries_max

/-- The client reads the response of the daemon with its texts in UTF-8. -/
theorem Response.unmarshal_line (r : Response) : codec.unmarshal (line codec r) = some r.coerce :=
  unmarshal_marshal r.carries_max

theorem Request.newline_notMem (r : Request) : (0x0A : UInt8) ∉ codec.marshal r :=
  newline_notMem_marshal r.carries_max

theorem Response.newline_notMem (r : Response) : (0x0A : UInt8) ∉ codec.marshal r :=
  newline_notMem_marshal r.carries_max

/-- All texts of the request are in UTF-8. -/
structure Request.Utf8 (r : Request) : Prop where
  cmd : validString r.cmd
  target : validString r.target
  vars : ∀ key value, r.vars.get key = some value → validString key ∧ validString value

/-- Only a request in UTF-8 stays as it is. -/
theorem Request.coerce_eq_self_iff {r : Request} : r.coerce = r ↔ r.Utf8 := by
  have hvars := coerceMap_eq_self_iff toValid_toValid (m := r.vars)
  simp only [toValid_eq_self_iff] at hvars
  constructor
  · intro h
    exact ⟨toValid_eq_self_iff.mp (congrArg cmd h), toValid_eq_self_iff.mp (congrArg target h),
      hvars.mp (congrArg vars h)⟩
  · intro h
    rw [Request.coerce, toValid_eq_self_iff.mpr h.cmd, toValid_eq_self_iff.mpr h.target,
      hvars.mpr h.vars]

end DbPivot.Control
