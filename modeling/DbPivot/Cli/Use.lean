import DbPivot.Control.Client
import DbPivot.Go.Strings

/-!
# `dbpivot use`

The command line gives the variables of a switch as assignments, in flags that may be repeated and
may hold several of them each. The flag library reads each flag as a line of comma-separated values
and hands the tool a slice of texts. The tool takes these apart at their commas once more, sends one
request, and ends with an exit code. The code is all that a script sees, so what it says about the
daemon matters: whether the switch has happened, and whether anything has.

The flag library and what the tool prints are left out: the slice is where the model begins.
-/

namespace DbPivot.Cli

open DbPivot.Go DbPivot.Control
open DbPivot.Mongo (Env)
open DbPivot.Proxy (switchAll)

/-! ## Variables -/

/-- One round of the inner loop of `parseVars`. -/
def addVar (out : GoMap Bytes Bytes) (raw : Bytes) : GoM GoError (GoMap Bytes Bytes) :=
  let part := trimSpace raw
  if part = [] then .ok out
  else
    match indexByte part 0x3D with
    | some (position + 1) =>
      .ok (out.insert (part.take (position + 1)) (part.drop (position + 2)))
    | _ => fail (errorf "invalid --var %q: must be KEY=VAL" [.text part])

/-- `parseVars`, on the slice that the flag library makes of the flags. -/
def parseVars (flags : List Bytes) : GoM GoError (GoMap Bytes Bytes) :=
  if flags.length = 0 then .ok ∅
  else flags.foldlM (fun out raw ↦ (split raw 0x2C).foldlM addVar out) ∅

/-- The assignment of a value to a key. -/
def assignment (key value : Bytes) : Bytes := key ++ 0x3D :: value

/-- An assignment that can be an element of the slice. -/
structure Passable (key value : Bytes) : Prop where
  key_ne : key ≠ []
  equals_notMem : (0x3D : UInt8) ∉ key
  comma_notMem : (0x2C : UInt8) ∉ assignment key value
  trimmed : trimSpace (assignment key value) = assignment key value

variable {flags : List Bytes} {out out' vars : GoMap Bytes Bytes} {raw key value : Bytes}

theorem addVar_assignment (h : Passable key value) :
    addVar out (assignment key value) = .ok (out.insert key value) := by
  have hindex : indexByte (assignment key value) 0x3D = some key.length :=
    indexByte_append h.equals_notMem value
  obtain ⟨position, hlength⟩ := Nat.exists_eq_succ_of_ne_zero
    (List.length_pos_iff.mpr h.key_ne).ne'
  have hne : assignment key value ≠ [] := List.append_ne_nil_of_left_ne_nil h.key_ne _
  have hkey : (assignment key value).take (position + 1) = key := List.take_left' hlength
  have hvalue : (assignment key value).drop (position + 2) = value := by
    rw [assignment, List.append_cons]
    exact List.drop_left' (by rw [List.length_append, hlength]; rfl)
  rw [hlength] at hindex
  simp only [addVar, h.trimmed, if_neg hne, hindex, hkey, hvalue]

/-- What a part without a comma adds. -/
theorem addVar_cases (hcomma : (0x2C : UInt8) ∉ raw) (h : addVar out raw = .ok out') :
    out' = out ∨ ∃ key value, Passable key value ∧ out' = out.insert key value := by
  unfold addVar at h
  dsimp only at h
  split at h
  · exact .inl (Except.ok.inj h).symm
  · split at h
    next position hindex =>
      obtain ⟨before, after, hpart, hbefore, hposition⟩ := indexByte_eq_some hindex
      have hkey : (trimSpace raw).take (position + 1) = before := by
        rw [hpart]
        exact List.take_left' hposition.symm
      have hvalue : (trimSpace raw).drop (position + 2) = after := by
        rw [hpart, List.append_cons]
        exact List.drop_left' (by rw [List.length_append, ← hposition]; rfl)
      rw [hkey, hvalue] at h
      refine .inr ⟨before, after, ⟨?_, hbefore, ?_, ?_⟩, (Except.ok.inj h).symm⟩
      · rintro rfl
        exact absurd hposition (Nat.succ_ne_zero _)
      · rw [assignment, ← hpart]
        exact fun hmem ↦ hcomma (mem_of_mem_trimSpace hmem)
      · rw [assignment, ← hpart]
        exact trimSpace_trimSpace raw
    next => exact absurd h (fail_ne_ok _ _)

/-- The two loops are one loop over all the parts. -/
theorem foldlM_split (flags : List Bytes) (out : GoMap Bytes Bytes) :
    flags.foldlM (fun out raw ↦ (split raw 0x2C).foldlM addVar out) out =
      (flags.flatMap fun raw ↦ split raw 0x2C).foldlM addVar out := by
  induction flags generalizing out with
  | nil => rfl
  | cons first rest ih =>
    rw [List.foldlM_cons, List.flatMap_cons, List.foldlM_append]
    exact bind_congr fun out ↦ ih out

theorem parseVars_eq (flags : List Bytes) :
    parseVars flags = (flags.flatMap fun raw ↦ split raw 0x2C).foldlM addVar ∅ := by
  cases flags with
  | nil => rfl
  | cons first rest =>
    rw [parseVars, if_neg (by simp)]
    exact foldlM_split (first :: rest) ∅

/-- Only such assignments come from parts without a comma. -/
theorem passable_of_foldlM {parts : List Bytes} (hcomma : ∀ raw ∈ parts, (0x2C : UInt8) ∉ raw)
    (hout : ∀ key value, out.get key = some value → Passable key value)
    (h : parts.foldlM addVar out = .ok vars) :
    ∀ key value, vars.get key = some value → Passable key value := by
  induction parts generalizing out with
  | nil =>
    obtain rfl : out = vars := Except.ok.inj h
    exact hout
  | cons first rest ih =>
    rw [List.foldlM_cons] at h
    obtain ⟨next, hfirst, hrest⟩ := bind_eq_ok.mp h
    refine ih (fun raw hraw ↦ hcomma raw (List.mem_cons_of_mem _ hraw)) ?_ hrest
    intro key value hget
    have hpart := hcomma first List.mem_cons_self
    rcases addVar_cases hpart hfirst with rfl | ⟨key', value', hnew, rfl⟩
    · exact hout key value hget
    · by_cases hkey : key = key'
      · subst hkey
        rw [GoMap.get_insert] at hget
        exact Option.some.inj hget ▸ hnew
      · rw [GoMap.get_insert_of_ne _ _ hkey] at hget
        exact hout key value hget

theorem passable_of_parseVars (h : parseVars flags = .ok vars) (hget : vars.get key = some value) :
    Passable key value := by
  rw [parseVars_eq] at h
  refine passable_of_foldlM (fun part hpart ↦ ?_) (fun key value hnone ↦ ?_) h key value hget
  · obtain ⟨raw, -, hsplit⟩ := List.mem_flatMap.mp hpart
    exact notMem_of_mem_split hsplit
  · rw [GoMap.get_empty] at hnone
    cases hnone

/-- One more flag with an assignment. -/
theorem parseVars_append (hflags : parseVars flags = .ok vars) (h : Passable key value) :
    parseVars (flags ++ [assignment key value]) = .ok (vars.insert key value) := by
  rw [parseVars_eq] at hflags ⊢
  rw [List.flatMap_append, List.foldlM_append, hflags, List.flatMap_singleton,
    split_of_notMem h.comma_notMem, ok_bind, List.foldlM_cons, addVar_assignment h]
  rfl

/-- Flags for a whole map. -/
theorem parseVars_assignments {items : List (Bytes × Bytes)}
    (h : ∀ item ∈ items, Passable item.1 item.2) :
    parseVars (items.map fun item ↦ assignment item.1 item.2) =
      .ok (GoMap.insertAll Prod.fst Prod.snd ∅ items) := by
  induction items using List.reverseRecOn with
  | nil => rfl
  | append_singleton rest last ih =>
    rw [List.map_append, GoMap.insertAll_append]
    exact parseVars_append (ih fun item hitem ↦ h item (List.mem_append_left _ hitem))
      (h last (List.mem_append_right _ List.mem_cons_self))

theorem insertAll_entries {order : List Bytes} (horder : Enumerates order vars) :
    GoMap.insertAll Prod.fst Prod.snd ∅ (vars.entries order) = vars := by
  apply GoMap.ext_get
  intro key
  cases hget : vars.get key with
  | some value =>
    exact GoMap.get_insertAll ∅ (GoMap.nodup_keys_entries horder)
      ((GoMap.mem_entries horder).mpr hget)
  | none =>
    rw [GoMap.get_eq_none, GoMap.mem_insertAll, not_or]
    refine ⟨Finmap.notMem_empty, fun hmem ↦ ?_⟩
    obtain ⟨⟨key', value⟩, hentry, rfl⟩ := List.mem_map.mp hmem
    rw [GoMap.mem_entries horder, hget] at hentry
    cases hentry

/-- What a slice can say. An element with several assignments is the same as one element for each,
a later assignment replaces an earlier one, and the maps that can be given are exactly those whose
assignments have a key before their first `=`, no comma, and no white space around them. -/
theorem parseVars_expresses (vars : GoMap Bytes Bytes) :
    ((∃ flags, parseVars flags = .ok vars) ↔
      ∀ key value, vars.get key = some value → Passable key value) ∧
    (∀ order, Enumerates order vars →
      (∀ key value, vars.get key = some value → Passable key value) →
        parseVars ((vars.entries order).map fun item ↦ assignment item.1 item.2) = .ok vars) ∧
    (∀ flags key value, parseVars flags = .ok vars → Passable key value →
      parseVars (flags ++ [assignment key value]) = .ok (vars.insert key value)) ∧
    ∀ first rest, parseVars [[0x2C].intercalate (first :: rest)] = parseVars (first :: rest) := by
  have hgiven : ∀ order, Enumerates order vars →
      (∀ key value, vars.get key = some value → Passable key value) →
        parseVars ((vars.entries order).map fun item ↦ assignment item.1 item.2) = .ok vars := by
    intro order horder hpassable
    have hitems : ∀ item ∈ vars.entries order, Passable item.1 item.2 :=
      fun item hitem ↦ hpassable item.1 item.2 ((GoMap.mem_entries horder).mp hitem)
    rw [parseVars_assignments hitems, insertAll_entries horder]
  refine ⟨⟨?_, fun hpassable ↦ ?_⟩, hgiven, fun _ _ _ ↦ parseVars_append, fun first rest ↦ ?_⟩
  · rintro ⟨flags, hflags⟩ key value hget
    exact passable_of_parseVars hflags hget
  · obtain ⟨order, horder⟩ := GoMap.exists_enumerates vars
    exact ⟨_, hgiven order horder hpassable⟩
  · calc parseVars [[0x2C].intercalate (first :: rest)]
        = (split ([0x2C].intercalate (first :: rest)) 0x2C).foldlM addVar ∅ := by
          rw [parseVars_eq, List.flatMap_singleton]
      _ = ((first :: rest).flatMap fun raw ↦ split raw 0x2C).foldlM addVar ∅ := by
          rw [split_intercalate]
      _ = parseVars (first :: rest) := (parseVars_eq _).symm

/-- Two assignments in one element, with white space around them and an `=` in a value. -/
example : parseVars [str " branch = main,  q=a=b ,"] =
    .ok (((∅ : GoMap Bytes Bytes).insert (str "branch ") (str " main")).insert (str "q")
      (str "a=b")) := by
  rfl

/-! ## The command -/

/-- The exit code of `renderUse` and `main` for what `Call` returned. -/
def exitCode (json : Bool) : GoM GoError Response → ℕ
  | .ok resp => if resp.ok then 0 else if json then 2 else 1
  | .error _ => 2

/-- The request of `useCmd`. -/
def useRequest (target : Bytes) (vars : GoMap Bytes Bytes) : Request where
  cmd := cmdUse
  target := target
  vars := vars

/-- How much the two ends of a connection to the control socket take before they are cut off. -/
structure Rooms where
  client : Option ℕ
  server : Option ℕ

/-- A connection that takes everything. -/
def Rooms.all : Rooms := ⟨none, none⟩

/-- `useCmd` from its arguments to its exit code, with the daemon before and after it. The dial may
fail, and then there is no connection. -/
def Use (env : Env) (choices : Choices) (parseError : GoError) (rooms : Option Rooms) (json : Bool)
    (flags : List Bytes) (target : Bytes) (d d' : Daemon) (code : ℕ) : Prop :=
  match parseVars flags, rooms with
  | .ok vars, some rooms => ∃ result,
      Exchange env choices parseError rooms.client rooms.server d (useRequest target vars) d'
        result ∧ code = exitCode json result
  | _, _ => d' = d ∧ code = 2

/-- The flags are read, and the daemon accepts what they say. -/
def Acceptable (d : Daemon) (flags : List Bytes) (target : Bytes) : Prop :=
  ∃ vars, parseVars flags = .ok vars ∧ Accepts d (useRequest target vars).coerce

/-- The daemon has carried out the switch. -/
def Switched (choices : Choices) (flags : List Bytes) (target : Bytes) (d d' : Daemon) : Prop :=
  ∃ vars results server, parseVars flags = .ok vars ∧
    switchAll d.server (useRequest target vars).coerce.target (useRequest target vars).coerce.vars
      choices.orders = (.ok results, server) ∧ d' = { d with server }

variable {env : Env} {choices : Choices} {parseError : GoError} {json : Bool} {target : Bytes}
  {d d' : Daemon} {result : GoM GoError Response} {code : ℕ}

theorem exitCode_of_errs (h : Errs result) : exitCode json result = 2 := by
  obtain ⟨error, rfl⟩ := exists_fail_of_errs h
  rfl

/-- The code for a response that was read off the connection. -/
theorem exitCode_ok_iff {resp : Response} : exitCode json (.ok resp.coerce) = 0 ↔ resp.ok := by
  cases hok : resp.ok <;> cases json <;> simp [exitCode, Response.coerce, hok]

theorem cmd_coerce (target : Bytes) (vars : GoMap Bytes Bytes) :
    (useRequest target vars).coerce.cmd = cmdUse :=
  (by decide : toValid cmdUse = cmdUse)

/-- What the daemon answers to the request of the command, and what it does. -/
theorem serve_use (env : Env) (hchoices : choices.Valid d) (hflags : parseVars flags = .ok vars)
    {resp : Response}
    (hserve : serve env choices d (useRequest target vars).coerce = (d', some resp)) :
    (resp.ok ↔ Accepts d (useRequest target vars).coerce) ∧
      (resp.ok → Switched choices flags target d d') ∧ (¬ resp.ok → d' = d) := by
  by_cases haccepts : Accepts d (useRequest target vars).coerce
  · obtain ⟨results, server, hcall, hserved⟩ := serve_of_accepts env hchoices haccepts
    rw [hserve] at hserved
    obtain ⟨rfl, hresp⟩ := Prod.mk.inj hserved
    obtain rfl := Option.some.inj hresp
    exact ⟨iff_of_true rfl haccepts, fun _ ↦ ⟨vars, results, server, hflags, hcall, rfl⟩,
      fun hnot ↦ absurd rfl hnot⟩
  · obtain ⟨resp', hserved, hok⟩ := serve_of_not_accepts env hchoices haccepts
    rw [hserve] at hserved
    obtain ⟨rfl, hresp⟩ := Prod.mk.inj hserved
    obtain rfl := Option.some.inj hresp
    have hnot : ¬ resp.ok := by
      intro hok'
      have hstatus := (hok hok').2.1
      rw [cmd_coerce] at hstatus
      exact absurd hstatus (by decide)
    exact ⟨iff_of_false hnot haccepts, fun hok' ↦ absurd hok' hnot, fun _ ↦ rfl⟩

/-- With flags that are read, a run of the command is its call. -/
theorem use_iff_of_ok {rooms : Rooms} (hflags : parseVars flags = .ok vars) :
    Use env choices parseError (some rooms) json flags target d d' code ↔
      ∃ result, Exchange env choices parseError rooms.client rooms.server d
        (useRequest target vars) d' result ∧ code = exitCode json result := by
  unfold Use
  simp only [hflags]

/-- A run of the command came to its call or did nothing. -/
theorem use_cases {rooms : Option Rooms}
    (h : Use env choices parseError rooms json flags target d d' code) :
    (d' = d ∧ code = 2) ∨ ∃ vars, ∃ rooms : Rooms, ∃ result, parseVars flags = .ok vars ∧
      Exchange env choices parseError rooms.client rooms.server d (useRequest target vars) d'
        result ∧ code = exitCode json result := by
  unfold Use at h
  split at h
  next hflags =>
    obtain ⟨result, hexchange, hcode⟩ := h
    exact .inr ⟨_, _, result, hflags, hexchange, hcode⟩
  next => exact .inl h

/-- Whatever becomes of the connection, 0 means that the switch has happened, and 1 that nothing
has. -/
theorem outcome_of_use (hchoices : choices.Valid d) {rooms : Option Rooms}
    (h : Use env choices parseError rooms json flags target d d' code) :
    (code = 0 → Switched choices flags target d d') ∧ (code = 1 → d' = d) := by
  rcases use_cases h with ⟨rfl, rfl⟩ | ⟨vars, rooms, result, hflags, hexchange, rfl⟩
  · exact ⟨fun hcode ↦ absurd hcode (by decide), fun _ ↦ rfl⟩
  · rcases exchange_atomic hchoices hexchange with ⟨rfl, herrs⟩ | ⟨resp, hserve, hresult⟩
    · rw [exitCode_of_errs herrs]
      exact ⟨fun hcode ↦ absurd hcode (by decide), fun _ ↦ rfl⟩
    · obtain ⟨-, hswitched, hsame⟩ := serve_use env hchoices hflags hserve
      rcases hresult with rfl | herrs
      · refine ⟨fun hcode ↦ hswitched (exitCode_ok_iff.mp hcode), fun hcode ↦ hsame fun hok ↦ ?_⟩
        rw [exitCode_ok_iff.mpr hok] at hcode
        exact absurd hcode (by decide)
      · rw [exitCode_of_errs herrs]
        exact ⟨fun hcode ↦ absurd hcode (by decide), fun hcode ↦ absurd hcode (by decide)⟩

/-- Over a connection that takes everything, the code is that of the daemon's own response. -/
theorem use_all_iff (hchoices : choices.Valid d) (hflags : parseVars flags = .ok vars) :
    Use env choices parseError (some .all) json flags target d d' code ↔
      ∃ resp, serve env choices d (useRequest target vars).coerce = (d', some resp) ∧
        code = exitCode json (.ok resp.coerce) := by
  rw [use_iff_of_ok hflags]
  constructor
  · rintro ⟨result, hexchange, rfl⟩
    obtain ⟨resp, hserve, rfl⟩ := (exchange_whole hchoices).mp hexchange
    exact ⟨resp, hserve, rfl⟩
  · rintro ⟨resp, hserve, rfl⟩
    exact ⟨_, (exchange_whole hchoices).mpr ⟨resp, hserve, rfl⟩, rfl⟩

/-- Flags that are not read end the command. -/
theorem use_iff_of_error {rooms : Option Rooms} {fault : Fault GoError}
    (hflags : parseVars flags = .error fault) :
    Use env choices parseError rooms json flags target d d' code ↔ d' = d ∧ code = 2 := by
  unfold Use
  simp only [hflags]

theorem acceptable_iff_of_ok (hflags : parseVars flags = .ok vars) :
    Acceptable d flags target ↔ Accepts d (useRequest target vars).coerce := by
  constructor
  · rintro ⟨vars', hok, haccepts⟩
    obtain rfl := Except.ok.inj (hflags.symm.trans hok)
    exact haccepts
  · exact fun haccepts ↦ ⟨vars, hflags, haccepts⟩

/-- Over such a connection the command ends. -/
theorem exists_use_all (env : Env) (parseError : GoError) (hchoices : choices.Valid d)
    (json : Bool) (flags : List Bytes) (target : Bytes) :
    ∃ d' code, Use env choices parseError (some .all) json flags target d d' code := by
  cases hflags : parseVars flags with
  | error fault => exact ⟨d, 2, (use_iff_of_error hflags).mpr ⟨rfl, rfl⟩⟩
  | ok vars =>
    obtain ⟨d', resp, hserve⟩ := exists_serve env hchoices (useRequest target vars).coerce
    exact ⟨d', _, (use_all_iff hchoices hflags).mpr ⟨resp, hserve, rfl⟩⟩

/-- The exit code of `dbpivot use`. If it is 0, the daemon has carried out the switch; if it is 1,
the daemon is as it was. Over a connection that takes everything the command ends, with 0 exactly if
its flags are read and the daemon accepts the request, with 1 exactly if it prints text, the flags
are read and the request is refused, and with any code but 0 only if nothing has changed. -/
theorem use_exit_code (env : Env) (parseError : GoError) (hchoices : choices.Valid d) (json : Bool)
    (flags : List Bytes) (target : Bytes) :
    (∀ rooms d' code, Use env choices parseError rooms json flags target d d' code →
      (code = 0 → Switched choices flags target d d') ∧ (code = 1 → d' = d)) ∧
    (∃ d' code, Use env choices parseError (some .all) json flags target d d' code) ∧
    ∀ d' code, Use env choices parseError (some .all) json flags target d d' code →
      (code = 0 ↔ Acceptable d flags target) ∧
      (code = 1 ↔ json = false ∧ (∃ vars, parseVars flags = .ok vars) ∧
        ¬ Acceptable d flags target) ∧
      (code ≠ 0 → d' = d) := by
  refine ⟨fun _ _ _ h ↦ outcome_of_use hchoices h,
    exists_use_all env parseError hchoices json flags target, fun d' code h ↦ ?_⟩
  cases hflags : parseVars flags with
  | error fault =>
    have hnever : ¬ Acceptable d flags target := by
      rintro ⟨vars, hok, -⟩
      cases hflags.symm.trans hok
    obtain ⟨rfl, rfl⟩ := (use_iff_of_error hflags).mp h
    refine ⟨iff_of_false (by decide) hnever, iff_of_false (by decide) ?_, fun _ ↦ rfl⟩
    rintro ⟨-, ⟨vars, hok⟩, -⟩
    cases hok
  | ok vars =>
    obtain ⟨resp, hserve, rfl⟩ := (use_all_iff hchoices hflags).mp h
    obtain ⟨hok, -, hsame⟩ := serve_use env hchoices hflags hserve
    rw [acceptable_iff_of_ok hflags, ← hok]
    refine ⟨exitCode_ok_iff, ?_, fun hcode ↦ hsame fun hok ↦ hcode (exitCode_ok_iff.mpr hok)⟩
    -- A response that is not OK is an error of the tool with `--json`, and else an exit on its own.
    cases hresp : resp.ok <;> cases json <;> simp [exitCode, Response.coerce, hresp]

/-- `dbpivot use local` on the daemon with one database. -/
theorem use_exit_code_single :
    ∃ d', Use Mongo.openEnv singleChoices eof (some .all) false [] (str "local") singleDaemon d' 0 ∧
      Switched singleChoices [] (str "local") singleDaemon d' := by
  have hrequest : (useRequest (str "local") ∅).coerce = useRequest (str "local") ∅ := by
    refine Request.coerce_eq_self_iff.mpr ⟨by decide, by decide, fun key value hget ↦ ?_⟩
    rw [useRequest, GoMap.get_empty] at hget
    cases hget
  have hswitch : ∃ results server, switchAll singleDaemon.server (str "local") ∅
      singleChoices.orders = (.ok results, server) := ⟨_, _, rfl⟩
  obtain ⟨results, server, hcall⟩ := hswitch
  have hacceptable : Acceptable singleDaemon [] (str "local") := by
    refine ⟨∅, rfl, ?_⟩
    rw [hrequest]
    exact ⟨rfl, rfl, by decide, Proxy.switchable_of_ok singleDaemon_valid.orders hcall⟩
  obtain ⟨hmeans, ⟨d', code, huse⟩, hcodes⟩ :=
    use_exit_code Mongo.openEnv eof singleDaemon_valid false [] (str "local")
  obtain rfl := (hcodes d' code huse).1.mpr hacceptable
  exact ⟨d', huse, (hmeans _ d' 0 huse).1 rfl⟩

end DbPivot.Cli
