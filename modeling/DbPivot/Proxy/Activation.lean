import DbPivot.Proxy.Database

/-!
# Which targets can be activated

Validation checks the database name of a target only when the name has no variables; a template is
left to the switch, which is where its values are known. A target whose template can be read is
therefore activatable exactly when the text around its variables leaves room for an identifier, and
a plain name that validation accepted always resolves.
-/

namespace DbPivot.Proxy

open DbPivot.Go DbPivot.Config DbPivot.Text

theorem identInner_of_identStart (c : UInt8) (hstart : identStart c) : identInner c := by
  rw [identInner, hstart, Bool.true_or, Bool.true_or]

/-- The regular expression in terms of character classes and a length. -/
theorem validIdentifier_iff (s : Bytes) :
    validIdentifier s ↔ IsIdentifier identStart identInner 63 s := by
  cases s with
  | nil => simp [validIdentifier, IsIdentifier]
  | cons c rest =>
    simp only [validIdentifier, IsIdentifier, Bool.and_eq_true, List.all_eq_true,
      decide_eq_true_eq, List.head?_cons, Option.some.injEq, exists_eq_left',
      List.forall_mem_cons, List.length_cons]
    constructor
    · intro h
      exact ⟨h.1.1, ⟨identInner_of_identStart c h.1.1, h.1.2⟩, by omega⟩
    · intro h
      exact ⟨⟨h.1, h.2.1.2⟩, by omega⟩

section Template

variable {d : Database} {name : Bytes} {t : Target} {tokens : List (Token UInt8)}

theorem exists_resolveTarget_iff (hget : d.byName.get name = some t)
    (hreads : Reads marks t.database tokens) (vars : GoMap Bytes Bytes) :
    (∃ rt, d.resolveTarget name vars = .ok rt) ↔ (∀ hole ∈ holes tokens, hole ∈ vars) ∧
      (expand marks (valueOf vars) tokens = [] ∨
        IsIdentifier identStart identInner 63 (expand marks (valueOf vars) tokens)) := by
  simp only [Database.resolveTarget_eq_ok, hget, Option.some.injEq, ← validIdentifier_iff]
  constructor
  · intro h
    rcases h with ⟨rt, t', resolvedDB, rfl, hresolve, hvalid, -⟩
    rcases (resolve_eq_ok_of_reads hreads).mp hresolve with ⟨hvars, rfl⟩
    exact ⟨hvars, hvalid⟩
  · intro h
    rcases h with ⟨hvars, hvalid⟩
    exact ⟨_, t, _, rfl, (resolve_eq_ok_of_reads hreads).mpr ⟨hvars, rfl⟩, hvalid, rfl⟩

/-- Some assignment to exactly the required variables resolves the target when the text around them
leaves room for an identifier. -/
theorem exists_vars_iff_fits (hget : d.byName.get name = some t)
    (hreads : Reads marks t.database tokens) :
    (∃ vars : GoMap Bytes Bytes, (∀ var, var ∈ vars ↔ var ∈ requiredVars t.database) ∧
      ∃ rt, d.resolveTarget name vars = .ok rt) ↔
      Fits identStart identInner 63 marks tokens := by
  have hletter : identStart 97 := by decide
  rw [← exists_expand_iff hletter identInner_of_identStart]
  constructor
  · intro h
    rcases h with ⟨vars, -, hresolve⟩
    exact ⟨valueOf vars, ((exists_resolveTarget_iff hget hreads vars).mp hresolve).2⟩
  · intro h
    rcases h with ⟨value, hvalue⟩
    have hkeys : ∀ var, var ∈ GoMap.ofKeys (requiredVars t.database) value ↔
        var ∈ requiredVars t.database := fun var ↦ GoMap.mem_ofKeys
    have hexpand : expand marks (valueOf (GoMap.ofKeys (requiredVars t.database) value)) tokens =
        expand marks value tokens := by
      refine expand_congr fun var hvar ↦ ?_
      rw [valueOf, GoMap.get_ofKeys, if_pos ((mem_requiredVars hreads var).mpr hvar),
        Option.getD_some]
    refine ⟨_, hkeys, (exists_resolveTarget_iff hget hreads _).mpr ⟨fun var hvar ↦ ?_, ?_⟩⟩
    · exact (hkeys var).mpr ((mem_requiredVars hreads var).mpr hvar)
    · rw [hexpand]
      exact hvalue

/-- A template without variables that passed the static check resolves with the empty map. -/
theorem exists_resolveTarget_empty (hget : d.byName.get name = some t)
    (hreads : Reads marks t.database tokens) (hplain : requiredVars t.database = [])
    (hstatic : t.database = [] ∨ validIdentifier t.database) :
    ∃ rt, d.resolveTarget name ∅ = .ok rt := by
  have hholes : holes tokens = [] := by
    rw [List.eq_nil_iff_forall_not_mem]
    intro var hvar
    rw [← mem_requiredVars hreads, hplain] at hvar
    exact List.not_mem_nil hvar
  have hexpand : expand marks (valueOf ∅) tokens = literals marks tokens :=
    expand_congr fun var hvar ↦ absurd (hholes ▸ hvar) List.not_mem_nil
  have hsublist := literals_sublist_text hreads
  refine (exists_resolveTarget_iff hget hreads ∅).mpr ⟨fun var hvar ↦ ?_, ?_⟩
  · exact absurd (hholes ▸ hvar) List.not_mem_nil
  · rw [hexpand]
    rcases hstatic with hnil | hident
    · rw [hnil] at hsublist
      exact .inl (List.sublist_nil.mp hsublist)
    · rcases (validIdentifier_iff _).mp hident with ⟨hstart, hinner, hlength⟩
      refine .inr ⟨?_, fun c hc ↦ hinner c (hsublist.subset hc), hsublist.length_le.trans hlength⟩
      rw [head?_literals hreads hholes]
      exact hstart

end Template

/-- In a validated configuration, a target whose template can be read is activatable exactly when
the text around its variables leaves room for an identifier, and always when it has none. -/
theorem resolveTarget_activatable {cfg : Config} {portOrder forwardOrder : List Bytes}
    (hports : Enumerates portOrder cfg.listenPorts)
    (hforward : Enumerates forwardOrder cfg.forwardTargets)
    (hvalid : validate cfg portOrder forwardOrder = .ok ())
    {d : Config.Database} (hd : d ∈ cfg.databases) {t : Target} (ht : t ∈ d.targets)
    {tokens : List (Token UInt8)} (hreads : Reads marks t.database tokens) :
    ((∃ vars : GoMap Bytes Bytes, (∀ var, var ∈ vars ↔ var ∈ requiredVars t.database) ∧
        ∃ rt, (newDatabase d cfg.forwardTargets).resolveTarget t.name vars = .ok rt) ↔
      Fits identStart identInner 63 marks tokens) ∧
    (requiredVars t.database = [] →
      ∃ rt, (newDatabase d cfg.forwardTargets).resolveTarget t.name ∅ = .ok rt) := by
  have hok := ((validate_eq_ok hports hforward).mp hvalid).databases d hd
  have hget : (newDatabase d cfg.forwardTargets).byName.get t.name = some t :=
    GoMap.get_insertAll ∅ hok.nodup ht
  refine ⟨exists_vars_iff_fits hget hreads, fun hplain ↦ ?_⟩
  refine exists_resolveTarget_empty hget hreads hplain ?_
  exact (hok.targets t ht).database.imp_right fun h ↦ h.resolve_left (not_not.mpr hplain)

/-! ## A configuration with one target -/

/-- One PostgreSQL database with one target, whose database name is the given template. -/
def singleTarget (database : Bytes) : Target where
  name := str "local"
  host := str "localhost"
  port := 5432
  forwardTo := []
  user := str "app"
  password := str "secret"
  database := database
  authSource := []
  sslMode := []

def singleDatabase (database : Bytes) : Config.Database where
  adapter := adapterPostgres
  virtualName := str "app"
  targets := [singleTarget database]

def singleConfig (database : Bytes) : Config where
  listenHost := []
  listenPorts := GoMap.ofKeys [adapterPostgres] fun _ ↦ 6432
  forwardTargets := ∅
  databases := [singleDatabase database]

theorem enumerates_singleConfig (database : Bytes) :
    Enumerates [adapterPostgres] (singleConfig database).listenPorts ∧
      Enumerates [] (singleConfig database).forwardTargets :=
  ⟨⟨List.nodup_singleton _, fun _ ↦ GoMap.mem_ofKeys.symm⟩,
    ⟨List.nodup_nil, fun _ ↦ iff_of_false List.not_mem_nil Finmap.notMem_empty⟩⟩

/-- Activation of `app_${B}`. -/
theorem resolveTarget_activatable_branch :
    ∃ vars : GoMap Bytes Bytes,
      (∀ var, var ∈ vars ↔ var ∈ requiredVars (str "app_$\x7bB\x7d")) ∧
      ∃ rt, (newDatabase (singleDatabase (str "app_$\x7bB\x7d")) ∅).resolveTarget
        (str "local") vars = .ok rt := by
  have horders := enumerates_singleConfig (str "app_$\x7bB\x7d")
  have hreads : Reads marks (str "app_$\x7bB\x7d")
      [.plain 97, .plain 112, .plain 112, .plain 95, .hole [66]] := by
    change Reads marks (97 :: 112 :: 112 :: 95 :: marks.sigil :: marks.opening ::
      ([66] ++ marks.closing :: [])) _
    exact .plain (by decide) (.plain (by decide) (.plain (by decide) (.plain (by decide)
      (.hole (by decide) .nil))))
  have hfits : Fits identStart identInner 63 marks
      [.plain 97, .plain 112, .plain 112, .plain 95, .hole [66]] :=
    .inr ⟨by simp [literals, Token.fill, identInner, identStart],
      .inl ⟨⟨97, rfl, by decide⟩, by decide⟩⟩
  exact (resolveTarget_activatable horders.1 horders.2 (by rfl) List.mem_cons_self
    List.mem_cons_self hreads).1.mpr hfits

/-- Validation accepts `${A}/x`, and no value of `A` makes an identifier of it. -/
theorem exists_validated_not_activatable :
    ∃ (cfg : Config) (portOrder forwardOrder : List Bytes) (d : Config.Database) (t : Target),
      Enumerates portOrder cfg.listenPorts ∧ Enumerates forwardOrder cfg.forwardTargets ∧
      validate cfg portOrder forwardOrder = .ok () ∧ d ∈ cfg.databases ∧ t ∈ d.targets ∧
      ¬ ∃ vars : GoMap Bytes Bytes, (∀ var, var ∈ vars ↔ var ∈ requiredVars t.database) ∧
        ∃ rt, (newDatabase d cfg.forwardTargets).resolveTarget t.name vars = .ok rt := by
  have horders := enumerates_singleConfig (str "$\x7bA\x7d/x")
  have hreads : Reads marks (str "$\x7bA\x7d/x") [.hole [65], .plain 47, .plain 120] := by
    change Reads marks (marks.sigil :: marks.opening :: ([65] ++ marks.closing :: [47, 120])) _
    exact .hole (by decide) (.plain (by decide) (.plain (by decide) .nil))
  refine ⟨_, _, _, _, _, horders.1, horders.2, by rfl, List.mem_cons_self, List.mem_cons_self, ?_⟩
  rw [exists_vars_iff_fits (t := singleTarget (str "$\x7bA\x7d/x")) rfl hreads]
  intro hfits
  rcases hfits with hnil | ⟨hinner, -⟩
  · exact absurd hnil (by decide)
  · exact absurd (hinner 47 (by decide)) (by decide)

end DbPivot.Proxy
