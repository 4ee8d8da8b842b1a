import DbPivot.Config.Scanners
import DbPivot.Control.History

/-!
# What a refused `use` says

A `use` may be refused because a database that declares the target needs variables that were not
given. The response then lists those of one such database, all of them. Which database it is depends
on the order in which the daemon goes through them, so an operator may have to try again, but not
more often than there are databases that declare the target.
-/

namespace DbPivot.Control

open DbPivot.Go DbPivot.Config DbPivot.Text
open DbPivot.Mongo (Env)
open DbPivot.Proxy (SwitchError openDatabases switchAll planLoop planAll)

/-- The database needs these variables for the target, and they were not given. -/
structure Lacks (cfg : Config) (target : Bytes) (vars : GoMap Bytes Bytes) (name : Bytes)
    (missing : List Bytes) : Prop where
  needed : ∃ db t, (openDatabases cfg).get name = some db ∧ db.byName.get target = some t ∧
    missing = (requiredVars t.database).filter (· ∉ vars)
  missing_ne : missing ≠ []

/-! ## From the template to the response -/

section Errors

variable {missing : List Bytes} (hmissing : missing ≠ [])

include hmissing

/-- An error for want of variables lists all of them. -/
theorem missing_of_resolve {s : Bytes} {vars : GoMap Bytes Bytes}
    (h : FailsWith (fun e ↦ e.missing = missing) (resolve s vars)) :
    missing = (requiredVars s).filter (· ∉ vars) := by
  by_cases hreads : ∃ tokens, Reads marks s tokens
  · obtain ⟨tokens, hreads⟩ := hreads
    rw [resolve_of_reads hreads, missing_eq_filter hreads, resolveEnd] at h
    split at h
    next => exact (failsWith_fail.mp h).symm
    next => exact absurd h not_failsWith_ok
  · obtain ⟨err, hfail⟩ := resolve_of_not_reads (not_exists.mp hreads)
    rw [hfail] at h
    exact absurd (failsWith_fail.mp h).symm hmissing

theorem missing_of_resolveTarget {db : Proxy.Database} {name : Bytes} {vars : GoMap Bytes Bytes}
    (h : FailsWith (fun e ↦ e.missing = missing) (db.resolveTarget name vars)) :
    ∃ t, db.byName.get name = some t ∧
      missing = (requiredVars t.database).filter (· ∉ vars) := by
  have hkeep : ∀ e : ResolveError, (Proxy.Database.resolveFailure name e).missing = e.missing := by
    intro e
    rw [Proxy.Database.resolveFailure]
    split
    next => rfl
    next hlength => exact (List.eq_nil_of_length_eq_zero (Nat.eq_zero_of_not_pos hlength)).symm
  rw [Proxy.Database.resolveTarget] at h
  split at h
  next => exact absurd (failsWith_fail.mp h).symm hmissing
  next t hget =>
    refine ⟨t, hget, missing_of_resolve hmissing ?_⟩
    rcases failsWith_bind.mp h with hresolve | ⟨resolved, -, hrest⟩
    · simpa only [failsWith_mapErr_iff, hkeep] using hresolve
    · rcases failsWith_bind.mp hrest with hrefuse | ⟨-, -, hpure⟩
      · exact absurd (failsWith_refuse.mp hrefuse).2.symm hmissing
      · exact absurd hpure not_failsWith_ok

theorem missing_of_planLoop {target : Bytes} {vars : GoMap Bytes Bytes}
    {entries : List (Bytes × Proxy.Database)} {plans : GoMap Bytes Proxy.Plan} {declared : ℕ}
    (h : FailsWith (fun e ↦ missingVars e = missing)
      (planLoop target vars entries plans declared)) :
    ∃ entry ∈ entries, ∃ t, entry.2.byName.get target = some t ∧
      missing = (requiredVars t.database).filter (· ∉ vars) := by
  induction entries generalizing plans declared with
  | nil => exact absurd h not_failsWith_ok
  | cons entry rest ih =>
    obtain ⟨name, db⟩ := entry
    have hlater {plans : GoMap Bytes Proxy.Plan} {declared : ℕ}
        (h : FailsWith (fun e ↦ missingVars e = missing)
          (planLoop target vars rest plans declared)) :
        ∃ entry ∈ (name, db) :: rest, ∃ t, entry.2.byName.get target = some t ∧
          missing = (requiredVars t.database).filter (· ∉ vars) := by
      obtain ⟨entry, hentry, ht⟩ := ih h
      exact ⟨entry, List.mem_cons_of_mem _ hentry, ht⟩
    rw [planLoop] at h
    split at h
    next => exact hlater h
    next =>
      rcases failsWith_bind.mp h with hresolve | ⟨rt, -, hrest⟩
      · rw [failsWith_mapErr_iff] at hresolve
        exact ⟨(name, db), List.mem_cons_self, missing_of_resolveTarget hmissing hresolve⟩
      · exact hlater hrest

theorem missing_of_planAll {databases : GoMap Bytes Proxy.Database} {target : Bytes}
    {vars : GoMap Bytes Bytes} {order : List Bytes}
    (h : FailsWith (fun e ↦ missingVars e = missing) (planAll databases target vars order)) :
    ∃ entry ∈ databases.entries order, ∃ t, entry.2.byName.get target = some t ∧
      missing = (requiredVars t.database).filter (· ∉ vars) := by
  rcases failsWith_bind.mp h with hloop | ⟨⟨plans, declared⟩, -, hrest⟩
  · exact missing_of_planLoop hmissing hloop
  · rcases failsWith_bind.mp hrest with hrefuse | ⟨-, -, hpure⟩
    · exact absurd (failsWith_refuse.mp hrefuse).2.symm hmissing
    · exact absurd hpure not_failsWith_ok

/-- A response that lists variables comes from a failed first pass. -/
theorem failsWith_of_missing {env : Env} {choices : Choices} {d d' : Daemon} {req : Request}
    {resp : Response} (hserve : serve env choices d req = (d', some resp))
    (hresp : resp.missing = missing) :
    FailsWith (fun e ↦ missingVars e = missing)
      (planAll d.server.databases req.target req.vars choices.orders.plan) := by
  have hother {d₀ : Daemon} {other : Response} (hlist : other.missing = [])
      (h : (d₀, some other) = (d', some resp)) : False := by
    obtain rfl := Option.some.inj (Prod.mk.inj h).2
    exact hmissing (hresp.symm.trans hlist)
  unfold serve at hserve
  split at hserve
  next => exact (hother rfl hserve).elim
  next =>
    split at hserve
    next =>
      unfold handleUse at hserve
      split at hserve
      next => exact (hother rfl hserve).elim
      next =>
        split at hserve
        next => exact (hother rfl hserve).elim
        next err server hcall =>
          refine ⟨err, Proxy.switchAll_eq_error.mp (congrArg Prod.fst hcall), ?_⟩
          obtain rfl := Option.some.inj (Prod.mk.inj hserve).2
          exact hresp
        next => exact absurd (Prod.mk.inj hserve).2 (Option.some_ne_none _).symm
    next =>
      split at hserve
      next => exact (hother rfl hserve).elim
      next => exact (hother rfl hserve).elim

end Errors

/-! ## In a serial run -/

variable {cfg : Config} {b : Board} {env : Env} {d d' : Daemon} {req : Request} {resp : Response}
  {history : List Event}

/-- The variables a response lists are those some database lacks. -/
theorem Shows.lacks (h : Shows cfg b d) {choices : Choices} (hchoices : choices.Valid d)
    (hserve : serve env choices d req = (d', some resp)) (hmissing : resp.missing ≠ []) :
    ∃ name, Lacks cfg req.target req.vars name resp.missing := by
  obtain ⟨⟨name, db⟩, hentry, t, ht, hfilter⟩ :=
    missing_of_planAll hmissing (failsWith_of_missing hmissing hserve rfl)
  obtain ⟨conns, -, hget⟩ := h.databases
  rw [GoMap.mem_entries hchoices.orders.plan, hget, Option.map_eq_some_iff] at hentry
  obtain ⟨db₀, hdb₀, rfl⟩ := hentry
  exact ⟨name, ⟨db₀, t, hdb₀, ht, hfilter⟩, hmissing⟩

/-- So it is for all the answers of a serial run. -/
theorem lacks_of_mem_history {start : Daemon} (hstart : Shows cfg b start)
    (hrun : SerialRun env start history d) (hmem : Event.answered req resp ∈ history)
    (hmissing : resp.missing ≠ []) : ∃ name, Lacks cfg req.target req.vars name resp.missing := by
  induction hrun with
  | refl => exact absurd hmem List.not_mem_nil
  | @step history d d' event hrun hstep ih =>
    rcases List.mem_append.mp hmem with hmem | hlast
    · exact ih hmem
    · rw [List.mem_singleton] at hlast
      subst hlast
      cases hstep with
      | answered hchoices hserve => exact (shows_run hstart hrun).lacks hchoices hserve hmissing

/-- A database that was given what it lacked lacks nothing any more. -/
theorem Lacks.not_lacks {target name : Bytes} {vars vars' : GoMap Bytes Bytes}
    {missing missing' : List Bytes} (h : Lacks cfg target vars name missing)
    (hgiven : ∀ var, var ∈ vars ∨ var ∈ missing → var ∈ vars') :
    ¬ Lacks cfg target vars' name missing' := by
  intro h'
  obtain ⟨db, t, hdb, ht, hfilter⟩ := h.needed
  obtain ⟨db', t', hdb', ht', hfilter'⟩ := h'.needed
  obtain rfl : db = db' := Option.some.inj (hdb.symm.trans hdb')
  obtain rfl : t = t' := Option.some.inj (ht.symm.trans ht')
  apply h'.missing_ne
  rw [hfilter', List.filter_eq_nil_iff]
  intro var hvar
  rw [decide_eq_true_eq, not_not]
  apply hgiven
  by_cases hgave : var ∈ vars
  · exact .inl hgave
  · right
    rw [hfilter]
    exact List.mem_filter.mpr ⟨hvar, decide_eq_true hgave⟩

/-- A database that lacks variables for a target is one that declares it. -/
theorem Lacks.mem_declaring {target name : Bytes} {vars : GoMap Bytes Bytes} {missing : List Bytes}
    (h : Lacks cfg target vars name missing) :
    name ∈ (cfg.databases.filter fun c ↦ target ∈ c.targets.map Target.name).map
      Config.Database.virtualName := by
  obtain ⟨db, t, hdb, ht, -⟩ := h.needed
  obtain ⟨c, hc, hname, rfl⟩ := GoMap.exists_of_get_insertAll hdb
  refine List.mem_map.mpr ⟨c, List.mem_filter.mpr ⟨hc, decide_eq_true ?_⟩, hname⟩
  rcases GoMap.mem_insertAll.mp (GoMap.mem_of_get ht) with hempty | hmem
  · exact absurd hempty Finmap.notMem_empty
  · exact hmem

/-- In a serial run, an operator who is told which variables are missing, and gives them from then
on, is told so at most once for each database that declares the target. -/
theorem retries_bounded {initial : Bytes} {vars : GoMap Bytes Bytes} {orders : Proxy.Orders}
    {s : Proxy.Server} (horders : orders.Valid (openDatabases cfg))
    (hnew : Proxy.new cfg initial vars orders = .ok s)
    (hrun : SerialRun env ⟨s, false, cfg⟩ history d)
    (target : Bytes) (attempts : List (Request × Response))
    (hattempts : ∀ a ∈ attempts, Event.answered a.1 a.2 ∈ history ∧ a.1.target = target ∧
      a.2.missing ≠ [])
    (hgiven : attempts.Pairwise fun a a' ↦
      ∀ var, var ∈ a.1.vars ∨ var ∈ a.2.missing → var ∈ a'.1.vars) :
    (∀ a ∈ attempts, ∃ name, Lacks cfg target a.1.vars name a.2.missing) ∧
      attempts.length ≤
        (cfg.databases.filter fun c ↦ target ∈ c.targets.map Target.name).length := by
  have hlacks : ∀ a ∈ attempts, ∃ name, Lacks cfg target a.1.vars name a.2.missing := by
    intro a ha
    obtain ⟨hmem, rfl, hmissing⟩ := hattempts a ha
    exact lacks_of_mem_history (shows_new horders hnew) hrun hmem hmissing
  refine ⟨hlacks, ?_⟩
  -- Each attempt finds a database that none of the others finds.
  have htotal : ∀ a, ∃ name, a ∈ attempts → Lacks cfg target a.1.vars name a.2.missing := by
    intro a
    by_cases ha : a ∈ attempts
    · obtain ⟨name, hname⟩ := hlacks a ha
      exact ⟨name, fun _ ↦ hname⟩
    · exact ⟨[], fun ha' ↦ absurd ha' ha⟩
  choose culprit hculprit using htotal
  have hnodup : (attempts.map culprit).Nodup := by
    refine List.pairwise_map.mpr (hgiven.imp_of_mem ?_)
    intro a a' ha ha' hgiven hsame
    have hlater := hculprit a' ha'
    rw [← hsame] at hlater
    exact (hculprit a ha).not_lacks hgiven hlater
  have hsubset : attempts.map culprit ⊆
      (cfg.databases.filter fun c ↦ target ∈ c.targets.map Target.name).map
        Config.Database.virtualName := by
    intro name hname
    obtain ⟨a, ha, rfl⟩ := List.mem_map.mp hname
    exact (hculprit a ha).mem_declaring
  simpa using (List.subperm_of_subset hnodup hsubset).length_le

def useReview (vars : GoMap Bytes Bytes) : Request :=
  { cmd := cmdUse, target := str "review", vars }

/-- The variable of `app`, without the one of `audit`. -/
def branchVars : GoMap Bytes Bytes := GoMap.ofKeys [str "B"] fun _ ↦ str "main"

/-- Two databases lack one variable each, and the operator is told of one after the other. -/
theorem retries_bounded_review :
    ∃ (s : Proxy.Server) (first second : Response),
      Proxy.new Proxy.pairConfig (str "local") ∅ Proxy.pairOrders = .ok s ∧
      serve Mongo.openEnv pairChoices ⟨s, false, Proxy.pairConfig⟩ (useReview ∅) =
        (⟨s, false, Proxy.pairConfig⟩, some first) ∧
      first.missing = [str "B"] ∧
      serve Mongo.openEnv pairChoices ⟨s, false, Proxy.pairConfig⟩ (useReview branchVars) =
        (⟨s, false, Proxy.pairConfig⟩, some second) ∧
      second.missing = [str "A"] ∧
      (∃ name, Lacks Proxy.pairConfig (str "review") ∅ name first.missing) ∧
      (∃ name, Lacks Proxy.pairConfig (str "review") branchVars name second.missing) ∧
      2 ≤ (Proxy.pairConfig.databases.filter fun c ↦
        str "review" ∈ c.targets.map Target.name).length := by
  have hserved : ∃ (s : Proxy.Server) (first second : Response),
      Proxy.new Proxy.pairConfig (str "local") ∅ Proxy.pairOrders = .ok s ∧
      serve Mongo.openEnv pairChoices ⟨s, false, Proxy.pairConfig⟩ (useReview ∅) =
        (⟨s, false, Proxy.pairConfig⟩, some first) ∧
      first.missing = [str "B"] ∧
      serve Mongo.openEnv pairChoices ⟨s, false, Proxy.pairConfig⟩ (useReview branchVars) =
        (⟨s, false, Proxy.pairConfig⟩, some second) ∧
      second.missing = [str "A"] := ⟨_, _, _, rfl, rfl, rfl, rfl, rfl⟩
  obtain ⟨s, first, second, hnew, hfirst, hB, hsecond, hA⟩ := hserved
  have hvalid := pairChoices_valid (shows_new Proxy.pairOrders_valid hnew)
  have hrun := (SerialRun.refl.step (.answered hvalid hfirst)).step (.answered hvalid hsecond)
  have hgiven : ∀ var, var ∈ (∅ : GoMap Bytes Bytes) ∨ var ∈ first.missing → var ∈ branchVars := by
    rintro var (hvar | hvar)
    · exact absurd hvar Finmap.notMem_empty
    · rw [hB, List.mem_singleton] at hvar
      subst hvar
      decide
  obtain ⟨hlacks, hlength⟩ := retries_bounded Proxy.pairOrders_valid hnew hrun (str "review")
    [(useReview ∅, first), (useReview branchVars, second)]
    (by simp [useReview, hA, hB]) (List.pairwise_pair.mpr hgiven)
  simp only [List.forall_mem_cons] at hlacks
  exact ⟨s, first, second, hnew, hfirst, hB, hsecond, hA, hlacks.1, hlacks.2.1, hlength⟩

end DbPivot.Control
