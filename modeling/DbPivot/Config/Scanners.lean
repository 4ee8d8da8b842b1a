import DbPivot.Config.Variables

/-!
# The scanners as written

`RequiredVars` and `Resolve` move an index over the text and look at the byte behind it before they
slice. Here the two loops are written with the index and with index and slice expressions that panic
when they are out of range. They never do, and the loops end: on every text they give what the
structural loops give.

Both loops are then compared with the reading of the text as a template, and with each other. They
disagree on purpose on texts that are no templates, where only the first goes on.
-/

namespace DbPivot.Config

open DbPivot.Go DbPivot.Text

/-! ## The loops -/

/-- `i+1 < len(s) && s[i+1] == c`. -/
def nextIs {ε : Type} (s : Bytes) (i : ℕ) (c : UInt8) : GoM ε Bool :=
  if i + 1 < s.length then do
    let next ← index s (i + 1)
    pure (next = c)
  else pure false

/-- The loop of `RequiredVars` from the index on. -/
def scanRequiredVars (s : Bytes) : ℕ → ℕ → List Bytes → GoM GoError (List Bytes)
  | 0, _, _ => .error .outOfFuel
  | fuel + 1, i, out =>
    if i < s.length then do
      let c ← index s i
      if c ≠ marks.sigil then scanRequiredVars s fuel (i + 1) out
      else do
        let escape ← nextIs s i marks.sigil
        if escape then scanRequiredVars s fuel (i + 2) out
        else do
          let reference ← nextIs s i marks.opening
          if reference then do
            let rest ← slice s (i + 2) s.length
            match indexByte rest marks.closing with
            | none => pure out
            | some stop => do
              let name ← slice s (i + 2) (i + 2 + stop)
              scanRequiredVars s fuel (i + (2 + stop + 1)) (appendNew out name)
          else scanRequiredVars s fuel (i + 1) out
    else pure out

/-- The loop of `Resolve` from the index on. -/
def scanResolve (s : Bytes) (vars : GoMap Bytes Bytes) :
    ℕ → ℕ → Bytes → List Bytes → GoM ResolveError Bytes
  | 0, _, _, _ => .error .outOfFuel
  | fuel + 1, i, b, missing =>
    if i < s.length then do
      let c ← index s i
      if c ≠ marks.sigil then scanResolve s vars fuel (i + 1) (b ++ [c]) missing
      else do
        let escape ← nextIs s i marks.sigil
        if escape then scanResolve s vars fuel (i + 2) (b ++ [marks.sigil]) missing
        else do
          let reference ← nextIs s i marks.opening
          if reference then do
            let rest ← slice s (i + 2) s.length
            match indexByte rest marks.closing with
            | none => fail ⟨[], errorf "unclosed variable reference in %q" [.text s]⟩
            | some stop => do
              let name ← slice s (i + 2) (i + 2 + stop)
              match vars.get name with
              | none => scanResolve s vars fuel (i + (2 + stop + 1)) b (appendNew missing name)
              | some val => scanResolve s vars fuel (i + (2 + stop + 1)) (b ++ val) missing
          else fail ⟨[], errorf "bare $ without $\x7b...\x7d in %q at index %d" [.text s, .number i]⟩
    else resolveEnd b missing

/-! ## What the index expressions give -/

section Cursor

variable {ε : Type} {s text rest : Bytes} {i : ℕ}

theorem at_drop (hat : At s i text) {n : ℕ} (hn : n ≤ text.length) : At s (i + n) (text.drop n) := by
  have hsplit : At s i (text.take n ++ text.drop n) := by rwa [List.take_append_drop]
  have hadvance := hsplit.advance
  rwa [List.length_take_of_le hn] at hadvance

theorem nextIs_of_at {c : UInt8} (hat : At s i (c :: rest)) (next : UInt8) :
    (nextIs s i next : GoM ε Bool) = .ok (rest.head? = some next) := by
  have hlength := hat.length
  cases rest with
  | nil =>
    have hend : ¬ i + 1 < s.length := by
      rw [hlength, List.length_singleton]
      exact lt_irrefl _
    rw [nextIs, if_neg hend]
    rfl
  | cons byte after =>
    have hlt : i + 1 < s.length := by
      rw [hlength, List.length_cons, List.length_cons]
      omega
    rw [nextIs, if_pos hlt, hat.cons.index, ok_bind, List.head?_cons]
    simp only [Option.some.injEq]
    rfl

theorem ne_nil_of_head? {byte : UInt8} (h : rest.head? = some byte) : rest ≠ [] := by
  rintro rfl
  exact nomatch h

theorem length_pos_of_head? {byte : UInt8} (h : rest.head? = some byte) : 1 ≤ rest.length :=
  List.length_pos_of_ne_nil (ne_nil_of_head? h)

/-- The rest of the text behind `${`. -/
theorem slice_rest {c : UInt8} (hat : At s i (c :: rest)) (hrest : rest ≠ []) :
    (slice s (i + 2) s.length : GoM ε Bytes) = .ok rest.tail := by
  obtain ⟨byte, after, rfl⟩ := List.exists_cons_of_ne_nil hrest
  have htail : At s (i + 2) (after ++ []) := by
    rw [List.append_nil]
    exact hat.cons.cons
  have hlength := htail.length
  rw [List.append_nil] at hlength
  rw [hlength, htail.slice, List.tail_cons]

/-- The name up to the first `}`, and the index behind it. -/
theorem slice_name {c : UInt8} {stop : ℕ} (hat : At s i (c :: rest)) (hrest : rest ≠ [])
    (hstop : indexByte rest.tail marks.closing = some stop) :
    (slice s (i + 2) (i + 2 + stop) : GoM ε Bytes) = .ok (rest.tail.take stop) ∧
      At s (i + (2 + stop + 1)) (rest.drop (1 + stop + 1)) := by
  obtain ⟨byte, after, rfl⟩ := List.exists_cons_of_ne_nil hrest
  obtain ⟨name, tail, hsplit, -, rfl⟩ := indexByte_eq_some hstop
  rw [List.tail_cons] at hsplit ⊢
  subst hsplit
  have hname : At s (i + 2) (name ++ marks.closing :: tail) := hat.cons.cons
  constructor
  · rw [hname.slice, List.take_left]
  · have hindex : i + (2 + name.length + 1) = i + 1 + (1 + name.length + 1) := by omega
    rw [hindex]
    apply at_drop hat.cons
    simp only [List.length_cons, List.length_append]
    omega

end Cursor

/-! ## The loops end and stay in range -/

theorem scanRequiredVars_eq (s : Bytes) (fuel i : ℕ) (out : List Bytes) {text : Bytes}
    (hat : At s i text) (hfuel : text.length < fuel) :
    scanRequiredVars s fuel i out = .ok (requiredVarsLoop text 0 out) := by
  induction fuel generalizing i out text with
  | zero => exact absurd hfuel (Nat.not_lt_zero _)
  | succ fuel ih =>
    have hlength := hat.length
    cases text with
    | nil =>
      rw [scanRequiredVars, if_neg (by rw [hlength, List.length_nil]; exact lt_irrefl _)]
      rfl
    | cons c rest =>
      rw [List.length_cons] at hlength hfuel
      have hlt : i < s.length := by omega
      rw [scanRequiredVars, if_pos hlt, hat.index, ok_bind, requiredVarsLoop]
      by_cases hplain : c ≠ marks.sigil
      · rw [if_pos hplain, if_pos hplain]
        exact ih _ _ hat.cons (by omega)
      · rw [if_neg hplain, if_neg hplain, nextIs_of_at hat, ok_bind]
        by_cases hsigil : rest.head? = some marks.sigil
        · rw [if_pos (decide_eq_true hsigil), if_pos hsigil, requiredVarsLoop_skip]
          have hrest := length_pos_of_head? hsigil
          exact ih _ _ (at_drop hat.cons hrest) (by rw [List.length_drop]; omega)
        · rw [if_neg (by simpa using hsigil), if_neg hsigil, nextIs_of_at hat, ok_bind]
          by_cases hopening : rest.head? = some marks.opening
          · have hrest := ne_nil_of_head? hopening
            rw [if_pos (decide_eq_true hopening), if_pos hopening, slice_rest hat hrest, ok_bind]
            cases hstop : indexByte rest.tail marks.closing with
            | none => rfl
            | some stop =>
              obtain ⟨hname, hbehind⟩ := slice_name hat hrest hstop
              dsimp only
              rw [hname, ok_bind, requiredVarsLoop_skip]
              exact ih _ _ hbehind (by rw [List.length_drop]; omega)
          · rw [if_neg (by simpa using hopening), if_neg hopening]
            exact ih _ _ hat.cons (by omega)

theorem scanResolve_eq (s : Bytes) (vars : GoMap Bytes Bytes) (fuel i : ℕ) (b : Bytes)
    (missing : List Bytes) {text : Bytes} (hat : At s i text) (hfuel : text.length < fuel) :
    scanResolve s vars fuel i b missing = resolveLoop s vars text 0 i b missing := by
  induction fuel generalizing i b missing text with
  | zero => exact absurd hfuel (Nat.not_lt_zero _)
  | succ fuel ih =>
    have hlength := hat.length
    cases text with
    | nil =>
      rw [scanResolve, if_neg (by rw [hlength, List.length_nil]; exact lt_irrefl _)]
      rfl
    | cons c rest =>
      rw [List.length_cons] at hlength hfuel
      have hlt : i < s.length := by omega
      rw [scanResolve, if_pos hlt, hat.index, ok_bind, resolveLoop]
      by_cases hplain : c ≠ marks.sigil
      · rw [if_pos hplain, if_pos hplain]
        exact ih _ _ _ hat.cons (by omega)
      · rw [if_neg hplain, if_neg hplain, nextIs_of_at hat, ok_bind]
        by_cases hsigil : rest.head? = some marks.sigil
        · rw [if_pos (decide_eq_true hsigil), if_pos hsigil, resolveLoop_skip]
          have hrest := length_pos_of_head? hsigil
          exact ih _ _ _ (at_drop hat.cons hrest) (by rw [List.length_drop]; omega)
        · rw [if_neg (by simpa using hsigil), if_neg hsigil, nextIs_of_at hat, ok_bind]
          by_cases hopening : rest.head? = some marks.opening
          · have hrest := ne_nil_of_head? hopening
            rw [if_pos (decide_eq_true hopening), if_pos hopening, slice_rest hat hrest, ok_bind]
            cases hstop : indexByte rest.tail marks.closing with
            | none => rfl
            | some stop =>
              obtain ⟨hname, hbehind⟩ := slice_name hat hrest hstop
              have hindex : i + (2 + stop + 1) = i + 1 + (1 + stop + 1) := by omega
              dsimp only
              rw [hname, ok_bind]
              cases vars.get (rest.tail.take stop) with
              | none =>
                dsimp only
                rw [ih _ _ _ hbehind (by rw [List.length_drop]; omega), resolveLoop_skip _ _ rest,
                  hindex]
              | some val =>
                dsimp only
                rw [ih _ _ _ hbehind (by rw [List.length_drop]; omega), resolveLoop_skip _ _ rest,
                  hindex]
          · rw [if_neg (by simpa using hopening), if_neg hopening]

/-! ## The scanners and the templates -/

theorem nodup_requiredVarsLoop (text : Bytes) (skip : ℕ) {out : List Bytes} (hout : out.Nodup) :
    (requiredVarsLoop text skip out).Nodup := by
  fun_induction requiredVarsLoop text skip out with
  | case1 => exact hout
  | case2 _ _ _ _ ih => exact ih hout
  | case3 _ _ _ _ ih => exact ih hout
  | case4 _ _ _ _ _ ih => exact ih hout
  | case5 => exact hout
  | case6 _ _ _ _ _ _ _ _ ih => exact ih (nodup_appendNew hout _)
  | case7 _ _ _ _ _ _ ih => exact ih hout

/-- What the two scanners have to do with a text. -/
structure Scanned (s : Bytes) (vars : GoMap Bytes Bytes) : Prop where
  requiredVars_returns : ∀ fuel, s.length < fuel →
    scanRequiredVars s fuel 0 [] = .ok (requiredVars s)
  resolve_returns : Returns (resolve s vars) ∧ ∀ fuel, s.length < fuel →
    scanResolve s vars fuel 0 [] [] = resolve s vars
  nodup : (requiredVars s).Nodup
  names : ∀ tokens, Reads marks s tokens → requiredVars s = (holes tokens).eraseDups
  succeeds : (∃ value, resolve s vars = .ok value) ↔
    (∃ tokens, Reads marks s tokens) ∧ ∀ name ∈ requiredVars s, name ∈ vars
  value : ∀ tokens value, Reads marks s tokens → resolve s vars = .ok value →
    value = expand marks (valueOf vars) tokens
  missing : ∀ tokens, Reads marks s tokens → ¬ (∀ name ∈ requiredVars s, name ∈ vars) →
    ∃ err, resolve s vars = fail ⟨(requiredVars s).filter (· ∉ vars), err⟩
  agree : ∀ vars' : GoMap Bytes Bytes, (∀ name ∈ requiredVars s, vars.get name = vars'.get name) →
    resolve s vars = resolve s vars'

/-- The names without a value are those of `RequiredVars` that have none, in its order. -/
theorem missing_eq_filter {s : Bytes} {tokens : List (Token UInt8)} (hreads : Reads marks s tokens)
    (vars : GoMap Bytes Bytes) :
    ((holes tokens).filter (· ∉ vars)).foldl appendNew [] =
      (requiredVars s).filter (· ∉ vars) := by
  rw [requiredVars_of_reads hreads, filter_foldl_appendNew]
  rfl

theorem resolve_of_missing {s : Bytes} {tokens : List (Token UInt8)} (hreads : Reads marks s tokens)
    {vars : GoMap Bytes Bytes} (hmissing : ¬ ∀ name ∈ requiredVars s, name ∈ vars) :
    ∃ err, resolve s vars = fail ⟨(requiredVars s).filter (· ∉ vars), err⟩ := by
  have hne : (requiredVars s).filter (· ∉ vars) ≠ [] := by
    intro hnil
    apply hmissing
    intro name hname
    by_contra hnot
    exact List.not_mem_nil (hnil ▸ List.mem_filter.mpr ⟨hname, decide_eq_true hnot⟩)
  rw [resolve_of_reads hreads, missing_eq_filter hreads, resolveEnd, if_pos hne]
  exact ⟨_, rfl⟩

/-- Maps that agree on the names of the text resolve it alike. -/
theorem resolve_congr {s : Bytes} {vars vars' : GoMap Bytes Bytes}
    (h : ∀ name ∈ requiredVars s, vars.get name = vars'.get name) :
    resolve s vars = resolve s vars' := by
  by_cases hreads : ∃ tokens, Reads marks s tokens
  · obtain ⟨tokens, hreads⟩ := hreads
    have hvalue (name : Bytes) (hname : name ∈ holes tokens) :
        valueOf vars name = valueOf vars' name := by
      rw [valueOf, valueOf, h name ((mem_requiredVars hreads name).mpr hname)]
    have hmem (name : Bytes) (hname : name ∈ holes tokens) : name ∉ vars ↔ name ∉ vars' := by
      rw [← GoMap.get_eq_none, ← GoMap.get_eq_none,
        h name ((mem_requiredVars hreads name).mpr hname)]
    have hfilter : (holes tokens).filter (· ∉ vars) = (holes tokens).filter (· ∉ vars') :=
      List.filter_congr fun name hname ↦ decide_eq_decide.mpr (hmem name hname)
    rw [resolve_of_reads hreads, resolve_of_reads hreads, expand_congr hvalue, hfilter]
  · obtain ⟨err, hfail⟩ := resolve_of_not_reads (not_exists.mp hreads)
    rw [hfail, hfail]

/-- On every text and with every map, the scanners do what they should. -/
theorem scanned (s : Bytes) (vars : GoMap Bytes Bytes) : Scanned s vars where
  requiredVars_returns fuel hfuel :=
    scanRequiredVars_eq s fuel 0 [] ⟨Nat.zero_le _, rfl⟩ hfuel
  resolve_returns :=
    ⟨returns_resolve s vars, fun fuel hfuel ↦
      scanResolve_eq s vars fuel 0 [] [] ⟨Nat.zero_le _, rfl⟩ hfuel⟩
  nodup := nodup_requiredVarsLoop s 0 List.nodup_nil
  names tokens hreads := by rw [requiredVars_of_reads hreads, foldl_appendNew_eq_eraseDups]
  succeeds := by
    constructor
    · rintro ⟨value, hvalue⟩
      obtain ⟨tokens, hreads, hkeys, -⟩ := resolve_eq_ok.mp hvalue
      exact ⟨⟨tokens, hreads⟩, fun name hname ↦ hkeys name ((mem_requiredVars hreads name).mp hname)⟩
    · rintro ⟨⟨tokens, hreads⟩, hkeys⟩
      refine ⟨_, (resolve_eq_ok_of_reads hreads).mpr ⟨fun name hname ↦ ?_, rfl⟩⟩
      exact hkeys name ((mem_requiredVars hreads name).mpr hname)
  value tokens value hreads hvalue := ((resolve_eq_ok_of_reads hreads).mp hvalue).2
  missing tokens hreads hmissing := resolve_of_missing hreads hmissing
  agree vars' h := resolve_congr h

end DbPivot.Config
