import DbPivot.Go.Fault
import DbPivot.Go.Map
import DbPivot.Text.Template

/-!
# Database templates

The scanners behind `${VAR}` in a target's database name. `RequiredVars` and `Resolve` are two
separate loops over the same bytes: the first one passes over a lone `$` and stops at an unclosed
`${`, the second one refuses both. The loops jump over a reference once it is read; a jump is a
number of bytes still to be passed over, so both are structural on the text.

The specification is the reading of the text as a template: `Resolve` succeeds exactly on the texts
that have one and whose names all have a value, and gives the filled template.
-/

namespace DbPivot.Config

open DbPivot.Go DbPivot.Text

/-- `$`, `{` and `}`. -/
def marks : Marks UInt8 := ⟨36, 123, 125, by decide⟩

/-! ## The scanners -/

/-- The loop of `RequiredVars` over `s[i:]`, with `skip` bytes to pass over first. The names seen
are exactly those of `out`. -/
def requiredVarsLoop : Bytes → ℕ → List Bytes → List Bytes
  | [], _, out => out
  | _ :: rest, skip + 1, out => requiredVarsLoop rest skip out
  | c :: rest, 0, out =>
    if c ≠ marks.sigil then requiredVarsLoop rest 0 out
    else if rest.head? = some marks.sigil then requiredVarsLoop rest 1 out
    else if rest.head? = some marks.opening then
      match indexByte rest.tail marks.closing with
      | none => out
      | some stop =>
        requiredVarsLoop rest (1 + stop + 1) (appendNew out (rest.tail.take stop))
    else requiredVarsLoop rest 0 out

/-- `RequiredVars`. -/
def requiredVars (s : Bytes) : List Bytes := requiredVarsLoop s 0 []

/-- The two last results of `Resolve` when it fails. -/
structure ResolveError where
  missing : List Bytes
  err : GoError

/-- `Resolve` after its loop. -/
def resolveEnd (b : Bytes) (missing : List Bytes) : GoM ResolveError Bytes :=
  if missing ≠ [] then
    fail ⟨missing, errorf "missing variables: %s" [.text (join missing (str ", "))]⟩
  else pure b

/-- The loop of `Resolve` over `s[i:]`, with `skip` bytes to pass over first. The names seen missing
are exactly those of `missing`. -/
def resolveLoop (s : Bytes) (vars : GoMap Bytes Bytes) :
    Bytes → ℕ → ℕ → Bytes → List Bytes → GoM ResolveError Bytes
  | [], _, _, b, missing => resolveEnd b missing
  | _ :: rest, skip + 1, i, b, missing => resolveLoop s vars rest skip (i + 1) b missing
  | c :: rest, 0, i, b, missing =>
    if c ≠ marks.sigil then resolveLoop s vars rest 0 (i + 1) (b ++ [c]) missing
    else if rest.head? = some marks.sigil then
      resolveLoop s vars rest 1 (i + 1) (b ++ [marks.sigil]) missing
    else if rest.head? = some marks.opening then
      match indexByte rest.tail marks.closing with
      | none => fail ⟨[], errorf "unclosed variable reference in %q" [.text s]⟩
      | some stop =>
        let name := rest.tail.take stop
        match vars.get name with
        | none => resolveLoop s vars rest (1 + stop + 1) (i + 1) b (appendNew missing name)
        | some val => resolveLoop s vars rest (1 + stop + 1) (i + 1) (b ++ val) missing
    else fail ⟨[], errorf "bare $ without $\x7b...\x7d in %q at index %d" [.text s, .number i]⟩

/-- `Resolve`. -/
def resolve (s : Bytes) (vars : GoMap Bytes Bytes) : GoM ResolveError Bytes :=
  resolveLoop s vars s 0 0 [] []

/-! ## One token of each loop -/

theorem opening_ne_sigil : some marks.opening ≠ some marks.sigil := by decide

theorem requiredVarsLoop_skip (text : Bytes) (skip : ℕ) (out : List Bytes) :
    requiredVarsLoop text skip out = requiredVarsLoop (text.drop skip) 0 out := by
  induction text generalizing skip with
  | nil => simp [requiredVarsLoop]
  | cons c rest ih =>
    cases skip with
    | zero => rfl
    | succ skip => rw [requiredVarsLoop, ih, List.drop_succ_cons]

theorem requiredVarsLoop_plain {c : UInt8} (hc : c ≠ marks.sigil) (rest : Bytes)
    (out : List Bytes) : requiredVarsLoop (c :: rest) 0 out = requiredVarsLoop rest 0 out := by
  rw [requiredVarsLoop, if_pos hc]

theorem requiredVarsLoop_sigil (rest : Bytes) (out : List Bytes) :
    requiredVarsLoop (marks.sigil :: marks.sigil :: rest) 0 out = requiredVarsLoop rest 0 out := by
  rw [requiredVarsLoop, if_neg (by simp), List.head?_cons, if_pos rfl, requiredVarsLoop_skip]
  rfl

theorem requiredVarsLoop_hole {name : Bytes} (hname : marks.closing ∉ name) (rest : Bytes)
    (out : List Bytes) :
    requiredVarsLoop (marks.sigil :: marks.opening :: (name ++ marks.closing :: rest)) 0 out =
      requiredVarsLoop rest 0 (appendNew out name) := by
  have hdrop : (marks.opening :: (name ++ marks.closing :: rest)).drop (1 + name.length + 1) =
      rest := by
    rw [Nat.add_comm 1, List.drop_succ_cons, List.drop_append, Nat.add_sub_cancel_left]
    simp
  rw [requiredVarsLoop, if_neg (by simp), List.head?_cons, if_neg opening_ne_sigil,
    if_pos rfl, List.tail_cons,
    indexByte_append hname]
  simp only [List.take_left]
  rw [requiredVarsLoop_skip, hdrop]

theorem resolveLoop_skip (s : Bytes) (vars : GoMap Bytes Bytes) (text : Bytes) (skip i : ℕ)
    (b : Bytes) (missing : List Bytes) :
    resolveLoop s vars text skip i b missing =
      resolveLoop s vars (text.drop skip) 0 (i + skip) b missing := by
  induction text generalizing skip i with
  | nil => simp [resolveLoop]
  | cons c rest ih =>
    cases skip with
    | zero => rfl
    | succ skip =>
      rw [resolveLoop, ih, List.drop_succ_cons, Nat.add_assoc, Nat.add_comm 1 skip]

section Step

variable (s : Bytes) (vars : GoMap Bytes Bytes) (i : ℕ) (b : Bytes) (missing : List Bytes)

theorem resolveLoop_plain {c : UInt8} (hc : c ≠ marks.sigil) (rest : Bytes) :
    resolveLoop s vars (c :: rest) 0 i b missing =
      resolveLoop s vars rest 0 (i + 1) (b ++ [c]) missing := by
  rw [resolveLoop, if_pos hc]

theorem resolveLoop_sigil (rest : Bytes) :
    resolveLoop s vars (marks.sigil :: marks.sigil :: rest) 0 i b missing =
      resolveLoop s vars rest 0 (i + 2) (b ++ [marks.sigil]) missing := by
  rw [resolveLoop, if_neg (by simp), List.head?_cons, if_pos rfl, resolveLoop_skip]
  rfl

theorem resolveLoop_hole {name : Bytes} (hname : marks.closing ∉ name) (rest : Bytes) :
    resolveLoop s vars (marks.sigil :: marks.opening :: (name ++ marks.closing :: rest)) 0 i b
        missing =
      resolveLoop s vars rest 0 (i + (name.length + 3)) (b ++ (vars.get name).getD [])
        (if name ∈ vars then missing else appendNew missing name) := by
  have hdrop : (marks.opening :: (name ++ marks.closing :: rest)).drop (1 + name.length + 1) =
      rest := by
    rw [Nat.add_comm 1, List.drop_succ_cons, List.drop_append, Nat.add_sub_cancel_left]
    simp
  have hindex : i + 1 + (1 + name.length + 1) = i + (name.length + 3) := by omega
  rw [resolveLoop, if_neg (by simp), List.head?_cons, if_neg opening_ne_sigil,
    if_pos rfl, List.tail_cons,
    indexByte_append hname]
  simp only [List.take_left]
  cases hget : vars.get name with
  | none =>
    rw [if_neg (GoMap.get_eq_none.mp hget)]
    simp only [Option.getD_none, List.append_nil]
    rw [resolveLoop_skip, hdrop, hindex]
  | some val =>
    rw [if_pos (GoMap.mem_of_get hget)]
    simp only [Option.getD_some]
    rw [resolveLoop_skip, hdrop, hindex]

theorem resolveLoop_unclosed {rest : Bytes} (hrest : marks.closing ∉ rest) :
    resolveLoop s vars (marks.sigil :: marks.opening :: rest) 0 i b missing =
      fail ⟨[], errorf "unclosed variable reference in %q" [.text s]⟩ := by
  rw [resolveLoop, if_neg (by simp), List.head?_cons, if_neg opening_ne_sigil,
    if_pos rfl, List.tail_cons,
    indexByte_eq_none.mpr hrest]

theorem resolveLoop_bare {rest : Bytes} (hsigil : rest.head? ≠ some marks.sigil)
    (hopening : rest.head? ≠ some marks.opening) :
    resolveLoop s vars (marks.sigil :: rest) 0 i b missing =
      fail ⟨[], errorf "bare $ without $\x7b...\x7d in %q at index %d" [.text s, .number i]⟩ := by
  rw [resolveLoop, if_neg (by simp), if_neg hsigil, if_neg hopening]

end Step

/-! ## The loops as template operations -/

/-- The value a name stands for; a name without one stands for nothing. -/
def valueOf (vars : GoMap Bytes Bytes) (name : Bytes) : Bytes := (vars.get name).getD []

theorem requiredVarsLoop_of_reads {text : Bytes} {tokens : List (Token UInt8)}
    (hreads : Reads marks text tokens) (out : List Bytes) :
    requiredVarsLoop text 0 out = (holes tokens).foldl appendNew out := by
  induction hreads generalizing out with
  | nil => rfl
  | plain hsymbol _ ih => rw [requiredVarsLoop_plain hsymbol, ih, holes_plain]
  | sigil _ ih => rw [requiredVarsLoop_sigil, ih, holes_sigil]
  | hole hname _ ih => rw [requiredVarsLoop_hole hname, ih, holes_hole, List.foldl_cons]

theorem requiredVars_of_reads {s : Bytes} {tokens : List (Token UInt8)}
    (hreads : Reads marks s tokens) : requiredVars s = (holes tokens).foldl appendNew [] :=
  requiredVarsLoop_of_reads hreads []

theorem mem_requiredVars {s : Bytes} {tokens : List (Token UInt8)} (hreads : Reads marks s tokens)
    (name : Bytes) : name ∈ requiredVars s ↔ name ∈ holes tokens := by
  rw [requiredVars_of_reads hreads, mem_foldl_appendNew]
  simp

/-- On a template the loop fills the holes and collects the names without a value. -/
theorem resolveLoop_of_reads (s : Bytes) (vars : GoMap Bytes Bytes) {text : Bytes}
    {tokens : List (Token UInt8)} (hreads : Reads marks text tokens) (i : ℕ) (b : Bytes)
    (missing : List Bytes) :
    resolveLoop s vars text 0 i b missing =
      resolveEnd (b ++ expand marks (valueOf vars) tokens)
        (((holes tokens).filter (· ∉ vars)).foldl appendNew missing) := by
  induction hreads generalizing i b missing with
  | nil => simp [resolveLoop, holes]
  | plain hsymbol _ ih =>
    rw [resolveLoop_plain _ _ _ _ _ hsymbol, ih, holes_plain, expand_cons, List.append_assoc]
    rfl
  | sigil _ ih =>
    rw [resolveLoop_sigil, ih, holes_sigil, expand_cons, List.append_assoc]
    rfl
  | @hole name _ _ hname _ ih =>
    rw [resolveLoop_hole _ _ _ _ _ hname, ih, holes_hole, expand_cons, List.append_assoc,
      List.filter_cons]
    by_cases hmem : name ∈ vars
    · simp [hmem, Token.fill, valueOf]
    · simp [hmem, Token.fill, valueOf]

/-- On any other text the loop fails, whatever the variables are. -/
theorem resolveLoop_of_not_reads (s text : Bytes) (hreads : ∀ tokens, ¬ Reads marks text tokens)
    (i : ℕ) :
    ∃ err, ∀ vars b missing, resolveLoop s vars text 0 i b missing = fail ⟨[], err⟩ := by
  induction text using scan_induction marks generalizing i with
  | nil => exact absurd .nil (hreads [])
  | plain symbol rest hsymbol ih =>
    obtain ⟨err, hfail⟩ := ih (fun tokens hrest ↦ hreads _ (.plain hsymbol hrest)) (i + 1)
    exact ⟨err, fun vars b missing ↦ (resolveLoop_plain _ _ _ _ _ hsymbol _).trans (hfail _ _ _)⟩
  | sigil rest ih =>
    obtain ⟨err, hfail⟩ := ih (fun tokens hrest ↦ hreads _ (.sigil hrest)) (i + 2)
    exact ⟨err, fun vars b missing ↦ (resolveLoop_sigil _ _ _ _ _ _).trans (hfail _ _ _)⟩
  | hole name rest hname ih =>
    obtain ⟨err, hfail⟩ := ih (fun tokens hrest ↦ hreads _ (.hole hname hrest)) (i + (name.length + 3))
    exact ⟨err, fun vars b missing ↦ (resolveLoop_hole _ _ _ _ _ hname _).trans (hfail _ _ _)⟩
  | unclosed rest hrest => exact ⟨_, fun vars b missing ↦ resolveLoop_unclosed _ _ _ _ _ hrest⟩
  | bare rest hsigil hopening _ =>
    exact ⟨_, fun vars b missing ↦ resolveLoop_bare _ _ _ _ _ hsigil hopening⟩

theorem resolve_of_not_reads {s : Bytes} (hreads : ∀ tokens, ¬ Reads marks s tokens) :
    ∃ err, ∀ vars, resolve s vars = fail ⟨[], err⟩ := by
  obtain ⟨err, hfail⟩ := resolveLoop_of_not_reads s s hreads 0
  exact ⟨err, fun vars ↦ hfail vars [] []⟩

theorem resolve_of_reads {s : Bytes} {tokens : List (Token UInt8)} (hreads : Reads marks s tokens)
    (vars : GoMap Bytes Bytes) :
    resolve s vars = resolveEnd (expand marks (valueOf vars) tokens)
      (((holes tokens).filter (· ∉ vars)).foldl appendNew []) :=
  resolveLoop_of_reads s vars hreads 0 [] []

theorem resolveEnd_eq_ok {b value : Bytes} {missing : List Bytes} :
    resolveEnd b missing = .ok value ↔ missing = [] ∧ value = b := by
  unfold resolveEnd
  split
  next hmissing => simp [hmissing]
  next hmissing =>
    rw [not_not.mp hmissing]
    simp [pure, Except.pure, eq_comm]

theorem returns_resolve (s : Bytes) (vars : GoMap Bytes Bytes) : Returns (resolve s vars) := by
  by_cases hreads : ∃ tokens, Reads marks s tokens
  · rcases hreads with ⟨tokens, hreads⟩
    rw [resolve_of_reads hreads, resolveEnd]
    split
    · exact returns_fail _
    · exact returns_pure _
  · obtain ⟨err, hfail⟩ := resolve_of_not_reads (not_exists.mp hreads)
    rw [hfail]
    exact returns_fail _

/-- On a template, resolution is expansion. -/
theorem resolve_eq_ok_of_reads {s value : Bytes} {tokens : List (Token UInt8)}
    (hreads : Reads marks s tokens) {vars : GoMap Bytes Bytes} :
    resolve s vars = .ok value ↔
      (∀ name ∈ holes tokens, name ∈ vars) ∧ value = expand marks (valueOf vars) tokens := by
  rw [resolve_of_reads hreads, resolveEnd_eq_ok, foldl_appendNew_eq_nil]
  simp

/-- `Resolve` succeeds exactly on templates whose names all have a value. -/
theorem resolve_eq_ok {s value : Bytes} {vars : GoMap Bytes Bytes} :
    resolve s vars = .ok value ↔ ∃ tokens, Reads marks s tokens ∧
      (∀ name ∈ holes tokens, name ∈ vars) ∧ value = expand marks (valueOf vars) tokens := by
  constructor
  · intro hresolve
    by_cases hreads : ∃ tokens, Reads marks s tokens
    · rcases hreads with ⟨tokens, hreads⟩
      exact ⟨tokens, hreads, (resolve_eq_ok_of_reads hreads).mp hresolve⟩
    · obtain ⟨err, hfail⟩ := resolve_of_not_reads (not_exists.mp hreads)
      rw [hfail] at hresolve
      exact absurd hresolve (fail_ne_ok _ _)
  · intro h
    rcases h with ⟨tokens, hreads, hvalue⟩
    exact (resolve_eq_ok_of_reads hreads).mpr hvalue

/-- The text is nothing but references to variables that have the empty value. -/
def OnlyEmptyReferences (s : Bytes) (vars : GoMap Bytes Bytes) : Prop :=
  ∃ names : List Bytes, s = names.flatMap marks.reference ∧
    ∀ name ∈ names, marks.closing ∉ name ∧ vars.get name = some []

theorem get_eq_some_nil {vars : GoMap Bytes Bytes} {name : Bytes} :
    vars.get name = some [] ↔ name ∈ vars ∧ valueOf vars name = [] := by
  constructor
  · intro hget
    exact ⟨GoMap.mem_of_get hget, by rw [valueOf, hget, Option.getD_some]⟩
  · rintro ⟨hmem, hvalue⟩
    cases hget : vars.get name with
    | none => exact absurd hmem (GoMap.get_eq_none.mp hget)
    | some value =>
      rw [valueOf, hget, Option.getD_some] at hvalue
      rw [hvalue]

/-- `Resolve` gives the empty text exactly on references to empty values. -/
theorem resolve_eq_ok_nil {s : Bytes} {vars : GoMap Bytes Bytes} :
    resolve s vars = .ok [] ↔ OnlyEmptyReferences s vars := by
  rw [resolve_eq_ok]
  constructor
  · rintro ⟨tokens, hreads, hkeys, hexpand⟩
    obtain ⟨names, rfl, hnames⟩ := expand_eq_nil.mp hexpand.symm
    obtain ⟨htext, hclosing⟩ := reads_holes_iff.mp hreads
    rw [holes_map_hole] at hkeys
    refine ⟨names, htext, fun name hname ↦ ⟨hclosing name hname, ?_⟩⟩
    exact get_eq_some_nil.mpr ⟨hkeys name hname, hnames name hname⟩
  · rintro ⟨names, htext, hnames⟩
    refine ⟨names.map .hole, ?_, ?_, ?_⟩
    · exact reads_holes_iff.mpr ⟨htext, fun name hname ↦ (hnames name hname).1⟩
    · rw [holes_map_hole]
      exact fun name hname ↦ (get_eq_some_nil.mp (hnames name hname).2).1
    · exact (expand_eq_nil.mpr ⟨names, rfl,
        fun name hname ↦ (get_eq_some_nil.mp (hnames name hname).2).2⟩).symm

end DbPivot.Config
