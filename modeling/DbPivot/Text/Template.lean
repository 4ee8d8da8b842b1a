import Mathlib.Data.List.Basic
import Mathlib.Data.List.Count
import Mathlib.Data.List.Induction
import Mathlib.Data.List.Nodup
import Mathlib.Tactic.Common

/-!
# Templates with named holes

A template language over an arbitrary alphabet is given by three marks: a sigil, and an opening and
a closing mark. A doubled sigil stands for the sigil itself, and a sigil followed by a name between
the marks is a hole for the value of that name. Every other symbol stands for itself.

The second half asks when the holes of a template can be filled so that the text becomes an
identifier, a nonempty text of bounded length over one class of symbols whose first symbol lies in
a smaller class. The answer depends on the text outside the holes, and on the holes before it.
-/

namespace DbPivot.Text

variable {α : Type}

/-- The symbols with a meaning of their own. -/
structure Marks (α : Type) where
  sigil : α
  opening : α
  closing : α
  sigil_ne_opening : sigil ≠ opening

/-- A unit of a template. -/
inductive Token (α : Type) where
  | plain (symbol : α)
  | sigil
  | hole (name : List α)
deriving DecidableEq

/-- The text reads as the list of tokens. -/
inductive Reads (marks : Marks α) : List α → List (Token α) → Prop where
  | nil : Reads marks [] []
  | plain {symbol : α} {rest : List α} {tokens : List (Token α)} (hsymbol : symbol ≠ marks.sigil)
      (hrest : Reads marks rest tokens) : Reads marks (symbol :: rest) (.plain symbol :: tokens)
  | sigil {rest : List α} {tokens : List (Token α)} (hrest : Reads marks rest tokens) :
      Reads marks (marks.sigil :: marks.sigil :: rest) (.sigil :: tokens)
  | hole {name rest : List α} {tokens : List (Token α)} (hname : marks.closing ∉ name)
      (hrest : Reads marks rest tokens) :
      Reads marks (marks.sigil :: marks.opening :: (name ++ marks.closing :: rest))
        (.hole name :: tokens)

/-- A list holds a symbol or splits at its first occurrence. -/
theorem notMem_or_split (symbol : α) (text : List α) :
    symbol ∉ text ∨ ∃ before after, text = before ++ symbol :: after ∧ symbol ∉ before := by
  classical
  by_cases hmem : symbol ∈ text
  · rcases List.eq_append_cons_of_mem hmem with ⟨before, after, htext, hbefore⟩
    exact .inr ⟨before, after, htext, hbefore⟩
  · exact .inl hmem

/-- Induction along a left-to-right scan. The last two cases are the two ways a sigil can fail to
start a token. -/
@[elab_as_elim]
theorem scan_induction (marks : Marks α) {motive : List α → Prop} (nil : motive [])
    (plain : ∀ symbol rest, symbol ≠ marks.sigil → motive rest → motive (symbol :: rest))
    (sigil : ∀ rest, motive rest → motive (marks.sigil :: marks.sigil :: rest))
    (hole : ∀ name rest, marks.closing ∉ name → motive rest →
      motive (marks.sigil :: marks.opening :: (name ++ marks.closing :: rest)))
    (unclosed : ∀ rest, marks.closing ∉ rest → motive (marks.sigil :: marks.opening :: rest))
    (bare : ∀ rest, rest.head? ≠ some marks.sigil → rest.head? ≠ some marks.opening →
      motive rest → motive (marks.sigil :: rest))
    (text : List α) : motive text := by
  classical
  induction hlength : text.length using Nat.strongRecOn generalizing text with
  | _ length ih =>
    subst hlength
    cases text with
    | nil => exact nil
    | cons symbol rest =>
      by_cases hsymbol : symbol = marks.sigil
      · subst hsymbol
        cases rest with
        | nil => exact bare [] (by simp) (by simp) nil
        | cons next after =>
          by_cases hsigil : next = marks.sigil
          · subst hsigil
            have hlt : after.length < (marks.sigil :: marks.sigil :: after).length := by
              simp only [List.length_cons]
              omega
            exact sigil after (ih after.length hlt after rfl)
          · by_cases hopening : next = marks.opening
            · subst hopening
              rcases notMem_or_split marks.closing after with hnot | ⟨name, tail, rfl, hname⟩
              · exact unclosed after hnot
              · have hlt : tail.length <
                    (marks.sigil :: marks.opening :: (name ++ marks.closing :: tail)).length := by
                  simp only [List.length_cons, List.length_append]
                  omega
                exact hole name tail hname (ih tail.length hlt tail rfl)
            · refine bare (next :: after) (by simpa using hsigil) (by simpa using hopening) ?_
              exact ih (next :: after).length (by simp) (next :: after) rfl
      · exact plain symbol rest hsymbol (ih rest.length (by simp) rest rfl)

/-! ## Filling the holes -/

/-- What a token contributes when a name has the given value. -/
def Token.fill (marks : Marks α) (value : List α → List α) : Token α → List α
  | .plain symbol => [symbol]
  | .sigil => [marks.sigil]
  | .hole name => value name

/-- The text with every hole filled. -/
def expand (marks : Marks α) (value : List α → List α) (tokens : List (Token α)) : List α :=
  tokens.flatMap (Token.fill marks value)

@[simp]
theorem expand_nil (marks : Marks α) (value : List α → List α) : expand marks value [] = [] := rfl

@[simp]
theorem expand_cons (marks : Marks α) (value : List α → List α) (token : Token α)
    (tokens : List (Token α)) :
    expand marks value (token :: tokens) = token.fill marks value ++ expand marks value tokens :=
  rfl

/-- The names of the holes, in order and with repetitions. -/
def holes : List (Token α) → List (List α)
  | [] => []
  | .hole name :: tokens => name :: holes tokens
  | _ :: tokens => holes tokens

@[simp]
theorem holes_plain (symbol : α) (tokens : List (Token α)) :
    holes (.plain symbol :: tokens) = holes tokens := rfl

@[simp]
theorem holes_sigil (tokens : List (Token α)) : holes (.sigil :: tokens) = holes tokens := rfl

@[simp]
theorem holes_hole (name : List α) (tokens : List (Token α)) :
    holes (.hole name :: tokens) = name :: holes tokens := rfl

@[simp]
theorem holes_map_hole (names : List (List α)) : holes (names.map .hole) = names := by
  induction names with
  | nil => rfl
  | cons name names ih => rw [List.map_cons, holes_hole, ih]

/-- The text of a hole. -/
def Marks.reference (marks : Marks α) (name : List α) : List α :=
  marks.sigil :: marks.opening :: (name ++ [marks.closing])

/-- Nothing is left of a template exactly when it has only holes and all of them stay empty. -/
theorem expand_eq_nil {marks : Marks α} {value : List α → List α} {tokens : List (Token α)} :
    expand marks value tokens = [] ↔
      ∃ names : List (List α), tokens = names.map .hole ∧ ∀ name ∈ names, value name = [] := by
  constructor
  · intro h
    induction tokens with
    | nil => exact ⟨[], rfl, fun _ hname ↦ absurd hname List.not_mem_nil⟩
    | cons token tokens ih =>
      rw [expand_cons, List.append_eq_nil_iff] at h
      obtain ⟨hfill, hrest⟩ := h
      obtain ⟨names, rfl, hnames⟩ := ih hrest
      cases token with
      | plain symbol => exact absurd hfill (List.cons_ne_nil _ _)
      | sigil => exact absurd hfill (List.cons_ne_nil _ _)
      | hole name => exact ⟨name :: names, rfl, List.forall_mem_cons.mpr ⟨hfill, hnames⟩⟩
  · rintro ⟨names, rfl, hnames⟩
    rw [expand, List.flatMap_eq_nil_iff]
    intro token htoken
    obtain ⟨name, hname, rfl⟩ := List.mem_map.mp htoken
    exact hnames name hname

/-- The texts that read as holes only. -/
theorem reads_holes_iff {marks : Marks α} {text : List α} {names : List (List α)} :
    Reads marks text (names.map .hole) ↔
      text = names.flatMap marks.reference ∧ ∀ name ∈ names, marks.closing ∉ name := by
  induction names generalizing text with
  | nil =>
    constructor
    · rintro ⟨⟩
      exact ⟨rfl, fun _ hname ↦ absurd hname List.not_mem_nil⟩
    · rintro ⟨rfl, -⟩
      exact .nil
  | cons name names ih =>
    have hsplit (rest : List α) : marks.sigil :: marks.opening :: (name ++ marks.closing :: rest) =
        marks.reference name ++ rest := by
      simp only [Marks.reference, List.cons_append, List.append_assoc, List.nil_append]
    rw [List.map_cons, List.flatMap_cons, List.forall_mem_cons]
    constructor
    · intro h
      cases h with
      | hole hname hrest =>
        obtain ⟨rfl, hnames⟩ := ih.mp hrest
        exact ⟨hsplit _, hname, hnames⟩
    · rintro ⟨rfl, hname, hnames⟩
      rw [← hsplit]
      exact .hole hname (ih.mpr ⟨rfl, hnames⟩)

/-- The names of the holes before anything else. -/
def leading : List (Token α) → List (List α)
  | .hole name :: tokens => name :: leading tokens
  | _ => []

/-- The text outside the holes. -/
def literals (marks : Marks α) (tokens : List (Token α)) : List α :=
  expand marks (fun _ ↦ []) tokens

/-- The values of names that no hole has do not matter. -/
theorem expand_congr {marks : Marks α} {left right : List α → List α} {tokens : List (Token α)}
    (h : ∀ name ∈ holes tokens, left name = right name) :
    expand marks left tokens = expand marks right tokens := by
  induction tokens with
  | nil => rfl
  | cons token tokens ih =>
    cases token with
    | plain symbol => rw [expand_cons, expand_cons, ih h]; rfl
    | sigil => rw [expand_cons, expand_cons, ih h]; rfl
    | hole name =>
      rw [expand_cons, expand_cons, ih fun other hother ↦ h other (List.mem_cons_of_mem _ hother)]
      simp only [Token.fill, h name List.mem_cons_self]

theorem literals_sublist_expand (marks : Marks α) (value : List α → List α)
    (tokens : List (Token α)) :
    List.Sublist (literals marks tokens) (expand marks value tokens) := by
  induction tokens with
  | nil => exact List.Sublist.refl _
  | cons token tokens ih =>
    refine List.Sublist.append ?_ ih
    cases token with
    | plain symbol => exact List.Sublist.refl _
    | sigil => exact List.Sublist.refl _
    | hole name => exact List.nil_sublist _

theorem mem_expand {marks : Marks α} {value : List α → List α} {tokens : List (Token α)}
    {symbol : α} (hsymbol : symbol ∈ expand marks value tokens) :
    symbol ∈ literals marks tokens ∨ ∃ name ∈ holes tokens, symbol ∈ value name := by
  induction tokens with
  | nil => exact absurd hsymbol List.not_mem_nil
  | cons token tokens ih =>
    rw [expand_cons, List.mem_append] at hsymbol
    simp only [literals, expand_cons, List.mem_append] at ih ⊢
    cases token with
    | plain other => exact hsymbol.elim (fun h ↦ .inl (.inl h)) fun h ↦ (ih h).imp_left .inr
    | sigil => exact hsymbol.elim (fun h ↦ .inl (.inl h)) fun h ↦ (ih h).imp_left .inr
    | hole name =>
      rcases hsymbol with hhead | htail
      · exact .inr ⟨name, List.mem_cons_self, hhead⟩
      · rcases ih htail with hliteral | ⟨other, hother, hvalue⟩
        · exact .inl (.inr hliteral)
        · exact .inr ⟨other, List.mem_cons_of_mem _ hother, hvalue⟩

/-- The text outside the holes is part of the template's own text. -/
theorem literals_sublist_text {marks : Marks α} {text : List α} {tokens : List (Token α)}
    (hreads : Reads marks text tokens) : List.Sublist (literals marks tokens) text := by
  induction hreads with
  | nil => exact List.Sublist.refl _
  | plain _ _ ih => exact ih.cons_cons _
  | sigil _ ih => exact (ih.cons_cons _).cons _
  | hole _ _ ih =>
    exact ((ih.cons _).trans (List.sublist_append_right _ _)).cons _ |>.cons _

/-- Without holes, a template and its text outside the holes begin alike. -/
theorem head?_literals {marks : Marks α} {text : List α} {tokens : List (Token α)}
    (hreads : Reads marks text tokens) (hholes : holes tokens = []) :
    (literals marks tokens).head? = text.head? := by
  cases hreads with
  | nil => rfl
  | plain => rfl
  | sigil => rfl
  | hole => exact absurd hholes (List.cons_ne_nil _ _)

section Lengths

variable [DecidableEq α]

/-- One name's occurrences alone bound the length from below. -/
theorem length_literals_add_le (marks : Marks α) (value : List α → List α) (name : List α)
    (tokens : List (Token α)) :
    (literals marks tokens).length + (holes tokens).count name * (value name).length ≤
      (expand marks value tokens).length := by
  induction tokens with
  | nil => simp [literals, holes]
  | cons token tokens ih =>
    simp only [literals] at ih
    simp only [literals, expand_cons, List.length_append]
    cases token with
    | plain symbol =>
      simp only [Token.fill, holes, List.length_singleton]
      omega
    | sigil =>
      simp only [Token.fill, holes, List.length_singleton]
      omega
    | hole other =>
      simp only [Token.fill, holes, List.length_nil, List.count_cons, beq_iff_eq]
      split
      next hsame =>
        rw [hsame, Nat.add_mul, Nat.one_mul]
        omega
      next =>
        rw [Nat.add_zero]
        omega

/-- Give one name a single symbol and every other name nothing. -/
def only (name : List α) (symbol : α) : List α → List α :=
  fun other ↦ if other = name then [symbol] else []

theorem length_expand_only (marks : Marks α) (name : List α) (symbol : α)
    (tokens : List (Token α)) :
    (expand marks (only name symbol) tokens).length =
      (literals marks tokens).length + (holes tokens).count name := by
  induction tokens with
  | nil => simp [literals, holes]
  | cons token tokens ih =>
    simp only [literals] at ih
    simp only [literals, expand_cons, List.length_append, ih]
    cases token with
    | plain other =>
      simp only [Token.fill, holes, List.length_singleton]
      omega
    | sigil =>
      simp only [Token.fill, holes, List.length_singleton]
      omega
    | hole other =>
      simp only [Token.fill, only, holes, List.length_nil, List.count_cons, beq_iff_eq]
      split
      next =>
        rw [List.length_singleton]
        omega
      next =>
        rw [List.length_nil]
        omega

/-- A leading hole that is filled decides the first symbol. -/
theorem head?_expand_only {marks : Marks α} {name : List α} (symbol : α) {tokens : List (Token α)}
    (hname : name ∈ leading tokens) :
    (expand marks (only name symbol) tokens).head? = some symbol := by
  induction tokens with
  | nil => exact absurd hname List.not_mem_nil
  | cons token tokens ih =>
    cases token with
    | plain other => exact absurd hname List.not_mem_nil
    | sigil => exact absurd hname List.not_mem_nil
    | hole other =>
      rw [expand_cons]
      by_cases hsame : other = name
      · simp [Token.fill, only, hsame]
      · have hrest : name ∈ leading tokens :=
          (List.mem_cons.mp hname).resolve_left fun h ↦ hsame h.symm
        simpa [Token.fill, only, hsame] using ih hrest

end Lengths

/-- When the leading holes stay empty, the text outside the holes decides the first symbol. -/
theorem head?_expand {marks : Marks α} {value : List α → List α} {tokens : List (Token α)}
    (hempty : ∀ name ∈ leading tokens, value name = []) (hliterals : literals marks tokens ≠ []) :
    (expand marks value tokens).head? = (literals marks tokens).head? := by
  induction tokens with
  | nil => exact absurd rfl hliterals
  | cons token tokens ih =>
    cases token with
    | plain symbol => rfl
    | sigil => rfl
    | hole name =>
      have hname : value name = [] := hempty name List.mem_cons_self
      have hrest : ∀ other ∈ leading tokens, value other = [] :=
        fun other hother ↦ hempty other (List.mem_cons_of_mem _ hother)
      simpa only [literals, expand_cons, Token.fill, hname, List.nil_append] using
        ih hrest
          (by simpa only [literals, expand_cons, Token.fill, List.nil_append] using hliterals)

/-! ## Names in order of first occurrence -/

section Names

variable {β : Type} [DecidableEq β]

/-- Append a name unless it is there already. -/
def appendNew (names : List β) (name : β) : List β :=
  if name ∈ names then names else names ++ [name]

theorem mem_appendNew {names : List β} {name other : β} :
    other ∈ appendNew names name ↔ other ∈ names ∨ other = name := by
  unfold appendNew
  split
  next hmem =>
    constructor
    · exact .inl
    · intro h
      rcases h with h | rfl
      · exact h
      · exact hmem
  next => rw [List.mem_append, List.mem_singleton]

theorem mem_foldl_appendNew {added names : List β} {name : β} :
    name ∈ added.foldl appendNew names ↔ name ∈ names ∨ name ∈ added := by
  induction added generalizing names with
  | nil => simp
  | cons first rest ih => rw [List.foldl_cons, ih, mem_appendNew, List.mem_cons, or_assoc]

/-- Appending one name after the other keeps the first occurrence of each. -/
theorem foldl_appendNew_eq_eraseDups [BEq β] [LawfulBEq β] (added : List β) :
    added.foldl appendNew [] = added.eraseDups := by
  induction added using List.reverseRecOn with
  | nil => rfl
  | append_singleton added name ih =>
    rw [List.foldl_append, ih, List.foldl_cons, List.foldl_nil, List.eraseDups_append, appendNew]
    by_cases hmem : name ∈ added
    · simp [hmem, List.removeAll]
    · simp [hmem, List.removeAll, List.eraseDups_cons]

theorem nodup_appendNew {names : List β} (hnames : names.Nodup) (name : β) :
    (appendNew names name).Nodup := by
  unfold appendNew
  split
  · exact hnames
  next hname =>
    rw [← List.concat_eq_append]
    exact hnames.concat hname

/-- Leaving names out beforehand or afterwards is the same. -/
theorem filter_foldl_appendNew (keep : β → Bool) (added names : List β) :
    (added.foldl appendNew names).filter keep =
      (added.filter keep).foldl appendNew (names.filter keep) := by
  induction added generalizing names with
  | nil => rfl
  | cons first rest ih =>
    rw [List.foldl_cons, ih, List.filter_cons]
    by_cases hkeep : keep first = true
    · rw [if_pos hkeep, List.foldl_cons]
      congr 1
      unfold appendNew
      by_cases hmem : first ∈ names
      · rw [if_pos hmem, if_pos (List.mem_filter.mpr ⟨hmem, hkeep⟩)]
      · have hnot : first ∉ names.filter keep := fun h ↦ hmem (List.mem_of_mem_filter h)
        rw [if_neg hmem, if_neg hnot, List.filter_append, List.filter_singleton, hkeep]
        rfl
    · rw [if_neg hkeep]
      congr 1
      unfold appendNew
      by_cases hmem : first ∈ names
      · rw [if_pos hmem]
      · rw [if_neg hmem, List.filter_append, List.filter_singleton, Bool.of_not_eq_true hkeep]
        exact List.append_nil _

theorem foldl_appendNew_eq_nil {added : List β} : added.foldl appendNew [] = [] ↔ added = [] := by
  rw [List.eq_nil_iff_forall_not_mem, List.eq_nil_iff_forall_not_mem]
  simp only [mem_foldl_appendNew, List.not_mem_nil, false_or]

end Names

/-! ## Filling to an identifier -/

section Identifier

variable [DecidableEq α] (start inner : α → Bool) (bound : ℕ)

/-- A nonempty text of bounded length whose symbols are in class. -/
def IsIdentifier (text : List α) : Prop :=
  (∃ symbol, text.head? = some symbol ∧ start symbol) ∧ (∀ symbol ∈ text, inner symbol) ∧
    text.length ≤ bound

/-- The text outside the holes leaves room for an identifier: it is empty, or it is an identifier
by itself, or the first symbol can be left to a hole that comes before it. -/
def Fits (marks : Marks α) (tokens : List (Token α)) : Prop :=
  literals marks tokens = [] ∨
    (∀ symbol ∈ literals marks tokens, inner symbol) ∧
      ((∃ symbol, (literals marks tokens).head? = some symbol ∧ start symbol) ∧
          (literals marks tokens).length ≤ bound ∨
        ∃ name ∈ leading tokens,
          (literals marks tokens).length + (holes tokens).count name ≤ bound)

variable {start inner bound}

theorem fits_of_isIdentifier {marks : Marks α} {value : List α → List α} {tokens : List (Token α)}
    (hident : IsIdentifier start inner bound (expand marks value tokens)) :
    Fits start inner bound marks tokens := by
  rcases hident with ⟨⟨symbol, hhead, hstart⟩, hinner, hbound⟩
  have hsublist := literals_sublist_expand marks value tokens
  by_cases hliterals : literals marks tokens = []
  · exact .inl hliterals
  refine .inr ⟨fun other hother ↦ hinner other (hsublist.subset hother), ?_⟩
  by_cases hempty : ∀ name ∈ leading tokens, value name = []
  · rw [head?_expand hempty hliterals] at hhead
    exact .inl ⟨⟨symbol, hhead, hstart⟩, Nat.le_trans hsublist.length_le hbound⟩
  · push Not at hempty
    rcases hempty with ⟨name, hname, hvalue⟩
    have hpositive : 1 ≤ (value name).length := List.length_pos_of_ne_nil hvalue
    refine .inr ⟨name, hname, ?_⟩
    calc (literals marks tokens).length + (holes tokens).count name
        ≤ (literals marks tokens).length + (holes tokens).count name * (value name).length :=
          Nat.add_le_add_left (Nat.le_mul_of_pos_right _ hpositive) _
      _ ≤ (expand marks value tokens).length := length_literals_add_le marks value name tokens
      _ ≤ bound := hbound

/-- Some filling gives an identifier, or nothing at all, exactly when the rest leaves room. -/
theorem exists_expand_iff {marks : Marks α} {letter : α} (hletter : start letter)
    (hclass : ∀ symbol, start symbol → inner symbol) (tokens : List (Token α)) :
    (∃ value : List α → List α, expand marks value tokens = [] ∨
      IsIdentifier start inner bound (expand marks value tokens)) ↔
      Fits start inner bound marks tokens := by
  constructor
  · intro h
    rcases h with ⟨value, hnil | hident⟩
    · have hsublist := literals_sublist_expand marks value tokens
      rw [hnil] at hsublist
      exact .inl (List.sublist_nil.mp hsublist)
    · exact fits_of_isIdentifier hident
  · intro h
    rcases h with hnil | ⟨hinner, ⟨hstart, hbound⟩ | ⟨name, hname, hbound⟩⟩
    · exact ⟨fun _ ↦ [], .inl hnil⟩
    · exact ⟨fun _ ↦ [], .inr ⟨hstart, hinner, hbound⟩⟩
    · refine ⟨only name letter, .inr ⟨⟨letter, head?_expand_only letter hname, hletter⟩, ?_, ?_⟩⟩
      · intro symbol hsymbol
        rcases mem_expand hsymbol with hliteral | ⟨other, -, hvalue⟩
        · exact hinner symbol hliteral
        · have hsame : symbol = letter := by
            unfold only at hvalue
            split at hvalue
            · exact List.mem_singleton.mp hvalue
            · exact absurd hvalue List.not_mem_nil
          rw [hsame]
          exact hclass letter hletter
      · rw [length_expand_only]
        exact hbound

end Identifier

end DbPivot.Text
