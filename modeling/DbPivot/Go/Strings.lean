import DbPivot.Go.Utf8
import Mathlib.Data.List.DropRight

/-!
# Splitting and trimming

`strings.Split` at a single byte, and `strings.TrimSpace`. White space is a property of runes, so a
string is trimmed as the list of its runes. What is left has the runes that were left of the whole:
a rune is found again without what came before or behind it, and a stray byte stays one.
-/

namespace DbPivot.Go

/-! ## Splitting -/

/-- `strings.Split` at a byte. -/
def split (s : Bytes) (sep : UInt8) : List Bytes := s.splitOn sep

theorem split_of_notMem {s : Bytes} {sep : UInt8} (h : sep ∉ s) : split s sep = [s] :=
  List.splitOn_eq_singleton h

theorem split_append (before after : Bytes) (sep : UInt8) :
    split (before ++ sep :: after) sep = split before sep ++ split after sep :=
  List.splitOnP_append_cons before after (beq_self_eq_true sep)

/-- The pieces do not contain the separator. -/
theorem notMem_of_mem_split {s piece : Bytes} {sep : UInt8} (h : piece ∈ split s sep) :
    sep ∉ piece := by
  induction hlen : s.length using Nat.strong_induction_on generalizing s with
  | _ n ih =>
    by_cases hsep : sep ∈ s
    · obtain ⟨before, after, rfl⟩ := List.append_of_mem hsep
      rw [List.length_append, List.length_cons] at hlen
      rw [split_append, List.mem_append] at h
      rcases h with h | h
      · exact ih before.length (by omega) h rfl
      · exact ih after.length (by omega) h rfl
    · rw [split_of_notMem hsep, List.mem_singleton] at h
      rw [h]
      exact hsep

/-- Splitting what was joined is splitting each. -/
theorem split_intercalate (sep : UInt8) (first : Bytes) (rest : List Bytes) :
    split ([sep].intercalate (first :: rest)) sep =
      (first :: rest).flatMap fun s ↦ split s sep := by
  induction rest generalizing first with
  | nil => simp
  | cons second rest ih =>
    calc split ([sep].intercalate (first :: second :: rest)) sep
        = split (first ++ sep :: [sep].intercalate (second :: rest)) sep := by
          rw [List.intercalate_cons_cons, List.append_assoc, List.singleton_append]
      _ = split first sep ++ split ([sep].intercalate (second :: rest)) sep := split_append ..
      _ = (first :: second :: rest).flatMap fun s ↦ split s sep := by
          rw [ih]
          rfl

/-! ## White space -/

/-- `unicode.IsSpace`. -/
def isSpace (r : ℕ) : Bool :=
  (0x09 ≤ r ∧ r ≤ 0x0D) ∨ r = 0x20 ∨ r = 0x85 ∨ r = 0xA0 ∨ r = 0x1680 ∨
    (0x2000 ≤ r ∧ r ≤ 0x200A) ∨ r = 0x2028 ∨ r = 0x2029 ∨ r = 0x202F ∨ r = 0x205F ∨ r = 0x3000

def Rune.isSpace (r : Rune) : Bool := Go.isSpace r.value

/-- The runes without white space at either end. -/
def trimRunes (runes : List Rune) : List Rune :=
  (runes.dropWhile Rune.isSpace).rdropWhile Rune.isSpace

/-- `strings.TrimSpace`. -/
def trimSpace (s : Bytes) : Bytes := (trimRunes (runes s)).flatMap Rune.bytes

theorem isInfix_trimRunes (l : List Rune) : trimRunes l <:+: l :=
  (List.rdropWhile_prefix _ _).isInfix.trans (List.dropWhile_suffix _).isInfix

theorem trimRunes_trimRunes (l : List Rune) : trimRunes (trimRunes l) = trimRunes l := by
  have hleft : (trimRunes l).dropWhile Rune.isSpace = trimRunes l := by
    obtain ⟨after, happend⟩ := List.rdropWhile_prefix Rune.isSpace (l.dropWhile Rune.isSpace)
    change trimRunes l ++ after = _ at happend
    rcases htrim : trimRunes l with _ | ⟨first, rest⟩
    · rfl
    · rw [htrim, List.cons_append] at happend
      have hfirst : ¬ first.isSpace := by
        have hhead := List.head_dropWhile_not Rune.isSpace (l := l) (by rw [← happend]; simp)
        simpa [← happend] using hhead
      exact List.dropWhile_cons_of_neg hfirst
  rw [trimRunes, hleft]
  exact List.rdropWhile_idempotent ..

/-! ## The runes of a part -/

/-- A byte that is stray is stray without what comes later. -/
theorem stray_of_append {byte : UInt8} {rest after : Bytes}
    (h : decodeRune byte (rest ++ after) = (runeError, 1)) :
    decodeRune byte rest = (runeError, 1) := by
  rcases decodeRune_cases byte rest with hstray | ⟨r, tail, hr, hs, -⟩
  · exact hstray
  · have hrunes : runes (byte :: (rest ++ after)) = .rune r :: runes (tail ++ after) := by
      rw [← List.cons_append, hs, List.append_assoc, runes_encodeRune hr]
    rw [runes_of_stray h] at hrunes
    cases (List.cons.inj hrunes).1

/-- The runes of a beginning. -/
theorem runes_of_append {s : Bytes} {before after : List Rune} (h : runes s = before ++ after) :
    runes (before.flatMap Rune.bytes) = before ∧ runes (after.flatMap Rune.bytes) = after := by
  induction s using runes_induction generalizing before with
  | nil =>
    obtain ⟨rfl, rfl⟩ := List.append_eq_nil_iff.mp h.symm
    exact ⟨rfl, rfl⟩
  | rune r rest hr ih =>
    rw [runes_encodeRune hr] at h
    cases before with
    | nil =>
      obtain rfl : _ = after := h
      refine ⟨rfl, ?_⟩
      rw [List.flatMap_cons, flatMap_bytes_runes]
      exact runes_encodeRune hr rest
    | cons first before =>
      obtain ⟨rfl, hrest⟩ := List.cons.inj h
      obtain ⟨hbefore, hafter⟩ := ih hrest
      refine ⟨?_, hafter⟩
      rw [List.flatMap_cons, Rune.bytes, runes_encodeRune hr, hbefore]
  | stray byte rest hstray ih =>
    rw [runes_of_stray hstray] at h
    cases before with
    | nil =>
      obtain rfl : _ = after := h
      refine ⟨rfl, ?_⟩
      rw [List.flatMap_cons, flatMap_bytes_runes]
      exact runes_of_stray hstray
    | cons first before =>
      rw [List.cons_append] at h
      obtain ⟨rfl, hrest⟩ := List.cons.inj h
      obtain ⟨hbefore, hafter⟩ := ih hrest
      have hsplit : rest = before.flatMap Rune.bytes ++ after.flatMap Rune.bytes := by
        rw [← List.flatMap_append, ← hrest, flatMap_bytes_runes]
      rw [hsplit] at hstray
      refine ⟨?_, hafter⟩
      rw [List.flatMap_cons, Rune.bytes, List.singleton_append,
        runes_of_stray (stray_of_append hstray), hbefore]

/-- The runes of a trimmed string. -/
theorem runes_trimSpace (s : Bytes) : runes (trimSpace s) = trimRunes (runes s) := by
  obtain ⟨before, after, happend⟩ := isInfix_trimRunes (runes s)
  have hmiddle := (runes_of_append happend.symm).1
  exact (runes_of_append hmiddle).2

theorem trimSpace_trimSpace (s : Bytes) : trimSpace (trimSpace s) = trimSpace s := by
  rw [trimSpace, runes_trimSpace, trimRunes_trimRunes]
  rfl

/-- Trimming adds no byte. -/
theorem mem_of_mem_trimSpace {s : Bytes} {c : UInt8} (h : c ∈ trimSpace s) : c ∈ s := by
  rw [trimSpace, List.mem_flatMap] at h
  obtain ⟨r, hr, hc⟩ := h
  rw [← flatMap_bytes_runes s]
  exact List.mem_flatMap.mpr ⟨r, (isInfix_trimRunes _).subset hr, hc⟩

end DbPivot.Go
