import DbPivot.Go.Json
import DbPivot.Go.Map

/-!
# The types of `encoding/json`

`Marshal` and `Unmarshal` go by the type of a value. A codec is what they do with one type: its zero
value, which values `omitempty` leaves out, how a value is written, and how a text is read over a
value that is already there. A `null` leaves a string, a number or a structure alone and empties a
slice or a map; a member whose key is no field is skipped; a text of the wrong kind is an error,
whatever else is read.

`Carries` says what becomes of a value on its way through a text. It holds of the basic types by
computation and lifts through slices, maps and structures.
-/

namespace DbPivot.Go

/-- What `encoding/json` does with a type. -/
structure Codec (α : Type) where
  zero : α
  isEmpty : α → Bool
  encode : α → Json
  decode : α → Json → Option α

namespace Codec

variable {α σ : Type}

/-! ## Basic types -/

def string : Codec Bytes where
  zero := []
  isEmpty s := s.isEmpty
  encode := .string
  decode old j :=
    match j with
    | .null => some old
    | .string s => some s
    | _ => none

def bool : Codec Bool where
  zero := false
  isEmpty b := !b
  encode := .bool
  decode old j :=
    match j with
    | .null => some old
    | .bool b => some b
    | _ => none

def int : Codec Int64 where
  zero := 0
  isEmpty n := n == 0
  encode n := .number (itoaInt n.toInt)
  decode old j :=
    match j with
    | .null => some old
    | .number text => parseInt text
    | _ => none

/-! ## Slices and maps -/

/-- The items of an array, each read over the item that was at its place. -/
def decodeItems (elem : Codec α) : List α → List Json → Option (List α)
  | _, [] => some []
  | old, item :: rest => do
    let a ← elem.decode (old.headD elem.zero) item
    let more ← decodeItems elem old.tail rest
    pure (a :: more)

def slice (elem : Codec α) : Codec (List α) where
  zero := []
  isEmpty items := items.isEmpty
  encode items := .array (items.map elem.encode)
  decode old j :=
    match j with
    | .null => some []
    | .array items => decodeItems elem old items
    | _ => none

/-- The keys of a map in the order of `strings.Compare`. -/
def sortedKeys (m : GoMap Bytes α) : List Bytes := m.keys.sort (· ≤ ·)

def map (elem : Codec α) : Codec (GoMap Bytes α) where
  zero := ∅
  isEmpty m := m.keys.card == 0
  encode m := .object ((m.entries (sortedKeys m)).map (Prod.map id elem.encode))
  decode old j :=
    match j with
    | .null => some ∅
    | .object members =>
      members.foldlM (fun m entry ↦ (elem.decode elem.zero entry.2).map (m.insert entry.1)) old
    | _ => none

@[simp] theorem zero_string : string.zero = [] := rfl

@[simp] theorem zero_bool : bool.zero = false := rfl

@[simp] theorem zero_int : int.zero = 0 := rfl

@[simp] theorem zero_slice (elem : Codec α) : elem.slice.zero = [] := rfl

@[simp] theorem zero_map (elem : Codec α) : elem.map.zero = ∅ := rfl

/-! ## Structures -/

/-- A field with its key and its `omitempty`. -/
structure StructField (σ : Type) where
  name : Bytes
  omitEmpty : Bool
  type : Type
  codec : Codec type
  get : σ → type
  set : σ → type → σ

/-- `foldRune`, as far as ASCII goes: two runes outside of it fold into it. -/
def foldRune (r : ℕ) : ℕ :=
  if 97 ≤ r ∧ r ≤ 122 then r - 32
  else if r = 0x17F then 83
  else if r = 0x212A then 75
  else r

/-- `foldName`. -/
def foldName (name : Bytes) : Bytes := (runes name).flatMap fun u ↦ encodeRune (foldRune u.value)

/-- The field of a key: the one of that name, or else the first one of that name up to case. -/
def lookupField (fields : List (StructField σ)) (key : Bytes) : Option (StructField σ) :=
  fields.find? (fun f ↦ f.name == key) <|>
    fields.find? (fun f ↦ foldName f.name == foldName key)

def decodeMember (fields : List (StructField σ)) (s : σ) (m : Bytes × Json) : Option σ :=
  match lookupField fields m.1 with
  | none => some s
  | some f => (f.codec.decode (f.get s) m.2).map (f.set s)

/-- The member for a field, unless it is left out. -/
def encodeField (s : σ) (f : StructField σ) : Option (Bytes × Json) :=
  if f.omitEmpty && f.codec.isEmpty (f.get s) then none
  else some (f.name, f.codec.encode (f.get s))

def struct (zero : σ) (fields : List (StructField σ)) : Codec σ where
  zero := zero
  isEmpty _ := false
  encode s := .object (fields.filterMap (encodeField s))
  decode s j :=
    match j with
    | .null => some s
    | .object members => members.foldlM (decodeMember fields) s
    | _ => none

/-! ## Texts -/

/-- `json.Marshal`. -/
def marshal (c : Codec α) (a : α) : Bytes := (c.encode a).render

/-- `json.Unmarshal` into a zero value. -/
def unmarshal (c : Codec α) (text : Bytes) : Option α := (Json.parse text).bind (c.decode c.zero)

/-! ## What a text carries -/

/-- A value is written with at most the given number of brackets within each other, what is written
is read as `a'`, and what is left out may be left out. -/
structure Carries (c : Codec α) (depth : ℕ) (a a' : α) : Prop where
  writable : (c.encode a).Writable depth
  read : c.decode c.zero (c.encode a).coerce = some a'
  empty : c.isEmpty a → a' = c.zero

/-- What `Marshal` writes is one line. -/
theorem newline_notMem_marshal {c : Codec α} {a a' : α} (h : c.Carries Json.maxNestingDepth a a') :
    (0x0A : UInt8) ∉ c.marshal a :=
  fun hmem ↦ Json.printable_render h.writable _ hmem (by decide)

/-- A value on a line of its own is read back. -/
theorem unmarshal_marshal {c : Codec α} {a a' : α} (h : c.Carries Json.maxNestingDepth a a') :
    c.unmarshal (c.marshal a ++ [0x0A]) = some a' := by
  rw [unmarshal, marshal, Json.parse_render h.writable]
  exact h.read

variable {depth : ℕ}

theorem carries_string (s : Bytes) : string.Carries depth s (toValid s) where
  writable := by cases depth <;> exact trivial
  read := rfl
  empty h := by
    obtain rfl := List.isEmpty_iff.mp h
    rfl

theorem carries_bool (b : Bool) : bool.Carries depth b b where
  writable := by cases depth <;> exact trivial
  read := rfl
  empty h := by
    cases b
    · rfl
    · cases h

theorem carries_int (n : Int64) : int.Carries depth n n where
  writable := by cases depth <;> exact ⟨n.toInt, rfl⟩
  read := parseInt_itoaInt n
  empty h := beq_iff_eq.mp h

theorem carries_slice {elem : Codec α} {f : α → α} {items : List α}
    (h : ∀ a ∈ items, elem.Carries depth a (f a)) :
    elem.slice.Carries (depth + 1) items (items.map f) where
  writable := by
    intro j hj
    obtain ⟨a, ha, rfl⟩ := List.mem_map.mp hj
    exact (h a ha).writable
  read := by
    change decodeItems elem [] (Json.coerceItems (items.map elem.encode)) = some (items.map f)
    rw [Json.coerceItems_eq]
    induction items with
    | nil => rfl
    | cons a items ih =>
      rw [List.map_cons, List.map_cons, decodeItems, List.headD_nil, (h a List.mem_cons_self).read,
        List.tail_nil, ih fun b hb ↦ h b (List.mem_cons_of_mem a hb)]
      rfl
  empty hempty := by
    obtain rfl := List.isEmpty_iff.mp hempty
    rfl

/-! ## Maps -/

/-- The map with its keys in UTF-8 and its values changed; of two keys that become one the later
one counts. -/
def coerceMap (f : α → α) (m : GoMap Bytes α) : GoMap Bytes α :=
  GoMap.insertAll (fun entry ↦ toValid entry.1) (fun entry ↦ f entry.2) ∅ (m.entries (sortedKeys m))

theorem enumerates_sortedKeys (m : GoMap Bytes α) : Enumerates (sortedKeys m) m where
  nodup := Finset.sort_nodup _ _
  mem_iff key := by rw [sortedKeys, Finset.mem_sort, Finmap.mem_keys]

theorem carries_map {elem : Codec α} {f : α → α} {m : GoMap Bytes α}
    (h : ∀ key a, m.get key = some a → elem.Carries depth a (f a)) :
    elem.map.Carries (depth + 1) m (coerceMap f m) where
  writable := by
    intro member hmember
    obtain ⟨⟨key, a⟩, hentry, rfl⟩ := List.mem_map.mp hmember
    exact (h key a ((GoMap.mem_entries (enumerates_sortedKeys m)).mp hentry)).writable
  read := by
    have hentries : ∀ entry ∈ m.entries (sortedKeys m), elem.Carries depth entry.2 (f entry.2) :=
      fun entry hentry ↦ h entry.1 entry.2
        ((GoMap.mem_entries (enumerates_sortedKeys m)).mp hentry)
    change List.foldlM _ ∅ (Json.coerceMembers _) = some (coerceMap f m)
    rw [Json.coerceMembers_eq, coerceMap, GoMap.insertAll]
    revert hentries
    generalize m.entries (sortedKeys m) = entries
    generalize (∅ : GoMap Bytes α) = start
    intro hentries
    induction entries generalizing start with
    | nil => rfl
    | cons entry entries ih =>
      simp only [List.map_cons, List.foldlM_cons, List.foldl_cons, Prod.map,
        (hentries entry List.mem_cons_self).read, Option.map_some]
      exact ih _ fun other hother ↦ hentries other (List.mem_cons_of_mem _ hother)
  empty hempty := by
    have hkeys := Finset.card_eq_zero.mp (beq_iff_eq.mp hempty)
    rw [coerceMap, sortedKeys, hkeys, Finset.sort_empty]
    rfl

/-- Only a map with keys in UTF-8 and values that stay comes back as it is. -/
theorem coerceMap_eq_self_iff {f : α → α} (hf : ∀ a, f (f a) = f a) {m : GoMap Bytes α} :
    coerceMap f m = m ↔ ∀ key a, m.get key = some a → validString key ∧ f a = a := by
  have horder := enumerates_sortedKeys m
  constructor
  · intro heq key a hget
    rw [← heq] at hget
    obtain ⟨entry, -, rfl, rfl⟩ := GoMap.exists_of_get_insertAll hget
    exact ⟨validString_toValid entry.1, hf entry.2⟩
  · intro h
    have hentry : ∀ entry ∈ m.entries (sortedKeys m),
        toValid entry.1 = entry.1 ∧ f entry.2 = entry.2 :=
      fun entry hentry ↦
        have hsame := h entry.1 entry.2 ((GoMap.mem_entries horder).mp hentry)
        ⟨toValid_eq_self_iff.mpr hsame.1, hsame.2⟩
    have hkeys : (m.entries (sortedKeys m)).map (fun entry ↦ toValid entry.1) =
        (m.entries (sortedKeys m)).map Prod.fst :=
      List.map_congr_left fun entry hmem ↦ (hentry entry hmem).1
    apply GoMap.ext_get
    intro key
    cases hget : m.get key with
    | none =>
      rw [GoMap.get_eq_none] at hget ⊢
      rw [coerceMap, GoMap.mem_insertAll, hkeys, List.mem_map]
      rintro (hempty | ⟨entry, hmem, rfl⟩)
      · exact Finmap.notMem_empty hempty
      · exact hget (GoMap.mem_of_get ((GoMap.mem_entries horder).mp hmem))
    | some a =>
      have hmem : (key, a) ∈ m.entries (sortedKeys m) := (GoMap.mem_entries horder).mpr hget
      have hnodup : ((m.entries (sortedKeys m)).map fun entry ↦ toValid entry.1).Nodup := by
        rw [hkeys]
        exact GoMap.nodup_keys_entries horder
      have hfound : (coerceMap f m).get (toValid key) = some (f a) :=
        GoMap.get_insertAll ∅ hnodup hmem
      rwa [(hentry _ hmem).1, (hentry _ hmem).2] at hfound

/-! ## Structures -/

/-- Setting one of the two fields leaves the other alone. -/
def Apart (f g : StructField σ) : Prop :=
  ∀ s, (∀ a, g.get (f.set s a) = g.get s) ∧ ∀ a, f.get (g.set s a) = f.get s

/-- The fields are the whole structure and do not overlap. -/
structure Lawful (zero : σ) (fields : List (StructField σ)) : Prop where
  nodup : (fields.map StructField.name).Nodup
  valid : ∀ f ∈ fields, toValid f.name = f.name
  zero : ∀ f ∈ fields, f.get zero = f.codec.zero
  get_set : ∀ f ∈ fields, ∀ s a, f.get (f.set s a) = a
  apart : fields.Pairwise Apart
  ext : ∀ s s', (∀ f ∈ fields, f.get s = f.get s') → s = s'

theorem lookupField_name {fields : List (StructField σ)}
    (hnodup : (fields.map StructField.name).Nodup)
    {f : StructField σ} (hf : f ∈ fields) : lookupField fields f.name = some f := by
  have hfind : fields.find? (fun g ↦ g.name == f.name) = some f := by
    induction fields with
    | nil => exact absurd hf List.not_mem_nil
    | cons g rest ih =>
      rw [List.map_cons, List.nodup_cons] at hnodup
      rcases List.mem_cons.mp hf with rfl | hf
      · exact List.find?_cons_of_pos (beq_self_eq_true _)
      · have hne : (g.name == f.name) = false := by
          rw [beq_eq_false_iff_ne]
          exact fun h ↦ hnodup.1 (h ▸ List.mem_map_of_mem hf)
        rw [List.find?_cons, hne]
        exact ih hnodup.2 hf
  rw [lookupField, hfind]
  rfl

section Struct

variable {zero : σ} {fields : List (StructField σ)} {s s' : σ}

/-- The member of a field sets the field. -/
theorem decodeMember_field (hlawful : Lawful zero fields) {f : StructField σ} (hf : f ∈ fields)
    (h : f.codec.Carries depth (f.get s) (f.get s')) {old : σ} (hold : f.get old = f.codec.zero) :
    decodeMember fields old (toValid f.name, (f.codec.encode (f.get s)).coerce) =
      some (f.set old (f.get s')) := by
  rw [decodeMember, hlawful.valid f hf, lookupField_name hlawful.nodup hf]
  dsimp only
  rw [hold, h.read, Option.map_some]

/-- The members of some fields set those fields and no others. -/
theorem decodeMembers_fields (hlawful : Lawful zero fields)
    (h : ∀ f ∈ fields, f.codec.Carries depth (f.get s) (f.get s')) {todo : List (StructField σ)}
    (htodo : ∀ f ∈ todo, f ∈ fields) (hapart : todo.Pairwise Apart) {old : σ}
    (hold : ∀ f ∈ todo, f.get old = f.codec.zero) :
    ∃ new, (((todo.filterMap (encodeField s)).map (Prod.map toValid Json.coerce)).foldlM
        (decodeMember fields) old) = some new ∧
      (∀ f ∈ todo, f.get new = f.get s') ∧
      ∀ g : StructField σ, (∀ f ∈ todo, Apart g f) → g.get new = g.get old := by
  induction todo generalizing old with
  | nil => exact ⟨old, rfl, by simp, fun _ _ ↦ rfl⟩
  | cons f rest ih =>
    obtain ⟨hfirst, hrest⟩ := List.pairwise_cons.mp hapart
    have hf := htodo f List.mem_cons_self
    have hmem : ∀ g ∈ rest, g ∈ fields := fun g hg ↦ htodo g (List.mem_cons_of_mem f hg)
    have hzero : ∀ g ∈ rest, g.get old = g.codec.zero :=
      fun g hg ↦ hold g (List.mem_cons_of_mem f hg)
    by_cases homit : (f.omitEmpty && f.codec.isEmpty (f.get s)) = true
    · -- The field is left out and stays zero.
      obtain ⟨new, hnew, hset, hframe⟩ := ih hmem hrest hzero
      have hfield : encodeField s f = none := if_pos homit
      have hempty := (h f hf).empty (Bool.and_eq_true_iff.mp homit).2
      have hsame : f.get new = f.get s' :=
        calc
          f.get new = f.get old := hframe f hfirst
          _ = f.codec.zero := hold f List.mem_cons_self
          _ = f.get s' := hempty.symm
      refine ⟨new, ?_, List.forall_mem_cons.mpr ⟨hsame, hset⟩, fun g hg ↦ ?_⟩
      · rw [List.filterMap_cons_none hfield]
        exact hnew
      · exact hframe g fun f' hf' ↦ hg f' (List.mem_cons_of_mem f hf')
    · have hfield : encodeField s f = some (f.name, f.codec.encode (f.get s)) := if_neg homit
      have hkept : ∀ g ∈ rest, g.get (f.set old (f.get s')) = g.codec.zero :=
        fun g hg ↦ ((hfirst g hg old).1 _).trans (hzero g hg)
      obtain ⟨new, hnew, hset, hframe⟩ := ih hmem hrest hkept
      have hsame : f.get new = f.get s' :=
        calc
          f.get new = f.get (f.set old (f.get s')) := hframe f hfirst
          _ = f.get s' := hlawful.get_set f hf _ _
      refine ⟨new, ?_, List.forall_mem_cons.mpr ⟨hsame, hset⟩, fun g hg ↦ ?_⟩
      · rw [List.filterMap_cons_some hfield, List.map_cons, List.foldlM_cons, Prod.map,
          decodeMember_field hlawful hf (h f hf) (hold f List.mem_cons_self)]
        exact hnew
      · calc
          g.get new = g.get (f.set old (f.get s')) :=
            hframe g fun f' hf' ↦ hg f' (List.mem_cons_of_mem f hf')
          _ = g.get old := (hg f List.mem_cons_self old).2 _

/-- A structure carries its fields one by one. -/
theorem carries_struct (hlawful : Lawful zero fields)
    (h : ∀ f ∈ fields, f.codec.Carries depth (f.get s) (f.get s')) :
    (struct zero fields).Carries (depth + 1) s s' where
  writable := by
    intro m hm
    obtain ⟨f, hf, hfield⟩ := List.mem_filterMap.mp hm
    unfold encodeField at hfield
    split at hfield
    · cases hfield
    · cases hfield
      exact (h f hf).writable
  read := by
    obtain ⟨new, hnew, hset, -⟩ := decodeMembers_fields hlawful h (fun f hf ↦ hf) hlawful.apart
      hlawful.zero
    change List.foldlM _ zero (Json.coerceMembers _) = some s'
    rw [Json.coerceMembers_eq, hnew, hlawful.ext new s' hset]
  empty hempty := by cases hempty

end Struct


end Codec

end DbPivot.Go
