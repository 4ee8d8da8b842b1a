import Mathlib.Data.Finmap

/-!
# Go maps

A map is a finite partial function. A `range` loop visits every key once, in an order the language
leaves open, so a function with such a loop takes the order as an argument and `Enumerates` says
which arguments Go may choose.
-/

namespace DbPivot.Go

variable {κ ν : Type}

/-- `map[κ]ν`. -/
abbrev GoMap (κ ν : Type) := Finmap fun _ : κ ↦ ν

/-- An order in which a `range` loop may visit the keys of the map. -/
structure Enumerates (order : List κ) (m : GoMap κ ν) : Prop where
  nodup : order.Nodup
  mem_iff : ∀ key, key ∈ order ↔ key ∈ m

namespace GoMap

/-- There always is an order for a `range` loop. -/
theorem exists_enumerates (m : GoMap κ ν) : ∃ order, Enumerates order m :=
  ⟨m.keys.toList, m.keys.nodup_toList, fun _ ↦ Finset.mem_toList.trans Finmap.mem_keys⟩

variable [DecidableEq κ]

/-- `m[key]` with its second result. -/
def get (m : GoMap κ ν) (key : κ) : Option ν := m.lookup key

@[simp]
theorem get_empty (key : κ) : get (∅ : GoMap κ ν) key = none := Finmap.lookup_empty key

@[simp]
theorem get_insert (m : GoMap κ ν) (key : κ) (value : ν) :
    get (m.insert key value) key = some value := Finmap.lookup_insert m

theorem get_insert_of_ne (m : GoMap κ ν) {key other : κ} (value : ν) (hne : other ≠ key) :
    get (m.insert key value) other = get m other := Finmap.lookup_insert_of_ne m hne

theorem get_eq_none {m : GoMap κ ν} {key : κ} : m.get key = none ↔ key ∉ m :=
  Finmap.lookup_eq_none

theorem mem_iff_get {m : GoMap κ ν} {key : κ} : key ∈ m ↔ ∃ value, m.get key = some value :=
  Finmap.mem_iff

theorem mem_of_get {m : GoMap κ ν} {key : κ} {value : ν} (hget : m.get key = some value) :
    key ∈ m := Finmap.mem_of_lookup_eq_some hget

theorem ext_get {left right : GoMap κ ν} (h : ∀ key, left.get key = right.get key) : left = right :=
  Finmap.ext_lookup h

theorem get_erase (m : GoMap κ ν) (key : κ) : get (m.erase key) key = none :=
  Finmap.lookup_erase key m

theorem get_erase_of_ne (m : GoMap κ ν) {key other : κ} (hne : other ≠ key) :
    get (m.erase key) other = get m other := Finmap.lookup_erase_ne hne

theorem eq_empty_iff {m : GoMap κ ν} : m = ∅ ↔ ∀ key, key ∉ m := by
  constructor
  · intro hm key hkey
    rw [hm] at hkey
    exact Finmap.notMem_empty hkey
  · intro h
    exact ext_get fun key ↦ by rw [get_eq_none.mpr (h key), get_empty]

/-- The number of entries is the length of any order in which they are visited. -/
theorem length_eq_card {order : List κ} {m : GoMap κ ν} (horder : Enumerates order m) :
    order.length = m.keys.card := by
  have hkeys : order.toFinset = m.keys := by
    ext key
    rw [List.mem_toFinset, horder.mem_iff, Finmap.mem_keys]
  rw [← hkeys, List.toFinset_card_of_nodup horder.nodup]

theorem card_keys_insert {m : GoMap κ ν} {key : κ} (hfresh : key ∉ m) (value : ν) :
    (m.insert key value).keys.card = m.keys.card + 1 := by
  have hkeys : (m.insert key value).keys =
      Finset.cons key m.keys (Finmap.mem_keys.not.mpr hfresh) := by
    ext other
    rw [Finmap.mem_keys, Finmap.mem_insert, Finset.mem_cons, Finmap.mem_keys]
  rw [hkeys, Finset.card_cons]

theorem card_keys_erase {m : GoMap κ ν} {key : κ} (hmem : key ∈ m) :
    (m.erase key).keys.card = m.keys.card - 1 := by
  rw [Finmap.keys_erase, Finset.card_erase_of_mem (Finmap.mem_keys.mpr hmem)]

theorem mem_foldl_erase {keys : List κ} {m : GoMap κ ν} {key : κ} :
    key ∈ keys.foldl (fun m c ↦ m.erase c) m ↔ key ∈ m ∧ key ∉ keys := by
  induction keys generalizing m with
  | nil => simp
  | cons first rest ih =>
    rw [List.foldl_cons, ih, Finmap.mem_erase, List.mem_cons, not_or]
    tauto

/-- Deleting every key one by one empties the map. -/
theorem foldl_erase_eq_empty {keys : List κ} {m : GoMap κ ν}
    (hkeys : ∀ key, key ∈ keys ↔ key ∈ m) : keys.foldl (fun m c ↦ m.erase c) m = ∅ := by
  rw [eq_empty_iff]
  intro key hkey
  have h := mem_foldl_erase.mp hkey
  exact h.2 ((hkeys key).mpr h.1)

/-- The entries a `range` loop visits, in the given order of the keys. -/
def entries (m : GoMap κ ν) (order : List κ) : List (κ × ν) :=
  order.filterMap fun key ↦ (m.get key).map (Prod.mk key)

theorem mem_entries {m : GoMap κ ν} {order : List κ} (horder : Enumerates order m) {key : κ}
    {value : ν} : (key, value) ∈ m.entries order ↔ m.get key = some value := by
  simp only [entries, List.mem_filterMap, Option.map_eq_some_iff, Prod.mk.injEq]
  constructor
  · intro h
    rcases h with ⟨other, -, found, hfound, rfl, rfl⟩
    exact hfound
  · intro hget
    exact ⟨key, (horder.mem_iff key).mpr (mem_of_get hget), value, hget, rfl, rfl⟩

theorem entries_cons_none {m : GoMap κ ν} {first : κ} (hget : m.get first = none)
    (rest : List κ) : m.entries (first :: rest) = m.entries rest := by
  rw [entries, List.filterMap_cons, hget]
  rfl

theorem entries_cons_some {m : GoMap κ ν} {first : κ} {value : ν} (hget : m.get first = some value)
    (rest : List κ) : m.entries (first :: rest) = (first, value) :: m.entries rest := by
  rw [entries, List.filterMap_cons, hget]
  rfl

theorem entries_congr {left right : GoMap κ ν} {order : List κ}
    (h : ∀ key ∈ order, left.get key = right.get key) : left.entries order = right.entries order :=
  List.filterMap_congr fun key hkey ↦ by rw [h key hkey]

theorem keys_entries_sublist (m : GoMap κ ν) (order : List κ) :
    List.Sublist ((m.entries order).map Prod.fst) order := by
  induction order with
  | nil => exact List.Sublist.refl _
  | cons first rest ih =>
    cases hget : m.get first with
    | none =>
      rw [entries_cons_none hget]
      exact ih.cons first
    | some value =>
      rw [entries_cons_some hget]
      exact ih.cons_cons first

theorem nodup_keys_entries {m : GoMap κ ν} {order : List κ} (horder : Enumerates order m) :
    ((m.entries order).map Prod.fst).Nodup := (keys_entries_sublist m order).nodup horder.nodup

/-- The map with the given keys and a value for each. -/
def ofKeys (keys : List κ) (value : κ → ν) : GoMap κ ν :=
  keys.foldr (fun key m ↦ m.insert key (value key)) ∅

theorem get_ofKeys (keys : List κ) (value : κ → ν) (key : κ) :
    (ofKeys keys value).get key = if key ∈ keys then some (value key) else none := by
  induction keys with
  | nil => simp [ofKeys]
  | cons first rest ih =>
    by_cases hkey : key = first
    · subst hkey
      simp [ofKeys]
    · rw [ofKeys, List.foldr_cons, get_insert_of_ne _ _ hkey, ← ofKeys, ih]
      simp [hkey]

theorem mem_ofKeys {keys : List κ} {value : κ → ν} {key : κ} :
    key ∈ ofKeys keys value ↔ key ∈ keys := by
  rw [mem_iff_get, get_ofKeys]
  split <;> simp [*]

section InsertAll

variable {τ : Type} (key : τ → κ) (value : τ → ν)

/-- Insert one entry for each item of a slice; a later item replaces an earlier one. -/
def insertAll (m : GoMap κ ν) (items : List τ) : GoMap κ ν :=
  items.foldl (fun m item ↦ m.insert (key item) (value item)) m

variable {key value}

theorem insertAll_append (m : GoMap κ ν) (items : List τ) (last : τ) :
    insertAll key value m (items ++ [last]) =
      (insertAll key value m items).insert (key last) (value last) := by
  rw [insertAll, List.foldl_append]
  rfl

/-- With pairwise different keys, every item is found under its key. -/
theorem get_insertAll (m : GoMap κ ν) {items : List τ} (hnodup : (items.map key).Nodup) {item : τ}
    (hitem : item ∈ items) :
    (insertAll key value m items).get (key item) = some (value item) := by
  induction items using List.reverseRecOn with
  | nil => exact absurd hitem List.not_mem_nil
  | append_singleton rest last ih =>
    rw [List.map_append, List.map_singleton] at hnodup
    rw [insertAll_append]
    rcases List.mem_append.mp hitem with hrest | hlast
    · have hne : key item ≠ key last := by
        intro hkey
        have hmem : key last ∈ rest.map key := hkey ▸ List.mem_map_of_mem hrest
        exact (List.nodup_append.mp hnodup).2.2 _ hmem _ List.mem_cons_self rfl
      rw [get_insert_of_ne _ _ hne]
      exact ih (List.nodup_append.mp hnodup).1 hrest
    · rw [List.mem_singleton.mp hlast, get_insert]

/-- What is found was inserted by some item. -/
theorem exists_of_get_insertAll {items : List τ} {k : κ} {found : ν}
    (hget : (insertAll key value ∅ items).get k = some found) :
    ∃ item ∈ items, key item = k ∧ value item = found := by
  induction items using List.reverseRecOn with
  | nil => exact absurd hget (by simp [insertAll])
  | append_singleton rest last ih =>
    rw [insertAll_append] at hget
    by_cases hk : k = key last
    · subst hk
      rw [get_insert] at hget
      exact ⟨last, by simp, rfl, Option.some.inj hget⟩
    · rw [get_insert_of_ne _ _ hk] at hget
      rcases ih hget with ⟨item, hitem, hkey, hvalue⟩
      exact ⟨item, List.mem_append_left _ hitem, hkey, hvalue⟩

theorem mem_insertAll {m : GoMap κ ν} {items : List τ} {k : κ} :
    k ∈ insertAll key value m items ↔ k ∈ m ∨ k ∈ items.map key := by
  induction items using List.reverseRecOn with
  | nil => simp [insertAll]
  | append_singleton rest last ih =>
    rw [insertAll_append, Finmap.mem_insert, ih, List.map_append, List.mem_append,
      List.map_singleton, List.mem_singleton]
    tauto

end InsertAll

end GoMap

end DbPivot.Go
