import Mathlib.Data.List.Nodup

/-!
# Maps that keep their order

A `Map` lists its entries in the order in which their keys were first set, each
key once.
-/

namespace RestaurantOs

structure OrderedMap (κ α : Type) where
  entries : List (κ × α)
  keys_nodup : (entries.map (·.1)).Nodup

namespace OrderedMap

variable {κ α : Type} {m : OrderedMap κ α} {k : κ} {a : α} {e : κ × α} {limit : Nat}

def empty : OrderedMap κ α := ⟨[], List.nodup_nil⟩

def size (m : OrderedMap κ α) : Nat := m.entries.length

def keep (p : κ × α → Bool) (m : OrderedMap κ α) : OrderedMap κ α := ⟨m.entries.filter p, (List.filter_sublist.map _).nodup m.keys_nodup⟩

/-- Deletes from the front while there are `limit` entries or more. -/
def dropOldest (limit : Nat) : List (κ × α) → List (κ × α)
  | [] => []
  | e :: rest => if (e :: rest).length < limit then e :: rest else dropOldest limit rest

theorem dropOldest_suffix {l : List (κ × α)} : dropOldest limit l <:+ l := by
  induction l with
  | nil => exact List.suffix_refl _
  | cons e l ih =>
    rw [dropOldest]
    split
    · exact List.suffix_refl _
    · exact ih.trans (List.suffix_cons e l)

theorem length_dropOldest {l : List (κ × α)} (hLimit : 0 < limit) : (dropOldest limit l).length < limit := by
  induction l with
  | nil => exact hLimit
  | cons e l ih =>
    rw [dropOldest]
    split
    · assumption
    · exact ih

def newest (limit : Nat) (m : OrderedMap κ α) : OrderedMap κ α :=
  ⟨dropOldest limit m.entries, (dropOldest_suffix.sublist.map _).nodup m.keys_nodup⟩

theorem value_eq {b : α} (ha : (k, a) ∈ m.entries) (hb : (k, b) ∈ m.entries) : a = b := by
  have hSame := List.inj_on_of_nodup_map m.keys_nodup ha hb rfl
  exact congrArg Prod.snd hSame

theorem size_keep_le {p : κ × α → Bool} : (m.keep p).size ≤ m.size := List.length_filter_le _ _

theorem size_newest (hLimit : 0 < limit) : (m.newest limit).size < limit := length_dropOldest hLimit

theorem mem_of_mem_newest (h : e ∈ (m.newest limit).entries) : e ∈ m.entries := (dropOldest_suffix).subset h

theorem mem_of_mem_keep {p : κ × α → Bool} (h : e ∈ (m.keep p).entries) : e ∈ m.entries := (List.mem_filter.mp h).1

section Keys

variable [DecidableEq κ]

def get? (m : OrderedMap κ α) (k : κ) : Option α := (m.entries.find? (·.1 = k)).map (·.2)

def delete (m : OrderedMap κ α) (k : κ) : OrderedMap κ α := m.keep (·.1 ≠ k)

/-- A key that is there keeps its place, and a new one comes last. -/
def set (m : OrderedMap κ α) (k : κ) (a : α) : OrderedMap κ α :=
  if h : ∃ e ∈ m.entries, e.1 = k then
    ⟨m.entries.map fun e => if e.1 = k then (k, a) else e, by
      have hKeys : (m.entries.map fun e => if e.1 = k then (k, a) else e).map (·.1) = m.entries.map (·.1) := by
        rw [List.map_map]
        apply List.map_congr_left
        intro e _
        rw [Function.comp_apply]
        split
        · rename_i hKey
          exact hKey.symm
        · rfl
      rw [hKeys]
      exact m.keys_nodup⟩
  else
    ⟨m.entries ++ [(k, a)], by
      rw [List.map_append, List.map_singleton]
      refine List.nodup_append_comm.mpr (List.nodup_cons.mpr ⟨?_, m.keys_nodup⟩)
      intro hMem
      obtain ⟨e, he, hKey⟩ := List.mem_map.mp hMem
      exact h ⟨e, he, hKey⟩⟩

theorem get?_eq_some : m.get? k = some a ↔ (k, a) ∈ m.entries := by
  rw [get?, Option.map_eq_some_iff]
  constructor
  · rintro ⟨e, hFound, rfl⟩
    have hKey : e.1 = k := by simpa using List.find?_some hFound
    rw [← hKey]
    exact List.mem_of_find?_eq_some hFound
  · intro hMem
    cases hFind : m.entries.find? (·.1 = k) with
    | none => exact absurd (List.find?_eq_none.mp hFind (k, a) hMem) (by simp)
    | some e =>
      have hKey : e.1 = k := by simpa using List.find?_some hFind
      refine ⟨e, rfl, ?_⟩
      rw [List.inj_on_of_nodup_map m.keys_nodup (List.mem_of_find?_eq_some hFind) hMem hKey]

theorem get?_eq_none : m.get? k = none ↔ ∀ e ∈ m.entries, e.1 ≠ k := by
  rw [get?, Option.map_eq_none_iff, List.find?_eq_none]
  simp only [decide_eq_true_eq, ne_eq]

theorem mem_delete : e ∈ (m.delete k).entries ↔ e ∈ m.entries ∧ e.1 ≠ k := by
  unfold delete keep
  rw [List.mem_filter, decide_eq_true_eq]

theorem mem_set : e ∈ (m.set k a).entries ↔ e = (k, a) ∨ e ∈ m.entries ∧ e.1 ≠ k := by
  unfold set
  split
  · rename_i hKey
    rw [List.mem_map]
    constructor
    · rintro ⟨d, hd, rfl⟩
      split
      · exact .inl rfl
      · rename_i hNe
        exact .inr ⟨hd, hNe⟩
    · rintro (rfl | ⟨he, hNe⟩)
      · obtain ⟨d, hd, hdKey⟩ := hKey
        exact ⟨d, hd, if_pos hdKey⟩
      · exact ⟨e, he, if_neg hNe⟩
  · rename_i hNone
    rw [List.mem_append, List.mem_singleton, or_comm]
    refine or_congr_right (and_iff_left_of_imp ?_).symm
    intro he hKey
    exact hNone ⟨e, he, hKey⟩

theorem size_set_le : (m.set k a).size ≤ m.size + 1 := by
  unfold set size
  split
  · rw [List.length_map]
    omega
  · simp only [List.length_append, List.length_singleton, Nat.le_refl]

end Keys

end OrderedMap

end RestaurantOs
