import Mathlib.Data.Char
import Mathlib.Data.List.Lex
import Mathlib.Data.List.Sort
import RestaurantOs.Data.Words
import RestaurantOs.Menus.OrderPricing

/-!
# Keys of cart lines

Both carts name a line by its item and its sorted option ids, joined to one
string. An id has none of the separators, so the string says which item and
which options they are.
-/

namespace RestaurantOs.Carts

export Menus (Id Text idText)

open Words (split_at)

def idChars (id : Id) : Text := (idText id).toList

/-- `ids.sort().join(",")` -/
def joinedIds (ids : List Id) : Text := List.intercalate [','] ((ids.map idChars).mergeSort fun a b => a ≤ b)

section Joined

variable {sep c : Char} {a b : Text} {id id' : Id} {ids ids' : List Id}

theorem intercalate_cons {l : List Text} (hl : l ≠ []) : List.intercalate [sep] (a :: l) = a ++ sep :: List.intercalate [sep] l := by
  cases l with
  | nil => exact absurd rfl hl
  | cons b l => simp [List.intercalate, List.intersperse]

theorem intercalate_inj {l l' : List Text} (hl : ∀ t ∈ l, t ≠ [] ∧ sep ∉ t) (hl' : ∀ t ∈ l', t ≠ [] ∧ sep ∉ t)
    (h : List.intercalate [sep] l = List.intercalate [sep] l') : l = l' := by
  have hFirst : ∀ {l : List Text} {a : Text}, List.intercalate [sep] (a :: l) = [] → a = [] := by
    intro l a hNil
    cases l with
    | nil => simpa [List.intercalate] using hNil
    | cons b l =>
      rw [intercalate_cons (List.cons_ne_nil _ _)] at hNil
      exact (List.append_eq_nil_iff.mp hNil).1
  induction l generalizing l' with
  | nil =>
    cases l' with
    | nil => rfl
    | cons b l' => exact absurd (hFirst h.symm) (hl' b List.mem_cons_self).1
  | cons a l ih =>
    cases l' with
    | nil => exact absurd (hFirst h) (hl a List.mem_cons_self).1
    | cons b l' =>
      have ha := (hl a List.mem_cons_self).2
      have hb := (hl' b List.mem_cons_self).2
      have hRest := fun t ht => hl t (List.mem_cons_of_mem _ ht)
      have hRest' := fun t ht => hl' t (List.mem_cons_of_mem _ ht)
      by_cases hNil : l = []
      · by_cases hNil' : l' = []
        · subst hNil hNil'
          simpa [List.intercalate] using h
        · rw [hNil, intercalate_cons hNil'] at h
          have hMem : sep ∈ a := by
            simp only [List.intercalate, List.intersperse, List.flatten_cons, List.flatten_nil, List.append_nil] at h
            rw [h]
            exact List.mem_append_right _ List.mem_cons_self
          exact absurd hMem ha
      · by_cases hNil' : l' = []
        · rw [hNil', intercalate_cons hNil] at h
          have hMem : sep ∈ b := by
            simp only [List.intercalate, List.intersperse, List.flatten_cons, List.flatten_nil, List.append_nil] at h
            rw [← h]
            exact List.mem_append_right _ List.mem_cons_self
          exact absurd hMem hb
        · rw [intercalate_cons hNil, intercalate_cons hNil'] at h
          obtain ⟨rfl, hTail⟩ := split_at ha hb h
          rw [ih hRest hRest' hTail]

theorem isDigit_of_mem_idChars (h : c ∈ idChars id) : c.isDigit = true := by
  have hChars : idChars id = Nat.toDigits 10 id := by
    rw [idChars, idText, Nat.toString_eq_repr, Nat.toList_repr]
  rw [hChars] at h
  exact Nat.isDigit_of_mem_toDigits (by decide) (by decide) h

theorem idChars_inj (h : idChars id = idChars id') : id = id' := by
  rw [idChars, idChars, idText, idText, Nat.toString_eq_repr, Nat.toString_eq_repr, Nat.toList_repr, Nat.toList_repr] at h
  simpa using congrArg (fun digits => Nat.ofDigitChars 10 digits 0) h

theorem not_mem_idChars (hSep : sep.isDigit = false) : sep ∉ idChars id := fun h => by
  rw [isDigit_of_mem_idChars h] at hSep
  cases hSep

theorem idChars_ne_nil : idChars id ≠ [] := by
  rw [idChars, idText, Nat.toString_eq_repr, Nat.toList_repr]
  exact Nat.toDigits_ne_nil

theorem joinedIds_inj : joinedIds ids = joinedIds ids' ↔ ids.Perm ids' := by
  have hTrans : ∀ a b c : Text, decide (a ≤ b) = true → decide (b ≤ c) = true → decide (a ≤ c) = true := by
    intro a b c hab hbc
    rw [decide_eq_true_eq] at *
    exact hab.trans hbc
  have hTotal : ∀ a b : Text, (decide (a ≤ b) || decide (b ≤ a)) = true := by
    intro a b
    rw [Bool.or_eq_true, decide_eq_true_eq, decide_eq_true_eq]
    exact le_total a b
  have hParts : ∀ ids : List Id, ∀ t ∈ (ids.map idChars).mergeSort fun a b => a ≤ b, t ≠ [] ∧ ',' ∉ t := by
    intro ids t ht
    obtain ⟨id, -, rfl⟩ := List.mem_map.mp (List.mem_mergeSort.mp ht)
    exact ⟨idChars_ne_nil, not_mem_idChars rfl⟩
  have hInj : Function.Injective idChars := fun _ _ => idChars_inj
  constructor
  · intro h
    have hSorted := intercalate_inj (hParts ids) (hParts ids') h
    have hPerm := (List.mergeSort_perm _ _).symm.trans ((List.Perm.of_eq hSorted).trans (List.mergeSort_perm _ _))
    exact (List.map_perm_map_iff hInj).mp hPerm
  · intro h
    have hPerm : ((ids.map idChars).mergeSort fun a b => a ≤ b).Perm ((ids'.map idChars).mergeSort fun a b => a ≤ b) :=
      (List.mergeSort_perm _ _).trans ((h.map idChars).trans (List.mergeSort_perm _ _).symm)
    rw [joinedIds, joinedIds]
    congr 1
    refine hPerm.eq_of_pairwise ?_ (List.pairwise_mergeSort hTrans hTotal _) (List.pairwise_mergeSort hTrans hTotal _)
    intro a b _ _ hab hba
    rw [decide_eq_true_eq] at hab hba
    exact le_antisymm hab hba

theorem not_mem_intercalate {l : List Text} (hNe : c ≠ sep) (hl : ∀ t ∈ l, c ∉ t) : c ∉ List.intercalate [sep] l := by
  induction l with
  | nil => exact List.not_mem_nil
  | cons a l ih =>
    obtain ⟨ha, hl⟩ := List.forall_mem_cons.mp hl
    by_cases hNil : l = []
    · rw [hNil]
      simpa [List.intercalate] using ha
    · rw [intercalate_cons hNil, List.mem_append, List.mem_cons]
      rintro (h | h | h)
      · exact ha h
      · exact hNe h
      · exact ih hl h

theorem colon_not_mem_joinedIds : ':' ∉ joinedIds ids := by
  refine not_mem_intercalate (by decide) fun t ht => ?_
  obtain ⟨id, -, rfl⟩ := List.mem_map.mp (List.mem_mergeSort.mp ht)
  exact not_mem_idChars rfl

end Joined

end RestaurantOs.Carts
