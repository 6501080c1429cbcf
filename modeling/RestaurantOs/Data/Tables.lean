import Mathlib.Algebra.BigOperators.Group.List.Basic
import Mathlib.Algebra.Order.BigOperators.Group.List
import Mathlib.Algebra.Order.Group.Unbundled.Basic
import Mathlib.Data.List.Nodup
import Mathlib.Tactic.Abel

/-!
# Tables

A collection is the list of its documents, an update rewrites the documents a
filter selects, and a total adds up one weight for each document. When ids are
distinct, an update of one document changes a total by that document's change.
-/

namespace RestaurantOs.Tables

variable {α β : Type}

/-- `updateOne`/`updateMany`: rewrites the documents that `sel` selects. -/
def update (sel : α → Bool) (f : α → α) (l : List α) : List α :=
  l.map fun d => if sel d then f d else d

def total [AddMonoid β] (w : α → β) (l : List α) : β := (l.map w).sum

/-- `sort({ [key]: 1 })`, the first document. -/
def oldest (key : α → Nat) : List α → Option α
  | [] => none
  | d :: l =>
    match oldest key l with
    | none => some d
    | some e => if key d ≤ key e then some d else some e

/-- `sort({ [key]: -1 })`, the first document. -/
def newest (key : α → Nat) : List α → Option α
  | [] => none
  | d :: l =>
    match newest key l with
    | none => some d
    | some e => if key e ≤ key d then some d else some e

theorem mem_of_newest {key : α → Nat} {l : List α} {d : α} (h : newest key l = some d) : d ∈ l := by
  induction l generalizing d with
  | nil => cases h
  | cons e l ih =>
    unfold newest at h
    split at h
    · cases h
      exact List.mem_cons_self
    · rename_i e' hRest
      split at h
      · cases h
        exact List.mem_cons_self
      · cases h
        exact List.mem_cons_of_mem _ (ih hRest)

theorem newest_le {key : α → Nat} {l : List α} {d : α} (h : newest key l = some d) : ∀ e ∈ l, key e ≤ key d := by
  induction l generalizing d with
  | nil => cases h
  | cons c l ih =>
    intro e he
    unfold newest at h
    split at h
    · rename_i hRest
      cases h
      rcases List.mem_cons.mp he with rfl | he
      · exact le_refl _
      · cases l with
        | nil => cases he
        | cons c' l =>
          unfold newest at hRest
          split at hRest
          · cases hRest
          · split at hRest <;> cases hRest
    · rename_i e' hRest
      have hLe := ih hRest
      split at h
      · rename_i hKey
        cases h
        rcases List.mem_cons.mp he with rfl | he
        · exact le_refl _
        · exact (hLe e he).trans hKey
      · rename_i hKey
        cases h
        rcases List.mem_cons.mp he with rfl | he
        · exact (Nat.lt_of_not_le hKey).le
        · exact hLe e he

theorem getElem?_set_eq {l : List α} {i : Nat} {a b : α} (h : l[i]? = some a) :
    (l.set i b)[i]? = some b :=
  List.getElem?_set_self (List.getElem?_eq_some_iff.mp h).1

theorem getElem?_set_cases {l : List α} {i j : Nat} {a b : α} (h : (l.set i b)[j]? = some a) :
    (j = i ∧ a = b) ∨ (j ≠ i ∧ l[j]? = some a) := by
  by_cases hij : i = j
  · subst hij
    rw [List.getElem?_set_self'] at h
    obtain ⟨_, _, hb⟩ := Option.map_eq_some_iff.mp h
    exact .inl ⟨rfl, hb.symm⟩
  · rw [List.getElem?_set_ne hij] at h
    exact .inr ⟨Ne.symm hij, h⟩

theorem mem_update {sel : α → Bool} {f : α → α} {l : List α} {d : α} :
    d ∈ update sel f l ↔ ∃ e ∈ l, d = if sel e then f e else e := by
  simp only [update, List.mem_map, eq_comm]

theorem map_update_eq {γ : Type} {sel : α → Bool} {f : α → α} {l : List α} (key : α → γ)
    (h : ∀ d, key (f d) = key d) : (update sel f l).map key = l.map key := by
  simp only [update, List.map_map]
  refine List.map_congr_left fun d _ => ?_
  simp only [Function.comp_apply]
  split
  · exact h d
  · rfl

theorem forall₂_update {R : α → α → Prop} {sel : α → Bool} {f : α → α} {l : List α} (hSelected : ∀ d, sel d = true → R d (f d))
    (hOther : ∀ d, R d d) : List.Forall₂ R l (update sel f l) := by
  induction l with
  | nil => exact .nil
  | cons d l ih =>
    refine .cons ?_ ih
    dsimp only
    split
    · exact hSelected d ‹_›
    · exact hOther d

theorem find?_update {sel p : α → Bool} {f : α → α} {l : List α}
    (h : ∀ d ∈ l, p (if sel d then f d else d) = p d) :
    (update sel f l).find? p = (l.find? p).map fun d => if sel d then f d else d := by
  induction l with
  | nil => rfl
  | cons d l ih =>
    have hd := h d List.mem_cons_self
    have hl := ih fun e he => h e (List.mem_cons_of_mem d he)
    simp only [update, List.map_cons, List.find?_cons, hd] at hl ⊢
    cases p d
    · exact hl
    · rfl

section Totals

variable [AddCommGroup β] {w w' : α → β} {l : List α}

@[simp] theorem total_nil : total w [] = 0 := rfl

@[simp] theorem total_cons (d : α) : total w (d :: l) = w d + total w l := by simp [total]

@[simp] theorem total_append (l₂ : List α) : total w (l ++ l₂) = total w l + total w l₂ := by simp [total]

theorem total_congr (h : ∀ d ∈ l, w d = w' d) : total w l = total w' l := by
  unfold total
  rw [List.map_congr_left h]

theorem total_zero (h : ∀ d ∈ l, w d = 0) : total w l = 0 := by
  induction l with
  | nil => rfl
  | cons d l ih =>
    rw [total_cons, h d List.mem_cons_self, ih fun e he => h e (List.mem_cons_of_mem d he), add_zero]

theorem total_update (sel : α → Bool) (f : α → α) :
    total w (update sel f l) = total (fun d => if sel d then w (f d) else w d) l := by
  unfold total update
  rw [List.map_map]
  congr 1
  refine List.map_congr_left fun d _ => ?_
  simp only [Function.comp_apply]
  split <;> rfl

theorem total_change {ι : Type} [DecidableEq ι] (id : α → ι) (hNodup : (l.map id).Nodup) {d : α}
    (hd : d ∈ l) (h : ∀ e ∈ l, id e ≠ id d → w' e = w e) :
    total w' l = total w l + (w' d - w d) := by
  induction l with
  | nil => cases hd
  | cons e l ih =>
    simp only [List.map_cons, List.nodup_cons, List.mem_map, not_exists, not_and] at hNodup
    rw [total_cons, total_cons]
    rcases List.mem_cons.mp hd with rfl | hd
    · have hTail : total w' l = total w l := total_congr fun e he =>
        h e (List.mem_cons_of_mem _ he) (hNodup.1 e he)
      rw [hTail]
      abel
    · have hHead : w' e = w e := h e List.mem_cons_self fun hEq => hNodup.1 d hd hEq.symm
      rw [hHead, ih hNodup.2 hd fun e he => h e (List.mem_cons_of_mem _ he)]
      abel

theorem total_set {i : Nat} {a b : α} (h : l[i]? = some a) :
    total w (l.set i b) = total w l + (w b - w a) := by
  induction l generalizing i with
  | nil => cases h
  | cons e l ih =>
    cases i with
    | zero =>
      simp only [List.getElem?_cons_zero, Option.some.injEq] at h
      subst h
      rw [List.set_cons_zero, total_cons, total_cons]
      abel
    | succ i =>
      rw [List.set_cons_succ, total_cons, total_cons, ih (by simpa using h)]
      abel

theorem total_filter (p : α → Bool) :
    total w (l.filter p) = total (fun d => if p d then w d else 0) l := by
  induction l with
  | nil => rfl
  | cons d l ih =>
    rw [List.filter_cons]
    split
    · rename_i hp
      rw [total_cons, total_cons, ih, if_pos hp]
    · rename_i hp
      rw [total_cons, ih, if_neg hp, zero_add]

theorem total_map {γ : Type} (f : γ → α) {l : List γ} : total w (l.map f) = total (w ∘ f) l := by
  unfold total
  rw [List.map_map]

theorem total_filterMap {γ : Type} (f : γ → Option α) {l : List γ} :
    total w (l.filterMap f) = total (fun d => (f d).elim 0 w) l := by
  induction l with
  | nil => rfl
  | cons d l ih =>
    rw [List.filterMap_cons]
    split
    · rename_i hf
      rw [total_cons, ih, hf, Option.elim_none, zero_add]
    · rename_i hf
      rw [total_cons, total_cons, ih, hf, Option.elim_some]

end Totals

section Order

variable [AddCommGroup β] [PartialOrder β] [IsOrderedAddMonoid β] {w w' : α → β} {l : List α}

theorem total_nonneg (h : ∀ d ∈ l, 0 ≤ w d) : 0 ≤ total w l := by
  apply List.sum_nonneg
  intro x hx
  obtain ⟨d, hd, rfl⟩ := List.mem_map.mp hx
  exact h d hd

theorem total_le_total (h : ∀ d ∈ l, w d ≤ w' d) : total w l ≤ total w' l := by
  induction l with
  | nil => exact le_refl _
  | cons d l ih =>
    rw [total_cons, total_cons]
    exact add_le_add (h d List.mem_cons_self) (ih fun e he => h e (List.mem_cons_of_mem d he))

theorem total_le_of_keys {γ κ : Type} {v : γ → β} {m : List γ} (key : α → κ) (key' : γ → κ)
    (hNodup : (l.map key).Nodup) (hMatch : ∀ d ∈ l, ∃ e ∈ m, key' e = key d ∧ w d ≤ v e)
    (hNonneg : ∀ e ∈ m, 0 ≤ v e) : total w l ≤ total v m := by
  induction l generalizing m with
  | nil => exact total_nonneg hNonneg
  | cons d l ih =>
    obtain ⟨e, he, hKey, hLe⟩ := hMatch d List.mem_cons_self
    obtain ⟨m₁, m₂, rfl⟩ := List.append_of_mem he
    rw [List.map_cons, List.nodup_cons] at hNodup
    have hRest : total w l ≤ total v (m₁ ++ m₂) := by
      refine ih hNodup.2 ?_ fun e' he' => hNonneg e' ?_
      · intro d' hd'
        obtain ⟨e', he', hKey', hLe'⟩ := hMatch d' (List.mem_cons_of_mem _ hd')
        have hNe : e' ≠ e := by
          rintro rfl
          exact hNodup.1 (List.mem_map.mpr ⟨d', hd', hKey'.symm.trans hKey⟩)
        refine ⟨e', ?_, hKey', hLe'⟩
        simpa [hNe] using he'
      · rw [List.mem_append] at he' ⊢
        exact he'.imp id (List.mem_cons_of_mem _)
    calc total w (d :: l) = w d + total w l := total_cons d
      _ ≤ v e + total v (m₁ ++ m₂) := add_le_add hLe hRest
      _ = total v (m₁ ++ e :: m₂) := by
        rw [total_append, total_append, total_cons]
        abel

end Order

theorem find?_id {ι : Type} [DecidableEq ι] {id : α → ι} {l : List α} (hNodup : (l.map id).Nodup) {d : α}
    (hd : d ∈ l) : l.find? (fun e => id e == id d) = some d := by
  induction l with
  | nil => cases hd
  | cons e l ih =>
    simp only [List.map_cons, List.nodup_cons, List.mem_map, not_exists, not_and] at hNodup
    rcases List.mem_cons.mp hd with rfl | hd
    · simp
    · have hNe : id e ≠ id d := fun hEq => hNodup.1 d hd hEq.symm
      rw [List.find?_cons_of_neg (by simpa using hNe), ih hNodup.2 hd]

theorem eq_of_id {ι : Type} {id : α → ι} {l : List α} (hNodup : (l.map id).Nodup) {d e : α} (hd : d ∈ l)
    (he : e ∈ l) (h : id d = id e) : d = e :=
  List.inj_on_of_nodup_map hNodup hd he h

/-- Every other document that `pickable` selects is older than an active one. -/
def ActiveNewest (id createdAt : α → Nat) (active pickable : α → Bool) (l : List α) : Prop :=
  ∀ a ∈ l, active a = true → ∀ b ∈ l, pickable b = true → id b ≠ id a → createdAt b < createdAt a

def Activates (id : α → Nat) (active : α → Bool) (l l' : List α) : Prop :=
  ∃ a ∈ l', active a = true ∧ ∀ b ∈ l, id b = id a → active b = false

instance (id createdAt : α → Nat) (active pickable : α → Bool) (l : List α) :
    Decidable (ActiveNewest id createdAt active pickable l) :=
  inferInstanceAs (Decidable (∀ a ∈ l, active a = true → ∀ b ∈ l, pickable b = true → id b ≠ id a → createdAt b < createdAt a))

instance (id : α → Nat) (active : α → Bool) (l l' : List α) : Decidable (Activates id active l l') :=
  inferInstanceAs (Decidable (∃ a ∈ l', active a = true ∧ ∀ b ∈ l, id b = id a → active b = false))

theorem none_active_of_not_activates {id : α → Nat} {active : α → Bool} {l l' : List α}
    (h : ¬ Activates id active l l') (hNone : ∀ a ∈ l, active a = false) : ∀ a ∈ l', active a = false := by
  intro a ha
  rw [Bool.eq_false_iff]
  intro hActive
  exact h ⟨a, ha, hActive, fun b hb _ => hNone b hb⟩

/-- One of the documents that `pickable` selects is switched off: the newest.
Where every other one was created before the active one, none stays active. -/
theorem none_active_of_newest {id createdAt : α → Nat} {active pickable : α → Bool} {f : α → α} {l : List α} {d : α}
    (hPicked : newest createdAt (l.filter pickable) = some d)
    (hPickable : ∀ a ∈ l, active a = true → pickable a = true)
    (hNewest : ActiveNewest id createdAt active pickable l) (hOff : ∀ a, active (f a) = false) :
    ∀ e ∈ update (fun a => id a = id d) f l, active e = false := by
  intro e he
  obtain ⟨a, ha, rfl⟩ := (mem_update).mp he
  split
  · exact hOff a
  · rename_i hNe
    rw [decide_eq_true_eq] at hNe
    rw [Bool.eq_false_iff]
    intro hActive
    obtain ⟨hMem, hPick⟩ := List.mem_filter.mp (mem_of_newest hPicked)
    have hLe := newest_le hPicked a (List.mem_filter.mpr ⟨ha, hPickable a ha hActive⟩)
    exact absurd (hNewest a ha hActive d hMem hPick (Ne.symm hNe)) (Nat.not_lt.mpr hLe)

end RestaurantOs.Tables
