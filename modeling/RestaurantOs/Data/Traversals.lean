import Mathlib.Algebra.BigOperators.Group.List.Basic
import Mathlib.Data.List.Forall2
import Mathlib.Data.List.Nodup

/-!
# Fallible traversals

A list walked with a function that may fail: the walk succeeds exactly if
every step does, and then its results are the steps' results. A list summed up
key by key gives the sum of the whole list.
-/

namespace RestaurantOs.Traversals

variable {α β ε κ : Type}

theorem bind_ok {x : Except ε α} {f : α → Except ε β} {b : β} (h : (x >>= f) = .ok b) : ∃ a, x = .ok a ∧ f a = .ok b := by
  cases x with
  | error e => cases h
  | ok a => exact ⟨a, rfl, h⟩

theorem exists_of_forall₂ {R : α → β → Prop} {l : List α} {r : List β} (h : List.Forall₂ R l r) {a : α} (hMem : a ∈ l) :
    ∃ b ∈ r, R a b := by
  induction h with
  | nil => cases hMem
  | cons hR _ ih =>
    cases hMem with
    | head => exact ⟨_, List.mem_cons_self, hR⟩
    | tail _ hMem =>
      obtain ⟨b, hb, hR⟩ := ih hMem
      exact ⟨b, List.mem_cons_of_mem _ hb, hR⟩

theorem forall₂_zipWith {γ : Type} {R : α → β → Prop} {f : β → γ → β} {l : List α} {r : List β} {s : List γ} (h : List.Forall₂ R l r)
    (hLength : r.length ≤ s.length) (hf : ∀ a b c, R a b → R a (f b c)) : List.Forall₂ R l (r.zipWith f s) := by
  induction h generalizing s with
  | nil => exact .nil
  | cons hHead _ ih =>
    cases s with
    | nil => cases hLength
    | cons c s => exact .cons (hf _ _ c hHead) (ih (Nat.le_of_succ_le_succ hLength))

theorem mapM_ok_iff {f : α → Except ε β} {l : List α} {r : List β} :
    l.mapM f = .ok r ↔ List.Forall₂ (fun a b => f a = .ok b) l r := by
  induction l generalizing r with
  | nil =>
    rw [List.mapM_nil]
    constructor
    · rintro ⟨⟩
      exact .nil
    · rintro ⟨⟩
      rfl
  | cons a l ih =>
    rw [List.mapM_cons]
    cases hHead : f a with
    | error e =>
      refine ⟨(by rintro ⟨⟩), fun h => ?_⟩
      cases h with
      | cons hFirst hRest =>
        rw [hHead] at hFirst
        cases hFirst
    | ok b =>
      cases hTail : l.mapM f with
      | error e =>
        refine ⟨(by rintro ⟨⟩), fun h => ?_⟩
        cases h with
        | cons hFirst hRest =>
          rw [ih.mpr hRest] at hTail
          cases hTail
      | ok bs =>
        constructor
        · rintro ⟨⟩
          exact .cons hHead (ih.mp hTail)
        · intro h
          cases h with
          | cons hFirst hRest =>
            rw [hHead] at hFirst
            rw [ih.mpr hRest] at hTail
            cases hFirst
            cases hTail
            rfl

theorem mapM_isOk_iff {f : α → Except ε β} {l : List α} : (∃ r, l.mapM f = .ok r) ↔ ∀ a ∈ l, ∃ b, f a = .ok b := by
  induction l with
  | nil =>
    refine ⟨fun _ a hMem => ?_, fun _ => ⟨[], rfl⟩⟩
    cases hMem
  | cons a l ih =>
    rw [List.forall_mem_cons, ← ih]
    constructor
    · rintro ⟨r, hr⟩
      cases (mapM_ok_iff).mp hr with
      | cons hFirst hRest => exact ⟨⟨_, hFirst⟩, _, (mapM_ok_iff).mpr hRest⟩
    · rintro ⟨⟨b, hb⟩, bs, hbs⟩
      exact ⟨b :: bs, (mapM_ok_iff).mpr (.cons hb ((mapM_ok_iff).mp hbs))⟩

theorem map_of_mapM {γ : Type} {f : α → Except ε β} {g : α → γ} {h : β → γ} {l : List α} {r : List β} (hMap : l.mapM f = .ok r)
    (hEach : ∀ a ∈ l, ∀ b, f a = .ok b → h b = g a) : r.map h = l.map g := by
  have hForall := (mapM_ok_iff).mp hMap
  clear hMap
  induction hForall with
  | nil => rfl
  | @cons a b l r hFirst hRest ih =>
    rw [List.map_cons, List.map_cons, hEach a List.mem_cons_self b hFirst,
      ih fun a' hMem => hEach a' (List.mem_cons_of_mem _ hMem)]

section Sums

variable [DecidableEq κ] [AddCommMonoid β] {key : α → κ} {w : α → β}

theorem sum_single {ks : List κ} (hNodup : ks.Nodup) {k : κ} (hMem : k ∈ ks) (b : β) :
    (ks.map fun k' => if k = k' then b else 0).sum = b := by
  induction ks with
  | nil => cases hMem
  | cons k' ks ih =>
    rw [List.nodup_cons] at hNodup
    rw [List.map_cons, List.sum_cons]
    rcases List.mem_cons.mp hMem with rfl | hTail
    · have hZero : (ks.map fun k' => if k = k' then b else 0).sum = 0 := by
        refine List.sum_eq_zero fun x hx => ?_
        obtain ⟨k', hk', rfl⟩ := List.mem_map.mp hx
        refine if_neg ?_
        rintro rfl
        exact hNodup.1 hk'
      rw [if_pos rfl, hZero, add_zero]
    · have hNe : k ≠ k' := fun hEq => hNodup.1 (hEq ▸ hTail)
      rw [if_neg hNe, zero_add, ih hNodup.2 hTail]

theorem sum_by_key {ks : List κ} (hNodup : ks.Nodup) {l : List α} (hCover : ∀ a ∈ l, key a ∈ ks) :
    (ks.map fun k => ((l.filter fun a => key a = k).map w).sum).sum = (l.map w).sum := by
  induction l with
  | nil =>
    rw [List.map_nil, List.sum_nil]
    refine List.sum_eq_zero fun x hx => ?_
    obtain ⟨k, -, rfl⟩ := List.mem_map.mp hx
    rfl
  | cons a l ih =>
    have hSplit : ∀ k, (((a :: l).filter fun a => key a = k).map w).sum =
        (if key a = k then w a else 0) + ((l.filter fun a => key a = k).map w).sum := by
      intro k
      rw [List.filter_cons]
      by_cases hKey : key a = k
      · simp only [hKey, decide_true, if_true, List.map_cons, List.sum_cons]
      · simp only [hKey, decide_false, Bool.false_eq_true, if_false, zero_add]
    simp only [hSplit]
    rw [List.sum_map_add, sum_single hNodup (hCover a List.mem_cons_self),
      ih fun a' hMem => hCover a' (List.mem_cons_of_mem _ hMem), List.map_cons, List.sum_cons]

end Sums

end RestaurantOs.Traversals
