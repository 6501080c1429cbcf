import Mathlib.Data.List.Sort

/-!
# Newest wins

Events that carry a time are applied to a state that remembers the newest time it
reflects, and an older one changes nothing. Delivered in any order they leave what
a selection of them that ends with the newest leaves in time order.
-/

namespace RestaurantOs.NewestWins

variable {σ ε β : Type} {time : ε → Nat} {marker : σ → Option Nat} {adv : σ → ε → σ}

/-- The state reflects nothing newer than the event. -/
def fresh (time : ε → Nat) (marker : σ → Option Nat) (s : σ) (e : ε) : Bool := (marker s).all (· ≤ time e)

/-- Delivers an event: applies it unless it is older. -/
def deliver (time : ε → Nat) (marker : σ → Option Nat) (adv : σ → ε → σ) (s : σ) (e : ε) : σ :=
  if fresh time marker s e then adv s e else s

/-- The events that are applied when `l` is delivered in this order. -/
def applied (time : ε → Nat) (marker : σ → Option Nat) (adv : σ → ε → σ) : σ → List ε → List ε
  | _, [] => []
  | s, e :: l => if fresh time marker s e then e :: applied time marker adv (adv s e) l else applied time marker adv s l

variable {s : σ} {e n : ε} {l older : List ε}

theorem applied_cons : applied time marker adv s (e :: l) =
    if fresh time marker s e then e :: applied time marker adv (adv s e) l else applied time marker adv s l := rfl

theorem fresh_iff : fresh time marker s e = true ↔ ∀ m, marker s = some m → m ≤ time e := by
  simp only [fresh, Option.all_eq_true, decide_eq_true_eq]

theorem deliver_of_fresh (h : fresh time marker s e = true) : deliver time marker adv s e = adv s e := if_pos h

theorem deliver_of_stale (h : fresh time marker s e = false) : deliver time marker adv s e = s := by
  rw [deliver, h, if_neg Bool.false_ne_true]

theorem foldl_deliver : l.foldl (deliver time marker adv) s = (applied time marker adv s l).foldl adv s := by
  induction l generalizing s with
  | nil => rfl
  | cons e l ih =>
    rw [List.foldl_cons, ih, applied_cons, deliver]
    split <;> rfl

theorem applied_sublist : (applied time marker adv s l).Sublist l := by
  induction l generalizing s with
  | nil => exact .slnil
  | cons e l ih =>
    rw [applied_cons]
    split
    · exact ih.cons_cons e
    · exact ih.cons e

theorem foldl_stale (h : ∀ e ∈ l, fresh time marker s e = false) : l.foldl (deliver time marker adv) s = s := by
  induction l with
  | nil => rfl
  | cons e l ih =>
    rw [List.foldl_cons, deliver_of_stale (h e List.mem_cons_self)]
    exact ih fun e' he' => h e' (List.mem_cons_of_mem e he')

section Marked

variable (hMark : ∀ s e, marker (adv s e) = some (time e))
include hMark

theorem applied_fresh : ∀ e ∈ applied time marker adv s l, fresh time marker s e = true := by
  induction l generalizing s with
  | nil => exact fun _ hNil => absurd hNil List.not_mem_nil
  | cons e l ih =>
    rw [applied_cons]
    split
    · rename_i hFresh
      rintro e' he'
      rcases List.mem_cons.mp he' with rfl | he'
      · exact hFresh
      · have hLater := (fresh_iff).mp (ih e' he') (time e) (hMark s e)
        exact (fresh_iff).mpr fun m hm => ((fresh_iff).mp hFresh m hm).trans hLater
    · exact ih

theorem applied_sorted (hNodup : (l.map time).Nodup) : (applied time marker adv s l).Pairwise fun a b => time a < time b := by
  induction l generalizing s with
  | nil => exact .nil
  | cons e l ih =>
    rw [List.map_cons, List.nodup_cons] at hNodup
    rw [applied_cons]
    split
    · refine List.pairwise_cons.mpr ⟨fun e' he' => ?_, ih hNodup.2⟩
      have hLe := (fresh_iff).mp (applied_fresh hMark e' he') (time e) (hMark s e)
      refine lt_of_le_of_ne hLe fun hEq => hNodup.1 ?_
      rw [hEq]
      exact List.mem_map_of_mem ((applied_sublist).subset he')
    · exact ih hNodup.2

theorem foldl_sorted (hSorted : l.Pairwise fun a b => time a < time b) (hFresh : ∀ e ∈ l, fresh time marker s e = true) :
    l.foldl (deliver time marker adv) s = l.foldl adv s := by
  induction l generalizing s with
  | nil => rfl
  | cons e l ih =>
    rw [List.pairwise_cons] at hSorted
    rw [List.foldl_cons, List.foldl_cons, deliver_of_fresh (hFresh e List.mem_cons_self)]
    refine ih hSorted.2 fun e' he' => (fresh_iff).mpr fun m hm => ?_
    rw [hMark] at hm
    cases hm
    exact (hSorted.1 e' he').le

theorem foldl_deliver_filter (l : List ε) (s s' : σ) (hStale : ∀ e, fresh time marker s' e = true → fresh time marker s e = true) :
    l.foldl (deliver time marker adv) s' = (l.filter (fresh time marker s)).foldl (deliver time marker adv) s' := by
  induction l generalizing s' with
  | nil => rfl
  | cons e l ih =>
    rw [List.foldl_cons]
    cases hFresh : fresh time marker s' e with
    | true =>
      rw [List.filter_cons_of_pos (hStale e hFresh), List.foldl_cons]
      refine ih _ fun e' he' => hStale e' ((fresh_iff).mpr fun m hm => ?_)
      rw [deliver_of_fresh hFresh] at he'
      exact ((fresh_iff).mp hFresh m hm).trans ((fresh_iff).mp he' _ (hMark s' e))
    | false =>
      have hSame : deliver time marker adv s' e = s' := deliver_of_stale hFresh
      rw [hSame, ih s' hStale, List.filter_cons]
      split
      · rw [List.foldl_cons, hSame]
      · rfl

theorem fresh_foldl (h : fresh time marker s n = true) (hOlder : ∀ e ∈ l, time e ≤ time n) :
    fresh time marker (l.foldl (deliver time marker adv) s) n = true := by
  induction l generalizing s with
  | nil => exact h
  | cons e l ih =>
    refine ih ?_ fun e' he' => hOlder e' (List.mem_cons_of_mem e he')
    rw [deliver]
    split
    · refine (fresh_iff).mpr fun m hm => ?_
      rw [hMark] at hm
      cases hm
      exact hOlder e List.mem_cons_self
    · exact h

theorem foldl_after_newest (hOlder : ∀ e ∈ l, time e < time n) :
    l.foldl (deliver time marker adv) (adv s n) = adv s n := by
  refine foldl_stale fun e he => ?_
  rw [fresh, hMark, Option.all_some, decide_eq_false_iff_not, Nat.not_le]
  exact hOlder e he

theorem exists_selection (hSorted : (older ++ [n]).Pairwise fun a b => time a < time b)
    (hFresh : ∀ e ∈ older ++ [n], fresh time marker s e = true) (hPerm : l.Perm (older ++ [n])) :
    ∃ S, S.Sublist older ∧ l.foldl (deliver time marker adv) s = (S ++ [n]).foldl adv s := by
  have hNodup : ((older ++ [n]).map time).Nodup := List.pairwise_map.mpr (hSorted.imp fun h => h.ne)
  obtain ⟨l₁, l₂, rfl⟩ := List.append_of_mem (hPerm.mem_iff.mpr (by simp : n ∈ older ++ [n]))
  have hRest : (l₁ ++ l₂).Perm older := by
    have hMove : (n :: (l₁ ++ l₂)).Perm (n :: older) :=
      (List.perm_middle.symm.trans hPerm).trans List.perm_append_comm
    exact hMove.cons_inv
  have hLess : ∀ e ∈ older, time e < time n := fun e he => (List.pairwise_append.mp hSorted).2.2 e he n List.mem_cons_self
  have hNodup₁ : (l₁.map time).Nodup := by
    have hAll := (hPerm.map time).nodup_iff.mpr hNodup
    rw [List.map_append] at hAll
    exact hAll.of_append_left
  have hMem₁ : ∀ e ∈ l₁, e ∈ older := fun e he => hRest.mem_iff.mp (List.mem_append_left _ he)
  have hMem₂ : ∀ e ∈ l₂, e ∈ older := fun e he => hRest.mem_iff.mp (List.mem_append_right _ he)
  refine ⟨applied time marker adv s l₁, ?_, ?_⟩
  · have hOlder := (List.pairwise_append.mp hSorted).1
    have hSub : (applied time marker adv s l₁).Subperm older :=
      ((applied_sublist).trans (List.sublist_append_left l₁ l₂)).subperm.trans hRest.subperm
    have hAntisymm : Std.Antisymm fun a b : ε => time a < time b := ⟨fun a b hab hba => absurd hab (Nat.lt_asymm hba)⟩
    exact List.sublist_of_subperm_of_pairwise hSub (applied_sorted hMark hNodup₁) hOlder
  · have hNewest : fresh time marker (l₁.foldl (deliver time marker adv) s) n = true :=
      fresh_foldl hMark (hFresh n (by simp)) fun e he => (hLess e (hMem₁ e he)).le
    rw [List.foldl_append, List.foldl_cons, deliver_of_fresh hNewest,
      foldl_after_newest hMark fun e he => hLess e (hMem₂ e he), List.foldl_append, ← foldl_deliver]
    rfl

theorem orders_agree_iff (view : σ → β) (hSorted : (older ++ [n]).Pairwise fun a b => time a < time b)
    (hFresh : ∀ e ∈ older ++ [n], fresh time marker s e = true) :
    (∀ l₁ l₂ : List ε, l₁.Perm (older ++ [n]) → l₂.Perm (older ++ [n]) →
      view (l₁.foldl (deliver time marker adv) s) = view (l₂.foldl (deliver time marker adv) s)) ↔
    ∀ S, S.Sublist older → view ((S ++ [n]).foldl adv s) = view ((older ++ [n]).foldl adv s) := by
  constructor
  · intro hOrders S hSub
    obtain ⟨rest, hRest⟩ := hSub.exists_perm_append
    have hSelected : (S ++ [n]).Sublist (older ++ [n]) := hSub.append (.refl [n])
    have hOrder : ((S ++ [n]) ++ rest).Perm (older ++ [n]) := by
      rw [List.append_assoc]
      refine (List.perm_append_comm.append_left S).trans ?_
      rw [← List.append_assoc]
      exact hRest.symm.append_right [n]
    have hLess : ∀ e ∈ rest, time e < time n := fun e he =>
      (List.pairwise_append.mp hSorted).2.2 e (hRest.mem_iff.mpr (List.mem_append_right S he)) n List.mem_cons_self
    have hAgree := hOrders _ _ hOrder (.refl _)
    rw [List.foldl_append, foldl_sorted hMark (hSorted.sublist hSelected) fun e he => hFresh e (hSelected.subset he),
      foldl_sorted hMark hSorted hFresh] at hAgree
    rw [← hAgree, List.foldl_append, List.foldl_cons, List.foldl_nil, foldl_after_newest hMark hLess]
  · intro hSelections l₁ l₂ h₁ h₂
    obtain ⟨S₁, hSub₁, hEq₁⟩ := exists_selection hMark hSorted hFresh h₁
    obtain ⟨S₂, hSub₂, hEq₂⟩ := exists_selection hMark hSorted hFresh h₂
    rw [hEq₁, hEq₂, hSelections S₁ hSub₁, hSelections S₂ hSub₂]

theorem all_orders_agree_iff (view : σ → β) (hSorted : l.Pairwise fun a b => time a < time b) :
    (∀ l₁ l₂ : List ε, l₁.Perm l → l₂.Perm l →
      view (l₁.foldl (deliver time marker adv) s) = view (l₂.foldl (deliver time marker adv) s)) ↔
    ∀ older n, l.filter (fresh time marker s) = older ++ [n] → ∀ S, S.Sublist older →
      view ((S ++ [n]).foldl adv s) = view ((older ++ [n]).foldl adv s) := by
  constructor
  · intro hOrders older n hSplit
    have hFresh : ∀ e ∈ older ++ [n], fresh time marker s e = true := fun e he =>
      (List.mem_filter.mp (hSplit ▸ he)).2
    refine (orders_agree_iff hMark view (hSplit ▸ hSorted.filter _) hFresh).mp fun l₁ l₂ h₁ h₂ => ?_
    -- The older events come last, where they change nothing.
    have hExtend : ∀ l' : List ε, l'.Perm (older ++ [n]) →
        (l' ++ l.filter fun e => !fresh time marker s e).Perm l ∧
          (l' ++ l.filter fun e => !fresh time marker s e).foldl (deliver time marker adv) s =
            l'.foldl (deliver time marker adv) s := by
      intro l' h'
      constructor
      · refine (h'.append_right _).trans ?_
        rw [← hSplit]
        exact List.filter_append_perm _ l
      · rw [foldl_deliver_filter hMark _ s s fun _ h => h, List.filter_append,
          List.filter_eq_self.mpr fun e he => hFresh e (h'.mem_iff.mp he), List.filter_filter]
        simp
    rw [← (hExtend l₁ h₁).2, ← (hExtend l₂ h₂).2]
    exact hOrders _ _ (hExtend l₁ h₁).1 (hExtend l₂ h₂).1
  · intro hSelections l₁ l₂ h₁ h₂
    rw [foldl_deliver_filter hMark l₁ s s fun _ h => h, foldl_deliver_filter hMark l₂ s s fun _ h => h]
    rcases List.eq_nil_or_concat (l.filter (fresh time marker s)) with hNone | ⟨older, n, hSplit⟩
    · have hNil : ∀ l' : List ε, l'.Perm l → l'.filter (fresh time marker s) = [] := fun l' h' =>
        List.perm_nil.mp (hNone ▸ h'.filter _)
      rw [hNil l₁ h₁, hNil l₂ h₂]
    · rw [List.concat_eq_append] at hSplit
      have hFresh : ∀ e ∈ older ++ [n], fresh time marker s e = true := fun e he =>
        (List.mem_filter.mp (hSplit ▸ he)).2
      exact (orders_agree_iff hMark view (hSplit ▸ hSorted.filter _) hFresh).mpr (hSelections older n hSplit) _ _
        (hSplit ▸ h₁.filter _) (hSplit ▸ h₂.filter _)

end Marked

end RestaurantOs.NewestWins
