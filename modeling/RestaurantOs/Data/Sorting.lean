import Mathlib.Data.List.Forall2
import Mathlib.Data.List.Nodup

/-!
# Sorting and numbering

A stable sort commutes with a selection, and lists that are sorted alike keep a
relation of their elements. Elements numbered one after another have increasing
numbers.
-/

namespace RestaurantOs.Sorting

variable {α β γ δ ν : Type}

/-- `sort`: elements that compare equal stay as they were found. -/
def sorted (cmp : α → α → Ordering) (l : List α) : List α := l.mergeSort fun a b => (cmp a b).isLE

section Sorted

variable {cmp : α → α → Ordering}

theorem mem_sorted {l : List α} {a : α} : a ∈ sorted cmp l ↔ a ∈ l := List.mem_mergeSort

theorem sorted_cons [Std.TransCmp cmp] (a : α) (l : List α) :
    sorted cmp (a :: l) =
        (sorted cmp l).filter (fun b => !(cmp a b).isLE) ++ a :: (sorted cmp l).filter (fun b => (cmp a b).isLE) ∧
      sorted cmp l = (sorted cmp l).filter (fun b => !(cmp a b).isLE) ++ (sorted cmp l).filter fun b => (cmp a b).isLE := by
  have hTrans : ∀ x y z : α, (cmp x y).isLE = true → (cmp y z).isLE = true → (cmp x z).isLE = true :=
    fun _ _ _ => Std.TransCmp.isLE_trans
  have hTotal : ∀ x y : α, ((cmp x y).isLE || (cmp y x).isLE) = true := by
    intro x y
    have hSwap : cmp y x = (cmp x y).swap := Std.OrientedCmp.eq_swap
    rw [hSwap]
    cases cmp x y <;> rfl
  obtain ⟨before, behind, hCons, hRest, hLess⟩ := List.mergeSort_cons hTrans hTotal a l
  have hPairwise := List.pairwise_mergeSort hTrans hTotal (a :: l)
  rw [hCons, List.pairwise_append, List.pairwise_cons] at hPairwise
  have hBehind : ∀ b ∈ behind, (cmp a b).isLE = true := hPairwise.2.1.1
  have hBeforeLess : before.filter (fun b => !(cmp a b).isLE) = before := List.filter_eq_self.mpr hLess
  have hBehindLess : behind.filter (fun b => !(cmp a b).isLE) = [] :=
    List.filter_eq_nil_iff.mpr fun b hMem => by simp [hBehind b hMem]
  have hBeforeRest : before.filter (fun b => (cmp a b).isLE) = [] :=
    List.filter_eq_nil_iff.mpr fun b hMem => by simpa using hLess b hMem
  have hBehindRest : behind.filter (fun b => (cmp a b).isLE) = behind := List.filter_eq_self.mpr hBehind
  rw [sorted, sorted, hCons, hRest, List.filter_append, List.filter_append, hBeforeLess, hBehindLess, hBeforeRest, hBehindRest,
    List.append_nil, List.nil_append]
  exact ⟨rfl, rfl⟩

theorem sorted_pair [Std.TransCmp cmp] (a b : α) : sorted cmp [a, b] = if (cmp a b).isLE then [a, b] else [b, a] := by
  have hOne : sorted cmp [b] = [b] := List.mergeSort_singleton b
  rw [(sorted_cons a [b]).1, hOne, List.filter_cons, List.filter_cons, List.filter_nil, List.filter_nil]
  cases (cmp a b).isLE <;> rfl

theorem filter_sorted [Std.TransCmp cmp] (p : α → Bool) (l : List α) : (sorted cmp l).filter p = sorted cmp (l.filter p) := by
  induction l with
  | nil => simp [sorted]
  | cons a l ih =>
    have hComm (q : α → Bool) : ((sorted cmp l).filter q).filter p = (sorted cmp (l.filter p)).filter q := by
      rw [← ih, List.filter_filter, List.filter_filter]
      simp only [Bool.and_comm]
    rw [(sorted_cons a l).1, List.filter_append, List.filter_cons, hComm, hComm]
    by_cases hp : p a = true
    · rw [if_pos hp, List.filter_cons_of_pos hp, (sorted_cons a (l.filter p)).1]
    · rw [if_neg hp, List.filter_cons_of_neg hp]
      exact (sorted_cons a (l.filter p)).2.symm

end Sorted

theorem forall₂_listed {N : List ν} {f : ν → α} {g : ν → β} {p : α → Bool} {q : β → Bool} {le : α → α → Bool} {le' : β → β → Bool}
    {j : α → γ} {k : β → δ} {R : γ → δ → Prop} (hSelect : ∀ x ∈ N, p (f x) = q (g x))
    (hCompare : ∀ x ∈ N, ∀ y ∈ N, le (f x) (f y) = le' (g x) (g y)) (hRel : ∀ x ∈ N, R (j (f x)) (k (g x))) :
    List.Forall₂ R ((((N.map f).filter p).mergeSort le).map j) ((((N.map g).filter q).mergeSort le').map k) := by
  have hFilter : (N.map g).filter q = (N.filter (p ∘ f)).map g := by
    rw [List.filter_map]
    exact congrArg (List.map g) (List.filter_congr fun x hMem => (hSelect x hMem).symm)
  have hMemN {x : ν} (hMem : x ∈ N.filter (p ∘ f)) : x ∈ N := List.mem_of_mem_filter hMem
  rw [hFilter, List.filter_map,
    ← List.map_mergeSort (r := fun x y => le (f x) (f y)) (s := le) (f := f) fun _ _ _ _ => rfl,
    ← List.map_mergeSort (r := fun x y => le (f x) (f y)) (s := le') (f := g) fun x hMem y hMem' => hCompare x (hMemN hMem) y (hMemN hMem'),
    List.map_map, List.map_map, List.forall₂_map_left_iff, List.forall₂_map_right_iff, List.forall₂_same]
  exact fun x hMem => hRel x (hMemN (List.mem_mergeSort.mp hMem))

theorem forall₂_changed {N : List ν} {f g : ν → α} {c : α → α} {p : α → Bool} {le : α → α → Bool} {R : α → α → Prop}
    (hChange : ∀ x, g x = c (f x)) (hSelect : ∀ a, p a = p (c a)) (hCompare : ∀ a b, le a b = le (c a) (c b)) (hRel : ∀ a, R a (c a)) :
    List.Forall₂ R (((N.map f).filter p).mergeSort le) (((N.map g).filter p).mergeSort le) := by
  have hListed := forall₂_listed (N := N) (f := f) (g := c ∘ f) (p := p) (q := p) (j := id) (k := id) (R := R)
    (fun x _ => hSelect (f x)) (fun x _ y _ => hCompare (f x) (f y)) fun x _ => hRel (f x)
  have hSame : g = c ∘ f := funext hChange
  rw [List.map_id, List.map_id, ← hSame] at hListed
  exact hListed

/-! ## Numbering -/

/-- The elements with their numbers: each takes `size` of them, from `start` on. -/
def numbered (size : α → Nat) : Nat → List α → List (α × Nat)
  | _, [] => []
  | start, a :: l => (a, start) :: numbered size (start + size a) l

section Numbered

variable {size : α → Nat} {start : Nat} {l : List α}

@[simp] theorem numbered_map_fst : (numbered size start l).map Prod.fst = l := by
  induction l generalizing start with
  | nil => rfl
  | cons a l ih => rw [numbered, List.map_cons, ih]

theorem numbered_start_le {p : α × Nat} (h : p ∈ numbered size start l) : start ≤ p.2 := by
  induction l generalizing start with
  | nil => cases h
  | cons a l ih =>
    rcases List.mem_cons.mp h with rfl | hTail
    · exact Nat.le_refl _
    · exact Nat.le_of_add_right_le (ih hTail)

theorem numbered_increasing (hSize : ∀ a, 0 < size a) : (numbered size start l).Pairwise fun p q => p.2 < q.2 := by
  induction l generalizing start with
  | nil => exact List.Pairwise.nil
  | cons a l ih =>
    refine List.pairwise_cons.mpr ⟨fun q hMem => ?_, ih⟩
    exact Nat.lt_of_lt_of_le (Nat.lt_add_of_pos_right (hSize a)) (numbered_start_le hMem)

end Numbered

end RestaurantOs.Sorting
