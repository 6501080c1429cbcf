import Mathlib.Data.List.Basic
import Mathlib.Data.List.Flatten

/-!
# Words

The words of a list are its longest runs without a blank. A word that is too
long for a line is cut into slices.
-/

namespace RestaurantOs.Words

variable {α : Type} {blank : α → Bool} {x y t w : List α} {c : α} {width : Nat}

def words (blank : α → Bool) (t : List α) : List (List α) := (t.splitOnP blank).filter (!·.isEmpty)

@[simp] theorem words_nil : words blank [] = [] := rfl

theorem words_append_cons (hc : blank c = true) : words blank (x ++ c :: y) = words blank x ++ words blank y := by
  rw [words, List.splitOnP_append_cons x y hc, List.filter_append]
  rfl

theorem words_cons (hc : blank c = true) : words blank (c :: t) = words blank t := words_append_cons (x := []) hc

theorem words_self (hNe : w ≠ []) (hw : ∀ c ∈ w, blank c = false) : words blank w = [w] := by
  have hFull : (!w.isEmpty) = true := by
    rw [Bool.not_eq_true', List.isEmpty_eq_false_iff]
    exact hNe
  rw [words, List.splitOnP_eq_singleton hw]
  exact List.filter_cons_of_pos (p := fun w : List α => !w.isEmpty) hFull

theorem words_blanks (h : ∀ c ∈ x, blank c = true) : words blank (x ++ t) = words blank t := by
  induction x with
  | nil => rfl
  | cons c x ih =>
    rw [List.forall_mem_cons] at h
    rw [List.cons_append, words_cons h.1, ih h.2]

theorem exists_first_blank : (∀ c ∈ t, blank c = false) ∨ ∃ w c rest, t = w ++ c :: rest ∧ (∀ c ∈ w, blank c = false) ∧ blank c = true := by
  induction t with
  | nil => exact .inl fun c hMem => absurd hMem List.not_mem_nil
  | cons d t ih =>
    cases hd : blank d with
    | true => exact .inr ⟨[], d, t, rfl, fun c hMem => absurd hMem List.not_mem_nil, hd⟩
    | false =>
      rcases ih with hNone | ⟨w, c, rest, rfl, hw, hc⟩
      · exact .inl (List.forall_mem_cons.mpr ⟨hd, hNone⟩)
      · exact .inr ⟨d :: w, c, rest, rfl, List.forall_mem_cons.mpr ⟨hd, hw⟩, hc⟩

theorem words_of_no_blank (hw : ∀ c ∈ w, blank c = false) : words blank w = if w = [] then [] else [w] := by
  split
  · rename_i hNil
    rw [hNil, words_nil]
  · rename_i hNe
    exact words_self hNe hw

theorem words_split (hw : ∀ c ∈ w, blank c = false) (hc : blank c = true) :
    words blank (w ++ c :: t) = (if w = [] then [] else [w]) ++ words blank t := by
  rw [words_append_cons hc, words_of_no_blank hw]

theorem words_flatten : (words blank t).flatten = t.filter (!blank ·) := by
  have hKept : ∀ w : List α, (∀ c ∈ w, blank c = false) → (if w = [] then [] else [w]).flatten = w.filter (!blank ·) := by
    intro w hw
    have hAll : w.filter (!blank ·) = w := List.filter_eq_self.mpr fun c hMem => by rw [hw c hMem]; rfl
    rw [hAll]
    split
    · rename_i hNil
      rw [hNil]
      rfl
    · exact List.append_nil w
  generalize hLength : t.length = n
  induction n using Nat.strongRecOn generalizing t with
  | ind n ih =>
    rcases @exists_first_blank _ blank t with hNone | ⟨w, c, rest, rfl, hw, hc⟩
    · rw [words_of_no_blank hNone, hKept t hNone]
    · rw [List.length_append, List.length_cons] at hLength
      have hSkip : ¬ (!blank c) = true := by
        rw [hc]
        exact Bool.false_ne_true
      rw [words_split hw hc, List.flatten_append, hKept w hw, List.filter_append, List.filter_cons_of_neg (p := fun c => !blank c) hSkip,
        ih rest.length (by omega) rfl]

theorem mem_words (h : w ∈ words blank t) : w ≠ [] ∧ (∀ c ∈ w, blank c = false) ∧ w.length ≤ t.length := by
  obtain ⟨-, hFull⟩ := List.mem_filter.mp h
  rw [Bool.not_eq_true', List.isEmpty_eq_false_iff] at hFull
  have hSub : w.Sublist (words blank t).flatten := List.sublist_flatten_of_mem h
  rw [words_flatten] at hSub
  refine ⟨hFull, ?_, (hSub.trans List.filter_sublist).length_le⟩
  intro c hMem
  have hKept := (List.mem_filter.mp (hSub.subset hMem)).2
  rw [Bool.not_eq_true'] at hKept
  exact hKept

/-! ## Separators -/

theorem split_at {sep : α} {a b rest rest' : List α} (ha : sep ∉ a) (hb : sep ∉ b)
    (h : a ++ sep :: rest = b ++ sep :: rest') : a = b ∧ rest = rest' := by
  induction a generalizing b with
  | nil =>
    cases b with
    | nil => exact ⟨rfl, List.tail_eq_of_cons_eq h⟩
    | cons d b => exact absurd (List.head_eq_of_cons_eq h) fun hEq => hb (hEq ▸ List.mem_cons_self)
  | cons d a ih =>
    cases b with
    | nil => exact absurd (List.head_eq_of_cons_eq h) fun hEq => ha (hEq ▸ List.mem_cons_self)
    | cons e b =>
      obtain ⟨hHead, hTail⟩ := List.cons.inj h
      obtain ⟨hEq, hRest⟩ := ih (fun hMem => ha (List.mem_cons_of_mem _ hMem)) (fun hMem => hb (List.mem_cons_of_mem _ hMem)) hTail
      exact ⟨by rw [hHead, hEq], hRest⟩

theorem split_at_last {sep : α} {a b rest rest' : List α} (ha : sep ∉ rest) (hb : sep ∉ rest') (h : a ++ sep :: rest = b ++ sep :: rest') :
    a = b ∧ rest = rest' := by
  have hReversed := congrArg List.reverse h
  simp only [List.reverse_append, List.reverse_cons, List.append_assoc, List.singleton_append] at hReversed
  obtain ⟨hRest, hFront⟩ := split_at (fun hMem => ha (List.mem_reverse.mp hMem)) (fun hMem => hb (List.mem_reverse.mp hMem)) hReversed
  exact ⟨List.reverse_injective hFront, List.reverse_injective hRest⟩

/-! ## Slices -/

/-- `t` cut at the multiples of `width`. -/
def slices (width : Nat) (t : List α) : List (List α) :=
  (List.range ((t.length + width - 1) / width)).map fun i => (t.drop (i * width)).take width

theorem length_le_of_mem_slices (h : x ∈ slices width t) : x.length ≤ width := by
  obtain ⟨i, -, rfl⟩ := List.mem_map.mp h
  exact List.length_take_le _ _

theorem mem_of_mem_slices (h : x ∈ slices width t) (hc : c ∈ x) : c ∈ t := by
  obtain ⟨i, -, rfl⟩ := List.mem_map.mp h
  exact List.mem_of_mem_drop (List.mem_of_mem_take hc)

theorem slices_ne_nil (hWidth : 0 < width) (h : x ∈ slices width t) : x ≠ [] := by
  obtain ⟨i, hi, rfl⟩ := List.mem_map.mp h
  rw [List.mem_range, Nat.lt_div_iff_mul_lt hWidth] at hi
  rw [ne_eq, ← List.length_eq_zero_iff, List.length_take, List.length_drop]
  omega

theorem flatten_take {k : Nat} : ((List.range k).map fun i => (t.drop (i * width)).take width).flatten = t.take (k * width) := by
  induction k with
  | zero => rw [Nat.zero_mul, List.take_zero]; rfl
  | succ k ih =>
    rw [List.range_succ, List.map_append, List.flatten_append, ih, List.map_singleton, List.flatten_singleton, Nat.succ_mul, List.take_add]

theorem flatten_slices (hWidth : 0 < width) : (slices width t).flatten = t := by
  rw [slices, flatten_take]
  apply List.take_of_length_le
  have hCeil := Nat.lt_mul_div_succ (t.length + width - 1) hWidth
  rw [Nat.mul_add, Nat.mul_one, Nat.mul_comm] at hCeil
  omega

def pieces (width : Nat) (w : List α) : List (List α) := if width < w.length then slices width w else [w]

theorem flatten_pieces (hWidth : 0 < width) : (pieces width w).flatten = w := by
  unfold pieces
  split
  · exact flatten_slices hWidth
  · exact List.append_nil w

theorem pieces_of_le (h : w.length ≤ width) : pieces width w = [w] := if_neg (by omega)

theorem flatMap_pieces_of_le (h : t.length ≤ width) : (words blank t).flatMap (pieces width) = words blank t := by
  have hEach : ∀ w ∈ words blank t, pieces width w = [w] := fun w hMem => pieces_of_le (Nat.le_trans (mem_words hMem).2.2 h)
  rw [List.flatMap_congr hEach]
  exact List.flatMap_singleton' _

theorem words_pieces (hWidth : 0 < width) (hNe : w ≠ []) (hw : ∀ c ∈ w, blank c = false) :
    (pieces width w).flatMap (words blank) = pieces width w := by
  have hEach : ∀ x ∈ pieces width w, words blank x = [x] := by
    unfold pieces
    split
    · intro x hMem
      exact words_self (slices_ne_nil hWidth hMem) fun c hc => hw c (mem_of_mem_slices hMem hc)
    · intro x hMem
      rw [List.mem_singleton.mp hMem]
      exact words_self hNe hw
  rw [List.flatMap_congr hEach]
  exact List.flatMap_singleton' _

end RestaurantOs.Words
