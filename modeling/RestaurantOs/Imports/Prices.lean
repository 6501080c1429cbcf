import Mathlib.Tactic.Ring
import RestaurantOs.Imports.Texts

/-!
# Prices of a sheet

A price is an amount behind at most one currency mark. Every comma in front of
exactly three digits is dropped, wherever it stands, so the first group of an
amount may be empty or longer than three digits.
-/

namespace RestaurantOs.Prices

open Menus (Text)
open MenuImport

structure Amount where
  lead : Text
  groups : List Text
  places : Text
  lead_digits : ∀ c ∈ lead, isDigit c = true
  groups_three : ∀ g ∈ groups, g.length = 3 ∧ ∀ c ∈ g, isDigit c = true
  places_digits : places.length ≤ 2 ∧ ∀ c ∈ places, isDigit c = true
  nonempty : groups = [] → lead ≠ []

def fractionText (places : Text) : Text := if places = [] then [] else '.' :: places

namespace Amount

def whole (a : Amount) : Text := a.lead ++ a.groups.flatten

def text (a : Amount) : Text := a.lead ++ a.groups.flatMap (',' :: ·) ++ fractionText a.places

def value (a : Amount) : ℚ := digitsValue a.whole + digitsValue a.places / 10 ^ a.places.length

end Amount

section Digits

variable {t w g rest places : Text} {c : Char}

theorem digit_plain (h : isDigit c = true) : isSpace c = false ∧ c ≠ ',' ∧ c ≠ '.' := by
  rw [isDigit, Bool.and_eq_true, decide_eq_true_eq, decide_eq_true_eq] at h
  have hLow : 48 ≤ c.toNat := h.1
  have hHigh : c.toNat ≤ 57 := h.2
  refine ⟨isSpace_eq_false (by omega) (by omega), ?_, ?_⟩
  · rintro rfl
    exact absurd hLow (by decide)
  · rintro rfl
    exact absurd hLow (by decide)

end Digits

/-! ## Thousands -/

section Thousands

variable {t w g lead rest places : Text} {c : Char} {groups : List Text}

theorem startsWithThree_iff : startsWithThree t = true ↔
    ∃ g rest, t = g ++ rest ∧ (g.length = 3 ∧ ∀ c ∈ g, isDigit c = true) ∧ ∀ c, rest.head? = some c → isDigit c = false := by
  constructor
  · intro h
    rcases t with _ | ⟨a, _ | ⟨b, _ | ⟨c, rest⟩⟩⟩
    · cases h
    · cases h
    · cases h
    · simp only [startsWithThree, Bool.and_eq_true] at h
      refine ⟨[a, b, c], rest, rfl, ⟨rfl, ?_⟩, ?_⟩
      · simp only [List.forall_mem_cons]
        exact ⟨h.1.1.1, h.1.1.2, h.1.2, fun c hMem => absurd hMem List.not_mem_nil⟩
      · intro d hHead
        rw [hHead] at h
        simpa using h.2
  · rintro ⟨g, rest, rfl, ⟨hLength, hDigits⟩, hRest⟩
    obtain ⟨a, b, c, rfl⟩ := List.length_eq_three.mp hLength
    simp only [List.forall_mem_cons] at hDigits
    simp only [List.cons_append, List.nil_append, startsWithThree, Bool.and_eq_true]
    refine ⟨⟨⟨hDigits.1, hDigits.2.1⟩, hDigits.2.2.1⟩, ?_⟩
    cases hHead : rest.head? with
    | none => rfl
    | some d =>
      rw [Option.all_some, hRest d hHead]
      rfl

theorem stripThousands_digits (hw : ∀ c ∈ w, isDigit c = true) : stripThousands (w ++ rest) = w ++ stripThousands rest := by
  induction w with
  | nil => rfl
  | cons c w ih =>
    rw [List.forall_mem_cons] at hw
    rw [List.cons_append, stripThousands, if_neg, ih hw.2, List.cons_append]
    intro hComma
    rw [Bool.and_eq_true, decide_eq_true_eq] at hComma
    exact (digit_plain hw.1).2.1 hComma.1

theorem getLast?_stripThousands : (stripThousands t).getLast? = t.getLast? ∧ (stripThousands t = [] ↔ t = []) := by
  induction t with
  | nil => exact ⟨rfl, Iff.rfl⟩
  | cons c t ih =>
    have hLast : ∀ rest : Text, rest ≠ [] → (c :: rest).getLast? = rest.getLast? := fun rest hNe => List.getLast?_cons_of_ne_nil hNe
    rw [stripThousands]
    by_cases hNil : t = []
    · subst hNil
      have hShort : ¬ (decide (c = ',') && startsWithThree []) = true := by
        intro hComma
        rw [Bool.and_eq_true] at hComma
        exact Bool.false_ne_true hComma.2
      rw [if_neg hShort]
      exact ⟨rfl, Iff.rfl⟩
    · have hRest := mt ih.2.mp hNil
      rw [hLast t hNil, ← ih.1]
      split
      · exact ⟨rfl, iff_of_false hRest (List.cons_ne_nil c t)⟩
      · exact ⟨hLast _ hRest, iff_of_false (List.cons_ne_nil c _) (List.cons_ne_nil c t)⟩

end Thousands

/-! ## Blanks -/

structure Tight (t : Text) : Prop where
  head : ∀ c, t.head? = some c → isSpace c = false
  last : ∀ c, t.getLast? = some c → isSpace c = false

section Blanks

variable {s t rest : Text} {c : Char}

theorem head_dropWhile : ∀ c, (t.dropWhile isSpace).head? = some c → isSpace c = false := by
  induction t with
  | nil =>
    intro c hHead
    cases hHead
  | cons d t ih =>
    rw [List.dropWhile_cons]
    split
    · exact ih
    · rename_i hd
      intro c hHead
      cases hHead
      exact Bool.eq_false_iff.mpr hd

theorem Tight.stripThousands (h : Tight t) : Tight (stripThousands t) := by
  constructor
  · intro c hHead
    cases t with
    | nil => cases hHead
    | cons d t =>
      rw [MenuImport.stripThousands] at hHead
      split at hHead
      · rename_i hComma
        rw [Bool.and_eq_true] at hComma
        obtain ⟨g, rest, rfl, hThree, hRest⟩ := (startsWithThree_iff).mp hComma.2
        rw [stripThousands_digits hThree.2] at hHead
        cases g with
        | nil => cases hThree.1
        | cons e g =>
          cases hHead
          exact (digit_plain (hThree.2 _ List.mem_cons_self)).1
      · cases hHead
        exact h.head _ rfl
  · rw [getLast?_stripThousands.1]
    exact h.last

theorem Tight.suffix (h : Tight s) (hSuffix : t <:+ s) : Tight (t.dropWhile isSpace) := by
  refine ⟨head_dropWhile, fun c hLast => h.last c ?_⟩
  have hEnd : t.dropWhile isSpace <:+ s := (List.dropWhile_suffix isSpace).trans hSuffix
  exact List.singleton_suffix_iff_getLast?_eq_some.mp ((List.singleton_suffix_iff_getLast?_eq_some.mpr hLast).trans hEnd)

end Blanks

/-! ## Currency marks -/

section Currency

variable {s rest mark blanks : Text} {c : Char}

theorem Tight.stripCurrency (h : Tight s) : Tight (stripCurrency s) := by
  have hAll : ∀ n : Nat, Tight ((s.drop n).dropWhile isSpace) := fun n => h.suffix (List.drop_suffix n s)
  unfold MenuImport.stripCurrency
  dsimp only
  split
  · split
    · rw [List.tail_drop]
      exact hAll 3
    · exact hAll 2
  split
  · exact hAll 3
  split
  · rw [← List.drop_one]
    exact hAll 1
  · exact h

end Currency

/-! ## Prices -/

namespace Amount

end Amount

section Prices

variable {raw : Text} {v : ℚ}

end Prices

end RestaurantOs.Prices
