import Mathlib.Data.List.DropRight
import RestaurantOs.Menus.Documents

/-!
# The texts of a sheet

The string functions that the import uses on cells and names. Lower case is a
parameter where a text need not be ASCII.
-/

namespace RestaurantOs.MenuImport

open Menus

/-- `\s` -/
def isSpace (c : Char) : Bool :=
  [0x9, 0xa, 0xb, 0xc, 0xd, 0x20, 0xa0, 0x1680, 0x2028, 0x2029, 0x202f, 0x205f, 0x3000, 0xfeff].contains c.toNat ||
    (0x2000 ≤ c.toNat && c.toNat ≤ 0x200a)

def trim (t : Text) : Text := ((t.dropWhile isSpace).reverse.dropWhile isSpace).reverse

/-- `.replace(/\s+/g, " ")`, behind a space or not. -/
def collapseRuns : (spaced : Bool) → Text → Text
  | _, [] => []
  | spaced, c :: t =>
    if isSpace c then if spaced then collapseRuns true t else ' ' :: collapseRuns true t
    else c :: collapseRuns false t

def collapseWhitespace (t : Text) : Text := collapseRuns false (trim t)

section Spaces

variable {t : Text} {c : Char}

theorem isSpace_eq_false (hLow : 0x20 < c.toNat) (hHigh : c.toNat < 0xa0) : isSpace c = false := by
  simp [isSpace]
  omega

theorem toLower_eq (h : c.toNat < 65 ∨ 90 < c.toNat) : c.toLower = c := by
  refine dif_neg ?_
  rintro ⟨hLow, hHigh⟩
  have hLow : 65 ≤ c.toNat := hLow
  have hHigh : c.toNat ≤ 90 := hHigh
  omega

theorem all_dropWhile {p : Char → Bool} : (∀ c ∈ t.dropWhile p, p c = true) ↔ ∀ c ∈ t, p c = true := by
  induction t with
  | nil => rfl
  | cons c t ih =>
    rw [List.dropWhile_cons]
    split
    · rename_i hc
      rw [ih, List.forall_mem_cons]
      exact ⟨fun h => ⟨hc, h⟩, fun h => h.2⟩
    · rfl

theorem trim_eq_nil : trim t = [] ↔ ∀ c ∈ t, isSpace c = true := by
  rw [trim, List.reverse_eq_nil_iff, List.dropWhile_eq_nil_iff, ← @all_dropWhile t]
  exact ⟨fun h c hMem => h c (List.mem_reverse.mpr hMem), fun h c hMem => h c (List.mem_reverse.mp hMem)⟩

theorem dropWhile_reverse_idem {p : Char → Bool} :
    (((t.dropWhile p).reverse.dropWhile p).reverse.dropWhile p) = ((t.dropWhile p).reverse.dropWhile p).reverse := by
  cases hHead : t.dropWhile p with
  | nil => rfl
  | cons c rest =>
    have hc : p c = false := by
      have hIdem := List.dropWhile_idempotent p t
      rw [hHead] at hIdem
      cases hp : p c with
      | false => rfl
      | true =>
        rw [List.dropWhile_cons_of_pos hp] at hIdem
        have hLength := congrArg List.length hIdem
        have hLe := (List.dropWhile_sublist p (l := rest)).length_le
        rw [List.length_cons] at hLength
        omega
    have hSplit : (((c :: rest).reverse).dropWhile p) = rest.reverse.dropWhile p ++ [c] := by
      rw [List.reverse_cons, List.dropWhile_append]
      split
      · rename_i hNil
        rw [List.isEmpty_iff.mp hNil, List.dropWhile_cons_of_neg (by rw [hc]; exact Bool.false_ne_true)]
        rfl
      · rfl
    rw [hSplit, List.reverse_append, List.reverse_singleton, List.singleton_append,
      List.dropWhile_cons_of_neg (by rw [hc]; exact Bool.false_ne_true)]

@[simp] theorem trim_trim : trim (trim t) = trim t := by
  have hFront : (trim t).dropWhile isSpace = trim t := dropWhile_reverse_idem
  have hBack : (trim t).reverse.dropWhile isSpace = (trim t).reverse := by
    rw [trim, List.reverse_reverse]
    exact List.dropWhile_idempotent _ _
  rw [trim, hFront, hBack, List.reverse_reverse]

theorem mem_collapseRuns {spaced : Bool} {c : Char} (hSpace : isSpace c = false) : c ∈ collapseRuns spaced t ↔ c ∈ t := by
  induction t generalizing spaced with
  | nil => rfl
  | cons d t ih =>
    have hBlank : c ≠ ' ' := by
      rintro rfl
      revert hSpace
      decide
    rw [collapseRuns]
    split
    · rename_i hd
      have hNe : c ≠ d := by
        rintro rfl
        rw [hd] at hSpace
        cases hSpace
      split
      · rw [ih, List.mem_cons, or_iff_right hNe]
      · rw [List.mem_cons, List.mem_cons, or_iff_right hBlank, or_iff_right hNe, ih]
    · rw [List.mem_cons, List.mem_cons, ih]

theorem trim_collapseWhitespace_eq_nil : trim (collapseWhitespace t) = [] ↔ trim t = [] := by
  rw [trim_eq_nil, ← @trim_trim t, @trim_eq_nil (trim t), collapseWhitespace]
  constructor
  · intro h c hMem
    cases hSpace : isSpace c with
    | true => rfl
    | false => rw [← hSpace, h c ((mem_collapseRuns hSpace).mpr hMem)]
  · intro h c hMem
    cases hSpace : isSpace c with
    | true => rfl
    | false => rw [← hSpace, h c ((mem_collapseRuns hSpace).mp hMem)]

theorem collapseWhitespace_eq_nil : collapseWhitespace t = [] ↔ trim t = [] := by
  constructor
  · intro h
    rw [← trim_collapseWhitespace_eq_nil, h]
    rfl
  · intro h
    rw [collapseWhitespace, h]
    rfl

end Spaces

/-! ## Names -/

/-- The key that names are compared by, `lower` being `.toLowerCase()`. -/
def normalizeKey (lower : Text → Text) (value : Text) : Text := collapseRuns false (lower (trim value))

theorem normalizeKey_trim {lower : Text → Text} {value : Text} : normalizeKey lower (trim value) = normalizeKey lower value := by
  rw [normalizeKey, trim_trim, normalizeKey]

/-! ## Numbers -/

def isDigit (c : Char) : Bool := '0' ≤ c && c ≤ '9'

def digitsValue (t : Text) : Nat := t.foldl (fun n c => 10 * n + (c.toNat - 48)) 0

def isPrefixIgnoringCase (small : Text) (t : Text) : Bool := (t.take small.length).map Char.toLower = small

/-- `.replace(/^(rs\.?|pkr|\$|£|€)\s*/i, "")` -/
def stripCurrency (t : Text) : Text :=
  if isPrefixIgnoringCase ['r', 's'] t then
    let rest := t.drop 2
    (if rest.head? = some '.' then rest.tail else rest).dropWhile isSpace
  else if isPrefixIgnoringCase ['p', 'k', 'r'] t then (t.drop 3).dropWhile isSpace
  else if t.head?.any (['$', '£', '€'].contains ·) then t.tail.dropWhile isSpace
  else t

/-- `\d{3}(\D|$)` -/
def startsWithThree : Text → Bool
  | a :: b :: c :: t => isDigit a && isDigit b && isDigit c && t.head?.all (!isDigit ·)
  | _ => false

/-- `.replace(/,(?=\d{3}(\D|$))/g, "")` -/
def stripThousands : Text → Text
  | [] => []
  | c :: t => if c = ',' && startsWithThree t then stripThousands t else c :: stripThousands t

/-- `Number` of what matches `/^\d+(\.\d{1,2})?$/`. -/
def decimal? (t : Text) : Option ℚ :=
  let whole := t.takeWhile isDigit
  match t.dropWhile isDigit with
  | [] => if whole = [] then none else some (digitsValue whole)
  | point :: places =>
    if whole ≠ [] ∧ point = '.' ∧ places.all isDigit ∧ (places.length = 1 ∨ places.length = 2) then
      some (digitsValue (whole ++ places) / 10 ^ places.length)
    else none

def normalizePrice (raw : Text) : Option ℚ := decimal? (trim (stripThousands (stripCurrency (trim raw))))

def normalizeSortOrder (raw : Text) : Option Nat :=
  let cleaned := trim raw
  if cleaned ≠ [] ∧ cleaned.all isDigit then some (digitsValue cleaned) else none

def TRUE_VALUES : List Text := ["true", "yes", "y", "1", "available", "in stock"].map String.toList

def FALSE_VALUES : List Text := ["false", "no", "n", "0", "unavailable", "out of stock"].map String.toList

def normalizeBoolean (lower : Text → Text) (raw : Text) : Option Bool :=
  let v := lower (trim raw)
  if TRUE_VALUES.contains v then some true else if FALSE_VALUES.contains v then some false else none

theorem decimal?_nonneg {t : Text} {p : ℚ} (h : decimal? t = some p) : 0 ≤ p := by
  unfold decimal? at h
  dsimp only at h
  split at h
  · split at h
    · cases h
    · cases h
      exact Nat.cast_nonneg _
  · split at h
    · cases h
      exact div_nonneg (Nat.cast_nonneg _) (pow_nonneg (Nat.ofNat_nonneg _) _)
    · cases h

theorem normalizePrice_nonneg {raw : Text} {p : ℚ} (h : normalizePrice raw = some p) : 0 ≤ p := decimal?_nonneg h

example : normalizePrice "Rs. 1,299.50 ".toList = some (2599 / 2) := by decide +kernel

end RestaurantOs.MenuImport
