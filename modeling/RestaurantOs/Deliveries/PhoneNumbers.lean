import RestaurantOs.Imports.Texts

/-!
# Phone numbers for couriers

A number is told to be international by how it begins once its separators are
dropped. Only a country of the North American plan may leave its code out. Upper
case is a parameter, as a country code is free text.
-/

namespace RestaurantOs.Phones

open Menus (Text)
open MenuImport (isSpace trim isDigit)

inductive NormalizedPhone
  | ok (e164 : Text)
  | refused (reason : Text)
  deriving DecidableEq

def NormalizedPhone.e164? : NormalizedPhone → Option Text
  | .ok e164 => some e164
  | .refused _ => none

def PHONE_FORMAT_HINT : Text :=
  "Use international format, starting with + and the country code (for example +1 212 555 0100 or +44 20 7946 0000).".toList

def NANP_COUNTRIES : List Text := ["US", "CA", "PR", "GU", "VI", "AS", "MP"].map String.toList

/-- A blank, a bracket, a point, a hyphen or a slash. -/
def isSeparator (c : Char) : Bool := isSpace c || ['(', ')', '.', '-', '/'].contains c

def compactOf (input : Text) : Text := input.filter (!isSeparator ·)

/-- `/^\d+$/` -/
def isDigits (t : Text) : Bool := t ≠ [] && t.all isDigit

/-- `/^[first-9]\d{low,high}$/` -/
def isNumber (first : Char) (low high : Nat) : Text → Bool
  | [] => false
  | c :: rest => first ≤ c && c ≤ '9' && rest.all isDigit && low ≤ rest.length && rest.length ≤ high

/-- `/^\+?\d+$/` or `/^00\d+$/` -/
def isPhoneText (compact : Text) : Bool :=
  isDigits (if compact.head? = some '+' then compact.tail else compact) || compact.take 2 = ['0', '0'] && isDigits (compact.drop 2)

def internationalOf (compact : Text) : Option Text :=
  if compact.head? = some '+' then some compact.tail
  else if compact.take 2 = ['0', '0'] then some (compact.drop 2)
  else none

def inNanp (upper : Text → Text) (countryCode : Option Text) : Bool :=
  countryCode.any fun code => code ≠ [] && NANP_COUNTRIES.contains (upper code)

def quoted (input : Text) : Text := '"' :: input ++ ['"']

def normalizePhone (upper : Text → Text) (raw countryCode : Option Text) : NormalizedPhone :=
  let input := trim (raw.getD [])
  if input = [] then .refused ("A phone number is required. ".toList ++ PHONE_FORMAT_HINT)
  else
    let compact := compactOf input
    if isPhoneText compact = false then
      .refused (quoted input ++ " isn't a phone number we can use. ".toList ++ PHONE_FORMAT_HINT)
    else
      match internationalOf compact with
      | some international =>
        if isNumber '1' 7 14 international then .ok ('+' :: international)
        else .refused (quoted input ++ " doesn't look like a complete international number. ".toList ++ PHONE_FORMAT_HINT)
      | none =>
        if inNanp upper countryCode && isNumber '2' 9 9 compact then .ok ('+' :: '1' :: compact)
        else if inNanp upper countryCode && compact.head? = some '1' && isNumber '2' 9 9 compact.tail then .ok ('+' :: compact)
        else .refused (quoted input ++ " has no country code. ".toList ++ PHONE_FORMAT_HINT)

/-! ## What is accepted -/

inductive Reads (upper : Text → Text) (countryCode : Option Text) (written digits : Text) : Prop
  | signed (hWritten : written = '+' :: digits)
  | zeros (hWritten : written = '0' :: '0' :: digits)
  | coded (hPlan : inNanp upper countryCode = true) (hWritten : written = digits) (hLength : digits.length = 11) (hHead : digits.head? = some '1')
  | national (hPlan : inNanp upper countryCode = true) (hLength : written.length = 10) (hDigits : digits = '1' :: written)

inductive Accepts (upper : Text → Text) (countryCode : Option Text) (compact : Text) : Text → Prop
  | international (n : Text) (hForm : internationalOf compact = some n) (hNumber : isNumber '1' 7 14 n = true) :
    Accepts upper countryCode compact ('+' :: n)
  | national (hForm : internationalOf compact = none) (hPlan : inNanp upper countryCode = true)
    (hNumber : isNumber '2' 9 9 compact = true) : Accepts upper countryCode compact ('+' :: '1' :: compact)
  | coded (n : Text) (hForm : internationalOf compact = none) (hPlan : inNanp upper countryCode = true)
    (hCompact : compact = '1' :: n) (hNumber : isNumber '2' 9 9 n = true) : Accepts upper countryCode compact ('+' :: compact)

section Texts

variable {t rest : Text} {c first : Char} {low high : Nat}

theorem isNumber_cons :
    isNumber first low high (c :: rest) = true ↔
      (first ≤ c ∧ c ≤ '9') ∧ (∀ d ∈ rest, isDigit d = true) ∧ low ≤ rest.length ∧ rest.length ≤ high := by
  simp only [isNumber, Bool.and_eq_true, decide_eq_true_eq, List.all_eq_true, and_assoc]

theorem exists_cons_of_isNumber (h : isNumber first low high t = true) : ∃ c rest, t = c :: rest := by
  cases t with
  | nil => exact absurd h Bool.false_ne_true
  | cons c rest => exact ⟨c, rest, rfl⟩

theorem isDigit_of_le (hFirst : '0' ≤ first) (h : first ≤ c ∧ c ≤ '9') : isDigit c = true := by
  rw [isDigit, Bool.and_eq_true, decide_eq_true_eq, decide_eq_true_eq]
  exact ⟨Char.le_trans hFirst h.1, h.2⟩

theorem isDigit_of_isNumber (hFirst : '0' ≤ first) (h : isNumber first low high t = true) : ∀ d ∈ t, isDigit d = true := by
  obtain ⟨c, rest, rfl⟩ := exists_cons_of_isNumber h
  rw [isNumber_cons] at h
  rw [List.forall_mem_cons]
  exact ⟨isDigit_of_le hFirst h.1, h.2.1⟩

theorem isDigits_of_isNumber (hFirst : '0' ≤ first) (h : isNumber first low high t = true) : isDigits t = true := by
  have hAll := isDigit_of_isNumber hFirst h
  obtain ⟨c, rest, rfl⟩ := exists_cons_of_isNumber h
  rw [isDigits, Bool.and_eq_true, decide_eq_true_eq, List.all_eq_true]
  exact ⟨List.cons_ne_nil c rest, hAll⟩

theorem isSeparator_of_isDigit (h : isDigit c = true) : isSeparator c = false ∧ c ≠ '+' := by
  rw [isDigit, Bool.and_eq_true, decide_eq_true_eq, decide_eq_true_eq] at h
  have hLow : 48 ≤ c.toNat := h.1
  have hHigh : c.toNat ≤ 57 := h.2
  constructor
  · rw [isSeparator, MenuImport.isSpace_eq_false (by omega) (by omega), Bool.false_or, ← Bool.not_eq_true, List.contains_iff_mem]
    intro hMem
    simp only [List.mem_cons, List.not_mem_nil, or_false] at hMem
    rcases hMem with rfl | rfl | rfl | rfl | rfl <;> exact absurd hLow (by decide)
  · rintro rfl
    exact absurd hLow (by decide)

theorem filter_dropWhile : (t.dropWhile isSpace).filter (!isSeparator ·) = t.filter (!isSeparator ·) := by
  induction t with
  | nil => rfl
  | cons c t ih =>
    rw [List.dropWhile_cons]
    split
    · rename_i hSpace
      rw [ih, List.filter_cons_of_neg]
      rw [isSeparator, hSpace]
      exact Bool.false_ne_true
    · rfl

@[simp] theorem compactOf_trim : compactOf (trim t) = compactOf t := by
  rw [compactOf, trim, List.filter_reverse, filter_dropWhile, List.filter_reverse, List.reverse_reverse, filter_dropWhile, compactOf]

theorem compactOf_signed (hDigits : ∀ d ∈ t, isDigit d = true) : compactOf ('+' :: t) = '+' :: t := by
  rw [compactOf, List.filter_eq_self, List.forall_mem_cons]
  refine ⟨by decide, ?_⟩
  intro d hMem
  rw [(isSeparator_of_isDigit (hDigits d hMem)).1]
  rfl

theorem internationalOf_some {n : Text} : internationalOf t = some n ↔ t = '+' :: n ∨ t = '0' :: '0' :: n := by
  rcases t with _ | ⟨a, _ | ⟨b, rest⟩⟩
  · simp [internationalOf]
  · by_cases ha : a = '+'
    · simp [internationalOf, ha]
    · simp [internationalOf, ha]
  · by_cases ha : a = '+'
    · simp [internationalOf, ha]
    · simp [internationalOf, ha, and_assoc]

theorem internationalOf_signed : internationalOf ('+' :: t) = some t := (internationalOf_some).mpr (.inl rfl)

end Texts

section Accepted

variable {upper : Text → Text} {raw countryCode : Option Text} {compact e164 : Text}

theorem Accepts.isPhoneText (h : Accepts upper countryCode compact e164) : isPhoneText compact = true := by
  rw [Phones.isPhoneText, Bool.or_eq_true]
  cases h with
  | international n hForm hNumber =>
    have hDigits := isDigits_of_isNumber (by decide) hNumber
    rcases (internationalOf_some).mp hForm with rfl | rfl
    · exact .inl hDigits
    · exact .inr hDigits
  | national hForm hPlan hNumber =>
    refine .inl ?_
    rw [if_neg]
    · exact isDigits_of_isNumber (by decide) hNumber
    · intro hHead
      rw [internationalOf, if_pos hHead] at hForm
      cases hForm
  | coded n hForm hPlan hCompact hNumber =>
    subst hCompact
    refine .inl ?_
    rw [if_neg (by simp), isDigits, Bool.and_eq_true, decide_eq_true_eq, List.all_eq_true, List.forall_mem_cons]
    exact ⟨List.cons_ne_nil _ n, by decide, isDigit_of_isNumber (by decide) hNumber⟩

theorem normalizePhone_eq_ok : normalizePhone upper raw countryCode = .ok e164 ↔ Accepts upper countryCode (compactOf (raw.getD [])) e164 := by
  rw [← compactOf_trim]
  unfold normalizePhone
  generalize trim (raw.getD []) = input
  dsimp only
  constructor
  · intro h
    split at h
    · cases h
    split at h
    · cases h
    split at h
    · rename_i n hForm
      split at h
      · rename_i hNumber
        cases h
        exact .international n hForm hNumber
      · cases h
    · rename_i hForm
      split at h
      · rename_i hTen
        rw [Bool.and_eq_true] at hTen
        cases h
        exact .national hForm hTen.1 hTen.2
      split at h
      · rename_i hEleven
        rw [Bool.and_eq_true, Bool.and_eq_true, decide_eq_true_eq] at hEleven
        cases h
        exact .coded _ hForm hEleven.1.1 (List.eq_cons_of_mem_head? hEleven.1.2) hEleven.2
      · cases h
  · intro h
    have hText := h.isPhoneText
    have hNe : input ≠ [] := by
      rintro rfl
      revert hText
      decide
    rw [if_neg hNe, if_neg (by rw [hText]; decide)]
    cases h with
    | international n hForm hNumber => rw [hForm]; exact if_pos hNumber
    | national hForm hPlan hNumber =>
      rw [hForm]
      exact if_pos (by rw [hPlan, hNumber]; rfl)
    | coded n hForm hPlan hCompact hNumber =>
      rw [hForm]
      dsimp only
      rw [if_neg, if_pos]
      · rw [hPlan, hCompact]
        exact hNumber
      · intro hTen
        rw [Bool.and_eq_true, hCompact, isNumber_cons] at hTen
        exact absurd hTen.2.1.1 (by decide)

theorem Accepts.reads (h : Accepts upper countryCode compact e164) :
    ∃ digits, e164 = '+' :: digits ∧ isNumber '1' 7 14 digits = true ∧ Reads upper countryCode compact digits := by
  cases h with
  | international n hForm hNumber =>
    refine ⟨n, rfl, hNumber, ?_⟩
    rcases (internationalOf_some).mp hForm with hSigned | hZeros
    · exact .signed hSigned
    · exact .zeros hZeros
  | national hForm hPlan hNumber =>
    have hDigits := isDigit_of_isNumber (by decide) hNumber
    obtain ⟨c, rest, rfl⟩ := exists_cons_of_isNumber hNumber
    rw [isNumber_cons] at hNumber
    refine ⟨'1' :: c :: rest, rfl, ?_, .national hPlan ?_ rfl⟩
    · rw [isNumber_cons, List.length_cons]
      exact ⟨by decide, hDigits, by omega, by omega⟩
    · rw [List.length_cons]
      omega
  | coded n hForm hPlan hCompact hNumber =>
    have hDigits := isDigit_of_isNumber (by decide) hNumber
    obtain ⟨c, rest, rfl⟩ := exists_cons_of_isNumber hNumber
    rw [isNumber_cons] at hNumber
    refine ⟨compact, rfl, ?_, .coded hPlan rfl ?_ ?_⟩
    · rw [hCompact, isNumber_cons, List.length_cons]
      exact ⟨by decide, hDigits, by omega, by omega⟩
    · rw [hCompact, List.length_cons, List.length_cons]
      omega
    · rw [hCompact]
      rfl

theorem normalizePhone_e164? : (normalizePhone upper raw countryCode).e164? = some e164 ↔ normalizePhone upper raw countryCode = .ok e164 := by
  cases normalizePhone upper raw countryCode with
  | ok e => simp [NormalizedPhone.e164?]
  | refused reason => simp [NormalizedPhone.e164?]

end Accepted

/-! ## The law -/

structure Lawful (upper : Text → Text) : Prop where
  sound : ∀ raw countryCode e164, normalizePhone upper raw countryCode = .ok e164 →
    ∃ digits, e164 = '+' :: digits ∧ 8 ≤ digits.length ∧ digits.length ≤ 15 ∧ (∀ c ∈ digits, isDigit c = true) ∧
      digits.head? ≠ some '0' ∧ Reads upper countryCode (compactOf (raw.getD [])) digits
  stable : ∀ raw countryCode other e164, normalizePhone upper raw countryCode = .ok e164 →
    normalizePhone upper (some e164) other = .ok e164
  blind : ∀ raw raw' countryCode, compactOf (Option.getD raw []) = compactOf (Option.getD raw' []) →
    (normalizePhone upper raw countryCode).e164? = (normalizePhone upper raw' countryCode).e164?
  national : ∀ raw countryCode, inNanp upper countryCode = false →
    (∀ n, compactOf (Option.getD raw []) ≠ '+' :: n ∧ compactOf (Option.getD raw []) ≠ '0' :: '0' :: n) →
    (normalizePhone upper raw countryCode).e164? = none

/-- Phone normalization is sound, stable and blind to separators. -/
theorem normalizePhone_lawful (upper : Text → Text) : Lawful upper := by
  constructor
  · intro raw countryCode e164 hOk
    obtain ⟨digits, hE164, hNumber, hReads⟩ := ((normalizePhone_eq_ok).mp hOk).reads
    have hDigits := isDigit_of_isNumber (by decide) hNumber
    obtain ⟨c, rest, rfl⟩ := exists_cons_of_isNumber hNumber
    rw [isNumber_cons] at hNumber
    refine ⟨c :: rest, hE164, ?_, ?_, hDigits, ?_, hReads⟩
    · rw [List.length_cons]
      omega
    · rw [List.length_cons]
      omega
    · intro hHead
      cases hHead
      exact absurd hNumber.1.1 (by decide)
  · intro raw countryCode other e164 hOk
    obtain ⟨digits, rfl, hNumber, -⟩ := ((normalizePhone_eq_ok).mp hOk).reads
    apply (normalizePhone_eq_ok).mpr
    rw [Option.getD_some, compactOf_signed (isDigit_of_isNumber (by decide) hNumber)]
    exact .international digits internationalOf_signed hNumber
  · intro raw raw' countryCode hCompact
    apply Option.ext
    intro e164
    rw [normalizePhone_e164?, normalizePhone_e164?, normalizePhone_eq_ok, normalizePhone_eq_ok, hCompact]
  · intro raw countryCode hPlan hForm
    rw [Option.eq_none_iff_forall_ne_some]
    intro e164 hSome
    rw [normalizePhone_e164?, normalizePhone_eq_ok] at hSome
    obtain ⟨digits, -, -, hReads⟩ := hSome.reads
    cases hReads with
    | signed hWritten => exact (hForm digits).1 hWritten
    | zeros hWritten => exact (hForm digits).2 hWritten
    | coded hIn hWritten hLength hHead => exact Bool.false_ne_true (hPlan.symm.trans hIn)
    | national hIn hLength hDigits => exact Bool.false_ne_true (hPlan.symm.trans hIn)

end RestaurantOs.Phones
