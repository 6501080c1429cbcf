import RestaurantOs.Imports.Texts

/-!
# Hostnames

Blanks, letter case, a protocol, one closing slash and one closing dot are taken
off in this order; what is left has to be a public name that the URL parser reads
as itself. Lower case and the URL parser are parameters.
-/

namespace RestaurantOs.Hostnames

open Menus (Text)
open MenuImport (isSpace trim isDigit)

/-- The fields of a `URL` that are read. -/
structure Url where
  hostname : Text
  pathname : Text
  search : Text
  hash : Text
  deriving DecidableEq

/-- `.length`, in UTF-16 units. -/
def units (t : Text) : Nat := (t.map fun c => if c.toNat < 0x10000 then 1 else 2).sum

def isLowerLetter (c : Char) : Bool := 'a' ≤ c && c ≤ 'z'

/-- `.replace(/^[a-z]+:\/\//, "")` -/
def stripProtocol (t : Text) : Text :=
  if t.takeWhile isLowerLetter ≠ [] ∧ (t.dropWhile isLowerLetter).take 3 = "://".toList then (t.dropWhile isLowerLetter).drop 3 else t

/-- `.replace(/c$/, "")` -/
def stripLast (c : Char) (t : Text) : Text := if t.getLast? = some c then t.dropLast else t

def normalizeHostname (lower : Text → Text) (input : Text) : Text :=
  stripLast '.' (stripLast '/' (stripProtocol (lower (trim input))))

/-- `/^\d{1,3}(\.\d{1,3}){3}$/` -/
def IPV4_RE (t : Text) : Bool :=
  (t.splitOn '.').length = 4 && (t.splitOn '.').all fun part => 1 ≤ part.length && part.length ≤ 3 && part.all isDigit

def isLabelChar (c : Char) : Bool := isLowerLetter c || isDigit c || c = '-'

/-- `/^(?!-)[a-z0-9-]{1,63}(?<!-)$/` -/
def DNS_LABEL_RE (label : Text) : Bool :=
  label.head? ≠ some '-' && label.all isLabelChar && 1 ≤ label.length && label.length ≤ 63 && label.getLast? ≠ some '-'

def NON_PUBLIC_SUFFIXES : List Text :=
  ["localhost", "local", "localdomain", "internal", "intranet", "lan", "home.arpa", "arpa", "invalid", "test"].map String.toList

def liesUnder (hostname suffix : Text) : Bool := hostname = suffix || ('.' :: suffix).isSuffixOf hostname

def isValidHostname (URL : Text → Option Url) (hostname : Text) : Bool :=
  if hostname = [] || hostname.contains ' ' || hostname.contains ':' || hostname.contains '[' then false
  else if IPV4_RE hostname then false
  else if !hostname.contains '.' then false
  else if 253 < units hostname || !(hostname.splitOn '.').all DNS_LABEL_RE then false
  else if NON_PUBLIC_SUFFIXES.any (liesUnder hostname ·) then false
  else (URL ("http://".toList ++ hostname)).any fun url =>
    url.hostname = hostname && url.pathname = ['/'] && url.search = [] && url.hash = []

def domainHostnameSchema (lower : Text → Text) (URL : Text → Option Url) (value : Text) : Except Text Text :=
  if units value < 1 then .error "Domain is required".toList
  else if isValidHostname URL (normalizeHostname lower value) then .ok (normalizeHostname lower value)
  else .error "Must be a valid hostname (e.g. orders.example.com) — not a URL, IP address, or path".toList

def canonicalCustomDomain (lower : Text → Text) (URL : Text → Option Url) (raw : Text) : Option Text :=
  if units raw = 0 || 300 < units raw then none
  else if isValidHostname URL (normalizeHostname lower raw) then some (normalizeHostname lower raw)
  else none

/-! ## The parameters -/

/-- `.toLowerCase()` of an ASCII text. -/
def LowersAscii (lower : Text → Text) : Prop := ∀ t, (∀ c ∈ t, c.toNat < 128) → lower t = t.map Char.toLower

def isHexDigit (c : Char) : Bool := isDigit c || ('a' ≤ c && c ≤ 'f') || ('A' ≤ c && c ≤ 'F')

def isIpv4Number (part : Text) : Bool :=
  part ≠ [] && (part.all isDigit || (["0x", "0X"].map String.toList).contains (part.take 2) && (part.drop 2).all isHexDigit)

def endsInNumber (host : Text) : Bool :=
  let parts := host.splitOn '.'
  (if parts.getLast? = some [] && 1 < parts.length then parts.dropLast else parts).getLast?.any isIpv4Number

def isHostChar (c : Char) : Bool := isLabelChar c || c = '.'

def ReadsAddresses (URL : Text → Option Url) : Prop :=
  ∀ host url, (∀ c ∈ host, isHostChar c = true) → endsInNumber host = true → URL ("http://".toList ++ host) = some url → IPV4_RE url.hostname = true

/-! ## Names -/

structure PublicName (h : Text) : Prop where
  twoLabels : 2 ≤ (h.splitOn '.').length
  labels : ∀ label ∈ h.splitOn '.', 1 ≤ label.length ∧ label.length ≤ 63 ∧ (∀ c ∈ label, isLabelChar c = true) ∧
    label.head? ≠ some '-' ∧ label.getLast? ≠ some '-'
  length_le : h.length ≤ 253
  noIpv4 : endsInNumber h = false
  noIpv6 : ':' ∉ h
  notReserved : ∀ suffix ∈ NON_PUBLIC_SUFFIXES, h ≠ suffix ∧ ¬ ('.' :: suffix) <:+ h

inductive Spelling (h : Text) : Text → Prop
  | mk (before scheme name dot slash after : Text) (hBefore : ∀ c ∈ before, isSpace c = true)
    (hScheme : scheme.map Char.toLower ∈ ["", "http://", "https://"].map String.toList) (hName : name.map Char.toLower = h)
    (hDot : dot = [] ∨ dot = ['.']) (hSlash : slash = [] ∨ slash = ['/']) (hAfter : ∀ c ∈ after, isSpace c = true) :
    Spelling h (before ++ (scheme ++ name ++ dot ++ slash) ++ after)

section Chars

variable {c : Char} {t : Text}

theorem toNat_of_isHostChar (h : isHostChar c = true) : 44 < c.toNat ∧ c.toNat < 123 ∧ (c.toNat < 65 ∨ 90 < c.toNat) := by
  rw [isHostChar, isLabelChar, isLowerLetter, isDigit] at h
  simp only [Bool.or_eq_true, Bool.and_eq_true, decide_eq_true_eq] at h
  rcases h with ((⟨hLow, hHigh⟩ | ⟨hLow, hHigh⟩) | rfl) | rfl
  · have hLow : 97 ≤ c.toNat := hLow
    have hHigh : c.toNat ≤ 122 := hHigh
    omega
  · have hLow : 48 ≤ c.toNat := hLow
    have hHigh : c.toNat ≤ 57 := hHigh
    omega
  · decide
  · decide

theorem toNat_lt_of_isHostChar (h : isHostChar c = true) : c.toNat < 128 := (toNat_of_isHostChar h).2.1.trans (by decide)

theorem isHostChar_plain (h : isHostChar c = true) : isSpace c = false ∧ c.toLower = c ∧ c ≠ ':' ∧ c ≠ '/' ∧ c ≠ ' ' ∧ c ≠ '[' := by
  obtain ⟨hLow, hHigh, hCase⟩ := toNat_of_isHostChar h
  refine ⟨MenuImport.isSpace_eq_false (by omega) (by omega), MenuImport.toLower_eq hCase, ?_, ?_, ?_, ?_⟩
  · rintro rfl
    exact absurd h (by decide)
  · rintro rfl
    exact absurd h (by decide)
  · rintro rfl
    exact absurd h (by decide)
  · rintro rfl
    exact absurd h (by decide)

theorem plain_of_toLower (h : isHostChar c.toLower = true ∨ c.toLower = ':' ∨ c.toLower = '/') : c.toNat < 128 ∧ isSpace c = false := by
  by_cases hUpper : 65 ≤ c.toNat ∧ c.toNat ≤ 90
  · exact ⟨by omega, MenuImport.isSpace_eq_false (by omega) (by omega)⟩
  · rw [MenuImport.toLower_eq (by omega)] at h
    rcases h with h | rfl | rfl
    · obtain ⟨hLow, hHigh, -⟩ := toNat_of_isHostChar h
      exact ⟨by omega, MenuImport.isSpace_eq_false (by omega) (by omega)⟩
    · exact ⟨by decide, by decide⟩
    · exact ⟨by decide, by decide⟩

theorem units_eq_length (h : ∀ c ∈ t, c.toNat < 128) : units t = t.length := by
  induction t with
  | nil => rfl
  | cons c t ih =>
    rw [List.forall_mem_cons] at h
    have hRest : units t = t.length := ih h.2
    unfold units at hRest ⊢
    rw [List.map_cons, List.sum_cons, if_pos (by omega), hRest, List.length_cons, Nat.add_comm]

theorem isHostChar_of_labels (h : ∀ label ∈ t.splitOn '.', ∀ c ∈ label, isLabelChar c = true) : ∀ c ∈ t, isHostChar c = true := by
  rw [List.splitOn_eq_splitOnP] at h
  induction t with
  | nil =>
    intro c hMem
    cases hMem
  | cons d t ih =>
    rw [List.splitOnP_cons_eq_if_modifyHead] at h
    rw [List.forall_mem_cons, isHostChar]
    split at h
    · rename_i hDot
      rw [List.forall_mem_cons] at h
      exact ⟨by rw [eq_of_beq hDot]; rfl, ih h.2⟩
    · obtain ⟨label, labels, hSplit⟩ := List.exists_cons_of_ne_nil (List.splitOnP_ne_nil (· == '.') t)
      rw [hSplit, List.modifyHead_cons, List.forall_mem_cons, List.forall_mem_cons] at h
      refine ⟨by rw [h.1.1]; rfl, ih ?_⟩
      rw [hSplit, List.forall_mem_cons]
      exact ⟨h.1.2, h.2⟩

theorem getLast?_ne_dot (h : [] ∉ t.splitOn '.') : t.getLast? ≠ some '.' := by
  intro hLast
  rw [List.getLast?_eq_some_iff] at hLast
  obtain ⟨front, rfl⟩ := hLast
  rw [List.splitOn_append_cons_self, List.splitOn_nil] at h
  exact h (List.mem_append_right _ List.mem_cons_self)

theorem two_le_splitOn (h : '.' ∈ t) : 2 ≤ (t.splitOn '.').length := by
  obtain ⟨front, rest, rfl⟩ := List.append_of_mem h
  have hFront := List.length_pos_of_ne_nil (List.splitOnP_ne_nil (· == '.') front)
  have hRest := List.length_pos_of_ne_nil (List.splitOnP_ne_nil (· == '.') rest)
  rw [List.splitOn_append_cons_self, List.length_append]
  rw [← List.splitOn_eq_splitOnP] at hFront hRest
  omega

end Chars

section Valid

variable {URL : Text → Option Url} {h : Text}

theorem isValidHostname_iff : isValidHostname URL h = true ↔
    (h ≠ [] ∧ ' ' ∉ h ∧ ':' ∉ h ∧ '[' ∉ h) ∧ IPV4_RE h = false ∧ '.' ∈ h ∧ (units h ≤ 253 ∧ ∀ label ∈ h.splitOn '.', DNS_LABEL_RE label = true) ∧
      (∀ suffix ∈ NON_PUBLIC_SUFFIXES, liesUnder h suffix = false) ∧ ∃ url, URL ("http://".toList ++ h) = some url ∧
        url.hostname = h ∧ url.pathname = ['/'] ∧ url.search = [] ∧ url.hash = [] := by
  rw [isValidHostname]
  simp only [Bool.if_false_left, Bool.and_eq_true, Bool.not_eq_true', decide_eq_false_iff_not, Bool.or_eq_true, decide_eq_true_eq,
    List.contains_iff_mem, not_or, Bool.not_eq_true, Bool.not_eq_false, Nat.not_lt, List.all_eq_true, List.any_eq_false,
    Option.any_eq_true, and_assoc]

theorem DNS_LABEL_RE_iff {label : Text} : DNS_LABEL_RE label = true ↔
    label.head? ≠ some '-' ∧ (∀ c ∈ label, isLabelChar c = true) ∧ 1 ≤ label.length ∧ label.length ≤ 63 ∧ label.getLast? ≠ some '-' := by
  simp only [DNS_LABEL_RE, Bool.and_eq_true, decide_eq_true_eq, List.all_eq_true, and_assoc]

theorem isHostChar_of_valid (hValid : isValidHostname URL h = true) : ∀ c ∈ h, isHostChar c = true := by
  obtain ⟨-, -, -, ⟨-, hLabels⟩, -⟩ := (isValidHostname_iff).mp hValid
  apply isHostChar_of_labels
  intro label hMem
  exact ((DNS_LABEL_RE_iff).mp (hLabels label hMem)).2.1

theorem publicName_of_valid (hUrl : ReadsAddresses URL) (hValid : isValidHostname URL h = true) : PublicName h := by
  have hHost := isHostChar_of_valid hValid
  obtain ⟨hChars, hIpv4, hDot, ⟨hUnits, hLabels⟩, hPublic, url, hParsed, hSame, -⟩ := (isValidHostname_iff).mp hValid
  constructor
  · exact two_le_splitOn hDot
  · intro label hMem
    obtain ⟨hHead, hAll, hPos, hLe, hLast⟩ := (DNS_LABEL_RE_iff).mp (hLabels label hMem)
    exact ⟨hPos, hLe, hAll, hHead, hLast⟩
  · rw [← units_eq_length fun c hMem => toNat_lt_of_isHostChar (hHost c hMem)]
    exact hUnits
  · rw [Bool.eq_false_iff]
    intro hNumber
    have hAddress := hUrl h url hHost hNumber hParsed
    rw [hSame, hIpv4] at hAddress
    cases hAddress
  · exact hChars.2.2.1
  · intro suffix hMem
    have hApart := hPublic suffix hMem
    rw [liesUnder, Bool.or_eq_false_iff, decide_eq_false_iff_not] at hApart
    refine ⟨hApart.1, ?_⟩
    rw [← List.isSuffixOf_iff_suffix, hApart.2]
    exact Bool.false_ne_true

end Valid

/-! ## Spellings -/

section Normal

variable {before mid after t : Text} {c : Char}

theorem trim_spaced (hBefore : ∀ c ∈ before, isSpace c = true) (hAfter : ∀ c ∈ after, isSpace c = true) (hMid : ∀ c ∈ mid, isSpace c = false)
    (hNe : mid ≠ []) : trim (before ++ mid ++ after) = mid := by
  have hFront : (before ++ mid ++ after).dropWhile isSpace = mid ++ after := by
    rw [List.append_assoc, List.dropWhile_append_of_pos hBefore]
    obtain ⟨d, rest, rfl⟩ := List.exists_cons_of_ne_nil hNe
    rw [List.cons_append, List.dropWhile_cons_of_neg]
    rw [hMid d List.mem_cons_self]
    exact Bool.false_ne_true
  have hBack : (mid ++ after).reverse.dropWhile isSpace = mid.reverse := by
    rw [List.reverse_append, List.dropWhile_append_of_pos fun c hMem => hAfter c (List.mem_reverse.mp hMem)]
    obtain ⟨d, rest, hRev⟩ := List.exists_cons_of_ne_nil (fun hNil => hNe (List.reverse_eq_nil_iff.mp hNil))
    rw [hRev, List.dropWhile_cons_of_neg]
    have hMem : d ∈ mid := List.mem_reverse.mp (by rw [hRev]; exact List.mem_cons_self)
    rw [hMid d hMem]
    exact Bool.false_ne_true
  rw [trim, hFront, hBack, List.reverse_reverse]

theorem stripLast_append : stripLast c (t ++ [c]) = t := by
  rw [stripLast, if_pos (List.getLast?_concat), List.dropLast_concat]

theorem stripLast_of_ne (h : t.getLast? ≠ some c) : stripLast c t = t := if_neg h

theorem stripProtocol_of_not_mem (h : ':' ∉ t) : stripProtocol t = t := by
  rw [stripProtocol, if_neg]
  rintro ⟨-, hColon⟩
  apply h
  have hMem : ':' ∈ (t.dropWhile isLowerLetter).take 3 := by
    rw [hColon]
    decide
  exact (List.dropWhile_sublist isLowerLetter).subset (List.mem_of_mem_take hMem)

theorem stripProtocol_http : stripProtocol ("http://".toList ++ t) = t := rfl

theorem stripProtocol_https : stripProtocol ("https://".toList ++ t) = t := rfl

theorem getLast?_ne (h : c ∉ t) : t.getLast? ≠ some c := fun hLast => h (List.mem_of_getLast? hLast)

end Normal

section Spellings

variable {lower : Text → Text} {URL : Text → Option Url} {h t : Text}

theorem normalizeHostname_spelling (hLower : LowersAscii lower) (hValid : isValidHostname URL h = true) (hSpelling : Spelling h t) :
    normalizeHostname lower t = h := by
  have hHost := isHostChar_of_valid hValid
  obtain ⟨⟨hNe, -, hColon, -⟩, -, -, ⟨-, hLabels⟩, -⟩ := (isValidHostname_iff).mp hValid
  have hSlashless : '/' ∉ h := fun hMem => (isHostChar_plain (hHost _ hMem)).2.2.2.1 rfl
  have hDotless : h.getLast? ≠ some '.' := by
    apply getLast?_ne_dot
    intro hMem
    exact absurd ((DNS_LABEL_RE_iff).mp (hLabels [] hMem)).2.2.1 (by decide)
  cases hSpelling with
  | mk before scheme name dot slash after hBefore hScheme hName hDot hSlash hAfter =>
    have hPlain : ∀ c ∈ scheme ++ name ++ dot ++ slash, c.toNat < 128 ∧ isSpace c = false := by
      intro c hMem
      apply plain_of_toLower
      rw [List.mem_append, List.mem_append, List.mem_append] at hMem
      rcases hMem with ((hMem | hMem) | hMem) | hMem
      · have hIn := List.mem_map_of_mem (f := Char.toLower) hMem
        have hEach : (["", "http://", "https://"].map String.toList).all (·.all fun d => isHostChar d || d == ':' || d == '/') = true := by
          rw [List.map_cons, List.map_cons, List.map_cons, List.map_nil, String.toList_ofList, String.toList_ofList, String.toList_ofList]
          decide
        have hChar := List.all_eq_true.mp (List.all_eq_true.mp hEach _ hScheme) _ hIn
        simpa only [Bool.or_eq_true, beq_iff_eq, or_assoc] using hChar
      · have hIn := List.mem_map_of_mem (f := Char.toLower) hMem
        rw [hName] at hIn
        exact .inl (hHost _ hIn)
      · rcases hDot with rfl | rfl
        · cases hMem
        · rw [List.mem_singleton.mp hMem]
          decide
      · rcases hSlash with rfl | rfl
        · cases hMem
        · rw [List.mem_singleton.mp hMem]
          decide
    have hNonempty : scheme ++ name ++ dot ++ slash ≠ [] := by
      intro hNil
      rw [List.append_eq_nil_iff, List.append_eq_nil_iff, List.append_eq_nil_iff] at hNil
      rw [hNil.1.1.2] at hName
      exact hNe hName.symm
    have hLowered : lower (scheme ++ name ++ dot ++ slash) = scheme.map Char.toLower ++ (h ++ dot ++ slash) := by
      have hDotSame : dot.map Char.toLower = dot := by
        rcases hDot with rfl | rfl
        · rfl
        · rfl
      have hSlashSame : slash.map Char.toLower = slash := by
        rcases hSlash with rfl | rfl
        · rfl
        · rfl
      rw [hLower _ fun c hMem => (hPlain c hMem).1, List.map_append, List.map_append, List.map_append, hName, hDotSame, hSlashSame,
        List.append_assoc, List.append_assoc, List.append_assoc]
    have hProtocol : stripProtocol (scheme.map Char.toLower ++ (h ++ dot ++ slash)) = h ++ dot ++ slash := by
      have hNoColon : ':' ∉ h ++ dot ++ slash := by
        rw [List.mem_append, List.mem_append, not_or, not_or]
        refine ⟨⟨hColon, ?_⟩, ?_⟩
        · rcases hDot with rfl | rfl
          · exact List.not_mem_nil
          · decide
        · rcases hSlash with rfl | rfl
          · exact List.not_mem_nil
          · decide
      simp only [List.map_cons, List.map_nil, List.mem_cons, List.not_mem_nil, or_false] at hScheme
      rcases hScheme with hNone | hHttp | hHttps
      · rw [hNone]
        exact stripProtocol_of_not_mem hNoColon
      · rw [hHttp]
        exact stripProtocol_http
      · rw [hHttps]
        exact stripProtocol_https
    have hSlashOff : stripLast '/' (h ++ dot ++ slash) = h ++ dot := by
      rcases hSlash with rfl | rfl
      · rw [List.append_nil]
        apply stripLast_of_ne
        apply getLast?_ne
        rw [List.mem_append, not_or]
        refine ⟨hSlashless, ?_⟩
        rcases hDot with rfl | rfl
        · exact List.not_mem_nil
        · decide
      · exact stripLast_append
    have hDotOff : stripLast '.' (h ++ dot) = h := by
      rcases hDot with rfl | rfl
      · rw [List.append_nil]
        exact stripLast_of_ne hDotless
      · exact stripLast_append
    rw [normalizeHostname, trim_spaced hBefore hAfter (fun c hMem => (hPlain c hMem).2) hNonempty, hLowered, hProtocol, hSlashOff, hDotOff]

theorem canonicalCustomDomain_eq_some : canonicalCustomDomain lower URL t = some h ↔
    1 ≤ units t ∧ units t ≤ 300 ∧ normalizeHostname lower t = h ∧ isValidHostname URL h = true := by
  unfold canonicalCustomDomain
  constructor
  · intro hSome
    split at hSome
    · cases hSome
    rename_i hLength
    split at hSome
    · rename_i hValid
      cases hSome
      rw [Bool.or_eq_true, decide_eq_true_eq, decide_eq_true_eq, not_or] at hLength
      exact ⟨by omega, by omega, rfl, hValid⟩
    · cases hSome
  · rintro ⟨hPos, hLe, rfl, hValid⟩
    rw [if_neg, if_pos hValid]
    rw [Bool.or_eq_true, decide_eq_true_eq, decide_eq_true_eq]
    omega

theorem units_pos (hNe : t ≠ []) : 1 ≤ units t := by
  obtain ⟨c, rest, rfl⟩ := List.exists_cons_of_ne_nil hNe
  unfold units
  rw [List.map_cons, List.sum_cons]
  split
  · omega
  · omega

theorem canonical_spelling (hLower : LowersAscii lower) (hValid : isValidHostname URL h = true) (hSpelling : Spelling h t)
    (hLe : units t ≤ 300) : canonicalCustomDomain lower URL t = some h := by
  have hNormal := normalizeHostname_spelling hLower hValid hSpelling
  refine (canonicalCustomDomain_eq_some).mpr ⟨units_pos ?_, hLe, hNormal, hValid⟩
  rintro rfl
  have hLowered : lower (trim []) = [] := hLower [] fun c hMem => absurd hMem List.not_mem_nil
  rw [normalizeHostname, hLowered] at hNormal
  exact ((isValidHostname_iff).mp hValid).1.1 hNormal.symm

theorem spelling_self (hValid : isValidHostname URL h = true) : Spelling h h := by
  have hName : h.map Char.toLower = h := by
    apply (List.map_congr_left _).trans (List.map_id h)
    intro c hMem
    exact (isHostChar_plain (isHostChar_of_valid hValid c hMem)).2.1
  have hSpelling := Spelling.mk (h := h) [] [] h [] [] [] (fun c hMem => absurd hMem List.not_mem_nil) List.mem_cons_self hName (.inl rfl)
    (.inl rfl) (fun c hMem => absurd hMem List.not_mem_nil)
  rw [List.nil_append, List.nil_append, List.append_nil, List.append_nil, List.append_nil] at hSpelling
  exact hSpelling

end Spellings

/-- Every spelling of a hostname is one domain, the same at both entry points, and a public name. -/
theorem canonicalCustomDomain_lawful (lower : Text → Text) (URL : Text → Option Url) (hLower : LowersAscii lower) (hUrl : ReadsAddresses URL) :
    (∀ s h, canonicalCustomDomain lower URL s = some h →
      canonicalCustomDomain lower URL h = some h ∧
        (∀ t, Spelling h t → units t ≤ 300 → canonicalCustomDomain lower URL t = some h) ∧ PublicName h) ∧
      ∀ s, 1 ≤ units s → units s ≤ 300 → (domainHostnameSchema lower URL s).toOption = canonicalCustomDomain lower URL s := by
  constructor
  · intro s h hSome
    obtain ⟨-, -, -, hValid⟩ := (canonicalCustomDomain_eq_some).mp hSome
    have hSpellings : ∀ t, Spelling h t → units t ≤ 300 → canonicalCustomDomain lower URL t = some h := fun t hSpelling hLe =>
      canonical_spelling hLower hValid hSpelling hLe
    refine ⟨hSpellings h (spelling_self hValid) ?_, hSpellings, publicName_of_valid hUrl hValid⟩
    have hUnits := ((isValidHostname_iff).mp hValid).2.2.2.1.1
    omega
  · intro s hPos hLe
    unfold domainHostnameSchema canonicalCustomDomain
    have hLength : ¬ (decide (units s = 0) || decide (300 < units s)) = true := by
      rw [Bool.or_eq_true, decide_eq_true_eq, decide_eq_true_eq]
      omega
    rw [if_neg (by omega : ¬ units s < 1), if_neg hLength]
    split
    · rfl
    · rfl

namespace Orders

def host : Text := ['o', 'r', 'd', 'e', 'r', 's', '.', 'e', 'x', 'a', 'm', 'p', 'l', 'e', '.', 'c', 'o', 'm']

def URL (t : Text) : Option Url := if t = "http://".toList ++ host then some ⟨host, ['/'], [], []⟩ else none

theorem reads_addresses : ReadsAddresses URL := by
  intro name url hHost hNumber hParsed
  unfold URL at hParsed
  split at hParsed
  · rename_i hEq
    rw [List.append_cancel_left hEq] at hNumber
    exact absurd hNumber (by decide)
  · cases hParsed

theorem lowers_ascii : LowersAscii (List.map Char.toLower) := fun _ _ => rfl

end Orders

/-- A pasted address is the domain it names. -/
theorem orders_spelled : canonicalCustomDomain (List.map Char.toLower) Orders.URL " HTTPS://Orders.Example.com./".toList =
    some "orders.example.com".toList := by
  have hHost : "orders.example.com".toList = Orders.host := String.toList_ofList
  have hText : " HTTPS://Orders.Example.com./".toList = [' '] ++
      (['H', 'T', 'T', 'P', 'S', ':', '/', '/'] ++ ['O', 'r', 'd', 'e', 'r', 's', '.', 'E', 'x', 'a', 'm', 'p', 'l', 'e', '.', 'c', 'o', 'm'] ++ ['.'] ++ ['/']) ++ [] :=
    String.toList_ofList
  rw [hHost, hText]
  have hCanonical : canonicalCustomDomain (List.map Char.toLower) Orders.URL Orders.host = some Orders.host := by decide
  have hSpelling := @Spelling.mk Orders.host [' '] ['H', 'T', 'T', 'P', 'S', ':', '/', '/']
    ['O', 'r', 'd', 'e', 'r', 's', '.', 'E', 'x', 'a', 'm', 'p', 'l', 'e', '.', 'c', 'o', 'm'] ['.'] ['/'] []
    (List.forall_mem_singleton.mpr rfl) (by decide) (by decide) (.inr rfl) (.inr rfl) (List.forall_mem_nil _)
  exact ((canonicalCustomDomain_lawful (List.map Char.toLower) Orders.URL Orders.lowers_ascii Orders.reads_addresses).1 _ _ hCanonical).2.1 _
    hSpelling (by decide)

end RestaurantOs.Hostnames
