import Mathlib.Data.List.Basic
import RestaurantOs.Payments.Providers

/-!
# Looking a refund up

A refund without a known reference is looked for by its key, on the pages of
the payment's refunds that Stripe lists. That it is not among them is an answer
on which the money is sent again.
-/

namespace RestaurantOs.RefundLookup

open Payments (RefundStatus mapStripeRefundStatus)

structure StripeRefund where
  id : Option String := none
  status : Option String := none
  /-- `metadata?.[STRIPE_REFUND_KEY_METADATA]` -/
  refundKey : Option String := none

/-- A truthy id. -/
def StripeRefund.ref? (r : StripeRefund) : Option String := r.id.filter (· ≠ "")

def StripeRefund.carries (key : String) (r : StripeRefund) : Bool := r.refundKey = some key

structure ListQuery where
  paymentIntent : String
  limit : Nat
  startingAfter : Option String

structure RefundList where
  data : Option (List StripeRefund)
  hasMore : Bool

/-- What Stripe answers: of a refund, of a session's `payment_intent`, and of
each request for a page. -/
structure Stripe where
  refund : String → Except String StripeRefund
  paymentIntent : String → Except String (Option String)
  list : Nat → ListQuery → Except String RefundList

inductive Outcome
  | rejected
  | unknown
  deriving DecidableEq

structure ProviderRequestError where
  message : String
  outcome : Outcome

inductive RefundLookupResult
  | found (refundRef : String) (status : RefundStatus) (providerStatus : Option String)
  | notFound

structure LookupInput where
  providerRef : String
  refundKey : String
  refundRef : Option String := none

def STRIPE_REFUND_LIST_PAGE_LIMIT : Nat := 100
def STRIPE_REFUND_LIST_MAX_PAGES : Nat := 10

def RefundLookupResult.of (ref : String) (r : StripeRefund) : RefundLookupResult := .found ref (mapStripeRefundStatus r.status) r.status

/-- The first refund of a page that carries the key, if it has an id. -/
def match? (refundKey : String) (data : List StripeRefund) : Option RefundLookupResult :=
  (data.find? (·.carries refundKey)).bind fun r => r.ref?.map fun ref => .of ref r

/-- The loop over the pages, `left` of which may still be asked for. -/
def searchPages (stripe : Stripe) (paymentIntent refundKey : String) :
    Nat → Nat → Option String → Except String RefundLookupResult × List ListQuery
  | 0, _, _ => (.error "too many refunds on this payment to search", [])
  | left + 1, page, startingAfter =>
    let query : ListQuery := { paymentIntent, limit := STRIPE_REFUND_LIST_PAGE_LIMIT, startingAfter }
    match stripe.list page query with
    | .error message => (.error message, [query])
    | .ok { data := none, .. } => (.error "Stripe returned an unreadable refund list", [query])
    | .ok { data := some data, hasMore } =>
      match match? refundKey data with
      | some found => (.ok found, [query])
      | none =>
        if !hasMore then (.ok .notFound, [query])
        else
          match data.getLast?.bind (·.ref?) with
          | none => (.error "Stripe returned an empty page with has_more", [query])
          | some last =>
            let rest := searchPages stripe paymentIntent refundKey left (page + 1) (some last)
            (rest.1, query :: rest.2)

def inconclusive (message : String) : ProviderRequestError :=
  { message := s!"Couldn't confirm the refund with Stripe: {message}", outcome := .unknown }

/-- With the requests for pages that it makes. -/
def lookupRefund (stripe : Stripe) (input : LookupInput) : Except ProviderRequestError RefundLookupResult × List ListQuery :=
  match input.refundRef.filter (· ≠ "") with
  | some refundRef =>
    match stripe.refund refundRef with
    | .error message => (.error (inconclusive message), [])
    | .ok r =>
      match r.ref? with
      | none => (.error (inconclusive "Stripe returned a refund without an id"), [])
      | some ref => (.ok (.of ref r), [])
  | none =>
    match stripe.paymentIntent input.providerRef with
    | .error message => (.error (inconclusive message), [])
    | .ok intent =>
      match intent.filter (· ≠ "") with
      | none => (.error (inconclusive "the checkout session has no payment_intent"), [])
      | some paymentIntent =>
        let search := searchPages stripe paymentIntent input.refundKey STRIPE_REFUND_LIST_MAX_PAGES 0 none
        (search.1.mapError inconclusive, search.2)

/-! ## Stripe's pages -/

/-- A page after `before` begins behind the cursor. -/
def StartsAfter (before : List StripeRefund) : Option String → Prop
  | none => before = []
  | some cursor => ∃ r, before.getLast? = some r ∧ r.ref? = some cursor

/-- Each page that arrives is the part of the held refunds behind its cursor,
and tells whether more of them follow. -/
def Stripe.Pages (stripe : Stripe) (held : List StripeRefund) : Prop :=
  ∀ page query data hasMore, stripe.list page query = .ok { data := some data, hasMore } →
    ∃ before after, held = before ++ (data ++ after) ∧ StartsAfter before query.startingAfter ∧ (hasMore = true ↔ after ≠ [])

/-- A lookup ends within its pages, finds only a refund that carries the key,
misses none, and is inconclusive otherwise. -/
structure LookedUp (held : List StripeRefund) (refundKey : String)
    (lookup : Except ProviderRequestError RefundLookupResult × List ListQuery) : Prop where
  requests : lookup.2.length ≤ STRIPE_REFUND_LIST_MAX_PAGES
  found : ∀ ref status providerStatus, lookup.1 = .ok (.found ref status providerStatus) →
    ∃ r ∈ held, r.carries refundKey = true ∧ r.ref? = some ref
  notFound : lookup.1 = .ok .notFound → ∀ r ∈ held, r.carries refundKey = false
  inconclusive : ∀ err, lookup.1 = .error err → err.outcome = .unknown

/-- The first refund that carries the key has an id. -/
def FirstNamed (held : List StripeRefund) (refundKey : String) : Prop :=
  ∀ r, held.find? (·.carries refundKey) = some r → r.ref? ≠ none

section Pages

variable {stripe : Stripe} {held before before' rest rest' data : List StripeRefund} {paymentIntent refundKey ref cursor : String}
  {status : RefundStatus} {providerStatus : Option String} {left page : Nat} {startingAfter : Option String}

theorem match?_eq_found (h : match? refundKey data = some (.found ref status providerStatus)) :
    ∃ r ∈ data, r.carries refundKey = true ∧ r.ref? = some ref := by
  obtain ⟨r, hFind, h⟩ := Option.bind_eq_some_iff.mp h
  obtain ⟨named, hRef, hFound⟩ := Option.map_eq_some_iff.mp h
  exact ⟨r, List.mem_of_find?_eq_some hFind, List.find?_some hFind, hRef.trans (by rw [(RefundLookupResult.found.inj hFound).1])⟩

theorem match?_ne_notFound : match? refundKey data ≠ some .notFound := by
  intro h
  obtain ⟨r, -, h⟩ := Option.bind_eq_some_iff.mp h
  obtain ⟨named, -, hFound⟩ := Option.map_eq_some_iff.mp h
  cases hFound

/-- A reference stands at one place only. -/
theorem StartsAfter.unique (hDistinct : (held.filterMap (·.ref?)).Nodup) (h : held = before ++ rest) (h' : held = before' ++ rest')
    (hStarts : StartsAfter before startingAfter) (hStarts' : StartsAfter before' startingAfter) : before = before' := by
  cases startingAfter with
  | none => exact Eq.trans hStarts (Eq.symm hStarts')
  | some cursor =>
    have hNothing : ∀ {b t : List StripeRefund}, ((b ++ t).filterMap (·.ref?)).Nodup → StartsAfter b (some cursor) →
        StartsAfter (b ++ t) (some cursor) → t = [] := by
      rintro b t hNodup ⟨r, hLast, hRef⟩ ⟨r', hLast', hRef'⟩
      by_contra hNe
      rw [List.getLast?_append_of_ne_nil _ hNe] at hLast'
      rw [List.filterMap_append, List.nodup_append] at hNodup
      exact hNodup.2.2 _ (List.mem_filterMap.mpr ⟨r, List.mem_of_getLast? hLast, hRef⟩) _
        (List.mem_filterMap.mpr ⟨r', List.mem_of_getLast? hLast', hRef'⟩) rfl
    have hPart : ∀ {b x : List StripeRefund}, held = b ++ x → (b.filterMap (·.ref?)).Nodup := by
      rintro b x rfl
      rw [List.filterMap_append] at hDistinct
      exact (List.nodup_append.mp hDistinct).1
    rcases List.append_eq_append_iff.mp (h.symm.trans h') with ⟨t, rfl, -⟩ | ⟨t, rfl, -⟩
    · rw [hNothing (hPart h') hStarts hStarts', List.append_nil]
    · rw [hNothing (hPart h) hStarts' hStarts, List.append_nil]

inductive PageRead (stripe : Stripe) (paymentIntent refundKey : String) (left page : Nat) (query : ListQuery) :
    Except String RefundLookupResult × List ListQuery → Prop
  | failed (message : String) : PageRead stripe paymentIntent refundKey left page query (.error message, [query])
  | found {data : List StripeRefund} {hasMore : Bool} {found : RefundLookupResult}
      (hPage : stripe.list page query = .ok { data := some data, hasMore }) (hMatch : match? refundKey data = some found) :
      PageRead stripe paymentIntent refundKey left page query (.ok found, [query])
  | last {data : List StripeRefund} (hPage : stripe.list page query = .ok { data := some data, hasMore := false })
      (hMatch : match? refundKey data = none) : PageRead stripe paymentIntent refundKey left page query (.ok .notFound, [query])
  | next {data : List StripeRefund} {cursor : String} (hPage : stripe.list page query = .ok { data := some data, hasMore := true })
      (hMatch : match? refundKey data = none) (hLast : data.getLast?.bind (·.ref?) = some cursor) :
      PageRead stripe paymentIntent refundKey left page query
        ((searchPages stripe paymentIntent refundKey left (page + 1) (some cursor)).1,
          query :: (searchPages stripe paymentIntent refundKey left (page + 1) (some cursor)).2)

theorem searchPages_succ : PageRead stripe paymentIntent refundKey left page
    { paymentIntent, limit := STRIPE_REFUND_LIST_PAGE_LIMIT, startingAfter }
    (searchPages stripe paymentIntent refundKey (left + 1) page startingAfter) := by
  rw [searchPages]
  split
  · exact .failed _
  · exact .failed _
  · rename_i data hasMore hPage
    split
    · rename_i found hMatch
      exact .found hPage hMatch
    · rename_i hMatch
      cases hasMore with
      | false => exact .last hPage hMatch
      | true =>
        rw [Bool.not_true, if_neg Bool.false_ne_true]
        split
        · exact .failed _
        · rename_i cursor hLast
          exact .next hPage hMatch hLast

theorem searchPages_requests : (searchPages stripe paymentIntent refundKey left page startingAfter).2.length ≤ left := by
  induction left generalizing page startingAfter with
  | zero => exact le_rfl
  | succ left ih =>
    have hRead := @searchPages_succ stripe paymentIntent refundKey left page startingAfter
    generalize searchPages stripe paymentIntent refundKey (left + 1) page startingAfter = read at hRead
    cases hRead with
    | failed | found | last => exact Nat.succ_le_succ (Nat.zero_le left)
    | next => exact Nat.succ_le_succ ih

theorem searchPages_found (hPages : stripe.Pages held)
    (h : (searchPages stripe paymentIntent refundKey left page startingAfter).1 = .ok (.found ref status providerStatus)) :
    ∃ r ∈ held, r.carries refundKey = true ∧ r.ref? = some ref := by
  induction left generalizing page startingAfter with
  | zero => cases h
  | succ left ih =>
    have hRead := @searchPages_succ stripe paymentIntent refundKey left page startingAfter
    generalize searchPages stripe paymentIntent refundKey (left + 1) page startingAfter = read at hRead h
    cases hRead with
    | failed => cases h
    | last => cases h
    | found hPage hMatch =>
      obtain ⟨before, after, hHeld, -, -⟩ := hPages _ _ _ _ hPage
      obtain ⟨r, hMem, hCarries, hRef⟩ := match?_eq_found (hMatch.trans (congrArg some (Except.ok.inj h)))
      exact ⟨r, by rw [hHeld]; exact List.mem_append_right _ (List.mem_append_left _ hMem), hCarries, hRef⟩
    | next => exact ih h

/-- A page that follows pages without the key and matches nothing is itself
without it, as the first refund that carries it would match. -/
theorem none_carries_of_match? (hFirst : FirstNamed held refundKey) (hHeld : held = before ++ (data ++ rest))
    (hBefore : ∀ r ∈ before, r.carries refundKey = false) (hMatch : match? refundKey data = none) :
    ∀ r ∈ data, r.carries refundKey = false := by
  cases hFind : data.find? (·.carries refundKey) with
  | none => exact fun r hr => Bool.eq_false_iff.mpr (List.find?_eq_none.mp hFind r hr)
  | some r =>
    have hHeldFirst : held.find? (·.carries refundKey) = some r := by
      rw [hHeld, List.find?_append, List.find?_eq_none.mpr fun r hr => Bool.eq_false_iff.mp (hBefore r hr), Option.none_or,
        List.find?_append, hFind, Option.some_or]
    rw [match?, hFind, Option.bind_some, Option.map_eq_none_iff] at hMatch
    exact absurd hMatch (hFirst r hHeldFirst)

/-- The pages so far are those before the cursor, and the key is not on them. -/
theorem searchPages_notFound (hPages : stripe.Pages held) (hDistinct : (held.filterMap (·.ref?)).Nodup)
    (hFirst : FirstNamed held refundKey) (hHeld : held = before ++ rest) (hStarts : StartsAfter before startingAfter)
    (hBefore : ∀ r ∈ before, r.carries refundKey = false)
    (h : (searchPages stripe paymentIntent refundKey left page startingAfter).1 = .ok .notFound) :
    ∀ r ∈ held, r.carries refundKey = false := by
  induction left generalizing page startingAfter before rest with
  | zero => cases h
  | succ left ih =>
    have hRead := @searchPages_succ stripe paymentIntent refundKey left page startingAfter
    generalize searchPages stripe paymentIntent refundKey (left + 1) page startingAfter = read at hRead h
    have hRest : ∀ {data : List StripeRefund} {hasMore : Bool}, stripe.list page
        { paymentIntent, limit := STRIPE_REFUND_LIST_PAGE_LIMIT, startingAfter } = .ok { data := some data, hasMore } →
        ∃ after, held = before ++ (data ++ after) ∧ (hasMore = true ↔ after ≠ []) := by
      intro data hasMore hPage
      obtain ⟨before', after, hHeld', hStarts', hMore⟩ := hPages _ _ _ _ hPage
      rw [StartsAfter.unique hDistinct hHeld hHeld' hStarts hStarts']
      exact ⟨after, hHeld', hMore⟩
    cases hRead with
    | failed => cases h
    | found _ hMatch => exact absurd (hMatch.trans (congrArg some (Except.ok.inj h))) match?_ne_notFound
    | last hPage hMatch =>
      obtain ⟨after, hPart, hMore⟩ := hRest hPage
      have hEnd : after = [] := by
        by_contra hNe
        cases hMore.mpr hNe
      have hData := none_carries_of_match? hFirst hPart hBefore hMatch
      rw [hPart, hEnd, List.append_nil]
      exact fun r hr => (List.mem_append.mp hr).elim (hBefore r) (hData r)
    | @next data cursor hPage hMatch hLast =>
      obtain ⟨after, hPart, -⟩ := hRest hPage
      have hData := none_carries_of_match? hFirst hPart hBefore hMatch
      obtain ⟨r, hEnd, hRef⟩ := Option.bind_eq_some_iff.mp hLast
      have hCursor : StartsAfter (before ++ data) (some cursor) :=
        ⟨r, (List.getLast?_append_of_ne_nil _ (List.ne_nil_of_mem (List.mem_of_getLast? hEnd))).trans hEnd, hRef⟩
      have hSoFar : ∀ r ∈ before ++ data, r.carries refundKey = false :=
        fun r hr => (List.mem_append.mp hr).elim (hBefore r) (hData r)
      exact ih (hPart.trans (List.append_assoc _ _ _).symm) hCursor hSoFar h

def onePage (held : List StripeRefund) : Stripe where
  refund _ := .error "No such refund"
  paymentIntent _ := .ok (some "pi")
  list _ query := if query.startingAfter = none then .ok { data := some held, hasMore := false } else .error "No such refund"

theorem onePage_pages (held : List StripeRefund) : (onePage held).Pages held := by
  intro page query data hasMore h
  rw [onePage] at h
  dsimp only at h
  split at h
  · rename_i hStart
    cases h
    refine ⟨[], [], by rw [List.nil_append, List.append_nil], ?_, by simp⟩
    rw [hStart]
    rfl
  · cases h

theorem searchPages_onePage (hMatch : match? refundKey held = none) :
    searchPages (onePage held) paymentIntent refundKey (left + 1) page none =
      (.ok .notFound, [{ paymentIntent, limit := STRIPE_REFUND_LIST_PAGE_LIMIT, startingAfter := none }]) := by
  simp only [searchPages, onePage, if_true, hMatch, Bool.not_false]

/-- A lookup by the key is right on all pagings and in spite of all failures
exactly if the first refund that carries the key has an id. -/
theorem looked_up_iff (held : List StripeRefund) (hDistinct : (held.filterMap (·.ref?)).Nodup) (refundKey : String) :
    (∀ stripe : Stripe, stripe.Pages held → ∀ providerRef, LookedUp held refundKey (lookupRefund stripe { providerRef, refundKey })) ↔
      FirstNamed held refundKey := by
  constructor
  · intro h r hFind hUnnamed
    have hMatch : match? refundKey held = none := by
      rw [match?, hFind, Option.bind_some, hUnnamed, Option.map_none]
    have hNotFound : (lookupRefund (onePage held) { providerRef := "", refundKey }).1 = .ok .notFound :=
      congrArg (·.1.mapError inconclusive) (searchPages_onePage hMatch)
    have hCarries := (h (onePage held) (onePage_pages held) "").notFound hNotFound r (List.mem_of_find?_eq_some hFind)
    rw [List.find?_some hFind] at hCarries
    cases hCarries
  · intro hFirst stripe hPages providerRef
    have hError : ∀ {result : Except String RefundLookupResult} {err : ProviderRequestError},
        result.mapError inconclusive = .error err → err.outcome = .unknown := by
      rintro (_ | _) err ⟨⟩
      rfl
    have hOk : ∀ {result : Except String RefundLookupResult} {value : RefundLookupResult},
        result.mapError inconclusive = .ok value → result = .ok value := by
      rintro (_ | _) value ⟨⟩
      rfl
    have hFailed : ∀ message, LookedUp held refundKey (.error (inconclusive message), []) := fun message =>
      ⟨Nat.zero_le _, by rintro _ _ _ ⟨⟩, by rintro ⟨⟩, fun _ => @hError (.error message) _⟩
    unfold lookupRefund
    split
    · rename_i hRef
      cases hRef
    · split
      · exact hFailed _
      · split
        · exact hFailed _
        · exact ⟨searchPages_requests, fun _ _ _ h => searchPages_found hPages (hOk h), fun h =>
            searchPages_notFound hPages hDistinct hFirst (List.nil_append held).symm (show StartsAfter [] none from rfl)
              (List.forall_mem_nil _) (hOk h), fun _ => hError⟩

end Pages

theorem looked_up_last : LookedUp [{ id := some "re_a" }, { id := some "re_b", refundKey := some "k" }] "k"
    (lookupRefund (onePage [{ id := some "re_a" }, { id := some "re_b", refundKey := some "k" }]) { providerRef := "cs", refundKey := "k" }) :=
  (looked_up_iff [{ id := some "re_a" }, { id := some "re_b", refundKey := some "k" }] (by decide) "k").mpr
    (by rintro r ⟨⟩; decide) _ (onePage_pages _) "cs"

end RestaurantOs.RefundLookup
