import Mathlib.Data.Rat.Floor
import RestaurantOs.Data.OrderedMap
import RestaurantOs.Data.Words
import RestaurantOs.Menus.Documents

/-!
# The token cache

Calls of the token cache run beside each other and meet in two maps: the cached
tokens, and the attempts that fetch one. An attempt leaves its map only when the
call that made it has gone on. The digest of the credentials is a parameter.
-/

namespace RestaurantOs.TokenCache

open Menus (Text)

structure Request where
  scope : Text
  clientId : Text
  clientSecret : Text
  deriving DecidableEq

/-- A value that is no string is empty, and a lifetime that is not finite is absent. -/
structure FetchedToken where
  value : Text
  expiresInSeconds : Option ℚ

structure CachedToken where
  value : Text
  reuseUntil : ℚ
  deriving DecidableEq

def DAY_MS : Int := 24 * 60 * 60 * 1000

def MAX_ENTRIES : Nat := 1000

def NUL : Char := Char.ofNat 0

/-- `digest` is the hexadecimal SHA-256. -/
def tokenCacheKey (digest : Text → Text) (request : Request) : Text :=
  request.scope ++ ':' :: digest (request.clientId ++ NUL :: request.clientSecret)

def refreshMarginMs (lifetimeMs : ℚ) : Int := min DAY_MS ⌊lifetimeMs / 10⌋

inductive Outcome
  | token (value : Text)
  | failed
  deriving DecidableEq

/-- A fetch, and whether the call that made it has gone on. -/
structure Attempt where
  request : Request
  outcome : Option Outcome := none
  closed : Bool := false

inductive Seen
  | fetched (request : Request) (value : Text) (expiry : Option ℚ)
  | fromCache (request : Request) (cached : CachedToken) (now : ℚ)
  | joined (request : Request) (outcome : Option Outcome)
  | answered (request : Request) (outcome : Outcome)
  | evicted (request : Request) (cached : CachedToken)
  deriving DecidableEq

structure Waiter where
  request : Request
  attempt : Nat

structure World where
  tokens : OrderedMap Text CachedToken := .empty
  inFlight : OrderedMap Text Nat := .empty
  attempts : List Attempt := []
  waiting : List Waiter := []
  seen : List Seen := []

def evictIfFull (nowMs : ℚ) (tokens : OrderedMap Text CachedToken) : OrderedMap Text CachedToken :=
  if tokens.size < MAX_ENTRIES then tokens else (tokens.keep fun entry => nowMs < entry.2.reuseUntil).newest MAX_ENTRIES

namespace World

def outcomeOf (w : World) (attempt : Nat) : Option Outcome := (w.attempts[attempt]?).bind (·.outcome)

section Steps

variable (digest : Text → Text)

def join (request : Request) (w : World) : World :=
  match w.inFlight.get? (tokenCacheKey digest request) with
  | some attempt => { w with waiting := w.waiting ++ [⟨request, attempt⟩], seen := w.seen ++ [.joined request (w.outcomeOf attempt)] }
  | none =>
    { w with
      attempts := w.attempts ++ [{ request := request }]
      inFlight := w.inFlight.set (tokenCacheKey digest request) w.attempts.length }

/-- A call as far as its first `await`. -/
def getUberDirectToken (request : Request) (now : ℚ) (w : World) : World :=
  match w.tokens.get? (tokenCacheKey digest request) with
  | none => w.join digest request
  | some cached =>
    if now < cached.reuseUntil then { w with seen := w.seen ++ [.fromCache request cached now] }
    else { w with tokens := w.tokens.delete (tokenCacheKey digest request) }.join digest request

def remember (key : Text) (fetched : FetchedToken) (now now' : ℚ) (tokens : OrderedMap Text CachedToken) : OrderedMap Text CachedToken :=
  match fetched.expiresInSeconds with
  | none => tokens
  | some seconds =>
    let lifetimeMs := seconds * 1000
    if 0 < lifetimeMs then (evictIfFull now tokens).set key ⟨fetched.value, now' + lifetimeMs - refreshMarginMs lifetimeMs⟩ else tokens

def settle (attempt : Nat) (answer : Option FetchedToken) (now now' : ℚ) (w : World) : World :=
  match w.attempts[attempt]? with
  | none => w
  | some a =>
    if a.outcome.isSome then w
    else
      match answer.filter (·.value ≠ []) with
      | none => { w with attempts := w.attempts.set attempt { a with outcome := some .failed } }
      | some fetched =>
        { w with
          tokens := remember (tokenCacheKey digest a.request) fetched now now' w.tokens
          attempts := w.attempts.set attempt { a with outcome := some (.token fetched.value) }
          seen := w.seen ++ [.fetched a.request fetched.value (fetched.expiresInSeconds.map fun seconds => now' + seconds * 1000)] }

/-- The call that made the attempt goes on: its `finally` and its answer. -/
def finish (attempt : Nat) (w : World) : World :=
  match w.attempts[attempt]? with
  | none => w
  | some a =>
    match a.outcome with
    | none => w
    | some outcome =>
      if a.closed then w
      else
        { w with
          inFlight := w.inFlight.delete (tokenCacheKey digest a.request)
          attempts := w.attempts.set attempt { a with closed := true }
          seen := w.seen ++ [.answered a.request outcome] }

def resume (i : Nat) (w : World) : World :=
  match w.waiting[i]? with
  | none => w
  | some waiter =>
    match w.outcomeOf waiter.attempt with
    | none => w
    | some outcome => { w with waiting := w.waiting.eraseIdx i, seen := w.seen ++ [.answered waiter.request outcome] }

def evictUberDirectToken (request : Request) (token : Text) (w : World) : World :=
  match w.tokens.get? (tokenCacheKey digest request) with
  | none => w
  | some cached =>
    if cached.value = token then
      { w with tokens := w.tokens.delete (tokenCacheKey digest request), seen := w.seen ++ [.evicted request cached] }
    else w

end Steps

end World

inductive Event
  | call (request : Request) (now : ℚ)
  | settle (attempt : Nat) (answer : Option FetchedToken) (now now' : ℚ)
  | finish (attempt : Nat)
  | resume (i : Nat)
  | evict (request : Request) (token : Text)

def World.step (digest : Text → Text) (w : World) : Event → World
  | .call request now => w.getUberDirectToken digest request now
  | .settle attempt answer now now' => w.settle digest attempt answer now now'
  | .finish attempt => w.finish digest attempt
  | .resume i => w.resume i
  | .evict request token => w.evictUberDirectToken digest request token

inductive Reached (digest : Text → Text) (guard : World → Event → Prop) : World → Prop
  | start : Reached digest guard {}
  | step (w : World) (event : Event) (hReached : Reached digest guard w) (hGuard : guard w event) : Reached digest guard (w.step digest event)

/-! ## The law -/

def World.Returned (w : World) (request : Request) (value : Text) : Prop :=
  (∃ cached now, .fromCache request cached now ∈ w.seen ∧ cached.value = value) ∨ .answered request (.token value) ∈ w.seen

structure World.Right (digest : Text → Text) (w : World) : Prop where
  own : ∀ request value, w.Returned request value → value ≠ [] ∧ ∃ expiry, .fetched request value expiry ∈ w.seen
  usable : ∀ request cached now, .fromCache request cached now ∈ w.seen →
    now < cached.reuseUntil ∧ ∃ expiry, .fetched request cached.value (some expiry) ∈ w.seen ∧ cached.reuseUntil < expiry
  single : ∀ (i j : Nat) (a b : Attempt), w.attempts[i]? = some a → w.attempts[j]? = some b → a.outcome = none →
    b.outcome = none → a.request = b.request → i = j
  fresh : ∀ request, .joined request (some .failed) ∉ w.seen
  bounded : w.tokens.size ≤ MAX_ENTRIES
  evicts : ∀ request cached, .evicted request cached ∈ w.seen → ∃ expiry, .fetched request cached.value (some expiry) ∈ w.seen
  evictsOnly : ∀ request token entry, entry ∈ w.tokens.entries → entry ∉ (w.evictUberDirectToken digest request token).tokens.entries →
    entry.1 = tokenCacheKey digest request ∧ entry.2.value = token

def Meets (digest : Text → Text) (w : World) : Event → Prop
  | .call request _ => NUL ∉ request.clientId ∧
    ∀ attempt, w.inFlight.get? (tokenCacheKey digest request) = some attempt → w.outcomeOf attempt ≠ some .failed
  | .settle _ answer _ _ => ∀ fetched seconds, answer = some fetched → fetched.expiresInSeconds = some seconds →
    seconds * 1000 ≤ 0 ∨ 10 ≤ seconds * 1000
  | .evict request _ => NUL ∉ request.clientId
  | _ => True

theorem tokenCacheKey_inj {digest : Text → Text} (hDigest : Function.Injective digest) (hHex : ∀ t, ':' ∉ digest t) {r s : Request}
    (hr : NUL ∉ r.clientId) (hs : NUL ∉ s.clientId) (h : tokenCacheKey digest r = tokenCacheKey digest s) : r = s := by
  obtain ⟨hScope, hHash⟩ := Words.split_at_last (hHex _) (hHex _) h
  obtain ⟨hId, hSecret⟩ := Words.split_at hr hs (hDigest hHash)
  cases r with
  | mk scope clientId clientSecret =>
    dsimp only at hScope hId hSecret
    rw [hScope, hId, hSecret]

theorem refreshMarginMs_pos {lifetimeMs : ℚ} (h : 10 ≤ lifetimeMs) : 0 < refreshMarginMs lifetimeMs := by
  have hFloor : 1 ≤ ⌊lifetimeMs / 10⌋ := by
    rw [Int.le_floor]
    have hTenth := (le_div_iff₀ (by norm_num : (0 : ℚ) < 10)).mpr (by linarith : (1 : ℚ) * 10 ≤ lifetimeMs)
    exact_mod_cast hTenth
  unfold refreshMarginMs DAY_MS
  omega

theorem size_evictIfFull {now : ℚ} {tokens : OrderedMap Text CachedToken} : (evictIfFull now tokens).size < MAX_ENTRIES := by
  unfold evictIfFull
  split
  · assumption
  · exact OrderedMap.size_newest (by decide)

theorem mem_of_mem_evictIfFull {now : ℚ} {tokens : OrderedMap Text CachedToken} {entry : Text × CachedToken}
    (h : entry ∈ (evictIfFull now tokens).entries) : entry ∈ tokens.entries := by
  unfold evictIfFull at h
  split at h
  · exact h
  · exact OrderedMap.mem_of_mem_keep (OrderedMap.mem_of_mem_newest h)

/-! ## What every event keeps -/

structure World.Kept (digest : Text → Text) (w : World) : Prop where
  clean : ∀ a ∈ w.attempts, NUL ∉ a.request.clientId
  tokens : ∀ entry ∈ w.tokens.entries, ∃ request expiry, .fetched request entry.2.value (some expiry) ∈ w.seen ∧
    entry.1 = tokenCacheKey digest request ∧ entry.2.reuseUntil < expiry ∧ NUL ∉ request.clientId
  flights : ∀ key i, (key, i) ∈ w.inFlight.entries ↔ ∃ a, w.attempts[i]? = some a ∧ a.closed = false ∧ key = tokenCacheKey digest a.request
  pending : ∀ a ∈ w.attempts, a.outcome = none → a.closed = false
  outcomes : ∀ a ∈ w.attempts, ∀ value, a.outcome = some (.token value) → ∃ expiry, .fetched a.request value expiry ∈ w.seen
  waiters : ∀ waiter ∈ w.waiting, ∃ a, w.attempts[waiter.attempt]? = some a ∧ a.request = waiter.request
  full : ∀ request value expiry, .fetched request value expiry ∈ w.seen → value ≠ []
  answers : ∀ request value, .answered request (.token value) ∈ w.seen → ∃ expiry, .fetched request value expiry ∈ w.seen
  usable : ∀ request cached now, .fromCache request cached now ∈ w.seen →
    now < cached.reuseUntil ∧ ∃ expiry, .fetched request cached.value (some expiry) ∈ w.seen ∧ cached.reuseUntil < expiry
  fresh : ∀ request, .joined request (some .failed) ∉ w.seen
  bounded : w.tokens.size ≤ MAX_ENTRIES
  evicts : ∀ request cached, .evicted request cached ∈ w.seen → ∃ expiry, .fetched request cached.value (some expiry) ∈ w.seen

theorem World.Kept.start {digest : Text → Text} : World.Kept digest {} := by
  constructor
  · exact fun a hMem => absurd hMem List.not_mem_nil
  · exact fun entry hMem => absurd hMem List.not_mem_nil
  · intro key i
    refine iff_of_false List.not_mem_nil ?_
    rintro ⟨a, hAttempt, -⟩
    cases hAttempt
  · exact fun a hMem => absurd hMem List.not_mem_nil
  · exact fun a hMem => absurd hMem List.not_mem_nil
  · exact fun waiter hMem => absurd hMem List.not_mem_nil
  · exact fun request value expiry hMem => absurd hMem List.not_mem_nil
  · exact fun request value hMem => absurd hMem List.not_mem_nil
  · exact fun request cached now hMem => absurd hMem List.not_mem_nil
  · exact fun request => List.not_mem_nil
  · exact Nat.zero_le _
  · exact fun request cached hMem => absurd hMem List.not_mem_nil

section Kept

variable {digest : Text → Text} {w : World} {request : Request} {a e : Attempt} {i j : Nat} {now now' : ℚ} {event : Seen}

theorem exists_set {p : Attempt → Prop} {attempts : List Attempt} (h : attempts[i]? = some a) (hp : p e ↔ p a) :
    (∃ b, (attempts.set i e)[j]? = some b ∧ p b) ↔ ∃ b, attempts[j]? = some b ∧ p b := by
  by_cases hSame : i = j
  · subst hSame
    rw [Tables.getElem?_set_eq h, h]
    simp only [Option.some.injEq, exists_eq_left', hp]
  · rw [List.getElem?_set_ne hSame]

theorem World.Kept.see (h : w.Kept digest) (event : Seen) (hEvent : match event with
    | .fetched _ value _ => value ≠ []
    | .fromCache request cached now =>
      now < cached.reuseUntil ∧ ∃ expiry, .fetched request cached.value (some expiry) ∈ w.seen ∧ cached.reuseUntil < expiry
    | .joined _ outcome => outcome ≠ some .failed
    | .answered request outcome => ∀ value, outcome = .token value → ∃ expiry, .fetched request value expiry ∈ w.seen
    | .evicted request cached => ∃ expiry, .fetched request cached.value (some expiry) ∈ w.seen) :
    World.Kept digest { w with seen := w.seen ++ [event] } := by
  have hOld : ∀ {seen : Seen}, seen ∈ w.seen → seen ∈ w.seen ++ [event] := fun hMem => List.mem_append_left _ hMem
  have hSplit : ∀ {seen : Seen}, seen ∈ w.seen ++ [event] → seen ∈ w.seen ∨ event = seen := by
    intro seen hMem
    rcases List.mem_append.mp hMem with hMem | hMem
    · exact .inl hMem
    · exact .inr (List.mem_singleton.mp hMem).symm
  constructor
  · exact h.clean
  · intro entry hMem
    obtain ⟨request, expiry, hFetched, hRest⟩ := h.tokens entry hMem
    exact ⟨request, expiry, hOld hFetched, hRest⟩
  · exact h.flights
  · exact h.pending
  · intro a hMem value hOutcome
    obtain ⟨expiry, hFetched⟩ := h.outcomes a hMem value hOutcome
    exact ⟨expiry, hOld hFetched⟩
  · exact h.waiters
  · intro request value expiry hMem
    rcases hSplit hMem with hMem | rfl
    · exact h.full request value expiry hMem
    · exact hEvent
  · intro request value hMem
    rcases hSplit hMem with hMem | rfl
    · obtain ⟨expiry, hFetched⟩ := h.answers request value hMem
      exact ⟨expiry, hOld hFetched⟩
    · obtain ⟨expiry, hFetched⟩ := hEvent value rfl
      exact ⟨expiry, hOld hFetched⟩
  · intro request cached now hMem
    rcases hSplit hMem with hMem | rfl
    · obtain ⟨hBefore, expiry, hFetched, hLt⟩ := h.usable request cached now hMem
      exact ⟨hBefore, expiry, hOld hFetched, hLt⟩
    · obtain ⟨hBefore, expiry, hFetched, hLt⟩ := hEvent
      exact ⟨hBefore, expiry, hOld hFetched, hLt⟩
  · intro request hMem
    rcases hSplit hMem with hMem | rfl
    · exact h.fresh request hMem
    · exact hEvent rfl
  · exact h.bounded
  · intro request cached hMem
    rcases hSplit hMem with hMem | rfl
    · obtain ⟨expiry, hFetched⟩ := h.evicts request cached hMem
      exact ⟨expiry, hOld hFetched⟩
    · obtain ⟨expiry, hFetched⟩ := hEvent
      exact ⟨expiry, hOld hFetched⟩

theorem World.Kept.drop (h : w.Kept digest) (key : Text) : World.Kept digest { w with tokens := w.tokens.delete key } :=
  { h with
    tokens := fun entry hMem => h.tokens entry (OrderedMap.mem_delete.mp hMem).1
    bounded := (OrderedMap.size_keep_le).trans h.bounded }

theorem World.outcomeOf_eq (h : w.attempts[i]? = some a) : w.outcomeOf i = a.outcome := by
  unfold World.outcomeOf
  rw [h]
  rfl

theorem World.Kept.join (hDigest : Function.Injective digest) (hHex : ∀ t, ':' ∉ digest t) (h : w.Kept digest) (hClean : NUL ∉ request.clientId)
    (hFresh : ∀ attempt, w.inFlight.get? (tokenCacheKey digest request) = some attempt → w.outcomeOf attempt ≠ some .failed) :
    (w.join digest request).Kept digest := by
  unfold World.join
  split
  · rename_i attempt hGet
    obtain ⟨a, hAttempt, -, hKey⟩ := (h.flights _ _).mp (OrderedMap.get?_eq_some.mp hGet)
    have hRequest : a.request = request := tokenCacheKey_inj hDigest hHex (h.clean a (List.mem_of_getElem? hAttempt)) hClean hKey.symm
    have hSeen := h.see (.joined request (w.outcomeOf attempt)) (hFresh attempt hGet)
    refine { hSeen with waiters := ?_ }
    intro waiter hMem
    rcases List.mem_append.mp hMem with hMem | hMem
    · exact h.waiters waiter hMem
    · rw [List.mem_singleton.mp hMem]
      exact ⟨a, hAttempt, hRequest⟩
  · rename_i hGet
    have hNone := OrderedMap.get?_eq_none.mp hGet
    have hIndex : ∀ {i : Nat} {b : Attempt}, (w.attempts ++ [{ request := request }])[i]? = some b ↔
        w.attempts[i]? = some b ∨ i = w.attempts.length ∧ b = { request := request } := by
      intro i b
      rcases Nat.lt_trichotomy i w.attempts.length with hLt | rfl | hGt
      · rw [List.getElem?_append_left hLt]
        exact (or_iff_left fun hLast => absurd hLast.1 (Nat.ne_of_lt hLt)).symm
      · rw [List.getElem?_concat_length, List.getElem?_eq_none (Nat.le_refl _), Option.some.injEq]
        simp only [reduceCtorEq, false_or, true_and]
        exact eq_comm
      · have hLength : (w.attempts ++ [({ request := request } : Attempt)]).length ≤ i := by
          rw [List.length_append, List.length_singleton]
          exact hGt
        rw [List.getElem?_eq_none hLength, List.getElem?_eq_none (Nat.le_of_lt hGt)]
        simp only [reduceCtorEq, false_or, false_iff, not_and]
        intro hEq
        omega
    refine { h with clean := ?_, flights := ?_, pending := ?_, outcomes := ?_, waiters := ?_ }
    · intro b hMem
      rcases List.mem_append.mp hMem with hMem | hMem
      · exact h.clean b hMem
      · rw [List.mem_singleton.mp hMem]
        exact hClean
    · intro key i
      rw [OrderedMap.mem_set, h.flights]
      constructor
      · rintro (hNew | ⟨⟨b, hAttempt, hRest⟩, -⟩)
        · obtain ⟨rfl, rfl⟩ := Prod.mk.inj hNew
          exact ⟨_, hIndex.mpr (.inr ⟨rfl, rfl⟩), rfl, rfl⟩
        · exact ⟨b, hIndex.mpr (.inl hAttempt), hRest⟩
      · rintro ⟨b, hAttempt, hRest⟩
        rcases hIndex.mp hAttempt with hOld | ⟨rfl, rfl⟩
        · have hEntry := (h.flights key i).mpr ⟨b, hOld, hRest⟩
          exact .inr ⟨⟨b, hOld, hRest⟩, hNone _ hEntry⟩
        · exact .inl (by rw [hRest.2])
    · intro b hMem hOutcome
      rcases List.mem_append.mp hMem with hMem | hMem
      · exact h.pending b hMem hOutcome
      · rw [List.mem_singleton.mp hMem]
    · intro b hMem value hOutcome
      rcases List.mem_append.mp hMem with hMem | hMem
      · exact h.outcomes b hMem value hOutcome
      · rw [List.mem_singleton.mp hMem] at hOutcome
        cases hOutcome
    · intro waiter hMem
      obtain ⟨b, hAttempt, hRequest⟩ := h.waiters waiter hMem
      exact ⟨b, hIndex.mpr (.inl hAttempt), hRequest⟩

theorem World.Kept.call (hDigest : Function.Injective digest) (hHex : ∀ t, ':' ∉ digest t) (h : w.Kept digest) (hClean : NUL ∉ request.clientId)
    (hFresh : ∀ attempt, w.inFlight.get? (tokenCacheKey digest request) = some attempt → w.outcomeOf attempt ≠ some .failed) :
    (w.getUberDirectToken digest request now).Kept digest := by
  unfold World.getUberDirectToken
  split
  · exact h.join hDigest hHex hClean hFresh
  · rename_i cached hGet
    split
    · rename_i hReuse
      obtain ⟨owner, expiry, hFetched, hKey, hLt, hOwner⟩ := h.tokens _ (OrderedMap.get?_eq_some.mp hGet)
      have hSame := tokenCacheKey_inj hDigest hHex hClean hOwner hKey
      exact h.see (.fromCache _ _ _) ⟨hReuse, expiry, by rw [hSame]; exact hFetched, hLt⟩
    · exact (h.drop _).join hDigest hHex hClean hFresh

theorem World.Kept.withTokens {tokens : OrderedMap Text CachedToken} (h : w.Kept digest) (hBounded : tokens.size ≤ MAX_ENTRIES)
    (hTokens : ∀ entry ∈ tokens.entries, ∃ request expiry, .fetched request entry.2.value (some expiry) ∈ w.seen ∧
      entry.1 = tokenCacheKey digest request ∧ entry.2.reuseUntil < expiry ∧ NUL ∉ request.clientId) :
    World.Kept digest { w with tokens := tokens } :=
  { h with tokens := hTokens, bounded := hBounded }

theorem World.Kept.withOutcome (outcome : Outcome) (h : w.Kept digest) (hAttempt : w.attempts[i]? = some a)
    (hFetched : ∀ value, outcome = .token value → ∃ expiry, .fetched a.request value expiry ∈ w.seen) :
    World.Kept digest { w with attempts := w.attempts.set i { a with outcome := some outcome } } := by
  have hMem := List.mem_of_getElem? hAttempt
  refine { h with clean := ?_, flights := ?_, pending := ?_, outcomes := ?_, waiters := ?_ }
  · intro b hb
    rcases List.mem_or_eq_of_mem_set hb with hOld | rfl
    · exact h.clean b hOld
    · exact h.clean a hMem
  · intro key j
    exact (h.flights key j).trans (exists_set (e := { a with outcome := some outcome })
      (p := fun b => b.closed = false ∧ key = tokenCacheKey digest b.request) hAttempt Iff.rfl).symm
  · intro b hb hOutcome
    rcases List.mem_or_eq_of_mem_set hb with hOld | rfl
    · exact h.pending b hOld hOutcome
    · cases hOutcome
  · intro b hb value hOutcome
    rcases List.mem_or_eq_of_mem_set hb with hOld | rfl
    · exact h.outcomes b hOld value hOutcome
    · exact hFetched value (Option.some.inj hOutcome)
  · intro waiter hWaiter
    exact (exists_set (e := { a with outcome := some outcome }) (p := fun b => b.request = waiter.request) hAttempt Iff.rfl).mpr
      (h.waiters waiter hWaiter)

theorem World.Kept.settle {answer : Option FetchedToken} (h : w.Kept digest)
    (hAnswer : ∀ fetched seconds, answer = some fetched → fetched.expiresInSeconds = some seconds → seconds * 1000 ≤ 0 ∨ 10 ≤ seconds * 1000) :
    (w.settle digest i answer now now').Kept digest := by
  unfold World.settle
  split
  · exact h
  rename_i a hAttempt
  split
  · exact h
  rename_i hOutcome
  rw [Option.not_isSome_iff_eq_none] at hOutcome
  split
  · apply h.withOutcome _ hAttempt
    intro value hToken
    cases hToken
  · rename_i fetched hFetched
    obtain ⟨hSome, hFull⟩ := Option.filter_eq_some_iff.mp hFetched
    have hSeen := h.see (.fetched a.request fetched.value (fetched.expiresInSeconds.map fun seconds => now' + seconds * 1000))
      (of_decide_eq_true hFull)
    have hNew : Seen.fetched a.request fetched.value (fetched.expiresInSeconds.map fun seconds => now' + seconds * 1000) ∈
        w.seen ++ [.fetched a.request fetched.value (fetched.expiresInSeconds.map fun seconds => now' + seconds * 1000)] :=
      List.mem_append_right _ List.mem_cons_self
    have hSettled := hSeen.withOutcome (.token fetched.value) hAttempt (by
      intro value hToken
      rw [← Outcome.token.inj hToken]
      exact ⟨_, hNew⟩)
    apply hSettled.withTokens
    · unfold World.remember
      split
      · exact h.bounded
      · dsimp only
        split
        · exact OrderedMap.size_set_le.trans size_evictIfFull
        · exact h.bounded
    · unfold World.remember
      split
      · exact hSeen.tokens
      · rename_i seconds hSeconds
        dsimp only
        split
        · rename_i hPos
          intro entry hMem
          rcases OrderedMap.mem_set.mp hMem with rfl | ⟨hOld, -⟩
          · have hLong : 10 ≤ seconds * 1000 := (hAnswer fetched seconds hSome hSeconds).resolve_left (not_le_of_gt hPos)
            have hMargin : (0 : ℚ) < refreshMarginMs (seconds * 1000) := by exact_mod_cast refreshMarginMs_pos hLong
            have hExpiry : (fetched.expiresInSeconds.map fun seconds => now' + seconds * 1000) = some (now' + seconds * 1000) := by
              rw [hSeconds]
              rfl
            refine ⟨a.request, now' + seconds * 1000, ?_, rfl, by dsimp only; linarith, h.clean a (List.mem_of_getElem? hAttempt)⟩
            rw [← hExpiry]
            exact hNew
          · exact hSeen.tokens entry (mem_of_mem_evictIfFull hOld)
        · exact hSeen.tokens

theorem World.Kept.finish (h : w.Kept digest) : (w.finish digest i).Kept digest := by
  unfold World.finish
  split
  · exact h
  rename_i a hAttempt
  split
  · exact h
  rename_i outcome hOutcome
  split
  · exact h
  rename_i hOpen
  rw [Bool.not_eq_true] at hOpen
  have hMem := List.mem_of_getElem? hAttempt
  have hSeen := h.see (.answered a.request outcome) fun value hToken => h.outcomes a hMem value (by rw [hOutcome, hToken])
  refine { hSeen with clean := ?_, flights := ?_, pending := ?_, outcomes := ?_, waiters := ?_ }
  · intro b hb
    rcases List.mem_or_eq_of_mem_set hb with hOld | rfl
    · exact h.clean b hOld
    · exact h.clean a hMem
  · intro key j
    rw [OrderedMap.mem_delete]
    have hOwn := (h.flights (tokenCacheKey digest a.request) i).mpr ⟨a, hAttempt, hOpen, rfl⟩
    constructor
    · rintro ⟨hEntry, hNe⟩
      obtain ⟨b, hb, hRest⟩ := (h.flights key j).mp hEntry
      refine ⟨b, ?_, hRest⟩
      rw [List.getElem?_set_ne]
      · exact hb
      · rintro rfl
        rw [hAttempt] at hb
        cases hb
        exact hNe hRest.2
    · rintro ⟨b, hb, hRest⟩
      rcases Tables.getElem?_set_cases hb with ⟨rfl, rfl⟩ | ⟨hNe, hOld⟩
      · cases hRest.1
      · have hEntry := (h.flights key j).mpr ⟨b, hOld, hRest⟩
        refine ⟨hEntry, ?_⟩
        rintro rfl
        exact hNe (OrderedMap.value_eq hEntry hOwn)
  · intro b hb hNone
    rcases List.mem_or_eq_of_mem_set hb with hOld | rfl
    · exact h.pending b hOld hNone
    · rw [hOutcome] at hNone
      cases hNone
  · intro b hb value hToken
    rcases List.mem_or_eq_of_mem_set hb with hOld | rfl
    · exact hSeen.outcomes b hOld value hToken
    · exact hSeen.outcomes a hMem value hToken
  · intro waiter hWaiter
    exact (exists_set (e := { a with closed := true }) (p := fun b => b.request = waiter.request) hAttempt Iff.rfl).mpr (h.waiters waiter hWaiter)

theorem World.Kept.resume (h : w.Kept digest) : (w.resume i).Kept digest := by
  unfold World.resume
  split
  · exact h
  rename_i waiter hWaiter
  split
  · exact h
  rename_i outcome hOutcome
  obtain ⟨a, hAttempt, hRequest⟩ := h.waiters waiter (List.mem_of_getElem? hWaiter)
  rw [World.outcomeOf_eq hAttempt] at hOutcome
  have hSeen := h.see (.answered waiter.request outcome) (by
    intro value hToken
    rw [← hRequest]
    exact h.outcomes a (List.mem_of_getElem? hAttempt) value (by rw [hOutcome, hToken]))
  exact { hSeen with waiters := fun waiter hMem => h.waiters waiter (List.mem_of_mem_eraseIdx hMem) }

theorem World.Kept.evict {token : Text} (hDigest : Function.Injective digest) (hHex : ∀ t, ':' ∉ digest t) (h : w.Kept digest)
    (hClean : NUL ∉ request.clientId) : (w.evictUberDirectToken digest request token).Kept digest := by
  unfold World.evictUberDirectToken
  split
  · exact h
  rename_i cached hGet
  split
  · obtain ⟨owner, expiry, hFetched, hKey, -, hOwner⟩ := h.tokens _ (OrderedMap.get?_eq_some.mp hGet)
    have hSame := tokenCacheKey_inj hDigest hHex hClean hOwner hKey
    exact (h.see (.evicted request cached) ⟨expiry, by rw [hSame]; exact hFetched⟩).drop _
  · exact h

theorem World.Kept.step {event : Event} (hDigest : Function.Injective digest) (hHex : ∀ t, ':' ∉ digest t) (h : w.Kept digest)
    (hMeets : Meets digest w event) : (w.step digest event).Kept digest := by
  cases event with
  | call request now => exact h.call hDigest hHex hMeets.1 hMeets.2
  | settle attempt answer now now' => exact h.settle hMeets
  | finish attempt => exact h.finish
  | resume i => exact h.resume
  | evict request token => exact h.evict hDigest hHex hMeets

theorem Reached.kept (hDigest : Function.Injective digest) (hHex : ∀ t, ':' ∉ digest t) (h : Reached digest (Meets digest) w) : w.Kept digest := by
  induction h with
  | start => exact .start
  | step w event hReached hMeets ih => exact ih.step hDigest hHex hMeets

theorem evicts_only {token : Text} {entry : Text × CachedToken} (hMem : entry ∈ w.tokens.entries)
    (hGone : entry ∉ (w.evictUberDirectToken digest request token).tokens.entries) :
    entry.1 = tokenCacheKey digest request ∧ entry.2.value = token := by
  unfold World.evictUberDirectToken at hGone
  split at hGone
  · exact absurd hMem hGone
  rename_i cached hGet
  split at hGone
  · rename_i hToken
    rw [OrderedMap.mem_delete, not_and, ne_eq, not_not] at hGone
    have hKey := hGone hMem
    have hEntry : (tokenCacheKey digest request, entry.2) ∈ w.tokens.entries := by
      rw [← hKey]
      exact hMem
    rw [OrderedMap.value_eq hEntry (OrderedMap.get?_eq_some.mp hGet)]
    exact ⟨hKey, hToken⟩
  · exact absurd hMem hGone

theorem World.Kept.right (h : w.Kept digest) : w.Right digest := by
  constructor
  · rintro request value (⟨cached, now, hMem, rfl⟩ | hMem)
    · obtain ⟨-, expiry, hFetched, -⟩ := h.usable request cached now hMem
      exact ⟨h.full _ _ _ hFetched, _, hFetched⟩
    · obtain ⟨expiry, hFetched⟩ := h.answers request value hMem
      exact ⟨h.full _ _ _ hFetched, _, hFetched⟩
  · exact h.usable
  · intro i j a b ha hb haNone hbNone hRequest
    have hi := (h.flights (tokenCacheKey digest a.request) i).mpr ⟨a, ha, h.pending a (List.mem_of_getElem? ha) haNone, rfl⟩
    have hj := (h.flights (tokenCacheKey digest a.request) j).mpr ⟨b, hb, h.pending b (List.mem_of_getElem? hb) hbNone, by rw [hRequest]⟩
    exact OrderedMap.value_eq hi hj
  · exact h.fresh
  · exact h.bounded
  · exact h.evicts
  · exact fun request token entry hMem hGone => evicts_only hMem hGone

end Kept

/-- A run whose events meet the condition keeps the law, in any order of calls, answers and evictions. -/
theorem token_cache_right (digest : Text → Text) (hDigest : Function.Injective digest) (hHex : ∀ t, ':' ∉ digest t) (w : World)
    (hReached : Reached digest (Meets digest) w) : w.Right digest := (hReached.kept hDigest hHex).right

namespace ClientA

def request : Request := ⟨"account:aaa".toList, "client-a".toList, "secret-a".toList⟩

def hashed : Text := "client-a".toList ++ NUL :: "secret-a".toList

def spelled : Text → Text
  | [] => []
  | c :: t => (if c = ':' then ['z', 'z'] else ['y', c]) ++ spelled t

/-- The SHA-256 of `hashed`. -/
def hex : Text := [
  '0', '3', '7', '4', '1', '6', '5', '3', '6', '3', '3', '1', '7', '7', '6', 'c', '3', '5', '5', '4', '7', '3', '0', '3', 'c', '4', '3', '9', '2', 'b', 'b', 'b',
  '1', 'c', '7', '1', '4', 'c', 'f', 'd', 'f', 'c', '1', '2', '8', '2', 'b', '3', 'c', '3', '6', '7', '5', 'd', '4', 'b', '3', '0', '1', '8', '1', '5', '1', '7']

def digest (t : Text) : Text := if t = hashed then hex else spelled t

theorem spelled_cons {c : Char} {t : Text} : spelled (c :: t) = (if c = ':' then ['z', 'z'] else ['y', c]) ++ spelled t := rfl

theorem spelled_cons_ne {c : Char} {t : Text} : spelled (c :: t) ≠ [] := by
  rw [spelled_cons]
  split
  · exact List.cons_ne_nil _ _
  · exact List.cons_ne_nil _ _

theorem spelled_inj {t s : Text} (h : spelled t = spelled s) : t = s := by
  induction t generalizing s with
  | nil =>
    cases s with
    | nil => rfl
    | cons d s => exact absurd h.symm spelled_cons_ne
  | cons c t ih =>
    cases s with
    | nil => exact absurd h spelled_cons_ne
    | cons d s =>
      rw [spelled_cons, spelled_cons] at h
      split at h
      · rename_i hc
        split at h
        · rename_i hd
          rw [hc, hd, ih (List.append_cancel_left h)]
        · exact absurd (List.head_eq_of_cons_eq h) (by decide)
      · split at h
        · exact absurd (List.head_eq_of_cons_eq h) (by decide)
        · have hTail := List.tail_eq_of_cons_eq h
          rw [List.head_eq_of_cons_eq hTail, ih (List.tail_eq_of_cons_eq hTail)]

theorem spelled_head {t : Text} : ∀ c, (spelled t).head? = some c → c = 'y' ∨ c = 'z' := by
  intro c hHead
  cases t with
  | nil => cases hHead
  | cons d t =>
    rw [spelled_cons] at hHead
    split at hHead
    · cases hHead
      exact .inr rfl
    · cases hHead
      exact .inl rfl

theorem digest_inj : Function.Injective digest := by
  have hApart : ∀ t, hex ≠ spelled t := by
    intro t hEq
    exact absurd (spelled_head '0' (congrArg List.head? hEq.symm)) (by decide)
  intro t s h
  unfold digest at h
  split at h
  · rename_i ht
    split at h
    · rename_i hs
      rw [ht, hs]
    · exact absurd h (hApart s)
  · split at h
    · exact absurd h.symm (hApart t)
    · exact spelled_inj h

theorem colon_not_mem_spelled {t : Text} : ':' ∉ spelled t := by
  induction t with
  | nil => exact List.not_mem_nil
  | cons c t ih =>
    rw [spelled_cons, List.mem_append, not_or]
    refine ⟨?_, ih⟩
    split
    · decide
    · rename_i hc
      rw [List.mem_cons, List.mem_singleton, not_or]
      exact ⟨by decide, fun h => hc h.symm⟩

theorem colon_not_mem_digest (t : Text) : ':' ∉ digest t := by
  unfold digest
  split
  · decide
  · exact colon_not_mem_spelled

def month : FetchedToken := ⟨"tok-1".toList, some 2592000⟩

def events : List Event := [.call request 0, .settle 0 (some month) 100 100, .finish 0, .call request 1000]

theorem reached : Reached digest (Meets digest) (events.foldl (World.step digest) {}) := by
  have hCall : ∀ w : World, w.inFlight.get? (tokenCacheKey digest request) = none → ∀ now, Meets digest w (.call request now) := by
    intro w hNone now
    refine ⟨by decide, fun attempt hSome => ?_⟩
    rw [hNone] at hSome
    cases hSome
  have hFirst : Reached digest (Meets digest) (World.step digest {} (.call request 0)) := .step _ _ .start (hCall {} rfl 0)
  have hSettled := Reached.step _ (.settle 0 (some month) 100 100) hFirst (by
    intro fetched seconds hFetched hSeconds
    cases hFetched
    cases hSeconds
    exact .inr (by norm_num))
  have hFinished := Reached.step _ (.finish 0) hSettled True.intro
  exact Reached.step _ _ hFinished (hCall _ rfl 1000)

end ClientA

theorem client_a_right : (ClientA.events.foldl (World.step ClientA.digest) {}).Right ClientA.digest :=
  token_cache_right ClientA.digest ClientA.digest_inj ClientA.colon_not_mem_digest _ ClientA.reached

/-- A call that comes between the failure and the first call's `finally` is answered the failure. -/
theorem failure_joined : ¬ ∀ digest : Text → Text, Function.Injective digest → (∀ t, ':' ∉ digest t) →
    ∀ w, Reached digest (fun _ _ => True) w → w.Right digest := by
  intro h
  have hReached : Reached ClientA.digest (fun _ _ => True)
      ([.call ClientA.request 0, .settle 0 none 100 100, .call ClientA.request 100].foldl (World.step ClientA.digest) {}) :=
    .step _ (.call ClientA.request 100) (.step _ (.settle 0 none 100 100) (.step _ (.call ClientA.request 0) .start True.intro) True.intro) True.intro
  have hRight := h ClientA.digest ClientA.digest_inj ClientA.colon_not_mem_digest _ hReached
  exact hRight.fresh ClientA.request List.mem_concat_self

end RestaurantOs.TokenCache
