import RestaurantOs.Analytics.Days
import RestaurantOs.Data.Tables
import RestaurantOs.Payments.Rules

/-!
# The overview of a business

The orders of each location are counted between the starts of two of its days.
These are the days of the dates that were asked for when the location's clocks
are not behind UTC.
-/

namespace RestaurantOs.Analytics

export Payments (Id ApiError OrderStatus roundCurrency WholeCents)

open Tables

def MAX_RANGE_DAYS : Int := 92

def DEFAULT_RANGE_DAYS : Int := 7

/-- A date of the query: it may not look like one, or be none. -/
inductive DateParam
  | malformed
  | notADate
  | date (day : Date)
  deriving DecidableEq

def DateParam.instant : DateParam → Option Instant
  | date day => some (midnight day)
  | _ => none

/-- `Math.ceil((to - from) / day) + 1` -/
def rangeDays (fromDate toDate : Instant) : Int := (toDate - fromDate + (MS_PER_DAY - 1)) / MS_PER_DAY + 1

def parseDateRange (now : Instant) (fromParam toParam : Option DateParam) : Except ApiError (Instant × Instant) :=
  let toDate := (toParam.map DateParam.instant).getD (some now)
  let fromDate := (fromParam.map DateParam.instant).getD (toDate.map (· - (DEFAULT_RANGE_DAYS - 1) * MS_PER_DAY))
  if fromParam = some .malformed then .error (.badRequest "`from` must be in YYYY-MM-DD format")
  else if toParam = some .malformed then .error (.badRequest "`to` must be in YYYY-MM-DD format")
  else
    match fromDate, toDate with
    | some fromDate, some toDate =>
      if toDate < fromDate then .error (.badRequest "`to` must not be before `from`")
      else if MAX_RANGE_DAYS < rangeDays fromDate toDate then
        .error (.badRequest s!"Date range cannot exceed {MAX_RANGE_DAYS} days")
      else .ok (fromDate, toDate)
    | _, _ => .error (.badRequest "Invalid date range")

structure Restaurant where
  id : Id
  businessId : Id
  name : String := ""
  currency : Option String := none
  timezone : Option Timezone := none

structure BusinessLocation where
  id : Id
  name : String
  currency : String
  timezone : Timezone

structure Order where
  restaurantId : Id
  createdAt : Instant
  status : OrderStatus := .completed
  /-- `paymentStatus === "paid"` -/
  paid : Bool := true
  isDemo : Bool := false
  total : ℚ
  deriving DecidableEq

def Restaurant.location (restaurant : Restaurant) : BusinessLocation :=
  { id := restaurant.id
    name := restaurant.name
    currency := restaurant.currency.getD "USD"
    timezone := restaurant.timezone.getD .UTC }

def resolveBusinessLocations (restaurants : List Restaurant) (businessId : Id) (locationIdsFilter : List Id) : List BusinessLocation :=
  let all := (restaurants.filter fun r => r.businessId = businessId).map Restaurant.location
  if locationIdsFilter.isEmpty then all else all.filter fun location => location.id ∈ locationIdsFilter

/-! ## One location -/

structure RangeAnalytics where
  orders : Nat
  revenue : ℚ
  paidOrderCount : Nat
  averageOrderValue : ℚ
  completedOrders : Nat
  cancelledOrders : Nat
  deriving DecidableEq

def Order.earns (order : Order) : Bool := order.paid && order.status ≠ .cancelled

def averageOrderValue (revenue : ℚ) (paidOrderCount : Nat) : ℚ :=
  if 0 < paidOrderCount then roundCurrency (revenue / paidOrderCount) else 0

def rangeAnalytics (matching : List Order) : RangeAnalytics :=
  let revenueTotal := total Order.total (matching.filter Order.earns)
  let paidOrderCount := (matching.filter Order.earns).length
  { orders := matching.length
    revenue := roundCurrency revenueTotal
    paidOrderCount
    averageOrderValue := averageOrderValue revenueTotal paidOrderCount
    completedOrders := (matching.filter (·.status = .completed)).length
    cancelledOrders := (matching.filter (·.status = .cancelled)).length }

def inRange (restaurantId : Id) (fromDate toDate : Instant) (timezone : Timezone) (order : Order) : Bool :=
  let rangeStart := timezoneAwareDayStart fromDate timezone
  let rangeEndExclusive := timezoneAwareDayStart (toDate + MS_PER_DAY) timezone
  order.restaurantId = restaurantId && (rangeStart ≤ order.createdAt && order.createdAt < rangeEndExclusive) && !order.isDemo

def getRestaurantAnalyticsForRange (orders : List Order) (restaurantId : Id) (fromDate toDate : Instant) (timezone : Timezone) :
    RangeAnalytics :=
  rangeAnalytics (orders.filter (inRange restaurantId fromDate toDate timezone))

/-! ## All locations -/

structure CurrencyAmount where
  currency : String
  amount : ℚ
  deriving DecidableEq

/-- `totals.set(e.currency, (totals.get(e.currency) ?? 0) + e.amount)` -/
def addAmount : List CurrencyAmount → CurrencyAmount → List CurrencyAmount
  | [], e => [e]
  | t :: totals, e => if t.currency = e.currency then { t with amount := t.amount + e.amount } :: totals else t :: addAmount totals e

def CurrencyAmount.rounded (e : CurrencyAmount) : CurrencyAmount := { e with amount := roundCurrency e.amount }

def sumAmountsByCurrency (entries : List CurrencyAmount) : List CurrencyAmount :=
  (entries.foldl addAmount []).map CurrencyAmount.rounded

structure LocationOverview where
  locationId : Id
  name : String
  currency : String
  orders : Nat
  revenue : ℚ
  averageOrderValue : ℚ
  deriving DecidableEq

structure BusinessAnalyticsOverview where
  fromDate : Date
  toDate : Date
  totalOrders : Nat
  revenueByCurrency : List CurrencyAmount
  averageOrderValueByCurrency : List CurrencyAmount
  byLocation : List LocationOverview
  deriving DecidableEq

def toIsoDate (t : Instant) : Date := t / MS_PER_DAY

def overviewOf (fromDate toDate : Instant) (perLocation : List (BusinessLocation × RangeAnalytics)) : BusinessAnalyticsOverview :=
  let revenueByCurrency := sumAmountsByCurrency (perLocation.map fun (loc, range) => ⟨loc.currency, range.revenue⟩)
  let paidOrders (currency : String) : Nat :=
    ((perLocation.filter fun (loc, _) => loc.currency = currency).map fun (_, range) => range.paidOrderCount).sum
  { fromDate := toIsoDate fromDate
    toDate := toIsoDate toDate
    totalOrders := (perLocation.map fun (_, range) => range.orders).sum
    revenueByCurrency
    averageOrderValueByCurrency := revenueByCurrency.map fun e => { e with amount := averageOrderValue e.amount (paidOrders e.currency) }
    byLocation := perLocation.map fun (loc, range) =>
      { locationId := loc.id
        name := loc.name
        currency := loc.currency
        orders := range.orders
        revenue := range.revenue
        averageOrderValue := range.averageOrderValue } }

def getBusinessAnalyticsOverview (restaurants : List Restaurant) (orders : List Order) (businessId : Id) (fromDate toDate : Instant)
    (locationIdsFilter : List Id) : BusinessAnalyticsOverview :=
  overviewOf fromDate toDate ((resolveBusinessLocations restaurants businessId locationIdsFilter).map fun loc =>
    (loc, getRestaurantAnalyticsForRange orders loc.id fromDate toDate loc.timezone))

/-! ## The dates that were asked for -/

/-- The order is of the location, and was placed on a date from `first` to
`last` there. -/
def onDates (first last : Date) (location : BusinessLocation) (order : Order) : Bool :=
  order.restaurantId = location.id && !order.isDemo &&
    (first ≤ location.timezone.date order.createdAt && location.timezone.date order.createdAt ≤ last)

def overviewOnDates (restaurants : List Restaurant) (orders : List Order) (businessId : Id) (first last : Date)
    (locationIdsFilter : List Id) : BusinessAnalyticsOverview :=
  overviewOf (midnight first) (midnight last) ((resolveBusinessLocations restaurants businessId locationIdsFilter).map fun loc =>
    (loc, rangeAnalytics (orders.filter (onDates first last loc))))

/-- The clocks are not behind UTC when the first date and the day after the last
one start there. -/
def Timezone.startsBy (zone : Timezone) (first last : Date) : Prop :=
  0 ≤ zone.offset (midnight first) ∧ 0 ≤ zone.offset (midnight (last + 1))

section Ranges

variable {zone : Timezone} {now t : Instant} {first last day : Date} {fromDate toDate : Instant}

theorem midnight_succ (day : Date) : midnight day + MS_PER_DAY = midnight (day + 1) := (add_one_mul day MS_PER_DAY).symm

theorem midnight_le_iff {first last : Date} : midnight first ≤ midnight last ↔ first ≤ last :=
  mul_le_mul_iff_left₀ (by decide : 0 < MS_PER_DAY)

theorem parseDateRange_dates (h : parseDateRange now (some (.date first)) (some (.date last)) = .ok (fromDate, toDate)) :
    fromDate = midnight first ∧ toDate = midnight last ∧ first ≤ last ∧ rangeDays fromDate toDate ≤ MAX_RANGE_DAYS := by
  unfold parseDateRange at h
  simp only [Option.map_some, Option.getD_some, DateParam.instant] at h
  split at h
  · cases h
  · split at h
    · cases h
    · split at h
      · cases h
      · rename_i hOrder
        split at h
        · cases h
        · rename_i hDays
          cases h
          exact ⟨rfl, rfl, (midnight_le_iff).mp (not_lt.mp hOrder), not_lt.mp hDays⟩

theorem inRange_iff_dates : (timezoneAwareDayStart fromDate zone ≤ t ∧ t < timezoneAwareDayStart (toDate + MS_PER_DAY) zone) ↔
    zone.date fromDate ≤ zone.date t ∧ zone.date t < zone.date (toDate + MS_PER_DAY) := by
  rw [timezoneAwareDayStart, timezoneAwareDayStart, Timezone.le_date_iff, Timezone.date_lt_iff]

theorem onDates_of_startsBy (h : zone.startsBy first last) :
    (timezoneAwareDayStart (midnight first) zone ≤ t ∧ t < timezoneAwareDayStart (midnight last + MS_PER_DAY) zone) ↔
      first ≤ zone.date t ∧ zone.date t ≤ last := by
  rw [inRange_iff_dates, midnight_succ, Timezone.date_midnight h.1, Timezone.date_midnight h.2, Int.lt_add_one_iff]

theorem exists_misplaced (hOrder : first ≤ last) (h : ¬ zone.startsBy first last) :
    ∃ t, ¬ ((timezoneAwareDayStart (midnight first) zone ≤ t ∧ t < timezoneAwareDayStart (midnight last + MS_PER_DAY) zone) ↔
      first ≤ zone.date t ∧ zone.date t ≤ last) := by
  by_cases hFirst : 0 ≤ zone.offset (midnight first)
  · -- the last date is cut off at the start of its own day
    have hLast : zone.offset (midnight (last + 1)) < 0 := not_le.mp fun hNot => h ⟨hFirst, hNot⟩
    refine ⟨midnight (last + 1), ?_⟩
    rw [inRange_iff_dates, midnight_succ, Timezone.date_midnight hFirst, Timezone.date_midnight_behind hLast, add_sub_cancel_right]
    exact fun hIff => lt_irrefl last (hIff.mpr ⟨hOrder, le_refl last⟩).2
  · -- the range starts on the date before
    refine ⟨midnight first, ?_⟩
    have hBehind := Timezone.date_midnight_behind (not_le.mp hFirst)
    have hEarlier : first - 1 < first := sub_one_lt first
    have hBefore : zone.date (midnight first) < zone.date (midnight (last + 1)) := by
      rw [hBehind]
      rcases lt_or_ge (zone.offset (midnight (last + 1))) 0 with hLast | hLast
      · rw [Timezone.date_midnight_behind hLast, add_sub_cancel_right]
        exact hEarlier.trans_le hOrder
      · rw [Timezone.date_midnight hLast]
        exact (hEarlier.trans_le hOrder).trans (lt_add_one last)
    rw [inRange_iff_dates, midnight_succ]
    intro hIff
    have hOn := (hIff.mp ⟨le_refl _, hBefore⟩).1
    rw [hBehind] at hOn
    exact absurd hOn (not_le.mpr hEarlier)

end Ranges

theorem onDates_eq_inRange {location : BusinessLocation} {first last : Date} (h : location.timezone.startsBy first last) (order : Order) :
    inRange location.id (midnight first) (midnight last) location.timezone order = onDates first last location order := by
  have hIff := onDates_of_startsBy (t := order.createdAt) h
  rw [Bool.eq_iff_iff]
  simp only [inRange, onDates, Bool.and_eq_true, decide_eq_true_eq]
  rw [hIff]
  exact and_right_comm

theorem misplaced_counted {location : BusinessLocation} {locations : List BusinessLocation} {first last : Date} {order : Order}
    (hMem : location ∈ locations)
    (h : overviewOf (midnight first) (midnight last) (locations.map fun loc =>
        (loc, getRestaurantAnalyticsForRange [order] loc.id (midnight first) (midnight last) loc.timezone)) =
      overviewOf (midnight first) (midnight last) (locations.map fun loc => (loc, rangeAnalytics ([order].filter (onDates first last loc))))) :
    inRange location.id (midnight first) (midnight last) location.timezone order = onDates first last location order := by
  have hLocations := congrArg BusinessAnalyticsOverview.byLocation h
  simp only [overviewOf, List.map_map] at hLocations
  have hOrders := congrArg LocationOverview.orders (List.map_inj_left.mp hLocations location hMem)
  simp only [Function.comp_apply, getRestaurantAnalyticsForRange, rangeAnalytics, List.filter_cons, List.filter_nil] at hOrders
  cases hCounted : inRange location.id (midnight first) (midnight last) location.timezone order <;>
    cases hWanted : onDates first last location order <;> simp [hCounted, hWanted] at hOrders ⊢

/-- The overview counts exactly the dates that were asked for, whatever the
orders are, if and only if no location's clocks are behind UTC as the range
starts and ends. -/
theorem overview_counts_dates {restaurants : List Restaurant} {businessId : Id} {locationIdsFilter : List Id} {now : Instant}
    {first last : Date} {fromDate toDate : Instant}
    (h : parseDateRange now (some (.date first)) (some (.date last)) = .ok (fromDate, toDate)) :
    (∀ orders, getBusinessAnalyticsOverview restaurants orders businessId fromDate toDate locationIdsFilter =
      overviewOnDates restaurants orders businessId first last locationIdsFilter) ↔
    ∀ location ∈ resolveBusinessLocations restaurants businessId locationIdsFilter, location.timezone.startsBy first last := by
  obtain ⟨rfl, rfl, hOrder, -⟩ := parseDateRange_dates h
  constructor
  · intro hCounts location hMem
    by_contra hBehind
    obtain ⟨t, hMisplaced⟩ := exists_misplaced hOrder hBehind
    let order : Order := { restaurantId := location.id, createdAt := t, total := 0 }
    have hAgree := misplaced_counted hMem (hCounts [order])
    refine hMisplaced ?_
    rw [Bool.eq_iff_iff] at hAgree
    simpa [inRange, onDates, order] using hAgree
  · intro hStarts orders
    unfold getBusinessAnalyticsOverview overviewOnDates
    refine congrArg _ (List.map_congr_left fun location hMem => ?_)
    rw [getRestaurantAnalyticsForRange, List.filter_congr fun order _ => onDates_eq_inRange (hStarts location hMem) order]

def eastern : List Restaurant :=
  [{ id := 1, businessId := 1, timezone := some (.fixed 60 (by decide)) }, { id := 2, businessId := 1, timezone := some (.fixed 300 (by decide)) }]

theorem eastern_counts_dates :
    parseDateRange 0 (some (.date 20000)) (some (.date 20006)) = .ok (midnight 20000, midnight 20006) ∧
      ∀ orders, getBusinessAnalyticsOverview eastern orders 1 (midnight 20000) (midnight 20006) [] =
        overviewOnDates eastern orders 1 20000 20006 [] := by
  have hRange : parseDateRange 0 (some (.date 20000)) (some (.date 20006)) = .ok (midnight 20000, midnight 20006) := by decide
  refine ⟨hRange, (overview_counts_dates hRange).mpr fun location hMem => ?_⟩
  have hCases : location = eastern[0].location ∨ location = eastern[1].location := by
    simpa [resolveBusinessLocations, eastern] using hMem
  rcases hCases with rfl | rfl <;> exact ⟨by decide, by decide⟩

/-- An order of the evening before in New York is counted. -/
theorem overview_counts_other_dates : ¬ ∀ (restaurants : List Restaurant) (orders : List Order) (businessId : Id)
    (locationIdsFilter : List Id) (now : Instant) (first last : Date) (fromDate toDate : Instant),
    parseDateRange now (some (.date first)) (some (.date last)) = .ok (fromDate, toDate) →
    getBusinessAnalyticsOverview restaurants orders businessId fromDate toDate locationIdsFilter =
      overviewOnDates restaurants orders businessId first last locationIdsFilter := by
  intro hClaim
  have hSame := hClaim [{ id := 1, businessId := 1, timezone := some (.fixed (-300) (by decide)) }]
    [{ restaurantId := 1, createdAt := midnight 20000, total := 10 }] 1 [] 0 20000 20000 (midnight 20000)
    (midnight 20000) (by decide)
  exact absurd (congrArg BusinessAnalyticsOverview.totalOrders hSame) (by decide)

end RestaurantOs.Analytics
