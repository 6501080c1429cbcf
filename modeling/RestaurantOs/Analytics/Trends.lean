import Mathlib.Data.List.Sort
import RestaurantOs.Analytics.Overview

/-!
# The trends of a business

The daily revenue of each location, merged by date. Its sum is the overview's
revenue when no revenue falls between the ends of the two ranges.
-/

namespace RestaurantOs.Analytics

open Tables

structure DailyAnalyticsPoint where
  date : Date
  orders : Nat
  revenue : ℚ
  deriving DecidableEq

/-- The order is of the location, from the start of its first day to the
instant `toDate`. -/
def inSeries (restaurantId : Id) (rangeStart toDate : Instant) (order : Order) : Bool :=
  order.restaurantId = restaurantId && (rangeStart ≤ order.createdAt && order.createdAt ≤ toDate) && order.status ≠ .cancelled &&
    !order.isDemo

def datesFrom (first last : Date) : List Date := (List.range (last + 1 - first).toNat).map fun (n : Nat) => first + (n : Int)

def getTimezone (restaurants : List Restaurant) (restaurantId : Id) : Timezone :=
  ((restaurants.find? (·.id = restaurantId)).bind Restaurant.timezone).getD .UTC

/-- `{ $cond: [{ $eq: ["$paymentStatus", "paid"] }, "$total", 0] }` -/
def Order.paidTotal (order : Order) : ℚ := if order.paid then order.total else 0

def dailyPoint (timezone : Timezone) (matching : List Order) (key : Date) : DailyAnalyticsPoint :=
  let row := matching.filter fun o => timezone.date o.createdAt = key
  { date := key, orders := row.length, revenue := roundCurrency (total Order.paidTotal row) }

def getDailyTimeSeries (restaurants : List Restaurant) (orders : List Order) (restaurantId : Id) (fromDate toDate : Instant) :
    Except ApiError (List DailyAnalyticsPoint) :=
  if toDate < fromDate then .error (.badRequest "`to` must not be before `from`")
  else if MAX_RANGE_DAYS < rangeDays fromDate toDate then .error (.badRequest s!"Date range cannot exceed {MAX_RANGE_DAYS} days")
  else
    let timezone := getTimezone restaurants restaurantId
    let rangeStart := timezoneAwareDayStart fromDate timezone
    let matching := orders.filter (inSeries restaurantId rangeStart toDate)
    .ok ((datesFrom (timezone.date rangeStart) (timezone.date toDate)).map (dailyPoint timezone matching))

/-! ## All locations -/

structure DailyEntry where
  currency : String
  orders : Nat
  revenue : ℚ
  deriving DecidableEq

structure BusinessDailyPoint where
  date : Date
  orders : Nat
  revenueByCurrency : List CurrencyAmount
  deriving DecidableEq

structure BusinessAnalyticsTrends where
  fromDate : Date
  toDate : Date
  points : List BusinessDailyPoint
  deriving DecidableEq

/-- `byDate.get(point.date) ?? []`, and the push. -/
def pushByDate : List (Date × List DailyEntry) → Date × DailyEntry → List (Date × List DailyEntry)
  | [], (date, e) => [(date, [e])]
  | (date', es) :: byDate, (date, e) =>
    if date' = date then (date', es ++ [e]) :: byDate else (date', es) :: pushByDate byDate (date, e)

def DailyAnalyticsPoint.entry (point : DailyAnalyticsPoint) (currency : String) : Date × DailyEntry :=
  (point.date, ⟨currency, point.orders, point.revenue⟩)

def businessPoint (group : Date × List DailyEntry) : BusinessDailyPoint :=
  { date := group.1
    orders := (group.2.map DailyEntry.orders).sum
    revenueByCurrency := sumAmountsByCurrency (group.2.map fun e => ⟨e.currency, e.revenue⟩) }

def pointsOf (perLocation : List (BusinessLocation × List DailyAnalyticsPoint)) : List BusinessDailyPoint :=
  let byDate := (perLocation.flatMap fun (loc, series) => series.map (·.entry loc.currency)).foldl pushByDate []
  (byDate.insertionSort (fun a b => a.1 ≤ b.1)).map businessPoint

def getBusinessAnalyticsTrends (restaurants : List Restaurant) (orders : List Order) (businessId : Id) (fromDate toDate : Instant)
    (locationIdsFilter : List Id) : Except ApiError BusinessAnalyticsTrends := do
  let perLocation ← (resolveBusinessLocations restaurants businessId locationIdsFilter).mapM fun loc => do
    let series ← getDailyTimeSeries restaurants orders loc.id fromDate toDate
    pure (loc, series)
  pure { fromDate := toIsoDate fromDate, toDate := toIsoDate toDate, points := pointsOf perLocation }

/-! ## Amounts by currency -/

def amountOf (currency : String) (amounts : List CurrencyAmount) : ℚ := total (fun e => if e.currency = currency then e.amount else 0) amounts

section Amounts

variable {currency : String} {amounts totals entries : List CurrencyAmount} {e : CurrencyAmount}

theorem amountOf_cons : amountOf currency (e :: amounts) = (if e.currency = currency then e.amount else 0) + amountOf currency amounts :=
  total_cons e

theorem amountOf_addAmount : amountOf currency (addAmount totals e) = amountOf currency totals + if e.currency = currency then e.amount else 0 := by
  induction totals with
  | nil => rw [addAmount, amountOf_cons, add_comm]
  | cons t totals ih =>
    rw [addAmount]
    split
    · rename_i hSame
      rw [amountOf_cons, amountOf_cons, hSame]
      split
      · rw [add_right_comm]
      · rw [add_zero]
    · rw [amountOf_cons, amountOf_cons, ih, add_assoc]

theorem amountOf_foldl : amountOf currency (entries.foldl addAmount totals) = amountOf currency totals + amountOf currency entries := by
  induction entries generalizing totals with
  | nil => exact (add_zero _).symm
  | cons e entries ih => rw [List.foldl_cons, ih, amountOf_addAmount, amountOf_cons, add_assoc]

theorem wholeCents_addAmount (hTotals : ∀ t ∈ totals, WholeCents t.amount) (he : WholeCents e.amount) :
    ∀ t ∈ addAmount totals e, WholeCents t.amount := by
  induction totals with
  | nil =>
    intro t ht
    cases List.mem_singleton.mp ht
    exact he
  | cons first totals ih =>
    have hFirst := hTotals first List.mem_cons_self
    have hRest := fun t ht => hTotals t (List.mem_cons_of_mem first ht)
    intro t ht
    rw [addAmount] at ht
    split at ht
    · rcases List.mem_cons.mp ht with rfl | ht
      · exact hFirst.add he
      · exact hRest t ht
    · rcases List.mem_cons.mp ht with rfl | ht
      · exact hFirst
      · exact ih hRest t ht

theorem wholeCents_foldl (hTotals : ∀ t ∈ totals, WholeCents t.amount) (hEntries : ∀ e ∈ entries, WholeCents e.amount) :
    ∀ t ∈ entries.foldl addAmount totals, WholeCents t.amount := by
  induction entries generalizing totals with
  | nil => exact hTotals
  | cons e entries ih =>
    exact ih (wholeCents_addAmount hTotals (hEntries e List.mem_cons_self)) fun e' he' => hEntries e' (List.mem_cons_of_mem e he')

theorem amountOf_sumAmountsByCurrency (h : ∀ e ∈ entries, WholeCents e.amount) :
    amountOf currency (sumAmountsByCurrency entries) = amountOf currency entries := by
  have hWhole : ∀ t ∈ entries.foldl addAmount [], WholeCents t.amount := wholeCents_foldl (fun _ ht => nomatch ht) h
  have hRounded : amountOf currency ((entries.foldl addAmount []).map CurrencyAmount.rounded) = amountOf currency (entries.foldl addAmount []) := by
    rw [amountOf, total_map]
    refine total_congr fun t ht => ?_
    simp only [Function.comp_apply, CurrencyAmount.rounded, Payments.roundCurrency_of_wholeCents (hWhole t ht)]
  rw [sumAmountsByCurrency, hRounded, amountOf_foldl]
  exact zero_add _

theorem wholeCents_total {α : Type} {w : α → ℚ} {l : List α} (h : ∀ d ∈ l, WholeCents (w d)) : WholeCents (total w l) := by
  induction l with
  | nil => exact Payments.WholeCents.zero
  | cons d l ih =>
    rw [total_cons]
    exact (h d List.mem_cons_self).add (ih fun e he => h e (List.mem_cons_of_mem d he))

end Amounts

/-! ## Points by date -/

section Groups

variable {byDate : List (Date × List DailyEntry)} {pushed : List (Date × DailyEntry)} {e : Date × DailyEntry} {w : DailyEntry → ℚ}

theorem total_pushByDate : total (fun group => total w group.2) (pushByDate byDate e) = total (fun group => total w group.2) byDate + w e.2 := by
  induction byDate with
  | nil =>
    rw [pushByDate, total_cons, total_nil, total_cons, total_nil, add_zero, add_zero, zero_add]
  | cons group byDate ih =>
    rw [pushByDate]
    split
    · rw [total_cons, total_cons, total_append, total_cons, total_nil, add_zero, add_right_comm]
    · rw [total_cons, total_cons, ih, add_assoc]

theorem total_pushes : total (fun group => total w group.2) (pushed.foldl pushByDate byDate) =
    total (fun group => total w group.2) byDate + total (fun e => w e.2) pushed := by
  induction pushed generalizing byDate with
  | nil => exact (add_zero _).symm
  | cons e pushed ih => rw [List.foldl_cons, ih, total_pushByDate, total_cons, add_assoc]

theorem mem_pushByDate {group : Date × List DailyEntry} (h : group ∈ pushByDate byDate e) : ∀ e' ∈ group.2, e' = e.2 ∨ ∃ old ∈ byDate, e' ∈ old.2 := by
  induction byDate with
  | nil =>
    cases List.mem_singleton.mp h
    exact fun e' he' => .inl (List.mem_singleton.mp he')
  | cons first byDate ih =>
    rw [pushByDate] at h
    intro e' he'
    split at h
    · rcases List.mem_cons.mp h with rfl | h
      · rcases List.mem_append.mp he' with he' | he'
        · exact .inr ⟨first, List.mem_cons_self, he'⟩
        · exact .inl (List.mem_singleton.mp he')
      · exact .inr ⟨group, List.mem_cons_of_mem _ h, he'⟩
    · rcases List.mem_cons.mp h with rfl | h
      · exact .inr ⟨first, List.mem_cons_self, he'⟩
      · rcases ih h e' he' with hNew | ⟨old, hOld, hMem⟩
        · exact .inl hNew
        · exact .inr ⟨old, List.mem_cons_of_mem _ hOld, hMem⟩

theorem mem_pushes {group : Date × List DailyEntry} (h : group ∈ pushed.foldl pushByDate byDate) :
    ∀ e' ∈ group.2, (∃ e ∈ pushed, e' = e.2) ∨ ∃ old ∈ byDate, e' ∈ old.2 := by
  induction pushed generalizing byDate with
  | nil => exact fun e' he' => .inr ⟨group, h, he'⟩
  | cons e pushed ih =>
    intro e' he'
    rcases ih h e' he' with ⟨e'', hMem, hEq⟩ | ⟨old, hOld, hMem⟩
    · exact .inl ⟨e'', List.mem_cons_of_mem _ hMem, hEq⟩
    · rcases mem_pushByDate hOld e' hMem with hNew | hBefore
      · exact .inl ⟨e, List.mem_cons_self, hNew⟩
      · exact .inr hBefore

theorem dates_pushByDate (day : Date) : day ∈ (pushByDate byDate e).map Prod.fst ↔ day ∈ byDate.map Prod.fst ∨ day = e.1 := by
  induction byDate with
  | nil => simp [pushByDate]
  | cons group byDate ih =>
    rw [pushByDate]
    split
    · rename_i hSame
      simp only [List.map_cons, List.mem_cons]
      constructor
      · exact .inl
      · rintro (h | rfl)
        · exact h
        · exact .inl hSame.symm
    · simp only [List.map_cons, List.mem_cons, ih, or_assoc]

theorem dates_pushes (day : Date) : day ∈ (pushed.foldl pushByDate byDate).map Prod.fst ↔ day ∈ byDate.map Prod.fst ∨ day ∈ pushed.map Prod.fst := by
  induction pushed generalizing byDate with
  | nil => simp
  | cons e pushed ih => rw [List.foldl_cons, ih, dates_pushByDate, List.map_cons, List.mem_cons, or_assoc]

end Groups

/-! ## The series of a location -/

theorem mem_datesFrom {first last day : Date} : day ∈ datesFrom first last ↔ first ≤ day ∧ day ≤ last := by
  unfold datesFrom
  rw [List.mem_map]
  constructor
  · rintro ⟨n, hn, rfl⟩
    rw [List.mem_range, Int.lt_toNat] at hn
    exact ⟨Int.le_add_of_nonneg_right n.cast_nonneg, Int.lt_add_one_iff.mp (lt_sub_iff_add_lt'.mp hn)⟩
  · rintro ⟨hFirst, hLast⟩
    refine ⟨(day - first).toNat, ?_, ?_⟩
    · rw [List.mem_range, Int.toNat_lt_toNat (sub_pos.mpr (Int.lt_add_one_iff.mpr (hFirst.trans hLast)))]
      exact sub_lt_sub_right (Int.lt_add_one_iff.mpr hLast) first
    · rw [Int.toNat_of_nonneg (sub_nonneg.mpr hFirst), add_sub_cancel]

theorem nodup_datesFrom (first last : Date) : (datesFrom first last).Nodup := by
  refine List.nodup_range.map fun m n h => ?_
  exact Int.ofNat.inj (add_left_cancel h)

section Totals

variable {α β : Type} [DecidableEq β]

theorem total_add {f g : α → ℚ} {l : List α} : total (fun d => f d + g d) l = total f l + total g l := List.sum_map_add

theorem total_key {keys : List β} {key : β} {x : ℚ} (hNodup : keys.Nodup) (h : key ∈ keys) : total (fun k => if key = k then x else 0) keys = x := by
  induction keys with
  | nil => cases h
  | cons k keys ih =>
    rw [List.nodup_cons] at hNodup
    rw [total_cons]
    by_cases hKey : key = k
    · subst hKey
      have hRest : total (fun k => if key = k then x else 0) keys = 0 := total_zero fun k hk => if_neg (by rintro rfl; exact hNodup.1 hk)
      rw [if_pos rfl, hRest, add_zero]
    · rw [if_neg hKey, zero_add]
      exact ih hNodup.2 ((List.mem_cons.mp h).resolve_left hKey)

theorem total_groups {keys : List β} (key : α → β) {w : α → ℚ} {l : List α} (hNodup : keys.Nodup) (h : ∀ d ∈ l, key d ∈ keys) :
    total (fun k => total w (l.filter fun d => key d = k)) keys = total w l := by
  induction l with
  | nil => exact total_zero fun _ _ => rfl
  | cons d l ih =>
    have hStep : ∀ k ∈ keys, total w ((d :: l).filter fun d => key d = k) =
        (if key d = k then w d else 0) + total w (l.filter fun d => key d = k) := by
      intro k _
      rw [List.filter_cons]
      split
      · rename_i hKey
        rw [total_cons, if_pos (of_decide_eq_true hKey)]
      · rename_i hKey
        rw [if_neg (by simpa using hKey), zero_add]
    rw [total_congr hStep, total_add, total_key hNodup (h d List.mem_cons_self), ih fun e he => h e (List.mem_cons_of_mem d he), total_cons]

end Totals

def earnsAt (locationId : Id) (during : Instant → Bool) (order : Order) : Bool :=
  order.restaurantId = locationId && order.earns && !order.isDemo && during order.createdAt

def duringSeries (fromDate toDate : Instant) (zone : Timezone) (t : Instant) : Bool := timezoneAwareDayStart fromDate zone ≤ t && t ≤ toDate

def duringRange (fromDate toDate : Instant) (zone : Timezone) (t : Instant) : Bool :=
  timezoneAwareDayStart fromDate zone ≤ t && t < timezoneAwareDayStart (toDate + MS_PER_DAY) zone

def seriesOf (zone : Timezone) (orders : List Order) (restaurantId : Id) (fromDate toDate : Instant) : List DailyAnalyticsPoint :=
  (datesFrom (zone.date fromDate) (zone.date toDate)).map
    (dailyPoint zone (orders.filter (inSeries restaurantId (timezoneAwareDayStart fromDate zone) toDate)))

section Series

variable {zone : Timezone} {orders : List Order} {restaurantId : Id} {fromDate toDate t : Instant} {restaurants : List Restaurant}

theorem dayStart_le : timezoneAwareDayStart t zone ≤ t := Timezone.le_date_iff.mp (le_refl _)

theorem date_dayStart : zone.date (timezoneAwareDayStart t zone) = zone.date t :=
  le_antisymm (Timezone.date_mono dayStart_le) (Timezone.le_date_iff.mpr (le_refl _))

theorem Order.paidTotal_wholeCents {order : Order} (h : WholeCents order.total) : WholeCents order.paidTotal := by
  unfold paidTotal
  split
  · exact h
  · exact Payments.WholeCents.zero

theorem total_seriesOf (hCents : ∀ o ∈ orders, WholeCents o.total) : total DailyAnalyticsPoint.revenue (seriesOf zone orders restaurantId fromDate toDate) =
    total Order.total (orders.filter (earnsAt restaurantId (duringSeries fromDate toDate zone))) := by
  let matching := orders.filter (inSeries restaurantId (timezoneAwareDayStart fromDate zone) toDate)
  have hMatching : ∀ o ∈ matching, o ∈ orders ∧ zone.date o.createdAt ∈ datesFrom (zone.date fromDate) (zone.date toDate) := by
    intro o ho
    obtain ⟨hMem, hSel⟩ := List.mem_filter.mp ho
    simp only [inSeries, Bool.and_eq_true, decide_eq_true_eq] at hSel
    obtain ⟨⟨⟨-, hStart, hEnd⟩, -⟩, -⟩ := hSel
    exact ⟨hMem, (mem_datesFrom).mpr ⟨Timezone.le_date_iff.mpr hStart, Timezone.date_mono hEnd⟩⟩
  have hRounded : ∀ key ∈ datesFrom (zone.date fromDate) (zone.date toDate), (dailyPoint zone matching key).revenue =
      total Order.paidTotal (matching.filter fun o => zone.date o.createdAt = key) := by
    intro key _
    refine Payments.roundCurrency_of_wholeCents (wholeCents_total fun o ho => ?_)
    exact Order.paidTotal_wholeCents (hCents o (hMatching o (List.mem_filter.mp ho).1).1)
  calc total DailyAnalyticsPoint.revenue (seriesOf zone orders restaurantId fromDate toDate)
      = total (fun key => total Order.paidTotal (matching.filter fun o => zone.date o.createdAt = key))
          (datesFrom (zone.date fromDate) (zone.date toDate)) := (total_map _).trans (total_congr hRounded)
    _ = total Order.paidTotal matching := total_groups (fun o => zone.date o.createdAt) (nodup_datesFrom _ _) fun o ho => (hMatching o ho).2
    _ = total Order.total (orders.filter (earnsAt restaurantId (duringSeries fromDate toDate zone))) := by
      rw [total_filter, total_filter]
      refine total_congr fun o _ => ?_
      simp only [inSeries, earnsAt, duringSeries, Order.earns, Order.paidTotal, Bool.and_eq_true, decide_eq_true_eq]
      by_cases hPaid : o.paid = true
      · rw [if_pos hPaid]
        refine if_congr ?_ rfl rfl
        simp only [hPaid, true_and]
        constructor
        · rintro ⟨⟨⟨hId, hDuring⟩, hStatus⟩, hDemo⟩
          exact ⟨⟨⟨hId, hStatus⟩, hDemo⟩, hDuring⟩
        · rintro ⟨⟨⟨hId, hStatus⟩, hDemo⟩, hDuring⟩
          exact ⟨⟨⟨hId, hDuring⟩, hStatus⟩, hDemo⟩
      · rw [if_neg hPaid, ite_self, if_neg fun hAll => hPaid hAll.1.1.2.1]

theorem revenue_forRange (hCents : ∀ o ∈ orders, WholeCents o.total) :
    (getRestaurantAnalyticsForRange orders restaurantId fromDate toDate zone).revenue =
      total Order.total (orders.filter (earnsAt restaurantId (duringRange fromDate toDate zone))) := by
  have hWhole : WholeCents (total Order.total ((orders.filter (inRange restaurantId fromDate toDate zone)).filter Order.earns)) :=
    wholeCents_total fun o ho => hCents o (List.mem_filter.mp (List.mem_filter.mp ho).1).1
  refine (Payments.roundCurrency_of_wholeCents hWhole).trans ?_
  rw [List.filter_filter]
  refine congrArg _ (List.filter_congr fun o _ => ?_)
  rw [Bool.eq_iff_iff]
  simp only [inRange, earnsAt, duringRange, Bool.and_eq_true, decide_eq_true_eq]
  constructor
  · rintro ⟨hEarns, ⟨hId, hDuring⟩, hDemo⟩
    exact ⟨⟨⟨hId, hEarns⟩, hDemo⟩, hDuring⟩
  · rintro ⟨⟨⟨hId, hEarns⟩, hDemo⟩, hDuring⟩
    exact ⟨hEarns, ⟨hId, hDuring⟩, hDemo⟩

theorem getDailyTimeSeries_eq (hZone : getTimezone restaurants restaurantId = zone) (hOrder : fromDate ≤ toDate)
    (hDays : rangeDays fromDate toDate ≤ MAX_RANGE_DAYS) :
    getDailyTimeSeries restaurants orders restaurantId fromDate toDate = .ok (seriesOf zone orders restaurantId fromDate toDate) := by
  unfold getDailyTimeSeries
  rw [if_neg (not_lt.mpr hOrder), if_neg (not_lt.mpr hDays)]
  dsimp only
  rw [hZone, date_dayStart, seriesOf]

end Series

/-! ## The two stories -/

/-- What the locations of a currency earn at the instants that `during` selects. -/
def revenueAt (locations : List BusinessLocation) (orders : List Order) (currency : String) (during : Timezone → Instant → Bool) : ℚ :=
  total (fun loc => if loc.currency = currency then total Order.total (orders.filter (earnsAt loc.id (during loc.timezone))) else 0) locations

def afterSeries (toDate : Instant) (zone : Timezone) (t : Instant) : Bool :=
  toDate < t && t < timezoneAwareDayStart (toDate + MS_PER_DAY) zone

def afterRange (fromDate toDate : Instant) (zone : Timezone) (t : Instant) : Bool :=
  duringSeries fromDate toDate zone t && timezoneAwareDayStart (toDate + MS_PER_DAY) zone ≤ t

def BusinessAnalyticsTrends.revenue (trends : BusinessAnalyticsTrends) (currency : String) : ℚ :=
  total (fun point => amountOf currency point.revenueByCurrency) trends.points

/-- The trends add up to the overview, and stay in the range they report. -/
structure SameStory (trends : BusinessAnalyticsTrends) (overview : BusinessAnalyticsOverview) : Prop where
  revenue : ∀ currency, trends.revenue currency = amountOf currency overview.revenueByCurrency
  dates : ∀ point ∈ trends.points, trends.fromDate ≤ point.date ∧ point.date ≤ trends.toDate

section Stories

variable {locations : List BusinessLocation} {orders : List Order} {currency : String} {fromDate toDate : Instant}
  {perLocation : List (BusinessLocation × List DailyAnalyticsPoint)}

theorem revenueAt_add {a b c d : Timezone → Instant → Bool}
    (h : ∀ (zone : Timezone) (t : Instant) (x : ℚ), (if a zone t then x else 0) + (if b zone t then x else 0) =
      (if c zone t then x else 0) + (if d zone t then x else 0)) :
    revenueAt locations orders currency a + revenueAt locations orders currency b =
      revenueAt locations orders currency c + revenueAt locations orders currency d := by
  have hOrder : ∀ (loc : BusinessLocation) (during during' : Timezone → Instant → Bool),
      total Order.total (orders.filter (earnsAt loc.id (during loc.timezone))) +
        total Order.total (orders.filter (earnsAt loc.id (during' loc.timezone))) =
      total (fun o : Order => if o.restaurantId = loc.id && o.earns && !o.isDemo then
        (if during loc.timezone o.createdAt then o.total else 0) + (if during' loc.timezone o.createdAt then o.total else 0) else 0) orders := by
    intro loc during during'
    rw [total_filter, total_filter, ← total_add]
    refine total_congr fun o _ => ?_
    cases hSel : (o.restaurantId = loc.id && o.earns && !o.isDemo : Bool) <;> simp only [earnsAt, hSel, Bool.false_and, Bool.true_and]
    · exact add_zero _
    · rfl
  unfold revenueAt
  rw [← total_add, ← total_add]
  refine total_congr fun loc _ => ?_
  split
  · rw [hOrder, hOrder]
    refine total_congr fun o _ => ?_
    split
    · exact h loc.timezone o.createdAt o.total
    · rfl
  · rfl

theorem revenueAt_series_range (hOrder : fromDate ≤ toDate) :
    revenueAt locations orders currency (duringSeries fromDate toDate) + revenueAt locations orders currency (afterSeries toDate) =
      revenueAt locations orders currency (duringRange fromDate toDate) + revenueAt locations orders currency (afterRange fromDate toDate) := by
  refine revenueAt_add fun zone t x => ?_
  have hStart : timezoneAwareDayStart fromDate zone ≤ toDate := (dayStart_le).trans hOrder
  unfold duringSeries afterSeries duringRange afterRange duringSeries
  generalize timezoneAwareDayStart fromDate zone = start at hStart ⊢
  generalize timezoneAwareDayStart (toDate + MS_PER_DAY) zone = next
  by_cases hEnd : t ≤ toDate
  · rw [decide_eq_false (not_lt.mpr hEnd), decide_eq_true hEnd]
    by_cases hNext : t < next
    · rw [decide_eq_true hNext, decide_eq_false (not_le.mpr hNext)]
      simp
    · rw [decide_eq_false hNext, decide_eq_true (not_lt.mp hNext)]
      simp
  · have hAfter := not_le.mp hEnd
    rw [decide_eq_true hAfter, decide_eq_false hEnd, decide_eq_true (hStart.trans hAfter.le)]
    simp

theorem amountOf_map {entries : List DailyEntry} : amountOf currency (entries.map fun e => ⟨e.currency, e.revenue⟩) =
    total (fun e => if e.currency = currency then e.revenue else 0) entries := total_map _

theorem total_pointsOf (hCents : ∀ pair ∈ perLocation, ∀ point ∈ pair.2, WholeCents point.revenue) :
    total (fun point => amountOf currency point.revenueByCurrency) (pointsOf perLocation) =
      total (fun pair => if pair.1.currency = currency then total DailyAnalyticsPoint.revenue pair.2 else 0) perLocation := by
  let pushed := perLocation.flatMap fun (loc, series) => series.map (·.entry loc.currency)
  let byDate := pushed.foldl pushByDate []
  let w : DailyEntry → ℚ := fun e => if e.currency = currency then e.revenue else 0
  have hPushed : ∀ e ∈ pushed, WholeCents e.2.revenue := by
    intro e he
    obtain ⟨pair, hPair, hMem⟩ := List.mem_flatMap.mp he
    obtain ⟨point, hPoint, rfl⟩ := List.mem_map.mp hMem
    exact hCents pair hPair point hPoint
  have hGroups : ∀ group ∈ byDate, amountOf currency (businessPoint group).revenueByCurrency = total w group.2 := by
    intro group hGroup
    rw [businessPoint, amountOf_sumAmountsByCurrency, amountOf_map]
    intro e he
    obtain ⟨entry, hEntry, rfl⟩ := List.mem_map.mp he
    rcases mem_pushes hGroup entry hEntry with ⟨e', hMem, rfl⟩ | ⟨_, hNone, -⟩
    · exact hPushed e' hMem
    · cases hNone
  calc total (fun point => amountOf currency point.revenueByCurrency) (pointsOf perLocation)
      = total (fun group => amountOf currency (businessPoint group).revenueByCurrency) byDate :=
        (total_map _).trans ((List.perm_insertionSort _ byDate).map _).sum_eq
    _ = total (fun group => total w group.2) byDate := total_congr hGroups
    _ = total (fun e : Date × DailyEntry => w e.2) pushed := (total_pushes).trans (zero_add _)
    _ = total (fun pair => if pair.1.currency = currency then total DailyAnalyticsPoint.revenue pair.2 else 0) perLocation := by
      clear hPushed hGroups hCents
      induction perLocation with
      | nil => rfl
      | cons pair perLocation ih =>
        simp only [pushed, List.flatMap_cons]
        rw [total_append, total_cons, ih, total_map]
        congr 1
        split
        · rename_i hCurrency
          exact total_congr fun point _ => if_pos hCurrency
        · rename_i hCurrency
          exact total_zero fun point _ => if_neg hCurrency

theorem mem_dates_pointsOf (day : Date) : day ∈ (pointsOf perLocation).map BusinessDailyPoint.date ↔
    ∃ pair ∈ perLocation, day ∈ pair.2.map DailyAnalyticsPoint.date := by
  have hDates : (pointsOf perLocation).map BusinessDailyPoint.date =
      (((perLocation.flatMap fun (loc, series) => series.map (·.entry loc.currency)).foldl pushByDate []).insertionSort
        (fun a b => a.1 ≤ b.1)).map Prod.fst := List.map_map
  rw [hDates, ((List.perm_insertionSort _ _).map Prod.fst).mem_iff, dates_pushes]
  simp only [List.map_nil, List.not_mem_nil, false_or, List.mem_map, List.mem_flatMap]
  constructor
  · rintro ⟨e, ⟨pair, hPair, point, hPoint, rfl⟩, rfl⟩
    exact ⟨pair, hPair, point, hPoint, rfl⟩
  · rintro ⟨pair, hPair, point, hPoint, rfl⟩
    exact ⟨point.entry pair.1.currency, ⟨pair, hPair, point, hPoint, rfl⟩, rfl⟩

theorem revenue_overviewOf {perRange : List (BusinessLocation × RangeAnalytics)} (hCents : ∀ pair ∈ perRange, WholeCents pair.2.revenue) :
    amountOf currency (overviewOf fromDate toDate perRange).revenueByCurrency =
      total (fun pair => if pair.1.currency = currency then pair.2.revenue else 0) perRange := by
  refine (amountOf_sumAmountsByCurrency fun e he => ?_).trans (total_map _)
  obtain ⟨pair, hPair, rfl⟩ := List.mem_map.mp he
  exact hCents pair hPair

end Stories

section Business

variable {restaurants : List Restaurant} {orders : List Order} {businessId : Id} {locationIdsFilter : List Id} {location : BusinessLocation}
  {locations : List BusinessLocation} {first last : Date} {currency : String}

theorem mapM_ok {α β ε : Type} {f : α → Except ε β} {g : α → β} {l : List α} (h : ∀ a ∈ l, f a = .ok (g a)) : l.mapM f = .ok (l.map g) := by
  induction l with
  | nil => rfl
  | cons a l ih =>
    rw [List.mapM_cons, h a List.mem_cons_self, ih fun b hb => h b (List.mem_cons_of_mem a hb)]
    rfl

theorem exists_restaurant (h : location ∈ resolveBusinessLocations restaurants businessId locationIdsFilter) :
    ∃ r ∈ restaurants, location = r.location := by
  have hAll : location ∈ (restaurants.filter fun r => r.businessId = businessId).map Restaurant.location := by
    unfold resolveBusinessLocations at h
    dsimp only at h
    split at h
    · exact h
    · exact (List.mem_filter.mp h).1
  obtain ⟨r, hr, rfl⟩ := List.mem_map.mp hAll
  exact ⟨r, (List.mem_filter.mp hr).1, rfl⟩

theorem getTimezone_location (hIds : (restaurants.map Restaurant.id).Nodup)
    (h : location ∈ resolveBusinessLocations restaurants businessId locationIdsFilter) : getTimezone restaurants location.id = location.timezone := by
  obtain ⟨r, hr, rfl⟩ := exists_restaurant h
  have hFind : restaurants.find? (fun e => e.id = r.id) = some r := Tables.find?_id hIds hr
  unfold getTimezone
  rw [show r.location.id = r.id from rfl, hFind]
  rfl

theorem toIsoDate_midnight (day : Date) : toIsoDate (midnight day) = day := Int.mul_ediv_cancel day (by decide)

def trendsOf (locations : List BusinessLocation) (orders : List Order) (first last : Date) : BusinessAnalyticsTrends where
  fromDate := toIsoDate (midnight first)
  toDate := toIsoDate (midnight last)
  points := pointsOf (locations.map fun loc => (loc, seriesOf loc.timezone orders loc.id (midnight first) (midnight last)))

theorem trendsOf_fromDate : (trendsOf locations orders first last).fromDate = first := toIsoDate_midnight first

theorem trendsOf_toDate : (trendsOf locations orders first last).toDate = last := toIsoDate_midnight last

theorem getBusinessAnalyticsTrends_eq (hIds : (restaurants.map Restaurant.id).Nodup) (hOrder : first ≤ last)
    (hDays : rangeDays (midnight first) (midnight last) ≤ MAX_RANGE_DAYS) :
    getBusinessAnalyticsTrends restaurants orders businessId (midnight first) (midnight last) locationIdsFilter =
      .ok (trendsOf (resolveBusinessLocations restaurants businessId locationIdsFilter) orders first last) := by
  unfold getBusinessAnalyticsTrends
  rw [mapM_ok (g := fun loc => (loc, seriesOf loc.timezone orders loc.id (midnight first) (midnight last)))]
  · rfl
  · intro loc hMem
    rw [getDailyTimeSeries_eq (getTimezone_location hIds hMem) (midnight_le_iff.mpr hOrder) hDays]
    rfl

theorem revenue_trendsOf (hCents : ∀ o ∈ orders, WholeCents o.total) :
    (trendsOf locations orders first last).revenue currency = revenueAt locations orders currency (duringSeries (midnight first) (midnight last)) := by
  unfold BusinessAnalyticsTrends.revenue trendsOf
  rw [total_pointsOf, total_map]
  · refine total_congr fun loc _ => ?_
    simp only [Function.comp_apply, total_seriesOf hCents]
  · intro pair hPair point hPoint
    obtain ⟨loc, -, rfl⟩ := List.mem_map.mp hPair
    obtain ⟨key, -, rfl⟩ := List.mem_map.mp hPoint
    exact ⟨_, rfl⟩

theorem revenue_overview (hCents : ∀ o ∈ orders, WholeCents o.total) :
    amountOf currency (getBusinessAnalyticsOverview restaurants orders businessId (midnight first) (midnight last) locationIdsFilter).revenueByCurrency =
      revenueAt (resolveBusinessLocations restaurants businessId locationIdsFilter) orders currency (duringRange (midnight first) (midnight last)) := by
  unfold getBusinessAnalyticsOverview
  rw [revenue_overviewOf, total_map]
  · refine total_congr fun loc _ => ?_
    simp only [Function.comp_apply, revenue_forRange hCents]
  · intro pair hPair
    obtain ⟨loc, -, rfl⟩ := List.mem_map.mp hPair
    exact ⟨_, rfl⟩

theorem dates_trendsOf (hOrder : first ≤ last) : (∀ point ∈ (trendsOf locations orders first last).points, first ≤ point.date ∧ point.date ≤ last) ↔
    ∀ location ∈ locations, 0 ≤ location.timezone.offset (midnight first) := by
  have hMem : ∀ day, day ∈ (trendsOf locations orders first last).points.map BusinessDailyPoint.date ↔ ∃ loc ∈ locations,
      loc.timezone.date (midnight first) ≤ day ∧ day ≤ loc.timezone.date (midnight last) := by
    intro day
    have hDate : ∀ loc : BusinessLocation, (seriesOf loc.timezone orders loc.id (midnight first) (midnight last)).map DailyAnalyticsPoint.date =
        datesFrom (loc.timezone.date (midnight first)) (loc.timezone.date (midnight last)) := fun loc => List.map_map.trans (List.map_id _)
    refine (mem_dates_pointsOf day).trans ?_
    constructor
    · rintro ⟨pair, hPair, hDay⟩
      obtain ⟨loc, hLoc, rfl⟩ := List.mem_map.mp hPair
      rw [hDate loc, mem_datesFrom] at hDay
      exact ⟨loc, hLoc, hDay⟩
    · rintro ⟨loc, hLoc, hDay⟩
      refine ⟨_, List.mem_map_of_mem hLoc, ?_⟩
      rw [hDate loc, mem_datesFrom]
      exact hDay
  constructor
  · intro hDates location hLocation
    by_contra hBehind
    have hBefore := Timezone.date_midnight_behind (not_le.mp hBehind)
    have hIn := (hMem (location.timezone.date (midnight first))).mpr
      ⟨location, hLocation, le_refl _, Timezone.date_mono (midnight_le_iff.mpr hOrder)⟩
    obtain ⟨point, hPoint, hDate⟩ := List.mem_map.mp hIn
    have hFirst := (hDates point hPoint).1
    rw [hDate, hBefore] at hFirst
    exact absurd hFirst (not_le.mpr (sub_one_lt first))
  · intro hStarts point hPoint
    obtain ⟨loc, hLoc, hFrom, hTo⟩ := (hMem point.date).mp (List.mem_map_of_mem hPoint)
    rw [Timezone.date_midnight (hStarts loc hLoc)] at hFrom
    exact ⟨hFrom, hTo.trans Timezone.date_midnight_le⟩

/-- The trends tell the story of the overview if and only if the revenue between
the ends of the two ranges is the same both ways and no location is behind UTC
as the range starts. -/
theorem trends_tell_overview {now fromDate toDate : Instant} (hIds : (restaurants.map Restaurant.id).Nodup)
    (hRange : parseDateRange now (some (.date first)) (some (.date last)) = .ok (fromDate, toDate))
    (hCents : ∀ o ∈ orders, WholeCents o.total) :
    ∃ trends, getBusinessAnalyticsTrends restaurants orders businessId fromDate toDate locationIdsFilter = .ok trends ∧
      (SameStory trends (getBusinessAnalyticsOverview restaurants orders businessId fromDate toDate locationIdsFilter) ↔
        (∀ currency, revenueAt (resolveBusinessLocations restaurants businessId locationIdsFilter) orders currency (afterSeries toDate) =
          revenueAt (resolveBusinessLocations restaurants businessId locationIdsFilter) orders currency (afterRange fromDate toDate)) ∧
        ∀ location ∈ resolveBusinessLocations restaurants businessId locationIdsFilter, 0 ≤ location.timezone.offset fromDate) := by
  obtain ⟨rfl, rfl, hOrder, hDays⟩ := parseDateRange_dates hRange
  refine ⟨_, getBusinessAnalyticsTrends_eq hIds hOrder hDays, ?_⟩
  let locations := resolveBusinessLocations restaurants businessId locationIdsFilter
  have hDatesIff : (∀ point ∈ (trendsOf locations orders first last).points, first ≤ point.date ∧ point.date ≤ last) ↔
      ∀ location ∈ locations, 0 ≤ location.timezone.offset (midnight first) := dates_trendsOf hOrder
  have hParts : ∀ currency, revenueAt locations orders currency (duringSeries (midnight first) (midnight last)) +
      revenueAt locations orders currency (afterSeries (midnight last)) =
        revenueAt locations orders currency (duringRange (midnight first) (midnight last)) +
          revenueAt locations orders currency (afterRange (midnight first) (midnight last)) :=
    fun _ => revenueAt_series_range (midnight_le_iff.mpr hOrder)
  constructor
  · rintro ⟨hRevenue, hDates⟩
    refine ⟨fun currency => ?_, hDatesIff.mp ?_⟩
    · have hSame := hRevenue currency
      rw [revenue_trendsOf hCents, revenue_overview hCents] at hSame
      have hSum := hParts currency
      rw [hSame] at hSum
      exact add_left_cancel hSum
    · simpa only [trendsOf_fromDate, trendsOf_toDate] using hDates
  · rintro ⟨hRevenue, hStarts⟩
    refine ⟨fun currency => ?_, ?_⟩
    · rw [revenue_trendsOf hCents, revenue_overview hCents]
      have hSum := hParts currency
      rw [hRevenue currency] at hSum
      exact add_right_cancel hSum
    · simpa only [trendsOf_fromDate, trendsOf_toDate] using hDatesIff.mpr hStarts

end Business

/-! ### An order of the last day -/

theorem karachi_bounded : -1440 < (300 : Int) ∧ (300 : Int) < 1440 := by decide

def karachi : List Restaurant := [{ id := 1, businessId := 1, currency := some "PKR", timezone := some (.fixed 300 karachi_bounded) }]

def karachiOrders : List Order := [{ restaurantId := 1, createdAt := midnight 20000, total := 10 }]

/-- An order on the first of two dates. -/
theorem karachi_tells_overview : ∃ trends, getBusinessAnalyticsTrends karachi karachiOrders 1 (midnight 20000) (midnight 20001) [] = .ok trends ∧
    SameStory trends (getBusinessAnalyticsOverview karachi karachiOrders 1 (midnight 20000) (midnight 20001) []) := by
  have hRange : parseDateRange 0 (some (.date 20000)) (some (.date 20001)) = .ok (midnight 20000, midnight 20001) := by decide
  have hCents : ∀ o ∈ karachiOrders, WholeCents o.total := by
    intro o ho
    cases List.mem_singleton.mp ho
    exact ⟨1000, by norm_num⟩
  have hIds : (karachi.map Restaurant.id).Nodup := by decide
  obtain ⟨trends, hTrends, hIff⟩ := trends_tell_overview hIds hRange hCents
  refine ⟨trends, hTrends, hIff.mpr ⟨fun currency => ?_, fun location hMem => ?_⟩⟩
  · have hNone : ∀ during : Timezone → Instant → Bool, during karachi[0].location.timezone (midnight 20000) = false →
        revenueAt (resolveBusinessLocations karachi 1 []) karachiOrders currency during = 0 := by
      intro during hDuring
      refine total_zero fun loc hLoc => ?_
      cases List.mem_singleton.mp hLoc
      have hFilter : karachiOrders.filter (earnsAt 1 (during karachi[0].location.timezone)) = [] :=
        List.filter_eq_nil_iff.mpr fun o ho => by
          cases List.mem_singleton.mp ho
          simp [earnsAt, hDuring]
      split
      · exact congrArg (total Order.total) hFilter
      · rfl
    rw [hNone _ (by decide), hNone _ (by decide)]
  · cases List.mem_singleton.mp hMem
    decide

/-- An order at noon of the only date is missing from the points. -/
theorem trends_miss_last_day : ¬ ∀ (restaurants : List Restaurant) (orders : List Order) (businessId : Id) (locationIdsFilter : List Id)
    (now : Instant) (first last : Date) (fromDate toDate : Instant), (restaurants.map Restaurant.id).Nodup →
    parseDateRange now (some (.date first)) (some (.date last)) = .ok (fromDate, toDate) → (∀ o ∈ orders, WholeCents o.total) →
    ∃ trends, getBusinessAnalyticsTrends restaurants orders businessId fromDate toDate locationIdsFilter = .ok trends ∧
      SameStory trends (getBusinessAnalyticsOverview restaurants orders businessId fromDate toDate locationIdsFilter) := by
  intro hClaim
  let noon : List Order := [{ restaurantId := 1, createdAt := midnight 20000 + 12 * 60 * MS_PER_MINUTE, total := 10 }]
  have hCents : ∀ o ∈ noon, WholeCents o.total := by
    intro o ho
    cases List.mem_singleton.mp ho
    exact ⟨1000, by norm_num⟩
  obtain ⟨trends, hTrends, hStory⟩ := hClaim [{ id := 1, businessId := 1 }] noon 1 [] 0 20000 20000 (midnight 20000) (midnight 20000)
    (by decide) (by decide) hCents
  have hEmpty : getBusinessAnalyticsTrends [{ id := 1, businessId := 1 }] noon 1 (midnight 20000) (midnight 20000) [] =
      .ok ⟨20000, 20000, [⟨20000, 0, [⟨"USD", 0⟩]⟩]⟩ := by decide +kernel
  rw [hEmpty] at hTrends
  cases hTrends
  exact absurd (hStory.revenue "USD") (by decide +kernel)

end RestaurantOs.Analytics
