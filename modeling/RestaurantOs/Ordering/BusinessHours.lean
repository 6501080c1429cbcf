import Mathlib.Data.List.Basic
import Mathlib.Data.Int.Order.Basic
import Mathlib.Tactic.IntervalCases

/-!
# Business hours

Whether a restaurant is open is read off today's period and the part of
yesterday's that runs past midnight. Every stretch in which it is open begins with
one of its opening times, so the next opening is the first of them still to come.
-/

namespace RestaurantOs.BusinessHours

inductive Weekday
  | sunday | monday | tuesday | wednesday | thursday | friday | saturday
  deriving DecidableEq

def WEEKDAYS : List Weekday := [.sunday, .monday, .tuesday, .wednesday, .thursday, .friday, .saturday]

/-- A time that `timePattern` accepts. -/
structure HHmm where
  hour : Fin 24
  minute : Fin 60
  deriving DecidableEq

structure BusinessHoursDay where
  day : Weekday
  isClosed : Bool := false
  open' : Option HHmm := none
  close : Option HHmm := none
  times : isClosed || open'.isSome && close.isSome := by decide

/-- The days are numbered from 1 January 1970, a Thursday. -/
def weekdayOf (date : Int) : Weekday := WEEKDAYS.getD ((date + 4) % 7).toNat .sunday

/-- A zone's offset from UTC in minutes at an instant, which is in milliseconds since 1970. -/
abbrev Zone := Int → Int

/-- `year`, `month` and `day` name the day `date`. -/
structure LocalParts where
  date : Int
  weekday : Weekday
  hour : Int
  minute : Int

def localMinute (zone : Zone) (instant : Int) : Int := (instant + zone instant * 60000) / 60000

def getLocalParts (zone : Zone) (instant : Int) : LocalParts :=
  let minutes := localMinute zone instant
  { date := minutes / 1440
    weekday := weekdayOf (minutes / 1440)
    hour := minutes % 1440 / 60
    minute := minutes % 1440 % 60 }

def zonedTimeToUtc (zone : Zone) (date hour minute : Int) : Int :=
  let naiveUtcMs := (date * 1440 + hour * 60 + minute) * 60000
  let guessMs := naiveUtcMs - zone naiveUtcMs * 60000
  naiveUtcMs - zone guessMs * 60000

def toMinutes (hhmm : HHmm) : Int := hhmm.hour * 60 + hhmm.minute

def dayByName (businessHours : List BusinessHoursDay) (day : Weekday) : Option BusinessHoursDay := businessHours.find? (·.day = day)

def previousWeekday (day : Weekday) : Weekday := WEEKDAYS.getD ((WEEKDAYS.idxOf day + 6) % 7) .sunday

def BusinessHoursDay.period? (day : BusinessHoursDay) : Option (Int × Int) :=
  if day.isClosed then none else day.open'.bind fun opens => day.close.map fun closes => (toMinutes opens, toMinutes closes)

def isWithinTodaysPeriod (day : Option BusinessHoursDay) (nowMinutes : Int) : Bool :=
  match day.bind (·.period?) with
  | none => false
  | some (opens, closes) => if opens < closes then opens ≤ nowMinutes && nowMinutes < closes else opens ≤ nowMinutes

def isWithinYesterdaysOvernightTail (day : Option BusinessHoursDay) (nowMinutes : Int) : Bool :=
  match day.bind (·.period?) with
  | none => false
  | some (opens, closes) => if opens < closes then false else nowMinutes < closes

def isWithinBusinessHours (businessHours : List BusinessHoursDay) (zone : Zone) (now : Int) : Bool :=
  if businessHours.isEmpty then true
  else
    let here := getLocalParts zone now
    let nowMinutes := here.hour * 60 + here.minute
    isWithinTodaysPeriod (dayByName businessHours here.weekday) nowMinutes ||
      isWithinYesterdaysOvernightTail (dayByName businessHours (previousWeekday here.weekday)) nowMinutes

def openingOf (businessHours : List BusinessHoursDay) (date : Int) : Option Int :=
  (dayByName businessHours (weekdayOf date)).bind fun day => if day.isClosed then none else day.open'.map toMinutes

def getNextOpenAt (businessHours : List BusinessHoursDay) (zone : Zone) (now : Int) : Option Int :=
  if businessHours.isEmpty then none
  else if isWithinBusinessHours businessHours zone now then none
  else
    let here := getLocalParts zone now
    let nowMinutes := here.hour * 60 + here.minute
    (List.range 8).findSome? fun offset : Nat =>
      match openingOf businessHours (here.date + offset) with
      | none => none
      | some openMinutes =>
        if offset = 0 && openMinutes ≤ nowMinutes then none
        else some (zonedTimeToUtc zone (here.date + offset) (openMinutes / 60) (openMinutes % 60))

/-! ## Open minutes -/

section Minutes

variable {businessHours : List BusinessHoursDay} {date minutes opens closes : Int}

theorem previousWeekday_weekdayOf : previousWeekday (weekdayOf date) = weekdayOf (date - 1) := by
  unfold weekdayOf
  have hLt : ((date + 4) % 7).toNat < 7 := by omega
  have hPrevious : ((date - 1 + 4) % 7).toNat = (((date + 4) % 7).toNat + 6) % 7 := by omega
  rw [hPrevious]
  generalize ((date + 4) % 7).toNat = i at hLt
  interval_cases i <;> rfl

theorem weekdayOf_add_weeks {weeks : Int} : weekdayOf (date + 7 * weeks) = weekdayOf date := by
  unfold weekdayOf
  congr 2
  omega

theorem toMinutes_lt (hhmm : HHmm) : 0 ≤ toMinutes hhmm ∧ toMinutes hhmm < 1440 := by
  have hHour := hhmm.hour.isLt
  have hMinute := hhmm.minute.isLt
  unfold toMinutes
  omega

def periodOf (businessHours : List BusinessHoursDay) (date : Int) : Option (Int × Int) :=
  (dayByName businessHours (weekdayOf date)).bind (·.period?)

theorem periodOf_bounds (h : periodOf businessHours date = some (opens, closes)) :
    (0 ≤ opens ∧ opens < 1440) ∧ 0 ≤ closes ∧ closes < 1440 := by
  obtain ⟨day, -, hPeriod⟩ := Option.bind_eq_some_iff.mp h
  unfold BusinessHoursDay.period? at hPeriod
  split at hPeriod
  · cases hPeriod
  · obtain ⟨start, -, hPeriod⟩ := Option.bind_eq_some_iff.mp hPeriod
    obtain ⟨stop, -, hPeriod⟩ := Option.map_eq_some_iff.mp hPeriod
    cases hPeriod
    exact ⟨toMinutes_lt start, toMinutes_lt stop⟩

theorem openingOf_eq : openingOf businessHours date = (periodOf businessHours date).map (·.1) := by
  unfold openingOf periodOf
  cases dayByName businessHours (weekdayOf date) with
  | none => rfl
  | some day =>
    obtain ⟨name, isClosed, opens, closes, hTimes⟩ := day
    cases isClosed <;> cases opens <;> cases closes <;> first | rfl | cases hTimes

def openIn (businessHours : List BusinessHoursDay) (date minutes : Int) : Bool :=
  (match periodOf businessHours date with
    | none => false
    | some (opens, closes) => if opens < closes then opens ≤ minutes && minutes < closes else opens ≤ minutes) ||
    match periodOf businessHours (date - 1) with
    | none => false
    | some (opens, closes) => if opens < closes then false else minutes < closes

theorem openIn_iff : openIn businessHours date minutes = true ↔
    (∃ opens closes, periodOf businessHours date = some (opens, closes) ∧ opens ≤ minutes ∧ (opens < closes → minutes < closes)) ∨
      ∃ opens closes, periodOf businessHours (date - 1) = some (opens, closes) ∧ closes ≤ opens ∧ minutes < closes := by
  unfold openIn
  rw [Bool.or_eq_true]
  refine or_congr ?_ ?_
  · cases periodOf businessHours date with
    | none => simp
    | some period =>
      obtain ⟨opens, closes⟩ := period
      simp only [Option.some.injEq, Prod.mk.injEq]
      by_cases hDay : opens < closes
      · simp [hDay]
      · simp [hDay]
  · cases periodOf businessHours (date - 1) with
    | none => simp
    | some period =>
      obtain ⟨opens, closes⟩ := period
      simp only [Option.some.injEq, Prod.mk.injEq]
      by_cases hDay : opens < closes
      · simp [hDay, not_le.mpr hDay]
      · simp [hDay, not_lt.mp hDay]

theorem openIn_opening (h : openingOf businessHours date = some opens) : openIn businessHours date opens = true := by
  rw [openingOf_eq] at h
  obtain ⟨⟨start, closes⟩, hPeriod, rfl⟩ := Option.map_eq_some_iff.mp h
  exact (openIn_iff).mpr (.inl ⟨start, closes, hPeriod, le_refl start, id⟩)

theorem opening_of_openIn (hRange : 0 ≤ minutes ∧ minutes < 1440) (hOpen : openIn businessHours date minutes = true)
    (hBefore : (if minutes = 0 then openIn businessHours (date - 1) 1439 else openIn businessHours date (minutes - 1)) = false) :
    openingOf businessHours date = some minutes := by
  rw [openingOf_eq]
  rcases (openIn_iff).mp hOpen with ⟨opens, closes, hPeriod, hFrom, hUntil⟩ | ⟨opens, closes, hPeriod, hOvernight, hUntil⟩
  · by_cases hStart : opens = minutes
    · rw [hPeriod, Option.map_some, hStart]
    · have hPositive : minutes ≠ 0 := by
        have hBounds := periodOf_bounds hPeriod
        omega
      rw [if_neg hPositive] at hBefore
      have hStill : openIn businessHours date (minutes - 1) = true :=
        (openIn_iff).mpr (.inl ⟨opens, closes, hPeriod, by omega, fun hDay => by have := hUntil hDay; omega⟩)
      rw [hStill] at hBefore
      cases hBefore
  · by_cases hMidnight : minutes = 0
    · rw [if_pos hMidnight] at hBefore
      have hBounds := periodOf_bounds hPeriod
      have hStill : openIn businessHours (date - 1) 1439 = true :=
        (openIn_iff).mpr (.inl ⟨opens, closes, hPeriod, by omega, fun hDay => by omega⟩)
      rw [hStill] at hBefore
      cases hBefore
    · rw [if_neg hMidnight] at hBefore
      have hStill : openIn businessHours date (minutes - 1) = true :=
        (openIn_iff).mpr (.inr ⟨opens, closes, hPeriod, hOvernight, by omega⟩)
      rw [hStill] at hBefore
      cases hBefore

theorem openIn_of_no_opening (hNone : ∀ date, openingOf businessHours date = none) : openIn businessHours date minutes = false := by
  have hPeriod : ∀ date, periodOf businessHours date = none := by
    intro date
    have hDate := hNone date
    rw [openingOf_eq, Option.map_eq_none_iff] at hDate
    exact hDate
  unfold openIn
  rw [hPeriod date, hPeriod (date - 1)]
  rfl

end Minutes

/-! ## The search -/

section Search

variable {businessHours : List BusinessHoursDay} {n n₀ m : Int}

def openAt (businessHours : List BusinessHoursDay) (n : Int) : Bool := openIn businessHours (n / 1440) (n % 1440)

def Opening (businessHours : List BusinessHoursDay) (n : Int) : Prop := openingOf businessHours (n / 1440) = some (n % 1440)

theorem openAt_of_opening (h : Opening businessHours n) : openAt businessHours n = true := openIn_opening h

theorem exists_opening (hClosed : openAt businessHours n₀ = false) (k : Nat) (hOpen : openAt businessHours (n₀ + k) = true) :
    ∃ m, n₀ < m ∧ m ≤ n₀ + k ∧ Opening businessHours m := by
  induction k with
  | zero =>
    rw [Int.natCast_zero, Int.add_zero, hClosed] at hOpen
    cases hOpen
  | succ k ih =>
    cases hBefore : openAt businessHours (n₀ + k) with
    | true =>
      obtain ⟨m, hLater, hBy, hOpening⟩ := ih hBefore
      exact ⟨m, hLater, by omega, hOpening⟩
    | false =>
      refine ⟨n₀ + (k + 1 : Nat), by omega, le_refl _, opening_of_openIn (by omega) hOpen ?_⟩
      have hEarlier : n₀ + (k + 1 : Nat) - 1 = n₀ + k := by omega
      rw [← hEarlier] at hBefore
      generalize n₀ + ((k + 1 : Nat) : Int) = now at hBefore
      split
      · have hDate : (now - 1) / 1440 = now / 1440 - 1 := by omega
        have hMinute : (now - 1) % 1440 = 1439 := by omega
        rw [openAt, hDate, hMinute] at hBefore
        exact hBefore
      · have hDate : (now - 1) / 1440 = now / 1440 := by omega
        have hMinute : (now - 1) % 1440 = now % 1440 - 1 := by omega
        rw [openAt, hDate, hMinute] at hBefore
        exact hBefore

theorem openingOf_add_weeks {date weeks : Int} : openingOf businessHours (date + 7 * weeks) = openingOf businessHours date := by
  rw [openingOf, openingOf, weekdayOf_add_weeks]

def candidate (businessHours : List BusinessHoursDay) (n₀ : Int) (offset : Nat) : Option Int :=
  match openingOf businessHours (n₀ / 1440 + offset) with
  | none => none
  | some openMinutes => if offset = 0 && openMinutes ≤ n₀ % 1440 then none else some ((n₀ / 1440 + offset) * 1440 + openMinutes)

theorem openingOf_bounds {date openMinutes : Int} (h : openingOf businessHours date = some openMinutes) :
    0 ≤ openMinutes ∧ openMinutes < 1440 := by
  rw [openingOf_eq] at h
  obtain ⟨⟨opens, closes⟩, hPeriod, rfl⟩ := Option.map_eq_some_iff.mp h
  exact (periodOf_bounds hPeriod).1

theorem candidate_eq_some {offset : Nat} (h : candidate businessHours n₀ offset = some n) :
    n₀ < n ∧ n / 1440 = n₀ / 1440 + offset ∧ Opening businessHours n := by
  unfold candidate at h
  split at h
  · cases h
  · rename_i openMinutes hOpening
    have hBounds := openingOf_bounds hOpening
    split at h
    · cases h
    · rename_i hStill
      rw [Bool.and_eq_true, decide_eq_true_eq, decide_eq_true_eq, not_and, not_le] at hStill
      obtain rfl := Option.some.inj h
      have hDate : ((n₀ / 1440 + offset) * 1440 + openMinutes) / 1440 = n₀ / 1440 + offset := by omega
      have hMinute : ((n₀ / 1440 + offset) * 1440 + openMinutes) % 1440 = openMinutes := by omega
      refine ⟨?_, hDate, ?_⟩
      · rcases Nat.eq_zero_or_pos offset with rfl | hLater
        · have hStill := hStill rfl
          omega
        · omega
      · rw [Opening, hDate, hMinute]
        exact hOpening

theorem candidate_of_opening (hLater : n₀ < m) (hOpening : Opening businessHours m) {offset : Nat}
    (hOffset : m / 1440 = n₀ / 1440 + offset) : candidate businessHours n₀ offset = some m := by
  rw [Opening, hOffset] at hOpening
  unfold candidate
  rw [hOpening]
  dsimp only
  have hStill : ¬ (decide (offset = 0) && decide (m % 1440 ≤ n₀ % 1440)) = true := by
    rw [Bool.and_eq_true, decide_eq_true_eq, decide_eq_true_eq]
    rintro ⟨rfl, hPast⟩
    omega
  rw [if_neg hStill]
  congr 1
  omega

theorem findSome?_range {α : Type} {f : Nat → Option α} {k : Nat} {b : α} (h : (List.range k).findSome? f = some b) :
    ∃ i < k, f i = some b ∧ ∀ j < i, f j = none := by
  induction k with
  | zero => cases h
  | succ k ih =>
    rw [List.range_succ, List.findSome?_append, Option.or_eq_some_iff] at h
    rcases h with hFirst | ⟨hNone, hLast⟩
    · obtain ⟨i, hi, hSome, hBefore⟩ := ih hFirst
      exact ⟨i, Nat.lt_succ_of_lt hi, hSome, hBefore⟩
    · refine ⟨k, Nat.lt_succ_self k, by simpa using hLast, fun j hj => ?_⟩
      exact List.findSome?_eq_none_iff.mp hNone j (List.mem_range.mpr hj)

theorem earliest_of_candidates (h : (List.range 8).findSome? (candidate businessHours n₀) = some n) :
    n₀ < n ∧ n - n₀ ≤ 8 * 1440 ∧ Opening businessHours n ∧ ∀ m, n₀ < m → Opening businessHours m → n ≤ m := by
  obtain ⟨i, hi, hSome, hBefore⟩ := findSome?_range h
  obtain ⟨hLater, hDate, hOpening⟩ := candidate_eq_some hSome
  refine ⟨hLater, by omega, hOpening, fun m hm hOpeningM => ?_⟩
  by_contra hEarlier
  obtain ⟨j, hj⟩ : ∃ j : Nat, m / 1440 = n₀ / 1440 + j := ⟨(m / 1440 - n₀ / 1440).toNat, by omega⟩
  have hCandidate := candidate_of_opening hm hOpeningM hj
  rcases Nat.lt_or_ge j i with hLess | hMore
  · rw [hBefore j hLess] at hCandidate
    cases hCandidate
  · have hSame : j = i := by omega
    rw [hSame, hSome] at hCandidate
    cases hCandidate
    exact hEarlier (le_refl n)

theorem no_opening_of_candidates (h : (List.range 8).findSome? (candidate businessHours n₀) = none) (date : Int) :
    openingOf businessHours date = none := by
  have hCandidates := List.findSome?_eq_none_iff.mp h
  let offset : Nat := ((date - n₀ / 1440 - 1) % 7 + 1).toNat
  have hOffset : (offset : Int) = (date - n₀ / 1440 - 1) % 7 + 1 := by omega
  have hNone := hCandidates offset (List.mem_range.mpr (by omega))
  have hSame : openingOf businessHours date = openingOf businessHours (n₀ / 1440 + offset) := by
    have hWeeks : date = n₀ / 1440 + offset + 7 * ((date - n₀ / 1440 - 1) / 7) := by omega
    rw [hWeeks, openingOf_add_weeks]
  rw [hSame]
  unfold candidate at hNone
  split at hNone
  · assumption
  · rw [if_neg fun hZero => by
      rw [Bool.and_eq_true, decide_eq_true_eq] at hZero
      omega] at hNone
    cases hNone

end Search

/-! ## Instants -/

def DAY_MS : Int := 1440 * 60000

/-- The zone's offset is less than a day and the same from a day before to nine days after `now`: that is where the search reads it. -/
structure Zone.ConstantAround (zone : Zone) (now : Int) (offset : Int) : Prop where
  offset_lt : -1440 < offset ∧ offset < 1440
  constant : ∀ instant, now - DAY_MS ≤ instant → instant ≤ now + 9 * DAY_MS → zone instant = offset

section Instants

variable {businessHours : List BusinessHoursDay} {zone : Zone} {now instant : Int} {offset : Int}

theorem isWithin_eq (h : businessHours ≠ []) : isWithinBusinessHours businessHours zone instant = openAt businessHours (localMinute zone instant) := by
  unfold isWithinBusinessHours
  rw [if_neg (by rw [List.isEmpty_iff]; exact h)]
  unfold getLocalParts
  dsimp only
  rw [previousWeekday_weekdayOf, Int.mul_comm, Int.mul_ediv_add_emod]
  rfl

theorem getNextOpenAt_eq (h : businessHours ≠ []) (hClosed : isWithinBusinessHours businessHours zone now = false) :
    getNextOpenAt businessHours zone now = ((List.range 8).findSome? (candidate businessHours (localMinute zone now))).map fun n =>
      zonedTimeToUtc zone (n / 1440) (n % 1440 / 60) (n % 1440 % 60) := by
  unfold getNextOpenAt getLocalParts
  rw [if_neg (by rw [List.isEmpty_iff]; exact h), if_neg (by rw [hClosed]; exact Bool.false_ne_true), List.map_findSome?]
  dsimp only
  rw [Int.mul_comm, Int.mul_ediv_add_emod]
  congr 1
  funext k
  rw [Function.comp_apply]
  unfold candidate
  cases hOpening : openingOf businessHours (localMinute zone now / 1440 + k) with
  | none => rfl
  | some openMinutes =>
    have hBounds := openingOf_bounds hOpening
    dsimp only
    split
    · rfl
    · have hDate : ((localMinute zone now / 1440 + k) * 1440 + openMinutes) / 1440 = localMinute zone now / 1440 + k := by omega
      have hMinute : ((localMinute zone now / 1440 + k) * 1440 + openMinutes) % 1440 = openMinutes := by omega
      rw [Option.map_some, hDate, hMinute]

theorem zonedTimeToUtc_eq (hZone : zone.ConstantAround now offset) {n : Int} (hLater : localMinute zone now < n)
    (hSoon : n - localMinute zone now ≤ 8 * 1440) :
    zonedTimeToUtc zone (n / 1440) (n % 1440 / 60) (n % 1440 % 60) = n * 60000 - offset * 60000 := by
  obtain ⟨hOffset, hConstant⟩ := hZone
  have hNow : zone now = offset := hConstant now (by unfold DAY_MS; omega) (by unfold DAY_MS; omega)
  unfold localMinute at hLater hSoon
  rw [hNow] at hLater hSoon
  have hNaive : (n / 1440 * 1440 + n % 1440 / 60 * 60 + n % 1440 % 60) * 60000 = n * 60000 := by omega
  have hFirst : zone (n * 60000) = offset := hConstant _ (by unfold DAY_MS; omega) (by unfold DAY_MS; omega)
  have hSecond : zone (n * 60000 - offset * 60000) = offset := hConstant _ (by unfold DAY_MS; omega) (by unfold DAY_MS; omega)
  unfold zonedTimeToUtc
  dsimp only
  rw [hNaive, hFirst, hSecond]

end Instants

/-- Outside the hours the search finds the first moment at which the restaurant opens, unless it never does. -/
theorem next_open_earliest (businessHours : List BusinessHoursDay) (zone : Zone) (now offset : Int) (hZone : zone.ConstantAround now offset)
    (hClosed : isWithinBusinessHours businessHours zone now = false) :
    (getNextOpenAt businessHours zone now = none ↔ ¬ ∃ instant, now < instant ∧ isWithinBusinessHours businessHours zone instant = true) ∧
      ∀ next, getNextOpenAt businessHours zone now = some next →
        now < next ∧ isWithinBusinessHours businessHours zone next = true ∧
          ∀ instant, now < instant → instant < next → isWithinBusinessHours businessHours zone instant = false := by
  have hHours : businessHours ≠ [] := by
    rintro rfl
    cases hClosed
  have hFound : ∀ next, getNextOpenAt businessHours zone now = some next →
      now < next ∧ isWithinBusinessHours businessHours zone next = true ∧
        ∀ instant, now < instant → instant < next → isWithinBusinessHours businessHours zone instant = false := by
    intro next hNext
    rw [getNextOpenAt_eq hHours hClosed] at hNext
    obtain ⟨n, hFirst, rfl⟩ := Option.map_eq_some_iff.mp hNext
    obtain ⟨hLater, hSoon, hOpening, hEarliest⟩ := earliest_of_candidates hFirst
    rw [zonedTimeToUtc_eq hZone hLater hSoon]
    have hConstant := hZone.constant
    have hOffset := hZone.offset_lt
    have hNow : zone now = offset := hConstant now (by unfold DAY_MS; omega) (by unfold DAY_MS; omega)
    have hMinute : localMinute zone now = (now + offset * 60000) / 60000 := by rw [localMinute, hNow]
    have hMinuteNext : localMinute zone (n * 60000 - offset * 60000) = n := by
      rw [localMinute, hConstant _ (by unfold DAY_MS; omega) (by unfold DAY_MS; omega)]
      omega
    refine ⟨by omega, ?_, fun instant hAfter hBefore => ?_⟩
    · rw [isWithin_eq hHours, hMinuteNext]
      exact openAt_of_opening hOpening
    · rw [isWithin_eq hHours]
      by_contra hOpen
      rw [Bool.not_eq_false] at hOpen
      have hMinuteThen : localMinute zone instant = (instant + offset * 60000) / 60000 := by
        rw [localMinute, hConstant _ (by unfold DAY_MS; omega) (by unfold DAY_MS; omega)]
      rw [isWithin_eq hHours] at hClosed
      obtain ⟨k, hk⟩ : ∃ k : Nat, localMinute zone instant = localMinute zone now + k :=
        ⟨(localMinute zone instant - localMinute zone now).toNat, by omega⟩
      rw [hk] at hOpen
      obtain ⟨m, hLaterM, hBy, hOpeningM⟩ := exists_opening hClosed k hOpen
      have hLe := hEarliest m hLaterM hOpeningM
      omega
  refine ⟨⟨?_, fun hNever => ?_⟩, hFound⟩
  · rintro hNone ⟨instant, -, hOpen⟩
    rw [getNextOpenAt_eq hHours hClosed, Option.map_eq_none_iff] at hNone
    rw [isWithin_eq hHours, openAt, openIn_of_no_opening (no_opening_of_candidates hNone)] at hOpen
    cases hOpen
  · cases hNext : getNextOpenAt businessHours zone now with
    | none => rfl
    | some next =>
      obtain ⟨hLater, hOpen, -⟩ := hFound next hNext
      exact absurd ⟨next, hLater, hOpen⟩ hNever

namespace NightBar

def hours : List BusinessHoursDay := [{ day := .friday, open' := some ⟨18, 0⟩, close := some ⟨2, 0⟩ }]

def zone : Zone := fun _ => -300

def now : Int := (2 * 1440 + 180 + 300) * 60000

theorem constant : zone.ConstantAround now (-300) := ⟨by decide, fun _ _ _ => rfl⟩

end NightBar

/-- The bar has closed for the night, and opens again on the next Friday. -/
theorem bar_opens_next_friday : getNextOpenAt NightBar.hours NightBar.zone NightBar.now = some ((8 * 1440 + 1080 + 300) * 60000) ∧
    ∀ instant, NightBar.now < instant → instant < (8 * 1440 + 1080 + 300) * 60000 →
      isWithinBusinessHours NightBar.hours NightBar.zone instant = false := by
  have hNext : getNextOpenAt NightBar.hours NightBar.zone NightBar.now = some ((8 * 1440 + 1080 + 300) * 60000) := by decide
  exact ⟨hNext, ((next_open_earliest NightBar.hours NightBar.zone NightBar.now (-300) NightBar.constant (by decide)).2 _ hNext).2.2⟩

end RestaurantOs.BusinessHours
