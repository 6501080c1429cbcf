import RestaurantOs.Ordering.BusinessHours

/-!
# Hours at a marketplace

The weekly hours are sent as periods within a day, one that runs past midnight
as two. Every entry of the hours is sent, while the restaurant itself goes by
the first entry of a day.
-/

namespace RestaurantOs.ServiceHours

open BusinessHours

def UBER_WEEKDAYS : List Weekday := [.monday, .tuesday, .wednesday, .thursday, .friday, .saturday, .sunday]

def twoDigits (n : Nat) : List Char := [Char.ofNat (48 + n / 10), Char.ofNat (48 + n % 10)]

/-- `HH:mm` -/
def text (hhmm : HHmm) : List Char := twoDigits hhmm.hour ++ ':' :: twoDigits hhmm.minute

structure TimePeriod where
  startTime : HHmm
  endTime : HHmm

structure DayAvailability where
  dayOfWeek : Weekday
  timePeriods : List TimePeriod

/-- The map has a day once a period of it is added. -/
abbrev Periods := Weekday → List TimePeriod

def Periods.add (periods : Periods) (day : Weekday) (startTime endTime : HHmm) : Periods := fun d =>
  if d = day then periods d ++ [⟨startTime, endTime⟩] else periods d

def midnight : HHmm := ⟨⟨0, by decide⟩, ⟨0, by decide⟩⟩

/-- `23:59` -/
def lastMinute : HHmm := ⟨⟨23, by decide⟩, ⟨59, by decide⟩⟩

def nextWeekday (day : Weekday) : Weekday := UBER_WEEKDAYS.getD ((UBER_WEEKDAYS.idxOf day + 1) % 7) .monday

def Periods.addDay (periods : Periods) (d : BusinessHoursDay) : Periods :=
  if d.isClosed then periods
  else
    match d.open', d.close with
    | some opens, some closes =>
      if text opens < text closes then periods.add d.day opens closes
      else
        let periods := periods.add d.day opens lastMinute
        if closes ≠ midnight then periods.add (nextWeekday d.day) midnight closes else periods
    | _, _ => periods

def periodsOf (hours : List BusinessHoursDay) : Periods :=
  if hours.isEmpty then UBER_WEEKDAYS.foldl (fun periods day => periods.add day midnight lastMinute) fun _ => []
  else hours.foldl Periods.addDay fun _ => []

def toServiceAvailability (hours : List BusinessHoursDay) : List DayAvailability :=
  (UBER_WEEKDAYS.filter fun day => !(periodsOf hours day).isEmpty).map fun day =>
    { dayOfWeek := day, timePeriods := periodsOf hours day }

def TimePeriod.Contains (period : TimePeriod) (minute : Int) : Prop :=
  toMinutes period.startTime ≤ minute ∧ minute < toMinutes period.endTime

/-- The minute of the day is in a period of it that is sent. -/
def Sent (availability : List DayAvailability) (day : Weekday) (minute : Int) : Prop :=
  ∃ e ∈ availability, e.dayOfWeek = day ∧ ∃ period ∈ e.timePeriods, period.Contains minute

/-- The entry opens the minute on its own day, or overnight on the day after. -/
def Opens (d : BusinessHoursDay) (day : Weekday) (minute : Int) : Prop :=
  ∃ opens closes, d.period? = some (opens, closes) ∧
    (d.day = day ∧ opens ≤ minute ∧ (opens < closes → minute < closes) ∨ d.day = previousWeekday day ∧ closes ≤ opens ∧ minute < closes)

def localMinuteOfDay (zone : Zone) (now : Int) : Int := (getLocalParts zone now).hour * 60 + (getLocalParts zone now).minute

section Hours

variable {hours : List BusinessHoursDay} {d : BusinessHoursDay} {day day' : Weekday} {minute : Int} {periods : Periods}
  {startTime endTime opens closes : HHmm}

/-- Times compare as their texts do. -/
theorem text_lt_iff : text opens < text closes ↔ toMinutes opens < toMinutes closes := by
  have hDigit : ∀ i j : Fin 10, (Char.ofNat (48 + i.1) < Char.ofNat (48 + j.1) ↔ i.1 < j.1) ∧
      (Char.ofNat (48 + i.1) = Char.ofNat (48 + j.1) ↔ i.1 = j.1) := by decide
  obtain ⟨⟨h, hh⟩, ⟨m, hm⟩⟩ := opens
  obtain ⟨⟨h', hh'⟩, ⟨m', hm'⟩⟩ := closes
  have hTens := hDigit ⟨h / 10, by omega⟩ ⟨h' / 10, by omega⟩
  have hOnes := hDigit ⟨h % 10, by omega⟩ ⟨h' % 10, by omega⟩
  have mTens := hDigit ⟨m / 10, by omega⟩ ⟨m' / 10, by omega⟩
  have mOnes := hDigit ⟨m % 10, by omega⟩ ⟨m' % 10, by omega⟩
  have hColon : ¬ (':' < ':') := by decide
  dsimp only at hTens hOnes mTens mOnes
  simp only [text, twoDigits, List.cons_append, List.nil_append, List.cons_lt_cons_iff, hTens.1, hTens.2, hOnes.1, hOnes.2, mTens.1,
    mTens.2, mOnes.1, mOnes.2, hColon, true_and, false_or, List.not_lt_nil, and_false, or_false, toMinutes]
  omega

theorem exists_add : (∃ period ∈ periods.add day' startTime endTime day, period.Contains minute) ↔
    (∃ period ∈ periods day, period.Contains minute) ∨ day = day' ∧ toMinutes startTime ≤ minute ∧ minute < toMinutes endTime := by
  unfold Periods.add
  split
  · rename_i hSame
    simp only [List.mem_append, List.mem_singleton, or_and_right, exists_or, exists_eq_left, hSame, true_and]
    rfl
  · rename_i hNe
    simp only [hNe, false_and, or_false]

theorem next_eq_iff : day = nextWeekday day' ↔ day' = previousWeekday day := by
  cases day <;> cases day' <;> decide

theorem exists_addDay (hMinute : 0 ≤ minute ∧ minute < 1439) :
    (∃ period ∈ periods.addDay d day, period.Contains minute) ↔ (∃ period ∈ periods day, period.Contains minute) ∨ Opens d day minute := by
  have hLast : toMinutes lastMinute = 1439 := rfl
  have hMidnight : toMinutes midnight = 0 := rfl
  unfold Periods.addDay Opens BusinessHoursDay.period?
  cases d.isClosed with
  | true => simp
  | false =>
    cases d.open' with
    | none => simp
    | some opens =>
      cases d.close with
      | none => simp
      | some closes =>
        simp only [Bool.false_eq_true, if_false, Option.bind_some, Option.map_some, Option.some.injEq, Prod.mk.injEq, exists_and_left,
          exists_eq_left', and_assoc, text_lt_iff, @eq_comm _ d.day day]
        by_cases hLt : toMinutes opens < toMinutes closes
        · rw [if_pos hLt, exists_add]
          refine or_congr_right ⟨?_, ?_⟩
          · rintro ⟨hDay, hFrom, hUntil⟩
            exact .inl ⟨hDay, hFrom, fun _ => hUntil⟩
          · rintro (⟨hDay, hFrom, hUntil⟩ | ⟨-, hLe, -⟩)
            · exact ⟨hDay, hFrom, hUntil hLt⟩
            · omega
        · rw [if_neg hLt]
          have hTail : (∃ period ∈ (if closes ≠ midnight then (periods.add d.day opens lastMinute).add (nextWeekday d.day) midnight closes
              else periods.add d.day opens lastMinute) day, period.Contains minute) ↔
              (∃ period ∈ periods.add d.day opens lastMinute day, period.Contains minute) ∨
                day = nextWeekday d.day ∧ minute < toMinutes closes := by
            split
            · rw [exists_add, hMidnight]
              refine or_congr_right (and_congr_right fun _ => ?_)
              omega
            · rename_i hAt
              rw [not_not.mp hAt, hMidnight]
              exact (or_iff_left (by omega)).symm
          rw [hTail, exists_add, hLast, next_eq_iff, or_assoc]
          refine or_congr_right ⟨?_, ?_⟩
          · rintro (⟨hDay, hFrom, -⟩ | ⟨hDay, hUntil⟩)
            · exact .inl ⟨hDay, hFrom, fun h => absurd h hLt⟩
            · exact .inr ⟨hDay, not_lt.mp hLt, hUntil⟩
          · rintro (⟨hDay, hFrom, -⟩ | ⟨hDay, -, hUntil⟩)
            · exact .inl ⟨hDay, hFrom, hMinute.2⟩
            · exact .inr ⟨hDay, hUntil⟩

theorem exists_foldl (hMinute : 0 ≤ minute ∧ minute < 1439) :
    (∃ period ∈ hours.foldl Periods.addDay periods day, period.Contains minute) ↔
      (∃ period ∈ periods day, period.Contains minute) ∨ ∃ d ∈ hours, Opens d day minute := by
  induction hours generalizing periods with
  | nil => simp
  | cons d hours ih => rw [List.foldl_cons, ih, exists_addDay hMinute, List.exists_mem_cons_iff, or_assoc]

theorem sent_iff : Sent (toServiceAvailability hours) day minute ↔ ∃ period ∈ periodsOf hours day, period.Contains minute := by
  have hWeekday : day ∈ UBER_WEEKDAYS := by cases day <;> decide
  constructor
  · rintro ⟨e, he, rfl, hPeriod⟩
    obtain ⟨day, -, rfl⟩ := List.mem_map.mp he
    exact hPeriod
  · rintro ⟨period, hMem, hContains⟩
    refine ⟨_, List.mem_map.mpr ⟨day, List.mem_filter.mpr ⟨hWeekday, ?_⟩, rfl⟩, rfl, period, hMem, hContains⟩
    rw [Bool.not_eq_true', List.isEmpty_eq_false_iff]
    exact List.ne_nil_of_mem hMem

/-- Every entry is sent. -/
theorem sent_iff_opens (hHours : hours ≠ []) (hMinute : 0 ≤ minute ∧ minute < 1439) :
    Sent (toServiceAvailability hours) day minute ↔ ∃ d ∈ hours, Opens d day minute := by
  rw [sent_iff, periodsOf, if_neg (by rwa [List.isEmpty_iff]), exists_foldl hMinute]
  simp

/-- The restaurant goes by the first entry of a day. -/
theorem within_iff {zone : Zone} {now : Int} (hHours : hours ≠ []) : isWithinBusinessHours hours zone now = true ↔
    ∃ d ∈ hours, dayByName hours d.day = some d ∧ Opens d (getLocalParts zone now).weekday (localMinuteOfDay zone now) := by
  have hNamed : ∀ {day d}, dayByName hours day = some d ↔ d ∈ hours ∧ dayByName hours d.day = some d ∧ d.day = day := by
    intro day d
    constructor
    · intro h
      unfold dayByName at h
      have hDay := List.find?_some h
      rw [decide_eq_true_eq] at hDay
      exact ⟨List.mem_of_find?_eq_some h, hDay ▸ h, hDay⟩
    · rintro ⟨-, h, rfl⟩
      exact h
  have hToday : ∀ {entry : Option BusinessHoursDay} {m : Int}, isWithinTodaysPeriod entry m = true ↔
      ∃ d, entry = some d ∧ ∃ opens closes, d.period? = some (opens, closes) ∧ opens ≤ m ∧ (opens < closes → m < closes) := by
    intro entry m
    unfold isWithinTodaysPeriod
    rcases entry with _ | d
    · simp
    · rcases hPeriod : d.period? with _ | ⟨opens, closes⟩
      · simp [hPeriod]
      · by_cases hLt : opens < closes <;> simp [hPeriod, hLt]
  have hYesterday : ∀ {entry : Option BusinessHoursDay} {m : Int}, isWithinYesterdaysOvernightTail entry m = true ↔
      ∃ d, entry = some d ∧ ∃ opens closes, d.period? = some (opens, closes) ∧ closes ≤ opens ∧ m < closes := by
    intro entry m
    unfold isWithinYesterdaysOvernightTail
    rcases entry with _ | d
    · simp
    · rcases hPeriod : d.period? with _ | ⟨opens, closes⟩
      · simp [hPeriod]
      · by_cases hLt : opens < closes
        · simp [hPeriod, hLt, not_le.mpr hLt]
        · simp [hPeriod, hLt, not_lt.mp hLt]
  unfold isWithinBusinessHours
  rw [if_neg (by rwa [List.isEmpty_iff])]
  dsimp only
  rw [Bool.or_eq_true, hToday, hYesterday]
  constructor
  · rintro (⟨d, hd, opens, closes, hPeriod, hIn⟩ | ⟨d, hd, opens, closes, hPeriod, hIn⟩)
    · obtain ⟨hMem, hFirst, hDay⟩ := hNamed.mp hd
      exact ⟨d, hMem, hFirst, opens, closes, hPeriod, .inl ⟨hDay, hIn⟩⟩
    · obtain ⟨hMem, hFirst, hDay⟩ := hNamed.mp hd
      exact ⟨d, hMem, hFirst, opens, closes, hPeriod, .inr ⟨hDay, hIn⟩⟩
  · rintro ⟨d, hMem, hFirst, opens, closes, hPeriod, ⟨hDay, hIn⟩ | ⟨hDay, hIn⟩⟩
    · exact .inl ⟨d, hNamed.mpr ⟨hMem, hFirst, hDay⟩, opens, closes, hPeriod, hIn⟩
    · exact .inr ⟨d, hNamed.mpr ⟨hMem, hFirst, hDay⟩, opens, closes, hPeriod, hIn⟩

theorem localMinuteOfDay_bounds (zone : Zone) (now : Int) : 0 ≤ localMinuteOfDay zone now ∧ localMinuteOfDay zone now < 1440 := by
  unfold localMinuteOfDay getLocalParts
  dsimp only
  omega

/-- Every minute of the week comes. -/
theorem exists_instant (day : Weekday) (hMinute : 0 ≤ minute ∧ minute < 1440) :
    ∃ now, (getLocalParts (fun _ => 0) now).weekday = day ∧ localMinuteOfDay (fun _ => 0) now = minute := by
  have hDate : ∃ date : Int, weekdayOf date = day := by
    cases day with
    | sunday => exact ⟨3, rfl⟩
    | monday => exact ⟨4, rfl⟩
    | tuesday => exact ⟨5, rfl⟩
    | wednesday => exact ⟨6, rfl⟩
    | thursday => exact ⟨0, rfl⟩
    | friday => exact ⟨1, rfl⟩
    | saturday => exact ⟨2, rfl⟩
  obtain ⟨date, rfl⟩ := hDate
  have hLocal : localMinute (fun _ => 0) ((date * 1440 + minute) * 60000) = date * 1440 + minute := by
    unfold localMinute
    dsimp only
    omega
  refine ⟨(date * 1440 + minute) * 60000, ?_, ?_⟩
  · unfold getLocalParts
    dsimp only
    rw [hLocal]
    congr 1
    omega
  · unfold localMinuteOfDay getLocalParts
    dsimp only
    rw [hLocal]
    omega

/-- The hours that are sent are the restaurant's own exactly if no entry opens
a minute that the first entries of the days do not. -/
theorem hours_sent_iff (hours : List BusinessHoursDay) :
    (∀ zone now, localMinuteOfDay zone now ≠ 1439 →
      (Sent (toServiceAvailability hours) (getLocalParts zone now).weekday (localMinuteOfDay zone now) ↔
        isWithinBusinessHours hours zone now = true)) ↔
      ∀ d ∈ hours, ∀ day minute, 0 ≤ minute ∧ minute < 1439 → Opens d day minute →
        ∃ first ∈ hours, dayByName hours first.day = some first ∧ Opens first day minute := by
  constructor
  · intro h d hd day minute hMinute hOpens
    obtain ⟨now, rfl, rfl⟩ := @exists_instant minute day (by omega)
    have hHours := List.ne_nil_of_mem hd
    exact (within_iff hHours).mp ((h _ now (by omega)).mp ((sent_iff_opens hHours hMinute).mpr ⟨d, hd, hOpens⟩))
  · intro h zone now hNot
    have hBounds := localMinuteOfDay_bounds zone now
    have hMinute : 0 ≤ localMinuteOfDay zone now ∧ localMinuteOfDay zone now < 1439 := by omega
    by_cases hHours : hours = []
    · subst hHours
      refine iff_of_true ((sent_iff).mpr ⟨⟨midnight, lastMinute⟩, ?_, hMinute⟩) rfl
      generalize (getLocalParts zone now).weekday = day
      have hOnly := List.mem_singleton_self (⟨midnight, lastMinute⟩ : TimePeriod)
      cases day <;> exact hOnly
    · rw [sent_iff_opens hHours hMinute, within_iff hHours]
      constructor
      · rintro ⟨d, hd, hOpens⟩
        exact h d hd _ _ hMinute hOpens
      · rintro ⟨d, hd, -, hOpens⟩
        exact ⟨d, hd, hOpens⟩

end Hours

end RestaurantOs.ServiceHours
