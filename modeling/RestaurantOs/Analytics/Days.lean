import Mathlib.Algebra.Order.Group.Unbundled.Int

/-!
# Days of a time zone

An instant is a number of milliseconds and a date one of days, both since the
epoch. A time zone says how far its clocks are from UTC at each instant; its
dates never run backwards, so each has a first instant.
-/

namespace RestaurantOs.Analytics

abbrev Instant := Int

abbrev Date := Int

def MS_PER_MINUTE : Int := 60 * 1000

def MS_PER_DAY : Int := 24 * 60 * 60 * 1000

/-- The date that clocks show which are `offset` minutes ahead of UTC. -/
def localDate (offset : Instant → Int) (t : Instant) : Date := (t + offset t * MS_PER_MINUTE) / MS_PER_DAY

def midnight (day : Date) : Instant := day * MS_PER_DAY

theorem localDate_midnight (day offset : Int) (h : -1440 < offset ∧ offset < 1440) :
    (day * 86400000 + offset * 60000) / 86400000 = if 0 ≤ offset then day else day - 1 := by
  split <;> omega

theorem le_localDate_iff (day t minutes : Int) :
    day * 86400000 - minutes * 60000 ≤ t ↔ day ≤ (t + minutes * 60000) / 86400000 := by
  omega

structure Timezone where
  offset : Instant → Int
  bounded : ∀ t, -1440 < offset t ∧ offset t < 1440
  dayStart : Date → Instant
  starts : ∀ day t, dayStart day ≤ t ↔ day ≤ localDate offset t

namespace Timezone

variable {zone : Timezone} {day : Date} {t : Instant}

def date (zone : Timezone) (t : Instant) : Date := localDate zone.offset t

theorem le_date_iff : day ≤ zone.date t ↔ zone.dayStart day ≤ t := (zone.starts day t).symm

theorem date_lt_iff : zone.date t < day ↔ t < zone.dayStart day := by
  rw [← not_le, ← not_le, le_date_iff]

theorem date_mono {t' : Instant} (h : t ≤ t') : zone.date t ≤ zone.date t' :=
  (le_date_iff).mpr (((le_date_iff).mp (le_refl _)).trans h)

theorem date_midnight (h : 0 ≤ zone.offset (midnight day)) : zone.date (midnight day) = day :=
  (localDate_midnight day _ (zone.bounded _)).trans (if_pos h)

theorem date_midnight_behind (h : zone.offset (midnight day) < 0) : zone.date (midnight day) = day - 1 :=
  (localDate_midnight day _ (zone.bounded _)).trans (if_neg (Int.not_le.mpr h))

theorem date_midnight_le : zone.date (midnight day) ≤ day := by
  rcases Int.lt_or_le (zone.offset (midnight day)) 0 with hBehind | hNot
  · rw [date_midnight_behind hBehind]
    exact Int.sub_le_self day (by decide)
  · rw [date_midnight hNot]

/-- Clocks that are always `minutes` ahead. -/
def fixed (minutes : Int) (h : -1440 < minutes ∧ minutes < 1440) : Timezone where
  offset _ := minutes
  bounded _ := h
  dayStart day := midnight day - minutes * MS_PER_MINUTE
  starts day t := le_localDate_iff day t minutes

def UTC : Timezone := fixed 0 (by decide)

end Timezone

/-- `$dateTrunc: { date, unit: "day", timezone }` -/
def timezoneAwareDayStart (date : Instant) (timezone : Timezone) : Instant := timezone.dayStart (timezone.date date)

end RestaurantOs.Analytics
