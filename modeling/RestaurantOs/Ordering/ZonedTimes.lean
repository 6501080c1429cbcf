import RestaurantOs.Ordering.BusinessHours

/-!
# Local times and instants

A local time is turned into an instant by two corrections of a guess. The zone has
at most two offsets where they look, and the second correction ends at the one
under which the time exists.
-/

namespace RestaurantOs.BusinessHours

def HOUR_MS : Int := 60 * 60000

/-- The clock changes at the instant `t`. -/
def Zone.ChangesAt (zone : Zone) (t : Int) : Prop := zone (t - 1) ≠ zone t

def Zone.ChangesRarely (zone : Zone) : Prop := ∀ s t, zone.ChangesAt s → zone.ChangesAt t → s < t → 48 * HOUR_MS ≤ t - s

def Zone.Bounded (zone : Zone) : Prop := ∀ t, -840 ≤ zone t ∧ zone t ≤ 840

def wallClock (zone : Zone) (instant : Int) : Int := instant + zone instant * 60000

def LocalParts.Shows (parts : LocalParts) (date hour minute : Int) : Prop :=
  parts.date = date ∧ parts.hour = hour ∧ parts.minute = minute

section Changes

variable {zone : Zone} {x y z : Int}

theorem Zone.exists_change (k : Nat) (h : zone x ≠ zone (x + k)) : ∃ t, x < t ∧ t ≤ x + k ∧ zone.ChangesAt t := by
  induction k with
  | zero =>
    rw [Int.natCast_zero, Int.add_zero] at h
    exact absurd rfl h
  | succ k ih =>
    by_cases hBefore : zone x = zone (x + k)
    · refine ⟨x + (k + 1 : Nat), by omega, le_refl _, ?_⟩
      have hPrevious : x + (k + 1 : Nat) - 1 = x + k := by omega
      rw [Zone.ChangesAt, hPrevious, ← hBefore]
      exact h
    · obtain ⟨t, hLater, hBy, hChange⟩ := ih hBefore
      exact ⟨t, hLater, by omega, hChange⟩

theorem Zone.exists_change_between (hLt : x < y) (h : zone x ≠ zone y) : ∃ t, x < t ∧ t ≤ y ∧ zone.ChangesAt t := by
  obtain ⟨k, hk⟩ : ∃ k : Nat, y = x + k := ⟨(y - x).toNat, by omega⟩
  rw [hk] at h ⊢
  exact Zone.exists_change k h

theorem Zone.eq_of_lt (hRare : zone.ChangesRarely) (hxy : x < y) (hyz : y < z) (hNear : z - x ≤ 48 * HOUR_MS) :
    zone x = zone y ∨ zone y = zone z := by
  by_contra hNe
  rw [not_or] at hNe
  obtain ⟨s, hxs, hsy, hs⟩ := Zone.exists_change_between hxy hNe.1
  obtain ⟨t, hyt, htz, ht⟩ := Zone.exists_change_between hyz hNe.2
  have hApart := hRare s t hs ht (by omega)
  omega

theorem Zone.two_offsets (hRare : zone.ChangesRarely) {low : Int} (hx : low ≤ x ∧ x ≤ low + 48 * HOUR_MS)
    (hy : low ≤ y ∧ y ≤ low + 48 * HOUR_MS) (hz : low ≤ z ∧ z ≤ low + 48 * HOUR_MS) :
    zone x = zone y ∨ zone y = zone z ∨ zone x = zone z := by
  by_contra hNe
  rw [not_or, not_or] at hNe
  obtain ⟨hxy, hyz, hxz⟩ := hNe
  have hLtXY := lt_or_gt_of_ne (ne_of_apply_ne zone hxy)
  have hLtYZ := lt_or_gt_of_ne (ne_of_apply_ne zone hyz)
  have hLtXZ := lt_or_gt_of_ne (ne_of_apply_ne zone hxz)
  -- Whichever lies in the middle has the offset of one of the others.
  have hMiddle : ∀ {a b c : Int}, a < b → b < c → c - a ≤ 48 * HOUR_MS → zone a ≠ zone b → zone b ≠ zone c → False := by
    intro a b c hab hbc hNear hNeAB hNeBC
    rcases Zone.eq_of_lt hRare hab hbc hNear with h | h
    · exact hNeAB h
    · exact hNeBC h
  rcases hLtXY with hXY | hXY
  · rcases hLtYZ with hYZ | hYZ
    · exact hMiddle hXY hYZ (by omega) hxy hyz
    · rcases hLtXZ with hXZ | hXZ
      · exact hMiddle hXZ hYZ (by omega) hxz (Ne.symm hyz)
      · exact hMiddle hXZ hXY (by omega) (Ne.symm hxz) hxy
  · rcases hLtYZ with hYZ | hYZ
    · rcases hLtXZ with hXZ | hXZ
      · exact hMiddle hXY hXZ (by omega) (Ne.symm hxy) hxz
      · exact hMiddle hYZ hXZ (by omega) hyz (Ne.symm hxz)
    · exact hMiddle hYZ hXY (by omega) (Ne.symm hyz) (Ne.symm hxy)

end Changes

section Corrections

variable {zone : Zone} {naive t : Int}

theorem Zone.second_guess (hBounded : zone.Bounded) (hRare : zone.ChangesRarely) (hExists : wallClock zone t = naive) :
    wallClock zone (naive - zone (naive - zone naive * 60000) * 60000) = naive := by
  unfold wallClock at hExists ⊢
  generalize hFirst : naive - zone naive * 60000 = first
  generalize hSecond : naive - zone first * 60000 = second
  have hAtNaive := hBounded naive
  have hAtFirst := hBounded first
  have hAtT := hBounded t
  have hNearNaive : naive - 14 * HOUR_MS ≤ naive ∧ naive ≤ naive - 14 * HOUR_MS + 48 * HOUR_MS := by unfold HOUR_MS; omega
  have hNearFirst : naive - 14 * HOUR_MS ≤ first ∧ first ≤ naive - 14 * HOUR_MS + 48 * HOUR_MS := by unfold HOUR_MS; omega
  have hNearSecond : naive - 14 * HOUR_MS ≤ second ∧ second ≤ naive - 14 * HOUR_MS + 48 * HOUR_MS := by unfold HOUR_MS; omega
  have hNearT : naive - 14 * HOUR_MS ≤ t ∧ t ≤ naive - 14 * HOUR_MS + 48 * HOUR_MS := by unfold HOUR_MS; omega
  have hSame : zone second = zone first := by
    by_contra hNe
    -- The time exists under the offset of the second guess, for under the other it would be that guess.
    have hOffset : zone t = zone second := by
      rcases Zone.two_offsets hRare hNearFirst hNearSecond hNearT with h | h | h
      · exact absurd h.symm hNe
      · exact h.symm
      · have hEq : t = second := by omega
        rw [hEq]
    -- Then it was the first guess, or the first guess was as good as the second.
    rcases Zone.two_offsets hRare hNearFirst hNearSecond hNearNaive with h | h | h
    · exact hNe h.symm
    · have hEq : t = first := by omega
      rw [hEq] at hOffset
      exact hNe hOffset.symm
    · have hEq : second = first := by omega
      rw [hEq] at hNe
      exact hNe rfl
  omega

theorem shows_of_wallClock {date hour minute : Int} (hHour : 0 ≤ hour ∧ hour < 24) (hMinute : 0 ≤ minute ∧ minute < 60)
    (h : wallClock zone t = (date * 1440 + hour * 60 + minute) * 60000) : (getLocalParts zone t).Shows date hour minute := by
  have hLocal : localMinute zone t = date * 1440 + hour * 60 + minute := by
    unfold wallClock at h
    unfold localMinute
    omega
  unfold getLocalParts LocalParts.Shows
  dsimp only
  rw [hLocal]
  refine ⟨by omega, by omega, by omega⟩

theorem wallClock_of_shows {date hour minute : Int} (hWhole : zone (t / 60000 * 60000) = zone t)
    (h : (getLocalParts zone t).Shows date hour minute) :
    wallClock zone (t / 60000 * 60000) = (date * 1440 + hour * 60 + minute) * 60000 := by
  unfold getLocalParts LocalParts.Shows localMinute at h
  dsimp only at h
  unfold wallClock
  rw [hWhole]
  omega

end Corrections

/-- A local time that exists is turned into an instant at which the clocks show it, to the millisecond. Where the clock
changes on whole minutes only, it is enough that some instant shows the time's minute. -/
theorem zonedTimeToUtc_shows (zone : Zone) (hBounded : zone.Bounded) (hRare : zone.ChangesRarely) (date hour minute : Int)
    (hHour : 0 ≤ hour ∧ hour < 24) (hMinute : 0 ≤ minute ∧ minute < 60)
    (hExists : (∃ t, wallClock zone t = (date * 1440 + hour * 60 + minute) * 60000) ∨
      (∀ t, zone (t / 60000 * 60000) = zone t) ∧ ∃ t, (getLocalParts zone t).Shows date hour minute) :
    wallClock zone (zonedTimeToUtc zone date hour minute) = (date * 1440 + hour * 60 + minute) * 60000 ∧
      (getLocalParts zone (zonedTimeToUtc zone date hour minute)).Shows date hour minute := by
  obtain ⟨t, ht⟩ : ∃ t, wallClock zone t = (date * 1440 + hour * 60 + minute) * 60000 := by
    rcases hExists with hExact | ⟨hWhole, t, ht⟩
    · exact hExact
    · exact ⟨_, wallClock_of_shows (hWhole t) ht⟩
  have hClock := Zone.second_guess hBounded hRare ht
  exact ⟨hClock, shows_of_wallClock hHour hMinute hClock⟩

namespace SpringForward

def zone : Zone := fun t => if t < 31 * HOUR_MS then -300 else -240

theorem bounded : zone.Bounded := by
  intro t
  unfold zone
  split
  · omega
  · omega

theorem changes_rarely : zone.ChangesRarely := by
  intro s t hs ht hLt
  unfold Zone.ChangesAt zone at hs ht
  split at hs
  · split at hs
    · exact absurd rfl hs
    · split at ht
      · omega
      · split at ht
        · omega
        · exact absurd rfl ht
  · split at hs
    · omega
    · exact absurd rfl hs

end SpringForward

/-- Three in the morning, the first minute after the change. -/
theorem three_after_change : (getLocalParts SpringForward.zone (zonedTimeToUtc SpringForward.zone 1 3 0)).Shows 1 3 0 :=
  (zonedTimeToUtc_shows SpringForward.zone SpringForward.bounded SpringForward.changes_rarely 1 3 0 (by decide) (by decide)
    (.inl ⟨31 * HOUR_MS, by decide⟩)).2

end RestaurantOs.BusinessHours
