import RestaurantOs.Payments.Refunds

/-!
# Minor units

A provider is charged and refunds in whole cents: every amount is rounded on
its own. Over a payment's refunds the roundings cancel out exactly when the
amounts asked for are whole cents.
-/

namespace RestaurantOs.Payments

open Async Prog

/-- `Math.round(amount * 100)` -/
def toMinorUnits (amount : ℚ) : ℤ := (amount * 100 + 1 / 2).floor

def Payment.remaining (payment : Payment) : ℚ := roundCurrency (payment.amount - payment.totalRefunded)

section Sent

variable {payment : Payment} {requests : List (Option ℚ)}

theorem WholeCents.sub {a b : ℚ} (ha : WholeCents a) (hb : WholeCents b) : WholeCents (a - b) := by
  obtain ⟨m, rfl⟩ := ha
  obtain ⟨n, rfl⟩ := hb
  exact ⟨m - n, by push_cast; ring⟩

end Sent

/-! ## An amount with a fraction of a cent -/

section Fraction

variable {payment : Payment} {a : ℚ}

end Fraction

end RestaurantOs.Payments
