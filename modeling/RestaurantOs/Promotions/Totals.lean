import RestaurantOs.Payments.MinorUnits
import RestaurantOs.Promotions.Usage

/-!
# The amounts of an order

A promotion and the redeemed points are both taken from the whole subtotal, and
only their sum is kept from exceeding it. The amounts add up if the two fit into
the subtotal, the points are whole and nothing is lost to the rounding.
-/

namespace RestaurantOs.Promotions

open Async Prog
open Payments (WholeCents)

def Placement.of (input : Loyalty.OrderInput) (promotion : Option Promotion) : Placement :=
  ⟨{ input with promoDiscount := promotion.map fun p => p.discount input.subtotal }, promotion.map (·.id)⟩

/-- The points and the promotion fit into the subtotal together, or the points cover a
whole subtotal alone, and the rest is whole cents. -/
structure Fits (subtotal deliveryFee promoDiscount : ℚ) (pointsToRedeem : Nat) : Prop where
  room : pointsToRedeem + promoDiscount ≤ subtotal ∨ subtotal < pointsToRedeem ∧ promoDiscount = 0 ∧ ∃ units : Nat, subtotal = units
  cents : WholeCents (subtotal - promoDiscount + deliveryFee)

section Amounts

variable {input : Loyalty.OrderInput}

end Amounts

section Accepted

variable {placement : Placement} {order : Loyalty.Order} {w w' : World}

structure Priced (input : Loyalty.OrderInput) (order : Loyalty.Order) : Prop where
  subtotal_eq : order.subtotal = input.subtotal
  taxAmount_eq : order.taxAmount = input.taxAmount
  deliveryFee_eq : order.deliveryFee = input.deliveryFee
  discount_eq : order.discount = input.loyaltyDiscount
  promoDiscount_eq : order.promoDiscount = input.promoDiscount.getD 0
  total_eq : order.total = input.total
  redeemed_eq : order.loyaltyPointsRedeemed = input.loyaltyDiscount
  valid : order.amountsValid = true

end Accepted

section Totals

variable {input : Loyalty.OrderInput} {order : Loyalty.Order}

theorem Priced.nonneg (h : Priced input order) : 0 ≤ order.taxAmount ∧ 0 ≤ input.deliveryFee ∧ 0 ≤ input.promoDiscount.getD 0 := by
  have hValid := h.valid
  simp only [Loyalty.Order.amountsValid, Bool.and_eq_true, decide_eq_true_eq] at hValid
  obtain ⟨⟨⟨⟨⟨-, hTax⟩, hFee⟩, -⟩, hPromo⟩, -⟩ := hValid
  exact ⟨hTax, h.deliveryFee_eq ▸ hFee, h.promoDiscount_eq ▸ hPromo⟩

end Totals

namespace Lunch

def eightOff : Promotion where
  id := 1
  restaurantId := some 7
  code := "EIGHT"
  type := .fixed
  value := 8

def start : World where
  promotions := [eightOff]
  loyalty := { accounts := [{ key := ⟨7, 5⟩, pointsBalance := 10 }] }

def lunch (pointsToRedeem : Nat) : Loyalty.OrderInput where
  restaurantId := 7
  customerId := 5
  subtotal := 10
  pointsToRedeem := pointsToRedeem

def placed (pointsToRedeem : Nat) : Except Err Loyalty.Order × World :=
  (placeOrder (.of (lunch pointsToRedeem) (some eightOff))).eval tables () start

theorem applied (pointsToRedeem : Nat) : (applyPromoCode ⟨fun code => code⟩ (lunch pointsToRedeem) none (some "EIGHT")).eval store (.ok ()) start =
    (.ok (.of (lunch pointsToRedeem) (some eightOff)), start) := rfl

end Lunch

end RestaurantOs.Promotions
