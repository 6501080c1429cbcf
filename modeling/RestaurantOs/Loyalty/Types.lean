import RestaurantOs.Payments.Rules

/-!
# Loyalty points

A customer has one account at each restaurant. Every change of its balance is
meant to be recorded as a transaction.
-/

namespace RestaurantOs.Loyalty

export Payments (Id Time ApiError Err OrderStatus roundCurrency)

inductive Tier
  | bronze | silver | gold
  deriving DecidableEq

/-- The unique index: it identifies an account. -/
structure AccountKey where
  restaurantId : Id
  customerId : Id
  deriving DecidableEq

structure LoyaltyAccount where
  key : AccountKey
  pointsBalance : ℚ := 0
  tier : Tier := .bronze
  deriving DecidableEq

inductive TransactionType
  | earn | redeem | adjustment
  deriving DecidableEq

structure LoyaltyTransaction where
  key : AccountKey
  orderId : Id
  type : TransactionType
  points : ℚ
  reason : String
  deriving DecidableEq

structure Order extends Payments.Order where
  subtotal : ℚ
  taxAmount : ℚ := 0
  deliveryFee : ℚ := 0
  discount : ℚ := 0
  promoDiscount : ℚ := 0
  loyaltyPointsEarned : ℚ := 0
  loyaltyPointsRedeemed : ℚ := 0
  loyaltyReversed : Bool := false
  deriving DecidableEq

def Order.key (order : Order) : AccountKey := ⟨order.restaurantId, order.customerId⟩

/-- `min: 0` of the amounts in the schema. -/
def Order.amountsValid (order : Order) : Bool :=
  0 ≤ order.subtotal && 0 ≤ order.taxAmount && 0 ≤ order.deliveryFee && 0 ≤ order.discount && 0 ≤ order.promoDiscount &&
    0 ≤ order.total

def POINTS_PER_CURRENCY_UNIT : ℚ := 1

def TIER_THRESHOLDS : List (Tier × ℚ) := [(.gold, 2000), (.silver, 500), (.bronze, 0)]

/-- `TIER_THRESHOLDS.find((t) => points >= t.minPoints)!.tier` -/
def tierForPoints (points : ℚ) : Except Err Tier :=
  match TIER_THRESHOLDS.find? fun t => points ≥ t.2 with
  | some t => .ok t.1
  | none => .error (.other "Cannot read properties of undefined (reading 'tier')")

def pointsForSpend (subtotal : ℚ) : ℚ := (subtotal * POINTS_PER_CURRENCY_UNIT).floor

theorem tierForPoints_of_nonneg {points : ℚ} (h : 0 ≤ points) : ∃ tier, tierForPoints points = .ok tier := by
  have hFound : (TIER_THRESHOLDS.find? fun t => points ≥ t.2).isSome := by
    rw [List.find?_isSome]
    exact ⟨(.bronze, 0), by simp [TIER_THRESHOLDS], by simpa using h⟩
  obtain ⟨t, ht⟩ := Option.isSome_iff_exists.mp hFound
  exact ⟨t.1, by rw [tierForPoints, ht]⟩

structure LoyaltyAccount.Sound (account : LoyaltyAccount) : Prop where
  nonneg : 0 ≤ account.pointsBalance
  tier : tierForPoints account.pointsBalance = .ok account.tier

end RestaurantOs.Loyalty
