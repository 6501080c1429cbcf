import Mathlib.Algebra.Order.Floor.Ring
import Mathlib.Algebra.Order.Floor.Semiring
import Mathlib.Data.Rat.Floor
import Mathlib.Tactic.FieldSimp
import Mathlib.Tactic.Linarith
import Mathlib.Tactic.NormNum
import RestaurantOs.Payments.Types

/-!
# Status rules

The payment state machine, the refund transitions, when a refund is held, and
the status a payment takes from what has been refunded.
-/

namespace RestaurantOs.Payments

/-- `TRANSITIONS`: what a provider's report may change a payment to. -/
def transitions : PaymentStatus → List PaymentStatus
  | .pending => [.requiresAction, .authorized, .paid, .failed, .cancelled]
  | .requiresAction => [.authorized, .paid, .failed, .cancelled]
  | .authorized => [.paid, .failed, .cancelled]
  | .paid => []
  | .failed => []
  | .cancelled => []
  | .refunded => []
  | .partiallyRefunded => []

def isValidPaymentTransition (src dst : PaymentStatus) : Bool := (transitions src).contains dst

/-- `["paid", "partially_refunded", "refunded"].includes(status)` -/
def PaymentStatus.collected : PaymentStatus → Bool
  | paid => true
  | partiallyRefunded => true
  | refunded => true
  | _ => false

/-- `status: { $in: ["paid", "partially_refunded"] }` -/
def PaymentStatus.refundable : PaymentStatus → Bool
  | paid => true
  | partiallyRefunded => true
  | _ => false

/-- `status: { $in: ["pending", "requires_action", "authorized"] }` -/
def PaymentStatus.inFlight : PaymentStatus → Bool
  | pending => true
  | requiresAction => true
  | authorized => true
  | _ => false

theorem isValidPaymentTransition_ne_refunded {src dst : PaymentStatus}
    (h : isValidPaymentTransition src dst = true) :
    dst ≠ .refunded ∧ dst ≠ .partiallyRefunded ∧ dst ≠ .pending := by
  cases src <;> cases dst <;> simp_all [isValidPaymentTransition, transitions]

def refundTransitions : RefundStatus → List RefundStatus
  | .pending => [.succeeded, .failed]
  | .succeeded => [.failed]
  | .failed => []

theorem refundTransitions_cases {src dst : RefundStatus} (h : dst ∈ refundTransitions src) :
    (src = .pending ∧ dst = .succeeded) ∨ (src = .pending ∧ dst = .failed) ∨ (src = .succeeded ∧ dst = .failed) := by
  cases src <;> cases dst <;> simp_all [refundTransitions]

theorem refundTransitions_ne_pending {src dst : RefundStatus} (h : dst ∈ refundTransitions src) :
    dst ≠ .pending := by
  cases src <;> cases dst <;> simp_all [refundTransitions]

def PROVIDER_IDEMPOTENCY_WINDOW_MS : Time := 23 * 60 * 60 * 1000

def MANUAL_NOT_REFUNDED_MIN_HOLD_MS : Time := 30 * 60 * 1000

def LOOKUP_EVIDENCE_MAX_AGE_MS : Time := 15 * 60 * 1000

def STALE_REFUND_CLAIM_MS : Time := 5 * 60 * 1000

def RECONCILIATION_STALE_AFTER_MS : Time := 15 * 60 * 1000

def RECONCILIATION_BATCH_LIMIT : Nat := 500

def truthy (s : Option String) : Option String := s.filter (· ≠ "")

/-- Nobody knows whether the provider refunded: the outcome of its call is
unknown, or the request was interrupted before it recorded any answer. -/
def isHeld (now : Time) (refund : Refund) : Bool :=
  refund.status = .pending ∧
    (refund.providerOutcomeUnknown ∨
      ((truthy refund.providerRefundRef).isNone ∧ now > refund.createdAt + STALE_REFUND_CLAIM_MS))

def providerRefundIdempotencyKey (restaurantId : Id) (idempotencyKey : String) : ProviderRefundKey :=
  ⟨restaurantId, idempotencyKey⟩

/-- `claim.providerRefundKey ?? providerRefundIdempotencyKey(…)` -/
def Refund.refundKey (refund : Refund) : ProviderRefundKey :=
  refund.providerRefundKey.getD (providerRefundIdempotencyKey refund.restaurantId refund.idempotencyKey)

/-- `Math.round(amount * 100) / 100` -/
def roundCurrency (amount : ℚ) : ℚ := (amount * 100 + 1 / 2).floor / 100

/-- The status a payment of `amount` takes when `succeeded` of it has been
refunded. -/
def refundedStatus (amount succeeded : ℚ) : PaymentStatus :=
  if succeeded ≥ amount then .refunded else if succeeded > 0 then .partiallyRefunded else .paid

theorem refundedStatus_collected (amount succeeded : ℚ) : (refundedStatus amount succeeded).collected = true := by
  unfold refundedStatus
  split
  · rfl
  · split <;> rfl

def WholeCents (amount : ℚ) : Prop := ∃ n : ℤ, amount = n / 100

theorem WholeCents.zero : WholeCents 0 := ⟨0, by norm_num⟩

theorem WholeCents.add {a b : ℚ} (ha : WholeCents a) (hb : WholeCents b) : WholeCents (a + b) := by
  obtain ⟨m, rfl⟩ := ha
  obtain ⟨n, rfl⟩ := hb
  exact ⟨m + n, by push_cast; ring⟩

theorem roundCurrency_of_wholeCents {amount : ℚ} (h : WholeCents amount) : roundCurrency amount = amount := by
  obtain ⟨n, rfl⟩ := h
  have hFloor : ((n : ℚ) / 100 * 100 + 1 / 2).floor = n := by
    change ⌊(n : ℚ) / 100 * 100 + 1 / 2⌋ = n
    rw [Int.floor_eq_iff]
    constructor <;> norm_num
  rw [roundCurrency, hFloor]

end RestaurantOs.Payments
