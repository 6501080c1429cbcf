import Mathlib.Algebra.Order.Field.Rat

/-!
# The payments data model

Documents carry the fields that the payment and refund code reads. Ids and
times are numbers, a time counts milliseconds, an amount is exact, and an
optional field that is unset is `none`.
-/

namespace RestaurantOs.Payments

abbrev Id := Nat

abbrev Time := Nat

inductive PaymentStatus
  | pending | requiresAction | authorized | paid | failed | cancelled | refunded | partiallyRefunded
  deriving DecidableEq

inductive PaymentMethod
  | online | posTerminal
  deriving DecidableEq

inductive ProviderName
  | mock | safepay | stripe
  deriving DecidableEq

inductive RefundStatus
  | pending | succeeded | failed
  deriving DecidableEq

structure Payment where
  id : Id
  restaurantId : Id
  orderId : Id
  customerId : Id
  method : PaymentMethod := .online
  provider : ProviderName
  providerRef : Option String
  restaurantPaymentAccountId : Option Id := none
  currency : String
  amount : ℚ
  status : PaymentStatus := .pending
  totalRefunded : ℚ := 0
  idempotencyKey : Option String
  createdAt : Time
  deriving DecidableEq

/-- `gt_refund_${sha256(restaurantId:idempotencyKey)}`. The digest stands for
the pair it is taken of. -/
structure ProviderRefundKey where
  restaurantId : Id
  idempotencyKey : String
  deriving DecidableEq

inductive LookupResult
  | found | notFound | inconclusive
  deriving DecidableEq

inductive ReportMethod
  | providerResponse | providerLookup | webhook | manual
  deriving DecidableEq

structure Resolution where
  method : ReportMethod
  refunded : Bool
  providerRefundRef : Option String
  evidence : Option String
  resolvedByUserId : Option Id
  resolvedAt : Time
  deriving DecidableEq

structure Refund where
  id : Id
  restaurantId : Id
  paymentId : Id
  orderId : Id
  provider : ProviderName
  providerRefundRef : Option String := none
  amount : ℚ
  reason : Option String := none
  status : RefundStatus := .pending
  idempotencyKey : String
  providerOutcomeUnknown : Bool := false
  amountReserved : Bool := false
  reissueLeaseUntil : Option Time := none
  providerRefundKey : Option ProviderRefundKey := none
  providerStatus : Option String := none
  lastLookupAt : Option Time := none
  lastLookupResult : Option LookupResult := none
  resolution : Option Resolution := none
  initiatedByUserId : Id
  createdAt : Time
  deriving DecidableEq

inductive OrderStatus
  | pending | confirmed | preparing | ready | outForDelivery | completed | cancelled
  deriving DecidableEq

inductive OrderChannel
  | online | pos | marketplace
  deriving DecidableEq

inductive OrderPaymentMethod
  | cash | card | online | marketplace
  deriving DecidableEq

def OrderStatus.text : OrderStatus → String
  | pending => "pending"
  | confirmed => "confirmed"
  | preparing => "preparing"
  | ready => "ready"
  | outForDelivery => "out_for_delivery"
  | completed => "completed"
  | cancelled => "cancelled"

def OrderPaymentMethod.name : OrderPaymentMethod → String
  | cash => "cash"
  | card => "card"
  | online => "online"
  | marketplace => "marketplace"

inductive OrderType
  | pickup | delivery | dineIn
  deriving DecidableEq

structure StatusHistoryEntry where
  status : OrderStatus
  time : Time
  deriving DecidableEq

structure Order where
  id : Id
  restaurantId : Id
  customerId : Id
  orderNumber : String
  status : OrderStatus := .pending
  statusHistory : List StatusHistoryEntry := []
  orderType : OrderType := .pickup
  channel : OrderChannel := .online
  paymentMethod : OrderPaymentMethod := .cash
  /-- `paymentStatus === "paid"` -/
  paid : Bool := false
  total : ℚ
  currency : String
  deriving DecidableEq

inductive RestaurantStatus
  | pending | active | suspended
  deriving DecidableEq

structure Restaurant where
  id : Id
  businessId : Option Id := none
  status : RestaurantStatus := .active
  currency : String
  country : Option String := none
  email : Option String := none
  posTerminalEnabled : Bool := false
  deriving DecidableEq

structure PaymentWebhookEvent where
  provider : ProviderName
  eventId : String
  eventType : String
  processedAt : Option Time := none
  processingError : Option String := none
  deriving DecidableEq

inductive ConnectionMode
  | platformConnect | merchantCredentials
  deriving DecidableEq

inductive AccountStatus
  | pendingVerification | active | actionRequired | invalid | disconnected
  deriving DecidableEq

structure RestaurantPaymentAccount where
  id : Id
  restaurantId : Id
  provider : ProviderName
  connectionMode : ConnectionMode := .merchantCredentials
  status : AccountStatus := .pendingVerification
  connectedAccountId : Option String := none
  chargesEnabled : Option Bool := none
  payoutsEnabled : Option Bool := none
  requirementsDue : Option (List String) := none
  disabledReason : Option String := none
  encryptedCredentials : Option String := none
  lastVerifiedAt : Option Time := none
  lastVerificationError : Option String := none
  firstWebhookReceivedAt : Option Time := none
  createdAt : Time
  deriving DecidableEq

structure ApiError where
  statusCode : Nat
  code : String
  message : String
  deriving DecidableEq

namespace ApiError

def badRequest (message : String) : ApiError := ⟨400, "VALIDATION_ERROR", message⟩

def forbidden : ApiError := ⟨403, "FORBIDDEN", "Forbidden"⟩

def notFound (message : String) : ApiError := ⟨404, "NOT_FOUND", message⟩

def conflict (message : String) : ApiError := ⟨409, "CONFLICT", message⟩

def serviceUnavailable (message : String) : ApiError := ⟨503, "INTERNAL_ERROR", message⟩

end ApiError

/-- What a `ProviderRequestError` says about the call. -/
inductive RequestOutcome
  | rejected | unknown
  deriving DecidableEq

inductive Err
  | api (error : ApiError)
  | providerRequest (message : String) (outcome : RequestOutcome)
  | duplicateKey
  | other (message : String)
  deriving DecidableEq

/-- `(err as { code?: number }).code === 11000` -/
def Err.isDuplicateKey : Err → Bool
  | duplicateKey => true
  | _ => false

/-- `err instanceof ProviderRequestError && err.outcome === "rejected"` -/
def Err.isRejected : Err → Bool
  | providerRequest _ .rejected => true
  | _ => false

/-- `(err as Error).message` -/
def errorMessage : Err → String
  | .api error => error.message
  | .providerRequest message _ => message
  | .duplicateKey => "E11000 duplicate key error"
  | .other message => message

def Err.nullDocument : Err := .other "Cannot read properties of null"

structure ProviderRefundResult where
  refundRef : String
  status : RefundStatus
  providerStatus : Option String := none
  deriving DecidableEq

structure ProviderRefundUpdate extends ProviderRefundResult where
  refundKey : Option ProviderRefundKey := none
  deriving DecidableEq

structure ProviderWebhookEvent where
  eventId : String
  eventType : String
  providerRef : String
  status : PaymentStatus
  refund : Option ProviderRefundUpdate := none
  deriving DecidableEq

end RestaurantOs.Payments
