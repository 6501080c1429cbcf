import RestaurantOs.Loyalty.Store
import RestaurantOs.Payments.Orders

/-!
# Earning, redeeming and reversing

An order is placed in one transaction with the points it redeems and earns. A
cancellation or a full refund reverses them, each call on its own.
-/

namespace RestaurantOs.Loyalty

open Async

open Payments (OrderChannel OrderPaymentMethod isValidStatusTransition)

abbrev Promise (α : Type) := Prog Op Op.Resp Err α

def inSession (op : TableOp) : Session op.Resp := .call op

def tableOp (op : TableOp) : Promise op.Resp := .call (Op.table op)

def throwApi {α : Type} (error : ApiError) : Promise α := .raise (.api error)

/-! ## Placing an order -/

def earnPoints (key : AccountKey) (orderId : Id) (subtotal : ℚ) : Session ℚ := do
  let points := pointsForSpend subtotal
  if points ≤ 0 then pure 0
  else do
    let account : LoyaltyAccount ← inSession (.account (.increment key points))
    let tier ← .ofExcept (tierForPoints account.pointsBalance)
    inSession (.account (.save account { account with tier }))
    inSession (.createTransaction { key, orderId, type := .earn, points, reason := "Order placed" })
    pure points

def redeemPoints (key : AccountKey) (points : ℚ) (orderId : Id) : Session Unit :=
  if points ≤ 0 then .raise (.api (.badRequest "Points to redeem must be positive"))
  else do
    let account : Option LoyaltyAccount ← inSession (.account (.findOne key))
    match account.filter fun account => ¬ account.pointsBalance < points with
    | none => .raise (.api (.badRequest "Insufficient loyalty points balance"))
    | some account => do
      let pointsBalance := account.pointsBalance - points
      let tier ← .ofExcept (tierForPoints pointsBalance)
      inSession (.account (.save account { account with pointsBalance, tier }))
      inSession (.createTransaction { key, orderId, type := .redeem, points := -points, reason := "Redeemed on order" })

/-- An order that passed the checks of the restaurant, its items priced.
`promoDiscount` is set if a promotion applies. -/
structure OrderInput where
  restaurantId : Id
  customerId : Id
  orderNumber : String := ""
  orderType : Payments.OrderType := .pickup
  channel : OrderChannel := .online
  paymentMethod : OrderPaymentMethod := .cash
  markPaidImmediately : Bool := false
  currency : String := "USD"
  pointsToRedeem : Nat := 0
  subtotal : ℚ
  minOrderAmount : ℚ := 0
  promoDiscount : Option ℚ := none
  taxRate : ℚ := 0
  deliveryFee : ℚ := 0

namespace OrderInput

variable (input : OrderInput)

def key : AccountKey := ⟨input.restaurantId, input.customerId⟩

def loyaltyDiscount : ℚ := min (input.pointsToRedeem : ℚ) input.subtotal

def taxableAmount : ℚ := max 0 (input.subtotal - input.loyaltyDiscount - input.promoDiscount.getD 0)

def taxAmount : ℚ := roundCurrency (input.taxableAmount * input.taxRate)

def total : ℚ := roundCurrency (input.taxableAmount + input.taxAmount + input.deliveryFee)

def draft (now : Time) : Order where
  id := 0
  restaurantId := input.restaurantId
  customerId := input.customerId
  orderNumber := input.orderNumber
  statusHistory := [⟨.pending, now⟩]
  orderType := input.orderType
  channel := input.channel
  paymentMethod := input.paymentMethod
  paid := input.markPaidImmediately && input.paymentMethod ≠ .online
  currency := input.currency
  subtotal := input.subtotal
  taxAmount := input.taxAmount
  deliveryFee := input.deliveryFee
  discount := input.loyaltyDiscount
  promoDiscount := input.promoDiscount.getD 0
  total := input.total
  loyaltyPointsRedeemed := input.loyaltyDiscount

end OrderInput

def redeemOnOrder (input : OrderInput) (order : Order) : Session Unit :=
  .onlyIf (input.loyaltyDiscount > 0) (redeemPoints input.key input.loyaltyDiscount order.id)

def recordPromoOnOrder (input : OrderInput) : Session Unit :=
  .onlyIf input.promoDiscount.isSome do
    let recorded : Bool ← inSession .recordPromoUsage
    if recorded then pure ()
    else .raise (.api (.conflict "This promo code just reached its usage limit — please remove it and try again"))

def placeOrder (input : OrderInput) : Session Order := do
  let now : Time ← inSession .clock
  let order : Order ← inSession (.order (.create (input.draft now)))
  redeemOnOrder input order
  recordPromoOnOrder input
  let earned ← earnPoints input.key order.id input.total
  inSession (.order (.saveEarned order earned))
  pure { order with loyaltyPointsEarned := earned }

def createOrderForCustomer (input : OrderInput) : Promise Unit :=
  if input.subtotal < input.minOrderAmount then throwApi (.badRequest s!"Minimum order amount is {input.minOrderAmount}")
  else do
    let _ : Order ← .call (Op.transaction (placeOrder input))
    pure ()

/-! ## Reversing an order -/

def clawback (earned balance : ℚ) : ℚ := if earned > 0 then min earned balance else 0

/-- `clawback` and `pointsRedeemed` change the balance where they are positive. -/
def reversedBalance (balance taken redeemed : ℚ) : ℚ :=
  let remaining := if taken > 0 then balance - taken else balance
  if redeemed > 0 then remaining + redeemed else remaining

theorem clawback_le {earned balance : ℚ} (h : 0 ≤ balance) : clawback earned balance ≤ balance := by
  rw [clawback]
  split
  · exact min_le_right _ _
  · exact h

theorem reversedBalance_eq (balance taken redeemed : ℚ) :
    reversedBalance balance taken redeemed = balance +
      (if redeemed > 0 then (if taken > 0 then -taken else 0) + redeemed else if taken > 0 then -taken else 0) := by
  simp only [reversedBalance]
  split <;> split <;> ring

theorem reversedBalance_nonneg {balance taken : ℚ} (redeemed : ℚ) (h : 0 ≤ balance) (hTaken : taken ≤ balance) :
    0 ≤ reversedBalance balance taken redeemed := by
  simp only [reversedBalance]
  split <;> split <;> linarith

def adjustment (key : AccountKey) (orderId : Id) (points : ℚ) (reason : String) : LoyaltyTransaction :=
  { key, orderId, type := .adjustment, points, reason }

def clawBack (key : AccountKey) (orderId : Id) (taken : ℚ) : Promise Unit :=
  .onlyIf (taken > 0)
    (tableOp (.createTransaction (adjustment key orderId (-taken) "Order cancelled/refunded — earned points reversed")))

def giveBack (key : AccountKey) (orderId : Id) (redeemed : ℚ) : Promise Unit :=
  .onlyIf (redeemed > 0)
    (tableOp (.createTransaction (adjustment key orderId redeemed "Order cancelled/refunded — redeemed points refunded")))

def reverseLoyaltyForOrder (key : AccountKey) (orderId : Id) (pointsEarned pointsRedeemed : ℚ) : Promise Unit := do
  let account : Option LoyaltyAccount ← tableOp (.account (.findOne key))
  match account with
  | none => pure ()
  | some account => do
    let taken := clawback pointsEarned account.pointsBalance
    let pointsBalance := reversedBalance account.pointsBalance taken pointsRedeemed
    clawBack key orderId taken
    giveBack key orderId pointsRedeemed
    .onlyIf (taken > 0 ∨ pointsRedeemed > 0) do
      let tier ← .ofExcept (tierForPoints pointsBalance)
      tableOp (.account (.save account { account with pointsBalance, tier }))

def reverseLoyaltyForOrderIfNeeded (order : Order) : Promise Unit :=
  if order.loyaltyPointsEarned ≤ 0 ∧ order.loyaltyPointsRedeemed ≤ 0 then pure ()
  else do
    let flipped : Bool ← tableOp (.order (.flipReversed order.id))
    .onlyIf flipped
      (reverseLoyaltyForOrder order.key order.id order.loyaltyPointsEarned order.loyaltyPointsRedeemed)

/-! ## What reverses an order -/

def cancelMyOrder (id userId : Id) : Promise Unit := do
  let order : Option Order ← tableOp (.order (.findById id))
  match order with
  | none => throwApi (.notFound "Order not found")
  | some order =>
    if order.customerId ≠ userId then throwApi .forbidden
    else if order.status ≠ .pending then
      throwApi (.badRequest s!"Order can no longer be cancelled — its status is already \"{order.status.text}\"")
    else do
      let now : Time ← tableOp .clock
      tableOp (.order (.save order ⟨.cancelled, now⟩))
      reverseLoyaltyForOrderIfNeeded order

def applyOrderStatusTransition (orderId restaurantId : Id) (nextStatus : OrderStatus) : Promise Unit := do
  let order : Option Order ← tableOp (.order (.findOne orderId restaurantId))
  match order with
  | none => throwApi (.notFound "Order not found")
  | some order =>
    if !isValidStatusTransition order.status nextStatus order.orderType then
      throwApi (.badRequest s!"Cannot move an order from \"{order.status.text}\" to \"{nextStatus.text}\"")
    else if order.paymentMethod = .online ∧ ¬ order.paid ∧ nextStatus ≠ .cancelled then
      throwApi (.badRequest "This order's online payment has not completed yet — it cannot be accepted")
    else do
      let now : Time ← tableOp .clock
      tableOp (.order (.save order ⟨nextStatus, now⟩))
      .onlyIf (nextStatus = .cancelled) (reverseLoyaltyForOrderIfNeeded order)

def reverseRefunded (orderId : Id) : Promise Unit := do
  let order : Option Order ← tableOp (.order (.findById orderId))
  match order with
  | none => pure ()
  | some order => reverseLoyaltyForOrderIfNeeded order

inductive Request
  | createOrder (input : OrderInput)
  | cancelMyOrder (id userId : Id)
  | updateOrderStatus (orderId restaurantId : Id) (nextStatus : OrderStatus)
  | fullRefund (orderId : Id)

def Request.program : Request → Promise Unit
  | createOrder input => createOrderForCustomer input
  | cancelMyOrder id userId => Loyalty.cancelMyOrder id userId
  | updateOrderStatus orderId restaurantId nextStatus => applyOrderStatusTransition orderId restaurantId nextStatus
  | fullRefund orderId => reverseRefunded orderId

abbrev State := Config Op Op.Resp Err World Unit

def State.start (w : World) (requests : List Request) : State := Config.initial w (requests.map Request.program)

end RestaurantOs.Loyalty
