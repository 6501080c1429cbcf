import RestaurantOs.Payments.Accounts
import RestaurantOs.Payments.Orders

/-!
# Requests

What the API runs concurrently: the routes of the staff, the customer and the
providers, and the polling job.
-/

namespace RestaurantOs.Payments

open Async

inductive Request
  | refund (input : RefundInput)
  | checkRefund (restaurantId orderId paymentId refundId : Id) (actor : ActorContext)
  | retryRefund (restaurantId orderId paymentId refundId : Id) (actor : ActorContext)
  | resolveRefund (restaurantId orderId paymentId refundId : Id) (input : ResolveRefundInput)
      (actor : ActorContext)
  | providerWebhook (name : ProviderName)
  | accountWebhook (name : ProviderName) (accountId : Id)
  | connectWebhook
  | reconcilePayments
  | createPayment (input : CreatePaymentInput)
  | createTerminalPayment (input : CreatePosTerminalInput)
  | pollTerminalPayment (restaurantId orderId paymentId : Id)
  | cancelTerminalPayment (restaurantId orderId paymentId : Id)
  | connectAccount (restaurantId userId : Id) (encryptedCredentials : String)
  | connectStripe (restaurantId : Id)
  | syncStripe (restaurantId userId : Id)
  | disconnectAccount (restaurantId userId : Id)
  | updateOrderStatus (restaurantId id : Id) (nextStatus : OrderStatus) (actor : ActorContext)
  | advanceOrder (orderId restaurantId : Id) (deliveryStatus : DeliveryStatus) (actor : Option ActorContext)
  | cancelMyOrder (id userId : Id)
  | updateOrderPaymentStatus (restaurantId id : Id) (paid : Bool)
  deriving DecidableEq

def answered {α : Type} (p : Promise α) : Promise Unit := p.bind fun _ => .ret ()

def Request.program (env : Env) : Request → Promise Unit
  | refund input => answered (refundPayment env input)
  | checkRefund restaurantId orderId paymentId refundId actor => do
    let refund ← findPaymentRefund restaurantId orderId paymentId refundId
    answered (reconcileRefund env refund actor false)
  | retryRefund restaurantId orderId paymentId refundId actor => do
    let refund ← findPaymentRefund restaurantId orderId paymentId refundId
    answered (reconcileRefund env refund actor true)
  | resolveRefund restaurantId orderId paymentId refundId input actor => do
    let refund ← findPaymentRefund restaurantId orderId paymentId refundId
    answered (resolveHeldRefund env refund input actor)
  | providerWebhook name => handleProviderWebhook env name
  | accountWebhook name accountId => handleRestaurantAccountWebhook env name accountId
  | connectWebhook => handleStripeConnectWebhook env
  | reconcilePayments => reconcileStalePayments env
  | createPayment input => answered (createPaymentForOrder env input)
  | createTerminalPayment input => answered (createPosTerminalPayment env input)
  | pollTerminalPayment restaurantId orderId paymentId =>
    answered (getPosTerminalPaymentStatus env restaurantId orderId paymentId)
  | cancelTerminalPayment restaurantId orderId paymentId =>
    answered (cancelPosTerminalPayment env restaurantId orderId paymentId)
  | connectAccount restaurantId userId encryptedCredentials =>
    connectRestaurantPaymentAccount env restaurantId userId encryptedCredentials
  | connectStripe restaurantId => connectStripeConnect restaurantId
  | syncStripe restaurantId userId => syncStripeConnectStatus restaurantId userId
  | disconnectAccount restaurantId userId => disconnectRestaurantPaymentAccount restaurantId userId
  | updateOrderStatus restaurantId id nextStatus actor =>
    RestaurantOs.Payments.updateOrderStatus restaurantId id nextStatus actor
  | advanceOrder orderId restaurantId deliveryStatus actor =>
    advanceOrderForDeliveryStatus orderId restaurantId deliveryStatus actor
  | cancelMyOrder id userId => RestaurantOs.Payments.cancelMyOrder id userId
  | updateOrderPaymentStatus restaurantId id paid => RestaurantOs.Payments.updateOrderPaymentStatus restaurantId id paid

abbrev State := Config Op Op.Resp Err World Unit

/-- `requests` have been sent to the API, whose database is `w`. -/
def State.start (env : Env) (w : World) (requests : List Request) : State :=
  Config.initial w (requests.map (Request.program env))

end RestaurantOs.Payments
