import RestaurantOs.Payments.Charges

/-!
# Restaurant payment accounts

Connecting, synchronising and disconnecting a restaurant's own account.
-/

namespace RestaurantOs.Payments

open Async

def findConnectable (restaurantId : Id) : Promise Restaurant := do
  let restaurant : Option Restaurant ← .call (Op.restaurant restaurantId)
  match restaurant with
  | none => throwApi (.notFound "Restaurant not found")
  | some restaurant =>
    if restaurant.businessId.isNone then
      throwApi (.badRequest "This restaurant has no business association yet")
    else pure restaurant

def connectRestaurantPaymentAccount (env : Env) (restaurantId userId : Id) (encryptedCredentials : String) :
    Promise Unit := do
  let restaurant ← findConnectable restaurantId
  let account : RestaurantPaymentAccount := {
    id := 0
    restaurantId := restaurant.id
    provider := .safepay
    connectionMode := .merchantCredentials
    encryptedCredentials := some encryptedCredentials
    createdAt := 0 }
  let _ ← .ofExcept (buildProviderFromAccount env account)
  let verified : Bool ← providerOp (.verifyCredentials account)
  if !verified then do
    let _ ← accountOp (.insert { account with
      status := .invalid
      lastVerificationError := some "These credentials could not be verified against the provider." })
    pure ()
  else do
    accountOp (.disconnectOthers restaurant.id none)
    let now ← dateNow
    let saved : RestaurantPaymentAccount ←
      accountOp (.insert { account with status := .active, lastVerifiedAt := some now })
    recordAuditEvent .accountConnected saved.id userId

def resumeOrCreate (restaurantId : Id) (country email : String) :
    Option RestaurantPaymentAccount → Promise RestaurantPaymentAccount
  | some account => pure account
  | none => do
    let connectedAccountId : String ← providerOp (.createConnectedAccount country email)
    accountOp (.insert {
      id := 0
      restaurantId
      provider := .stripe
      connectionMode := .platformConnect
      status := .pendingVerification
      connectedAccountId := some connectedAccountId
      createdAt := 0 })

def connectStripeConnect (restaurantId : Id) : Promise Unit := do
  let restaurant ← findConnectable restaurantId
  match truthy restaurant.country, truthy restaurant.email with
  | none, _ => throwApi (.badRequest
      "Set this restaurant's country in Settings before connecting Stripe — it can't be changed afterward")
  | _, none => throwApi (.badRequest
      "Set this restaurant's contact email in Settings before connecting Stripe — it's how Stripe will reach the account holder")
  | some country, some email => do
    let resumable : Option RestaurantPaymentAccount ← accountOp (.findResumable restaurant.id)
    let account ← resumeOrCreate restaurant.id country email resumable
    let _ ← providerOp (.createAccountLink (account.connectedAccountId.getD ""))
    pure ()

/-- Retrieves the connected account's real status. The account is loaded
before the call and saved after it. -/
def syncStripeConnectStatus (restaurantId userId : Id) : Promise Unit := do
  let account : Option RestaurantPaymentAccount ← accountOp (.findSyncable restaurantId)
  match account with
  | none => throwApi (.notFound "No Stripe connection in progress for this restaurant")
  | some loaded =>
    match truthy loaded.connectedAccountId with
    | none => throwApi (.notFound "No Stripe connection in progress for this restaurant")
    | some connectedAccountId => do
      let report : ConnectedAccountStatus ← providerOp (.retrieveAccount connectedAccountId)
      let now ← dateNow
      let status := resolveConnectAccountStatus report
      let account : RestaurantPaymentAccount := { loaded with
        chargesEnabled := some report.chargesEnabled
        payoutsEnabled := some report.payoutsEnabled
        requirementsDue := some report.requirementsDue
        disabledReason := report.disabledReason
        lastVerifiedAt := some now
        status
        lastVerificationError :=
          if status = .invalid then
            some "Stripe rejected this account — see your Stripe dashboard for details."
          else loaded.lastVerificationError }
      .onlyIf (status = .active ∧ loaded.status ≠ .active)
        (accountOp (.disconnectOthers loaded.restaurantId (some loaded.id)))
      accountOp (.save loaded account)
      .onlyIf (status = .active ∧ loaded.status ≠ .active)
        (recordAuditEvent .accountConnected loaded.id userId)

def disconnectRestaurantPaymentAccount (restaurantId userId : Id) : Promise Unit := do
  let account : Option RestaurantPaymentAccount ← accountOp (.findConnection restaurantId)
  match account with
  | none => throwApi (.notFound "This restaurant has no connected payment account")
  | some loaded => do
    accountOp (.save loaded { loaded with status := .disconnected })
    recordAuditEvent .accountDisconnected loaded.id userId

theorem Event.accounts_advance {w : World} (e : Event) : (e.advance w).accounts = w.accounts := by
  cases e with
  | tick elapsed => rfl
  | process index status =>
    rw [Event.advance]
    split <;> rfl
  | update key status => rfl

theorem Event.webhookEvents_advance {w : World} (e : Event) : (e.advance w).webhookEvents = w.webhookEvents := by
  cases e with
  | tick elapsed => rfl
  | process index status =>
    rw [Event.advance]
    split <;> rfl
  | update key status => rfl

end RestaurantOs.Payments
