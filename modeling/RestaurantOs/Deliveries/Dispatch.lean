import RestaurantOs.Deliveries.Moves
import RestaurantOs.Imports.Texts

/-!
# Dispatching a delivery

An order that is ready gets a delivery, for which a courier is booked or the
restaurant's own staff is entered. A booking that failed is tried again, or the staff
takes the delivery over.
-/

namespace RestaurantOs.Dispatch

open Async

export Payments (Id Time ApiError Err errorMessage OrderType OrderChannel)
export Couriers (DeliveryProviderName RestaurantDeliveryProviderAccount DeliveryProvider Resolution)
export Deliveries (DeliveryStatus StatusHistoryEntry OrderStatusTransitionActor CourierFault)

/-! ## Documents -/

structure DeliveryAddress where
  line1 : String
  line2 : Option String := none
  city : String
  state : Option String := none
  postalCode : Option String := none
  country : Option String := none
  latitude : ℚ
  longitude : ℚ
  instructions : Option String := none
  phone : Option String := none
  deriving DecidableEq

structure ManifestItem where
  name : String
  quantity : Nat
  deriving DecidableEq

structure Order where
  id : Id
  restaurantId : Id
  orderNumber : String
  customerId : Id
  orderType : OrderType
  channel : OrderChannel := .online
  items : List ManifestItem := []
  deliveryAddress : Option DeliveryAddress := none
  deliveryFee : Option ℚ := none
  currency : Option String := none
  deriving DecidableEq

structure Restaurant extends Couriers.Restaurant where
  name : String
  phone : Option String := none
  address : Option String := none
  city : Option String := none
  state : Option String := none
  postalCode : Option String := none
  country : Option String := none
  latitude : Option ℚ := none
  longitude : Option ℚ := none
  currency : Option String := none
  deriving DecidableEq

structure User where
  id : Id
  name : String
  phone : Option String := none
  deriving DecidableEq

structure Delivery extends Deliveries.Delivery where
  businessId : Option Id := none
  orderNumber : String
  fee : Option ℚ := none
  currency : Option String := none
  quoteId : Option String := none
  failureReason : Option String := none
  lastProviderError : Option String := none
  idempotencyKey : String
  deriving DecidableEq

/-- The paths that `save` writes: those that differ from the loaded document. -/
structure DispatchChanges where
  provider : Option DeliveryProviderName
  status : Option DeliveryStatus
  appended : List StatusHistoryEntry
  providerDeliveryId : Option String
  trackingUrl : Option (Option String)
  fee : Option ℚ
  currency : Option String
  quoteId : Option (Option String)
  failureReason : Option (Option String)
  lastProviderError : Option (Option String)
  deriving DecidableEq

def changed {α : Type} [DecidableEq α] (value loaded : α) : Option α := if value = loaded then none else some value

def newlySet {α : Type} [DecidableEq α] (value loaded : Option α) : Option α := if value = loaded then none else value

def Delivery.changesFrom (delivery loaded : Delivery) : DispatchChanges where
  provider := changed delivery.provider loaded.provider
  status := changed delivery.status loaded.status
  appended := delivery.statusHistory.drop loaded.statusHistory.length
  providerDeliveryId := newlySet delivery.providerDeliveryId loaded.providerDeliveryId
  trackingUrl := changed delivery.trackingUrl loaded.trackingUrl
  fee := newlySet delivery.fee loaded.fee
  currency := newlySet delivery.currency loaded.currency
  quoteId := changed delivery.quoteId loaded.quoteId
  failureReason := changed delivery.failureReason loaded.failureReason
  lastProviderError := changed delivery.lastProviderError loaded.lastProviderError

def DispatchChanges.apply (changes : DispatchChanges) (delivery : Delivery) : Delivery :=
  { delivery with
    provider := changes.provider.getD delivery.provider
    status := changes.status.getD delivery.status
    statusHistory := delivery.statusHistory ++ changes.appended
    providerDeliveryId := changes.providerDeliveryId.or delivery.providerDeliveryId
    trackingUrl := changes.trackingUrl.getD delivery.trackingUrl
    fee := changes.fee.or delivery.fee
    currency := changes.currency.or delivery.currency
    quoteId := changes.quoteId.getD delivery.quoteId
    failureReason := changes.failureReason.getD delivery.failureReason
    lastProviderError := changes.lastProviderError.getD delivery.lastProviderError }

/-! ## Couriers -/

structure DeliveryAddressParts where
  street : List String
  city : Option String := none
  state : Option String := none
  postalCode : Option String := none
  country : Option String := none
  deriving DecidableEq

structure DeliveryContact where
  name : String
  phone : String
  address : String
  addressParts : Option DeliveryAddressParts := none
  latitude : ℚ
  longitude : ℚ
  notes : Option String := none
  deriving DecidableEq

structure CreateDeliveryInput where
  orderId : Id
  restaurantId : Id
  quoteId : Option String := none
  pickup : DeliveryContact
  dropoff : DeliveryContact
  manifestItems : List ManifestItem
  idempotencyKey : String
  deriving DecidableEq

structure DeliveryQuoteResult where
  quoteId : Option String := none
  fee : ℚ
  currency : String
  deriving DecidableEq

structure ProviderDeliveryResult where
  providerDeliveryId : String
  status : DeliveryStatus
  trackingUrl : Option String := none
  fee : Option ℚ := none
  currency : Option String := none
  deriving DecidableEq

def providerName : DeliveryProvider → DeliveryProviderName
  | .manual => .manual
  | .uberDirect _ => .uberDirect

/-! ## The store -/

structure World where
  now : Time := 0
  nextId : Id := 0
  orders : List Order := []
  restaurants : List Restaurant := []
  users : List User := []
  accounts : List RestaurantDeliveryProviderAccount := []
  deliveries : List Delivery := []

/-- What `switchDeliveryToManual` finds the delivery by, and sets. -/
structure Switch where
  id : Id
  restaurantId : Id
  provider : DeliveryProviderName
  status : DeliveryStatus
  providerDeliveryId : String
  entry : StatusHistoryEntry
  deriving DecidableEq

def Switch.finds (switch : Switch) (delivery : Delivery) : Bool :=
  delivery.id = switch.id && delivery.restaurantId = switch.restaurantId && delivery.provider = switch.provider &&
    delivery.status = .failed && delivery.providerDeliveryId.isNone

def Switch.apply (switch : Switch) (delivery : Delivery) : Delivery :=
  { delivery with
    provider := .manual
    status := switch.status
    providerDeliveryId := some switch.providerDeliveryId
    failureReason := none
    quoteId := none
    fee := none
    statusHistory := delivery.statusHistory ++ [switch.entry] }

/-- `move` is an operation of a cancellation or a move, `account` one of the couriers'
accounts. -/
inductive Op
  | move (op : Deliveries.MoveOp)
  | account (op : Couriers.Op)
  | findByOrder (orderId : Id)
  | findDelivery (id restaurantId : Id)
  | findOrder (id restaurantId : Id)
  | findRestaurant (id : Id)
  | findUser (id : Id)
  | create (draft : Delivery)
  | getQuote (provider : DeliveryProvider) (pickup dropoff : DeliveryContact) (currency : String)
  | createDelivery (provider : DeliveryProvider) (input : CreateDeliveryInput)
  | save (loaded delivery : Delivery)
  | switch (change : Switch)
  | audit (action : String) (deliveryId : Id) (actor : OrderStatusTransitionActor) (previous : DeliveryProviderName)

@[reducible] def Op.Resp : Op → Type
  | move op => op.Resp
  | account op => op.Resp
  | findByOrder _ | findDelivery _ _ | switch _ => Option Delivery
  | findOrder _ _ => Option Order
  | findRestaurant _ => Option Restaurant
  | findUser _ => Option User
  | create _ => Delivery
  | getQuote _ _ _ _ => Except CourierFault DeliveryQuoteResult
  | createDelivery _ _ => Except CourierFault ProviderDeliveryResult
  | save _ _ | audit _ _ _ _ => Unit

/-- Whether the call throws, what the courier answers, and a random identifier. -/
structure Answer extends Deliveries.MoveAnswer where
  quote : Except CourierFault DeliveryQuoteResult := .ok { fee := 0, currency := "USD" }
  booked : Except CourierFault ProviderDeliveryResult := .ok { providerDeliveryId := "courier-1", status := .requested }
  uuid : String := "0"

instance : Inhabited Answer := ⟨{}⟩

def World.moved (w : World) : Deliveries.World := { now := w.now, accounts := w.accounts, deliveries := w.deliveries.map (·.toDelivery) }

def World.couriers (w : World) : Couriers.World :=
  { now := w.now, restaurants := w.restaurants.map (·.toRestaurant), accounts := w.accounts }

/-- The unique indexes on `orderId` and `idempotencyKey`. -/
def taken (deliveries : List Delivery) (draft : Delivery) : Bool :=
  deliveries.any fun d => d.orderId = draft.orderId || d.idempotencyKey = draft.idempotencyKey

def Op.answer : (op : Op) → Answer → World → Except Err op.Resp × World
  | move op, a, w =>
    let result := op.perform a.toMoveAnswer w.moved
    (result.1, { w with deliveries := w.deliveries.zipWith (fun d moved => { d with toDelivery := moved }) result.2.deliveries })
  | account op, _, w => ((op.perform {} w.couriers).1, { w with accounts := (op.perform {} w.couriers).2.accounts })
  | findByOrder orderId, _, w => (.ok (w.deliveries.find? (·.orderId = orderId)), w)
  | findDelivery id restaurantId, _, w => (.ok (w.deliveries.find? fun d => d.id = id && d.restaurantId = restaurantId), w)
  | findOrder id restaurantId, _, w => (.ok (w.orders.find? fun order => order.id = id && order.restaurantId = restaurantId), w)
  | findRestaurant id, _, w => (.ok (w.restaurants.find? (·.id = id)), w)
  | findUser id, _, w => (.ok (w.users.find? (·.id = id)), w)
  | create draft, _, w =>
    if taken w.deliveries draft then (.error .duplicateKey, w)
    else (.ok { draft with id := w.nextId }, { w with deliveries := w.deliveries ++ [{ draft with id := w.nextId }], nextId := w.nextId + 1 })
  | getQuote _ _ _ _, a, w => (.ok a.quote, w)
  | createDelivery .manual _, a, w => (.ok (.ok { providerDeliveryId := s!"manual_{a.uuid}", status := .accepted }), w)
  | createDelivery (.uberDirect _) _, a, w => (.ok a.booked, w)
  | save loaded delivery, _, w =>
    (.ok (), { w with deliveries := Tables.update (·.id = loaded.id) (delivery.changesFrom loaded).apply w.deliveries })
  | switch change, _, w =>
    (.ok ((w.deliveries.find? change.finds).map change.apply), { w with deliveries := Tables.update change.finds change.apply w.deliveries })
  | audit _ _ _ _, _, w => (.ok (), w)

def Op.perform (op : Op) (a : Answer) (w : World) : Except Err op.Resp × World :=
  match a.fault with
  | some text => (.error (.other text), w)
  | none => op.answer a w

@[reducible] def store : Store Op Op.Resp Err World Answer Time := ⟨Op.perform, fun elapsed w => { w with now := w.now + elapsed }⟩

abbrev Promise (α : Type) := Prog Op Op.Resp Err α

abbrev State := Config Op Op.Resp Err World Unit

def throwApi {α : Type} (error : ApiError) : Promise α := .raise (.api error)

def clock : Promise Time := .call (Op.move (.base .clock))

/-! ## Contacts -/

/-- `normalizeCountryCode` looks a country's name up in the runtime's tables. -/
structure Env where
  deliveries : Deliveries.Env := {}
  normalizeCountryCode : String → Option String := fun _ => some "US"

def phoneFormatHint : String :=
  "Use international format, starting with + and the country code (for example +1 212 555 0100 or +44 20 7946 0000)."

def nanpCountries : List String := ["US", "CA", "PR", "GU", "VI", "AS", "MP"]

def isDigit (c : Char) : Bool := '0' ≤ c && c ≤ '9'

def isSeparator (c : Char) : Bool := MenuImport.isSpace c || ['(', ')', '.', '-', '/'].contains c

/-- A digit of the range, and as many more as `lengths` allows. -/
def isNumber (lowest : Char) (lengths : List Nat) : List Char → Bool
  | [] => false
  | c :: digits => lowest ≤ c && c ≤ '9' && digits.all isDigit && lengths.contains digits.length

def normalizePhone (raw : Option String) (countryCode : Option String) : Except String String :=
  let input := MenuImport.trim (raw.getD "").toList
  if input = [] then .error s!"A phone number is required. {phoneFormatHint}"
  else
    let compact := input.filter fun c => !isSeparator c
    let digits := if compact.head? = some '+' then compact.tail else compact
    if digits = [] ∨ digits.all isDigit = false then
      .error s!"\"{String.ofList input}\" isn't a phone number we can use. {phoneFormatHint}"
    else
      let international :=
        if compact.head? = some '+' then some compact.tail
        else if compact.take 2 = ['0', '0'] then some (compact.drop 2)
        else none
      match international with
      | some digits =>
        if isNumber '1' [7, 8, 9, 10, 11, 12, 13, 14] digits then .ok (.ofList ('+' :: digits))
        else .error s!"\"{String.ofList input}\" doesn't look like a complete international number. {phoneFormatHint}"
      | none =>
        let nanp := countryCode.any fun code => nanpCountries.contains code.toUpper
        if nanp && isNumber '2' [9] compact then .ok (.ofList ('+' :: '1' :: compact))
        else if nanp && compact.head? = some '1' && isNumber '2' [9] compact.tail then .ok (.ofList ('+' :: compact))
        else .error s!"\"{String.ofList input}\" has no country code. {phoneFormatHint}"

/-- `[…].filter(Boolean).join(", ")` -/
def joinParts (parts : List (Option String)) : String := String.intercalate ", " ((parts.filterMap id).filter (· ≠ ""))

/-- `text?.trim() ?? ""` -/
def trimmed (text : Option String) : String := .ofList (MenuImport.trim (text.getD "").toList)

def pickupContact (restaurant : Restaurant) : DeliveryContact where
  name := restaurant.name
  phone := trimmed restaurant.phone
  address := joinParts [restaurant.address, restaurant.city, restaurant.state, restaurant.postalCode, restaurant.country]
  addressParts := some {
    street := restaurant.address.toList.filter (· ≠ "")
    city := restaurant.city
    state := restaurant.state
    postalCode := restaurant.postalCode
    country := restaurant.country }
  latitude := restaurant.latitude.getD 0
  longitude := restaurant.longitude.getD 0

def dropoffContact (restaurant : Restaurant) (customer : Option User) (address : DeliveryAddress) : DeliveryContact where
  name := (customer.map (·.name)).getD "Customer"
  phone := trimmed (address.phone.or (customer.bind (·.phone)))
  address := joinParts [some address.line1, address.line2, some address.city, address.state, address.postalCode]
  addressParts := some {
    street := ([some address.line1, address.line2].filterMap id).filter (· ≠ "")
    city := some address.city
    state := address.state
    postalCode := address.postalCode
    country := address.country.or restaurant.country }
  latitude := address.latitude
  longitude := address.longitude
  notes := address.instructions

def DeliveryContact.reachable (contact : DeliveryContact) (phone country : String) : DeliveryContact :=
  { contact with phone, addressParts := contact.addressParts.map fun parts => { parts with country := some country } }

def given (text : Option String) : Option String := text.filter (· ≠ "")

def courierContacts (env : Env) (restaurant : Restaurant) (customer : Option User) (address : DeliveryAddress) :
    Except String (DeliveryContact × DeliveryContact) :=
  match (given restaurant.country).bind env.normalizeCountryCode with
  | none =>
    let which := match given restaurant.country with
      | some country => s!"(\"{country}\") isn't recognized"
      | none => "isn't set"
    .error (s!"The restaurant's country {which} — set it in Settings → Location details (for example \"United States\" or " ++
      "\"US\") and retry, or dispatch this order yourself.")
  | some restaurantCountry =>
    match (given address.country).elim (some restaurantCountry) env.normalizeCountryCode with
    | none =>
      let country := address.country.getD ""
      .error s!"The delivery address country (\"{country}\") isn't recognized — dispatch this order yourself."
    | some dropoffCountry =>
      match normalizePhone restaurant.phone (some restaurantCountry) with
      | .error reason =>
        .error (s!"The restaurant's phone number can't be given to a courier: {reason} Fix it in Settings → Location details " ++
          "and retry, or dispatch this order yourself.")
      | .ok pickupPhone =>
        match normalizePhone (address.phone.or (customer.bind (·.phone))) (some restaurantCountry) with
        | .error reason => .error s!"The customer's phone number can't be given to a courier: {reason} Dispatch this order yourself."
        | .ok dropoffPhone =>
          .ok ((pickupContact restaurant).reachable pickupPhone restaurantCountry,
            (dropoffContact restaurant customer address).reachable dropoffPhone dropoffCountry)

/-! ## The requests -/

def courierDispatchIneligibility (order : Order) : Option String :=
  if order.channel = .marketplace then
    some "Marketplace orders are delivered by the marketplace's own couriers — they are never dispatched from GarnishTable"
  else if order.orderType ≠ .delivery then some "Only delivery orders can be dispatched to a courier"
  else none

def deliveryCreationIdempotencyKey (orderId : Id) : String := s!"delivery_create_{orderId}"

/-- `amount.toFixed(2)` -/
def toFixed2 (amount : ℚ) : String :=
  let cents := (amount * 100 + 1 / 2).floor.toNat
  s!"{cents / 100}." ++ (if cents % 100 < 10 then s!"0{cents % 100}" else s!"{cents % 100}")

def unexpected (message : String) : String := s!"Unexpected error dispatching delivery: {message}"

def faultMessage : CourierFault → String
  | .deliveryProviderError message => message
  | .unexpected message => unexpected message

def Delivery.note (delivery : Delivery) (status : DeliveryStatus) (now : Time) (text : Option String) : Delivery :=
  { delivery with statusHistory := delivery.statusHistory ++ [{ status, at' := now, note := text }] }

def failDispatch (loaded delivery : Delivery) (message : String) : Promise Unit := do
  let now ← clock
  .call (Op.save loaded
    ({ delivery with status := .failed, failureReason := some message, lastProviderError := some message }.note .failed now (some message)))

def noteFee (order : Order) (restaurantCurrency : String) (quote : DeliveryQuoteResult) (now : Time) (delivery : Delivery) : Delivery :=
  let charged := order.deliveryFee.getD 0
  let delivery := { delivery with quoteId := quote.quoteId }
  if quote.currency.toUpper = (order.currency.getD restaurantCurrency).toUpper ∧ quote.fee > charged then
    let fee := toFixed2 quote.fee
    let paid := toFixed2 charged
    delivery.note .pending now (some s!"Courier fee {fee} {quote.currency} is more than the {paid} delivery fee the customer paid")
  else delivery

/-- The booking, once it is quoted. A save that throws is saved as a failure. -/
def book (loaded delivery : Delivery) (restaurantCurrency : String) (provider : DeliveryProvider) (input : CreateDeliveryInput) :
    Promise Unit := do
  let result : Except CourierFault ProviderDeliveryResult ← .call (Op.createDelivery provider input)
  match result with
  | .error fault => failDispatch loaded delivery (faultMessage fault)
  | .ok result => do
    let now ← clock
    let delivery := { delivery with
      status := result.status
      providerDeliveryId := some result.providerDeliveryId
      trackingUrl := result.trackingUrl
      fee := result.fee.or delivery.fee
      currency := some (result.currency.getD restaurantCurrency)
      lastProviderError := none }.note result.status now none
    let saved ← (Prog.call (Op.save loaded delivery) : Promise Unit).attempt
    match saved with
    | .ok _ => pure ()
    | .error err => failDispatch loaded delivery (unexpected (errorMessage err))

def dispatchPendingDelivery (env : Env) (loaded delivery : Delivery) (order : Order) (restaurant : Restaurant) : Promise Unit := do
  let resolution : Resolution ←
    (Couriers.resolveDeliveryProviderForRestaurant env.deliveries.toEnv restaurant.toRestaurant).translate fun o => .call (Op.account o)
  let provider := resolution.provider
  let now ← clock
  let delivery := { delivery with provider := providerName provider }
  let delivery :=
    if resolution.fellBackToManual then
      let reason := resolution.fallbackReason.getD "configured provider unavailable"
      delivery.note .pending now (some s!"Fell back to manual dispatch — {reason}")
    else delivery
  let customer : Option User ← .call (Op.findUser order.customerId)
  match order.deliveryAddress with
  | none => .raise (.other "Cannot read properties of undefined")
  | some address =>
    let restaurantCurrency := (restaurant.currency.or order.currency).getD "USD"
    let input := fun (contacts : DeliveryContact × DeliveryContact) quoteId => {
      orderId := order.id, restaurantId := restaurant.id, quoteId, pickup := contacts.1, dropoff := contacts.2, manifestItems := order.items,
      idempotencyKey := delivery.idempotencyKey : CreateDeliveryInput }
    match provider with
    | .manual =>
      book loaded delivery restaurantCurrency provider (input (pickupContact restaurant, dropoffContact restaurant customer address) none)
    | .uberDirect _ =>
      match courierContacts env restaurant customer address with
      | .error message => failDispatch loaded delivery message
      | .ok contacts => do
        let quoted : Except CourierFault DeliveryQuoteResult ← .call (Op.getQuote provider contacts.1 contacts.2 restaurantCurrency)
        match quoted with
        | .error fault => failDispatch loaded delivery (faultMessage fault)
        | .ok quote => do
          let now ← clock
          book loaded (noteFee order restaurantCurrency quote now delivery) restaurantCurrency provider (input contacts quote.quoteId)

def createDeliveryForOrder (env : Env) (orderId restaurantId : Id) : Promise Unit := do
  let existing : Option Delivery ← .call (Op.findByOrder orderId)
  match existing with
  | some _ => pure ()
  | none => do
    let order : Option Order ← .call (Op.findOrder orderId restaurantId)
    let restaurant : Option Restaurant ← .call (Op.findRestaurant restaurantId)
    match order, restaurant with
    | none, _ => throwApi (.notFound "Order not found")
    | some _, none => throwApi (.notFound "Restaurant not found")
    | some order, some restaurant =>
      match courierDispatchIneligibility order with
      | some ineligible => throwApi (.badRequest ineligible)
      | none =>
        if order.deliveryAddress.isNone then throwApi (.badRequest "This order has no delivery address on file")
        else if restaurant.latitude.isNone || restaurant.longitude.isNone then
          throwApi (.badRequest "This restaurant has no pickup coordinates configured — a courier cannot be requested")
        else do
          let created ← (Prog.call (Op.create {
            id := 0
            restaurantId := restaurantId
            businessId := restaurant.businessId
            orderId := orderId
            orderNumber := order.orderNumber
            provider := .manual
            status := .pending
            idempotencyKey := deliveryCreationIdempotencyKey orderId }) : Promise Delivery).attempt
          match created with
          | .ok delivery => dispatchPendingDelivery env delivery delivery order restaurant
          | .error err =>
            if !err.isDuplicateKey then .raise err
            else do
              let raced : Option Delivery ← .call (Op.findByOrder orderId)
              match raced with
              | some _ => pure ()
              | none => .raise err

/-- The status is reset on the loaded copy only. -/
def retryDeliveryCreation (env : Env) (deliveryId restaurantId : Id) : Promise Unit := do
  let delivery : Option Delivery ← .call (Op.findDelivery deliveryId restaurantId)
  match delivery with
  | none => throwApi (.notFound "Delivery not found")
  | some delivery =>
    if delivery.providerDeliveryId.isSome || (delivery.status ≠ .pending && delivery.status ≠ .failed) then
      throwApi (.conflict "This delivery has already been dispatched — it cannot be retried from here")
    else do
      let order : Option Order ← .call (Op.findOrder delivery.orderId restaurantId)
      let restaurant : Option Restaurant ← .call (Op.findRestaurant restaurantId)
      match order, restaurant with
      | some order, some restaurant =>
        match courierDispatchIneligibility order with
        | some ineligible => throwApi (.badRequest ineligible)
        | none => dispatchPendingDelivery env delivery { delivery with status := .pending, failureReason := none } order restaurant
      | _, _ => throwApi (.notFound "Order or restaurant not found")

def emptyContact : DeliveryContact := { name := "", phone := "", address := "", latitude := 0, longitude := 0 }

def switchDeliveryToManual (deliveryId restaurantId : Id) (actor : OrderStatusTransitionActor) : Promise Unit := do
  let existing : Option Delivery ← .call (Op.findDelivery deliveryId restaurantId)
  match existing with
  | none => throwApi (.notFound "Delivery not found")
  | some existing =>
    if existing.provider = .manual then throwApi (.conflict "This delivery is already dispatched by your own staff")
    else if existing.providerDeliveryId.isSome then
      throwApi (.conflict "A courier was already booked for this delivery — cancel it first, then dispatch it yourself")
    else if existing.status ≠ .failed then
      throwApi (.conflict "Only a delivery whose courier booking failed can be switched to your own staff")
    else do
      let manual : Except CourierFault ProviderDeliveryResult ← .call (Op.createDelivery .manual {
        orderId := existing.orderId
        restaurantId := restaurantId
        pickup := emptyContact
        dropoff := emptyContact
        manifestItems := []
        idempotencyKey := existing.idempotencyKey })
      match manual with
      | .error fault => .raise (.other (faultMessage fault))
      | .ok manual => do
        let now ← clock
        let previous := existing.provider.text
        let switched : Option Delivery ← .call (Op.switch {
          id := existing.id
          restaurantId := restaurantId
          provider := existing.provider
          status := manual.status
          providerDeliveryId := manual.providerDeliveryId
          entry := { status := manual.status, at' := now, note := some s!"Switched to manual dispatch by staff (was {previous})" } })
        match switched with
        | none => throwApi (.conflict "This delivery changed while switching — reload and try again")
        | some switched => do
          .call (Op.audit "delivery.switched_to_manual" switched.id actor existing.provider)
          .call (Op.move (.base (.emitStatusUpdated switched.toDelivery restaurantId)))

def cancelDelivery (env : Env) (deliveryId restaurantId : Id) (reason : Option String) (actor : OrderStatusTransitionActor) : Promise Unit := do
  let _ ← (Deliveries.cancelDelivery env.deliveries deliveryId restaurantId reason actor).translate fun o => .call (Op.move o)
  pure ()

inductive Request
  | createDeliveryForOrder (orderId restaurantId : Id)
  | retryDeliveryCreation (deliveryId restaurantId : Id)
  | switchDeliveryToManual (deliveryId restaurantId : Id) (actor : OrderStatusTransitionActor)
  | cancelDelivery (deliveryId restaurantId : Id) (reason : Option String) (actor : OrderStatusTransitionActor)

def Request.program (env : Env) : Request → Promise Unit
  | createDeliveryForOrder orderId restaurantId => Dispatch.createDeliveryForOrder env orderId restaurantId
  | retryDeliveryCreation deliveryId restaurantId => Dispatch.retryDeliveryCreation env deliveryId restaurantId
  | switchDeliveryToManual deliveryId restaurantId actor => Dispatch.switchDeliveryToManual deliveryId restaurantId actor
  | cancelDelivery deliveryId restaurantId reason actor => Dispatch.cancelDelivery env deliveryId restaurantId reason actor

def State.start (env : Env) (w : World) (requests : List Request) : State := .initial w (requests.map (Request.program env))

end RestaurantOs.Dispatch
