import RestaurantOs.Async.Translate
import RestaurantOs.Loyalty.Points

/-!
# The promotions store

A promotion belongs to one location, or to a business that selects some of its
locations for it. An order that uses one is placed in one transaction of the
database with the use it makes of it.
-/

namespace RestaurantOs.Promotions

open Async

export Payments (Id Time ApiError Err roundCurrency)

inductive PromotionType
  | percentage | fixed
  deriving DecidableEq

structure Promotion where
  id : Id
  restaurantId : Option Id := none
  businessId : Option Id := none
  locationIds : List Id := []
  code : String
  name : String := ""
  type : PromotionType
  value : ℚ
  minOrderAmount : ℚ := 0
  isActive : Bool := true
  startDate : Option Time := none
  endDate : Option Time := none
  usageLimit : Option Nat := none
  usageCount : Nat := 0
  deriving DecidableEq

inductive Scope
  | location (restaurantId : Id)
  | business (businessId : Id)
  deriving DecidableEq

def Scope.has : Scope → Promotion → Bool
  | location restaurantId, promotion => promotion.restaurantId = some restaurantId
  | business businessId, promotion => promotion.businessId = some businessId

/-- `updatePromotionSchema` and `updateBusinessPromotionSchema`. -/
structure UpdatePromotionInput where
  code : Option String := none
  name : Option String := none
  type : Option PromotionType := none
  value : Option ℚ := none
  minOrderAmount : Option ℚ := none
  isActive : Option Bool := none
  startDate : Option Time := none
  endDate : Option Time := none
  usageLimit : Option Nat := none
  locationIds : Option (List Id) := none
  deriving DecidableEq

/-- `$set: updates` -/
def UpdatePromotionInput.set (updates : UpdatePromotionInput) (promotion : Promotion) : Promotion :=
  { promotion with
    code := updates.code.getD promotion.code
    name := updates.name.getD promotion.name
    type := updates.type.getD promotion.type
    value := updates.value.getD promotion.value
    minOrderAmount := updates.minOrderAmount.getD promotion.minOrderAmount
    isActive := updates.isActive.getD promotion.isActive
    startDate := updates.startDate <|> promotion.startDate
    endDate := updates.endDate <|> promotion.endDate
    usageLimit := updates.usageLimit <|> promotion.usageLimit
    locationIds := updates.locationIds.getD promotion.locationIds }

/-- The filter of `recordPromoUsage` on the limit. -/
def Promotion.usable (promotion : Promotion) : Bool := promotion.usageLimit.all (promotion.usageCount < ·)

/-- `$inc: { usageCount: 1 }` -/
def Promotion.used (promotion : Promotion) : Promotion := { promotion with usageCount := promotion.usageCount + 1 }

structure Restaurant where
  id : Id
  businessId : Option Id
  deriving DecidableEq

structure World where
  loyalty : Loyalty.World := {}
  restaurants : List Restaurant := []
  promotions : List Promotion := []

/-- `updateOne` is the conditional count of `recordPromoUsage`. -/
inductive PromotionOp
  | findOne (code : String) (restaurantId : Id) (businessId : Option Id)
  | findSameCode (scope : Scope) (code : String) (ne : Id)
  | findOneAndUpdate (id : Id) (scope : Scope) (updates : UpdatePromotionInput)
  | updateOne (id : Id)
  deriving DecidableEq

inductive TableOp
  | loyalty (op : Loyalty.TableOp)
  | countLocations (businessId : Id) (ids : List Id)
  | promotion (op : PromotionOp)
  deriving DecidableEq

@[reducible] def PromotionOp.Resp : PromotionOp → Type
  | findOne _ _ _ | findSameCode _ _ _ | findOneAndUpdate _ _ _ => Option Promotion
  | updateOne _ => Bool

@[reducible] def TableOp.Resp : TableOp → Type
  | loyalty op => op.Resp
  | countLocations _ _ => Nat
  | promotion op => op.Resp

def World.promotion? (w : World) (id : Id) : Option Promotion := w.promotions.find? (·.id = id)

def World.update (w : World) (sel : Promotion → Bool) (f : Promotion → Promotion) : World :=
  { w with promotions := Tables.update sel f w.promotions }

def Promotion.clashes (p q : Promotion) : Bool :=
  p.id ≠ q.id && p.code = q.code &&
    (p.restaurantId.isSome && p.restaurantId = q.restaurantId || p.businessId.isSome && p.businessId = q.businessId)

def Promotion.appliesAt (promotion : Promotion) (restaurantId : Id) (businessId : Option Id) : Bool :=
  promotion.restaurantId = some restaurantId ||
    businessId.any fun businessId => promotion.businessId = some businessId && restaurantId ∈ promotion.locationIds

def PromotionOp.perform : (op : PromotionOp) → World → Except Err op.Resp × World
  | findOne code restaurantId businessId, w =>
    (.ok (w.promotions.find? fun p => p.code = code && p.appliesAt restaurantId businessId), w)
  | findSameCode scope code ne, w => (.ok (w.promotions.find? fun p => scope.has p && p.code = code && p.id ≠ ne), w)
  | findOneAndUpdate id scope updates, w =>
    match (w.promotion? id).filter scope.has with
    | none => (.ok none, w)
    | some stored =>
      if w.promotions.any (updates.set stored).clashes then (.error .duplicateKey, w)
      else (.ok (some (updates.set stored)), w.update (fun p => p.id = id && scope.has p) updates.set)
  | updateOne id, w => (.ok ((w.promotion? id).any Promotion.usable), w.update (fun p => p.id = id && p.usable) Promotion.used)

def TableOp.perform : (op : TableOp) → World → Except Err op.Resp × World
  | loyalty op, w => ((op.perform {} w.loyalty).1, { w with loyalty := (op.perform {} w.loyalty).2 })
  | countLocations businessId ids, w =>
    (.ok (w.restaurants.countP fun r => r.businessId = some businessId && r.id ∈ ids), w)
  | promotion op, w => op.perform w

@[reducible] def tables : Store TableOp TableOp.Resp Err World Unit Empty where
  perform op _ w := op.perform w
  advance e := e.elim

abbrev Session (α : Type) := Prog TableOp TableOp.Resp Err α

def inSession (op : TableOp) : Session op.Resp := .call op

def fromLoyalty {α : Type} (p : Loyalty.Session α) : Session α := p.translate fun op => .call (TableOp.loyalty op)

/-! ## Placing an order with a promotion -/

/-- `appliedPromo` is the promotion that `validatePromoCode` found; the input
carries its discount. -/
structure Placement where
  input : Loyalty.OrderInput
  appliedPromo : Option Id

def recordPromoUsage (promotionId : Id) : Session Bool := inSession (.promotion (.updateOne promotionId))

def recordPromoOnOrder : Option Id → Session Unit
  | none => pure ()
  | some promotionId => do
    let recorded ← recordPromoUsage promotionId
    if recorded then pure ()
    else .raise (.api (.conflict "This promo code just reached its usage limit — please remove it and try again"))

def placeOrder (placement : Placement) : Session Loyalty.Order := do
  let now : Time ← inSession (.loyalty .clock)
  let order : Loyalty.Order ← inSession (.loyalty (.order (.create (placement.input.draft now))))
  fromLoyalty (Loyalty.redeemOnOrder placement.input order)
  recordPromoOnOrder placement.appliedPromo
  let earned ← fromLoyalty (Loyalty.earnPoints placement.input.key order.id placement.input.total)
  inSession (.loyalty (.order (.saveEarned order earned)))
  pure { order with loyaltyPointsEarned := earned }

/-- A call on its own, or one attempt of `session.withTransaction`. -/
inductive Op
  | table (op : TableOp)
  | transaction (placement : Placement)

@[reducible] def Op.Resp : Op → Type
  | table op => op.Resp
  | transaction _ => Loyalty.Order

/-- A body that throws leaves nothing. -/
def Op.perform : (op : Op) → World → Except Err op.Resp × World
  | table op, w => op.perform w
  | transaction placement, w =>
    match (placeOrder placement).eval tables () w with
    | (.ok order, w') => (.ok order, w')
    | (.error e, _) => (.error e, w)

def Event.advance : Loyalty.Event → World → World
  | event, w => { w with loyalty := event.advance w.loyalty }

/-- Any call may throw, and any attempt abort, without an effect. -/
@[reducible] def store : Store Op Op.Resp Err World (Except Err Unit) Loyalty.Event :=
  Store.faulty ⟨fun o _ w => o.perform w, Event.advance⟩ id

end RestaurantOs.Promotions
