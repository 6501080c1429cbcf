import RestaurantOs.Async.Sequential
import RestaurantOs.Loyalty.Types
import RestaurantOs.Payments.Store

/-!
# The loyalty store

The orders, the accounts and the transactions, and what one call of the
database does to them. A transaction of the database runs its calls as one, or
not at all.
-/

namespace RestaurantOs.Loyalty

open Async

export Payments (StatusHistoryEntry)

structure World where
  now : Time := 0
  nextId : Id := 0
  orders : List Order := []
  accounts : List LoyaltyAccount := []
  transactions : List LoyaltyTransaction := []

/-- `increment` inserts the account if there is none. A `save` writes the
fields on which the copy differs from what was loaded. -/
inductive AccountOp
  | findOne (key : AccountKey)
  | increment (key : AccountKey) (points : ℚ)
  | save (loaded copy : LoyaltyAccount)
  deriving DecidableEq

inductive OrderOp
  | findOne (id restaurantId : Id)
  | findById (id : Id)
  | create (draft : Order)
  | save (order : Order) (entry : StatusHistoryEntry)
  | saveEarned (order : Order) (earned : ℚ)
  | flipReversed (id : Id)
  deriving DecidableEq

inductive TableOp
  | clock
  | account (op : AccountOp)
  | order (op : OrderOp)
  | createTransaction (row : LoyaltyTransaction)
  | recordPromoUsage
  deriving DecidableEq

@[reducible] def AccountOp.Resp : AccountOp → Type
  | findOne _ => Option LoyaltyAccount
  | increment _ _ => LoyaltyAccount
  | save _ _ => Unit

@[reducible] def OrderOp.Resp : OrderOp → Type
  | findOne _ _ | findById _ => Option Order
  | create _ => Order
  | flipReversed _ => Bool
  | save _ _ | saveEarned _ _ => Unit

@[reducible] def TableOp.Resp : TableOp → Type
  | clock => Time
  | account op => op.Resp
  | order op => op.Resp
  | createTransaction _ => Unit
  | recordPromoUsage => Bool

structure Answer where
  aborted : Bool := false
  promoRecorded : Bool := true

inductive Event
  | tick (elapsed : Time)

def World.account? (w : World) (key : AccountKey) : Option LoyaltyAccount := w.accounts.find? (·.key = key)

def World.updateOrders (w : World) (sel : Order → Bool) (f : Order → Order) : World :=
  { w with orders := Tables.update sel f w.orders }

def LoyaltyAccount.credited (account : LoyaltyAccount) (points : ℚ) : LoyaltyAccount :=
  { account with pointsBalance := account.pointsBalance + points }

/-- What a save of `copy`, which was loaded as `loaded`, leaves of `stored`. -/
def LoyaltyAccount.saved (loaded copy stored : LoyaltyAccount) : LoyaltyAccount :=
  { stored with
    pointsBalance := if copy.pointsBalance = loaded.pointsBalance then stored.pointsBalance else copy.pointsBalance
    tier := if copy.tier = loaded.tier then stored.tier else copy.tier }

def AccountOp.perform : (op : AccountOp) → World → Except Err op.Resp × World
  | findOne key, w => (.ok (w.account? key), w)
  | increment key points, w =>
    match w.account? key with
    | some stored =>
      (.ok (stored.credited points),
        { w with accounts := Tables.update (·.key = key) (·.credited points) w.accounts })
    | none =>
      let account : LoyaltyAccount := { key, pointsBalance := points }
      (.ok account, { w with accounts := w.accounts ++ [account] })
  | save loaded copy, w =>
    if copy.pointsBalance ≠ loaded.pointsBalance ∧ copy.pointsBalance < 0 then
      (.error (.other "LoyaltyAccount validation failed"), w)
    else (.ok (), { w with accounts := Tables.update (·.key = copy.key) (loaded.saved copy) w.accounts })

def Order.moved (order : Order) (entry : StatusHistoryEntry) : Order :=
  { order with toOrder := order.toOrder.moved entry }

def Order.unreversed (id : Id) (order : Order) : Bool := order.id = id && !order.loyaltyReversed

def Order.reversed (order : Order) : Order := { order with loyaltyReversed := true }

def OrderOp.perform : (op : OrderOp) → World → Except Err op.Resp × World
  | findOne id restaurantId, w => (.ok (w.orders.find? fun o => o.id = id && o.restaurantId = restaurantId), w)
  | findById id, w => (.ok (w.orders.find? (·.id = id)), w)
  | create draft, w =>
    let order : Order := { draft with id := w.nextId }
    if order.amountsValid then (.ok order, { w with orders := w.orders ++ [order], nextId := w.nextId + 1 })
    else (.error (.other "Order validation failed"), w)
  | save order entry, w => (.ok (), w.updateOrders (·.id = order.id) (·.moved entry))
  | saveEarned order earned, w =>
    (.ok (), w.updateOrders (·.id = order.id) fun stored => { stored with loyaltyPointsEarned := earned })
  | flipReversed id, w => (.ok (w.orders.any (Order.unreversed id)), w.updateOrders (Order.unreversed id) Order.reversed)

def TableOp.perform : (op : TableOp) → Answer → World → Except Err op.Resp × World
  | clock, _, w => (.ok w.now, w)
  | account op, _, w => op.perform w
  | order op, _, w => op.perform w
  | createTransaction row, _, w => (.ok (), { w with transactions := w.transactions ++ [row] })
  | recordPromoUsage, a, w => (.ok a.promoRecorded, w)

def Event.advance : Event → World → World
  | tick elapsed, w => { w with now := w.now + elapsed }

@[reducible] def tables : Store TableOp TableOp.Resp Err World Answer Event where
  perform := TableOp.perform
  advance := Event.advance

abbrev Session (α : Type) := Prog TableOp TableOp.Resp Err α

inductive Op
  | table (op : TableOp)
  | transaction (body : Session Order)

@[reducible] def Op.Resp : Op → Type
  | table op => op.Resp
  | transaction _ => Order

def Op.perform : (op : Op) → Answer → World → Except Err op.Resp × World
  | table op, a, w => op.perform a w
  | transaction body, a, w =>
    if a.aborted then (.error (.other "TransientTransactionError: WriteConflict"), w)
    else
      match body.eval tables a w with
      | (.ok order, w') => (.ok order, w')
      | (.error e, _) => (.error e, w)

@[reducible] def store : Store Op Op.Resp Err World Answer Event where
  perform := Op.perform
  advance := Event.advance

instance : Inhabited Answer := ⟨{}⟩

instance : Inhabited World := ⟨{}⟩

end RestaurantOs.Loyalty
