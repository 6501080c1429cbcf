import RestaurantOs.Billing.TrialExtension

/-!
# Entitlements

What a business may use follows its own subscription, if it ever had one, and
else that of the agency which manages it.
-/

namespace RestaurantOs.Entitlements

open Async

open Billing (OwnerType Subscription Plan isSubscriptionLive)

export Payments (Id Time ApiError Err)

inductive EntitlementValue
  | boolean (value : Bool)
  | number (value : Int)
  | text (value : String)
  deriving DecidableEq

structure PlanEntitlement where
  key : String
  value : EntitlementValue
  deriving DecidableEq

structure PlanDoc extends Plan where
  entitlements : List PlanEntitlement
  deriving DecidableEq

structure Business where
  id : Id
  ownerId : Id
  agencyId : Option Id := none
  locationCount : Int := 0
  deriving DecidableEq

structure Restaurant where
  id : Id
  name : String
  slug : String
  ownerId : Id
  businessId : Id
  deriving DecidableEq

/-- `entitlements` are those of the plans of `billing`. -/
structure World where
  billing : Billing.World := {}
  entitlements : List (Id × List PlanEntitlement) := []
  businesses : List Business := []
  restaurants : List Restaurant := []
  nextId : Id := 0

def World.business? (w : World) (id : Id) : Option Business := w.businesses.find? (·.id = id)

def World.entitlementsOf (w : World) (planId : Id) : List PlanEntitlement :=
  (w.entitlements.find? (·.1 = planId)).elim [] Prod.snd

inductive ReadOp
  | clock
  | trialExtensionActive
  | findNewest (ownerType : OwnerType) (ownerId : Id)
  | findPlan (id : Id)
  | findBusiness (id : Id)
  deriving DecidableEq

@[reducible] def ReadOp.Resp : ReadOp → Type
  | clock => Time
  | trialExtensionActive => Bool
  | findNewest _ _ => Option Subscription
  | findPlan _ => Option PlanDoc
  | findBusiness _ => Option Business

/-- `{ ownerType, ownerId, provider: { $ne: "internal" } }` -/
def isOwn (ownerType : OwnerType) (ownerId : Id) (sub : Subscription) : Bool :=
  sub.ownerType = ownerType && sub.ownerId = ownerId && sub.provider ≠ .internal

def ReadOp.perform : (op : ReadOp) → World → Except Err op.Resp
  | clock, w => .ok w.billing.now
  | trialExtensionActive, w => .ok w.billing.trialExtensionActive
  | findNewest ownerType ownerId, w =>
    .ok (Tables.newest Subscription.createdAt (w.billing.subscriptions.filter (isOwn ownerType ownerId)))
  | findPlan id, w => .ok ((w.billing.plans.find? (·.id = id)).map fun plan => { plan with entitlements := w.entitlementsOf id })
  | findBusiness id, w => .ok (w.business? id)

@[reducible] def reads : Store ReadOp ReadOp.Resp Err World Unit Empty where
  perform op _ w := (op.perform w, w)
  advance e := e.elim

abbrev Reads (α : Type) := Prog ReadOp ReadOp.Resp Err α

def read (op : ReadOp) : Reads op.Resp := .call op

def Reads.at {α : Type} (p : Reads α) (w : World) : Except Err α := (p.eval reads () w).1

/-! ## The subscription of an owner -/

inductive SubscriptionResolution
  | live (plan : PlanDoc) (subscription : Subscription)
  | lapsed
  | never
  deriving DecidableEq

/-- `now` is the caller's. -/
def resolveSubscriptionState (ownerType : OwnerType) (ownerId : Id) (now : Time) : Reads SubscriptionResolution := do
  let mostRecent : Option Subscription ← read (.findNewest ownerType ownerId)
  match mostRecent with
  | none => pure .never
  | some mostRecent => do
    let extensionActive : Bool ← read .trialExtensionActive
    if isSubscriptionLive extensionActive mostRecent now then do
      let plan : Option PlanDoc ← read (.findPlan mostRecent.planId)
      match plan with
      | none => pure .never
      | some plan => pure (.live plan mostRecent)
    else pure .lapsed

/-- `now: Date = new Date()` -/
def resolveSubscriptionStateNow (ownerType : OwnerType) (ownerId : Id) : Reads SubscriptionResolution := do
  let now : Time ← read .clock
  resolveSubscriptionState ownerType ownerId now

inductive PlanSource
  | business | agency
  deriving DecidableEq

/-- `none` is an owner that never subscribed. -/
inductive BusinessPlanResolution
  | plan (plan : PlanDoc) (source : PlanSource)
  | lapsed
  | none
  deriving DecidableEq

def resolveBusinessPlanWithInheritance (businessId : Id) : Reads BusinessPlanResolution := do
  let ownState ← resolveSubscriptionStateNow .business businessId
  match ownState with
  | .live plan _ => pure (.plan plan .business)
  | .lapsed => pure .lapsed
  | .never => do
    let business : Option Business ← read (.findBusiness businessId)
    match business.bind (·.agencyId) with
    | none => pure .none
    | some agencyId => do
      let agencyState ← resolveSubscriptionStateNow .agency agencyId
      match agencyState with
      | .live plan _ => pure (.plan plan .agency)
      | .lapsed => pure .lapsed
      | .never => pure .none

/-! ## Features and limits -/

def EntitlementValue.granted : EntitlementValue → Bool
  | boolean value => value
  | number value => value > 0
  | text value => value ≠ ""

def hasEntitlement (plan : PlanDoc) (key : String) : Bool :=
  (plan.entitlements.find? (·.key = key)).any (·.value.granted)

/-- `getEntitlements(plan)[key]`: of several entries of a key the last one. -/
def getEntitlement (plan : PlanDoc) (key : String) : Option EntitlementValue :=
  (plan.entitlements.reverse.find? (·.key = key)).map (·.value)

def hasFeatureEntitlement (ownerType : OwnerType) (ownerId : Id) (key : String) : Reads Bool :=
  match ownerType with
  | .business => do
    let resolved ← resolveBusinessPlanWithInheritance ownerId
    match resolved with
    | .none => pure true
    | .lapsed => pure false
    | .plan plan _ => pure (hasEntitlement plan key)
  | .agency => do
    let state ← resolveSubscriptionStateNow .agency ownerId
    match state with
    | .never => pure true
    | .lapsed => pure false
    | .live plan _ => pure (hasEntitlement plan key)

def NO_SUBSCRIPTION_DEFAULT_MAX_LOCATIONS : Int := 20

def PlanSource.locationsKey : PlanSource → String
  | agency => "managed_business_max_locations"
  | business => "max_locations"

def planMaxLocations (plan : PlanDoc) (source : PlanSource) : Int :=
  match getEntitlement plan source.locationsKey with
  | some (.number value) => if value > 0 then value else NO_SUBSCRIPTION_DEFAULT_MAX_LOCATIONS
  | _ => NO_SUBSCRIPTION_DEFAULT_MAX_LOCATIONS

def getMaxLocations (businessId : Id) : Reads Int := do
  let resolved ← resolveBusinessPlanWithInheritance businessId
  match resolved with
  | .none => pure NO_SUBSCRIPTION_DEFAULT_MAX_LOCATIONS
  | .lapsed => do
    let business : Option Business ← read (.findBusiness businessId)
    pure (business.elim 0 (·.locationCount))
  | .plan plan source => pure (planMaxLocations plan source)

/-! ## Resolution at one moment -/

section At

variable {α β : Type} {w : World} {ownerType : OwnerType} {ownerId : Id} {now : Time}

theorem eval_state (p : Reads α) : (p.eval reads () w).2 = w :=
  Prog.Performs.eval (I := fun s : World => s = w) p.performs_all (fun _ _ _ hSame => hSame) rfl

@[simp] theorem at_read (op : ReadOp) : (read op).at w = op.perform w := by
  rw [Reads.at, read, Prog.eval_call]

theorem at_bind {p : Reads α} {f : α → Reads β} {a : α} (h : p.at w = .ok a) : Reads.at (p >>= f) w = (f a).at w := by
  have hFirst : p.eval reads () w = (.ok a, w) := Prod.ext h (eval_state p)
  rw [Reads.at, Prog.bind_eq, Prog.eval_bind_ok hFirst, Reads.at]

def World.newest? (w : World) (ownerType : OwnerType) (ownerId : Id) : Option Subscription :=
  Tables.newest Subscription.createdAt (w.billing.subscriptions.filter (isOwn ownerType ownerId))

def World.plan? (w : World) (id : Id) : Option PlanDoc :=
  (w.billing.plans.find? (·.id = id)).map fun plan => { plan with entitlements := w.entitlementsOf id }

def World.subscriptionState (w : World) (ownerType : OwnerType) (ownerId : Id) (now : Time) : SubscriptionResolution :=
  match w.newest? ownerType ownerId with
  | none => .never
  | some mostRecent =>
    if isSubscriptionLive w.billing.trialExtensionActive mostRecent now then
      match w.plan? mostRecent.planId with
      | none => .never
      | some plan => .live plan mostRecent
    else .lapsed

@[simp] theorem resolveSubscriptionState_at :
    (resolveSubscriptionState ownerType ownerId now).at w = .ok (w.subscriptionState ownerType ownerId now) := by
  have hNewest : (read (.findNewest ownerType ownerId)).at w = .ok (w.newest? ownerType ownerId) := at_read _
  rw [resolveSubscriptionState, at_bind hNewest, World.subscriptionState]
  cases w.newest? ownerType ownerId with
  | none => rfl
  | some mostRecent =>
    have hActive : (read .trialExtensionActive).at w = .ok w.billing.trialExtensionActive := at_read _
    dsimp only
    rw [at_bind hActive]
    split
    · have hPlan : (read (.findPlan mostRecent.planId)).at w = .ok (w.plan? mostRecent.planId) := at_read _
      rw [at_bind hPlan]
      cases w.plan? mostRecent.planId <;> rfl
    · rfl

@[simp] theorem resolveSubscriptionStateNow_at :
    (resolveSubscriptionStateNow ownerType ownerId).at w = .ok (w.subscriptionState ownerType ownerId w.billing.now) := by
  have hNow : (read .clock).at w = .ok w.billing.now := at_read _
  rw [resolveSubscriptionStateNow, at_bind hNow, resolveSubscriptionState_at]

def World.businessPlan (w : World) (businessId : Id) : BusinessPlanResolution :=
  match w.subscriptionState .business businessId w.billing.now with
  | .live plan _ => .plan plan .business
  | .lapsed => .lapsed
  | .never =>
    match (w.business? businessId).bind (·.agencyId) with
    | none => .none
    | some agencyId =>
      match w.subscriptionState .agency agencyId w.billing.now with
      | .live plan _ => .plan plan .agency
      | .lapsed => .lapsed
      | .never => .none

@[simp] theorem resolveBusinessPlanWithInheritance_at {businessId : Id} :
    (resolveBusinessPlanWithInheritance businessId).at w = .ok (w.businessPlan businessId) := by
  rw [resolveBusinessPlanWithInheritance, at_bind resolveSubscriptionStateNow_at, World.businessPlan]
  cases w.subscriptionState .business businessId w.billing.now with
  | live plan subscription => rfl
  | lapsed => rfl
  | never =>
    have hBusiness : (read (.findBusiness businessId)).at w = .ok (w.business? businessId) := at_read _
    dsimp only
    rw [at_bind hBusiness]
    cases (w.business? businessId).bind (·.agencyId) with
    | none => rfl
    | some agencyId =>
      dsimp only
      rw [at_bind resolveSubscriptionStateNow_at]
      cases w.subscriptionState .agency agencyId w.billing.now <;> rfl

def World.maxLocations (w : World) (businessId : Id) : Int :=
  match w.businessPlan businessId with
  | .none => NO_SUBSCRIPTION_DEFAULT_MAX_LOCATIONS
  | .lapsed => (w.business? businessId).elim 0 (·.locationCount)
  | .plan plan source => planMaxLocations plan source

@[simp] theorem getMaxLocations_at {businessId : Id} : (getMaxLocations businessId).at w = .ok (w.maxLocations businessId) := by
  rw [getMaxLocations, at_bind resolveBusinessPlanWithInheritance_at, World.maxLocations]
  cases w.businessPlan businessId with
  | none => rfl
  | lapsed =>
    have hBusiness : (read (.findBusiness businessId)).at w = .ok (w.business? businessId) := at_read _
    dsimp only
    rw [at_bind hBusiness]
    rfl
  | plan plan source => rfl

def World.hasFeature (w : World) (businessId : Id) (key : String) : Bool :=
  match w.businessPlan businessId with
  | .none => true
  | .lapsed => false
  | .plan plan _ => hasEntitlement plan key

@[simp] theorem hasFeatureEntitlement_at {businessId : Id} {key : String} :
    (hasFeatureEntitlement .business businessId key).at w = .ok (w.hasFeature businessId key) := by
  rw [hasFeatureEntitlement, at_bind resolveBusinessPlanWithInheritance_at, World.hasFeature]
  cases w.businessPlan businessId <;> rfl

end At

end RestaurantOs.Entitlements
