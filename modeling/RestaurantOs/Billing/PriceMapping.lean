import RestaurantOs.Data.Tables

/-!
# Loading price ids

A mapping gives each plan's product and price ids. It is checked against the
catalogue and against the provider as a whole, and its ids are written only if
nothing is wrong with any of them.
-/

namespace RestaurantOs.PriceMapping

inductive Interval
  | monthly | yearly
  deriving DecidableEq

def INTERVALS : List Interval := [.monthly, .yearly]

def Interval.text : Interval → String
  | .monthly => "monthly"
  | .yearly => "yearly"

def PADDLE_INTERVAL : Interval → String
  | .monthly => "month"
  | .yearly => "year"

structure PlanPriceIds where
  productId : String
  monthly : Option String := none
  yearly : Option String := none
  deriving DecidableEq

def PlanPriceIds.of (ids : PlanPriceIds) : Interval → Option String
  | .monthly => ids.monthly
  | .yearly => ids.yearly

def PlanPriceIds.given (ids : PlanPriceIds) (interval : Interval) : Option String := (ids.of interval).filter (· ≠ "")

abbrev PaddlePriceMapping := List (String × PlanPriceIds)

structure UnitPrice where
  amount : Option String
  currency_code : Option String

structure BillingCycle where
  interval : Option String
  frequency : Option Int

structure PaddlePrice where
  product_id : Option String
  status : Option String
  unit_price : Option UnitPrice
  billing_cycle : Option BillingCycle
  trial_period : Bool

structure Pricing where
  interval : Interval
  amountCents : Option Nat
  currency : Option String
  providerPriceId : Option String
  deriving DecidableEq

structure Plan where
  code : String
  isActive : Bool
  providerProductId : Option String
  pricing : List Pricing
  deriving DecidableEq

structure PriceIdChange where
  planCode : String
  interval : Interval
  from' : Option String
  to' : String

structure ProductIdChange where
  planCode : String
  from' : Option String
  to' : String

structure Result where
  problems : List String := []
  priceChanges : List PriceIdChange := []
  productChanges : List ProductIdChange := []
  applied : Bool := false

def Result.join (results : List Result) : Result where
  problems := results.flatMap (·.problems)
  priceChanges := results.flatMap (·.priceChanges)
  productChanges := results.flatMap (·.productChanges)

/-! ## The mapping -/

structure RawEntry where
  productId : Option String
  monthly : Option String
  yearly : Option String

/-- An object with its keys in the order of `Object.entries`. -/
structure JsonObject where
  entries : List (String × RawEntry)
  keys_nodup : (entries.map (·.1)).Nodup

/-- A mark, then ten or more lower case letters or digits. -/
def hasIdForm (mark : String) (id : String) : Bool :=
  id.toList.take 4 = mark.toList && 10 ≤ (id.toList.drop 4).length &&
    (id.toList.drop 4).all fun c => ('a' ≤ c && c ≤ 'z') || ('0' ≤ c && c ≤ '9')

def PRODUCT_ID (id : String) : Bool := hasIdForm "pro_" id

def PRICE_ID (id : String) : Bool := hasIdForm "pri_" id

def RawEntry.ids (entry : RawEntry) : PlanPriceIds where
  productId := entry.productId.getD ""
  monthly := entry.monthly
  yearly := entry.yearly

def entryProblems (planCode : String) (ids : PlanPriceIds) : List String :=
  (if PRODUCT_ID ids.productId then [] else [s!"{planCode}: productId \"{ids.productId}\" is not a Paddle product id (pro_…)."]) ++
    INTERVALS.flatMap (fun interval =>
      match ids.of interval with
      | none => []
      | some id => if PRICE_ID id then [] else [s!"{planCode}: {interval.text} \"{id}\" is not a Paddle price id (pri_…)."]) ++
    if ids.given .monthly = none ∧ ids.given .yearly = none then [s!"{planCode}: no monthly or yearly price id given."] else []

def givenIds (mapping : PaddlePriceMapping) : List String := mapping.flatMap fun entry => INTERVALS.filterMap entry.2.given

def dupes (all : List String) : List String := (all.zipIdx.filter fun entry => all.idxOf entry.1 ≠ entry.2).map (·.1)

/-- A key `__proto__` would set the mapping's prototype, not an entry of it. -/
def mappingOf (input : JsonObject) : PaddlePriceMapping :=
  (input.entries.filter (·.1 ≠ "__proto__")).map fun entry => (entry.1, entry.2.ids)

/-- `none` is an input that is no object. -/
def parsePriceMapping (input : Option JsonObject) : PaddlePriceMapping × List String :=
  match input with
  | none => ([], ["The mapping must be a JSON object of plan code → \x7b productId, monthly, yearly \x7d."])
  | some object =>
    let mapping := mappingOf object
    let repeated := dupes (givenIds mapping)
    let listed := String.intercalate ", " repeated.eraseDups
    (mapping,
      object.entries.flatMap (fun entry => entryProblems entry.1 entry.2.ids) ++
      (if mapping = [] then ["The mapping is empty."] else []) ++
      if repeated = [] then [] else [s!"The same price id is used more than once: {listed}."])

/-! ## The checks -/

structure Expected where
  priceId : String
  productId : String
  interval : Interval
  amountCents : Nat
  currency : String
  label : String

def shown (value : Option String) (absent : String) : String := value.getD absent

def checkPaddlePrice (upper : String → String) (price : Option PaddlePrice) (expected : Expected) : List String :=
  let label := expected.label
  match price with
  | none => [s!"{label}: {expected.priceId} was not found in this Paddle environment (a sandbox id used against live, or a typo)."]
  | some price =>
    let amount := price.unit_price.bind (·.amount)
    let currency := price.unit_price.bind (·.currency_code)
    let cycle := price.billing_cycle
    let every := PADDLE_INTERVAL expected.interval
    (if price.status = some "active" then [] else [s!"{label}: price is \"{shown price.status undefined}\", not active."]) ++
    (if price.product_id = some expected.productId then []
      else [s!"{label}: price belongs to product {shown price.product_id undefined}, not {expected.productId}."]) ++
    (if amount = some (toString expected.amountCents) then []
      else [s!"{label}: Paddle charges {shown amount unknown} but the plan says {expected.amountCents} (smallest currency unit)."]) ++
    (if upper (currency.getD "") = upper expected.currency then []
      else [s!"{label}: Paddle currency {shown currency unknown} but the plan says {expected.currency}."]) ++
    (if cycle.any (fun cycle => cycle.interval = some every && cycle.frequency = some 1) then []
      else [s!"{label}: Paddle bills every {cycleText cycle}, not every 1 {every}."]) ++
    if price.trial_period then [s!"{label}: the Paddle price has its own trial; remove it (GarnishTable runs the trial itself)."] else []
where
  undefined : String := "undefined"
  unknown : String := "?"
  cycleText : Option BillingCycle → String
    | none => "(one-time)"
    | some cycle => (cycle.frequency.map toString).getD undefined ++ " " ++ shown cycle.interval undefined

section Checks

variable (upper cast : String → String) (fetchPrice : String → Option PaddlePrice)

def pricingResult (planCode : String) (ids : PlanPriceIds) (pricing : Pricing) : Result :=
  let label := s!"{planCode} {pricing.interval.text}"
  match ids.given pricing.interval with
  | none => { problems := [s!"{label}: the plan sells this interval but no price id was given."] }
  | some priceId =>
    match pricing.amountCents, pricing.currency.filter (· ≠ "") with
    | some amountCents, some currency =>
      { problems := checkPaddlePrice upper (fetchPrice priceId) ⟨priceId, ids.productId, pricing.interval, amountCents, currency, label⟩
        priceChanges :=
          if pricing.providerPriceId = some priceId then [] else [⟨planCode, pricing.interval, pricing.providerPriceId, priceId⟩] }
    | _, _ => { problems := [s!"{label}: the plan has no amount/currency to check the Paddle price against."] }

def unsoldProblems (planCode : String) (ids : PlanPriceIds) (plan : Plan) : List String :=
  INTERVALS.flatMap fun interval =>
    if (ids.given interval).isSome && !plan.pricing.any (·.interval = interval) then
      [s!"{planCode} {interval.text}: a price id was given but the plan has no {interval.text} price."]
    else []

def planResult (planCode : String) (ids : PlanPriceIds) (plan : Plan) : Result :=
  .join
    ({ problems := if plan.isActive then [] else [s!"{planCode}: plan is retired (isActive: false); only active plans are sold."]
       productChanges := if plan.providerProductId = some ids.productId then [] else [⟨planCode, plan.providerProductId, ids.productId⟩] } ::
      plan.pricing.map (pricingResult upper fetchPrice planCode ids) ++ [{ problems := unsoldProblems planCode ids plan }])

def entryResult (plans : List Plan) (entry : String × PlanPriceIds) : Result :=
  match plans.find? (·.code = entry.1) with
  | none => { problems := [s!"{entry.1}: no such plan."] }
  | some plan => planResult upper fetchPrice entry.1 entry.2 plan

def inMapping (mapping : PaddlePriceMapping) (plan : Plan) : Bool := (mapping.map (cast ·.1)).contains plan.code

def clashProblems (mapping : PaddlePriceMapping) (catalogue : List Plan) : List String :=
  (catalogue.filter fun plan => !inMapping cast mapping plan &&
    plan.pricing.any fun pricing => pricing.providerPriceId.any (givenIds mapping).contains).map fun clash =>
      s!"{clash.code}: already uses one of these price ids."

def validate (mapping : PaddlePriceMapping) (catalogue : List Plan) : Result :=
  .join (mapping.map (entryResult upper fetchPrice (catalogue.filter (inMapping cast mapping))) ++
    [{ problems := clashProblems cast mapping catalogue }])

end Checks

/-! ## The writes -/

inductive Write
  | product (change : ProductIdChange)
  | price (change : PriceIdChange)

/-- `pricing.$` is the first price of the interval. -/
def setPrice (interval : Interval) (id : String) : List Pricing → List Pricing
  | [] => []
  | pricing :: rest =>
    if pricing.interval = interval then { pricing with providerPriceId := some id } :: rest else pricing :: setPrice interval id rest

def Write.onPlan (cast : String → String) (plan : Plan) : Write → Plan
  | .product change => if plan.code = cast change.planCode then { plan with providerProductId := some change.to' } else plan
  | .price change =>
    if plan.code = cast change.planCode && plan.pricing.any (·.interval = change.interval) then
      { plan with pricing := setPrice change.interval change.to' plan.pricing }
    else plan

def Write.perform (cast : String → String) (catalogue : List Plan) (write : Write) : List Plan := catalogue.map (write.onPlan cast)

def Result.writes (result : Result) : List Write := result.productChanges.map .product ++ result.priceChanges.map .price

def callWrites (apply : Bool) (result : Result) : List Write := if !apply || result.problems ≠ [] then [] else result.writes

section Apply

variable (upper cast : String → String) (fetchPrice : String → Option PaddlePrice) (mapping : PaddlePriceMapping) (apply : Bool)
  (catalogue : List Plan)

/-- The catalogue after the first `k` writes of a call. -/
def cutShort (k : Nat) : List Plan :=
  ((callWrites apply (validate upper cast fetchPrice mapping catalogue)).take k).foldl (Write.perform cast) catalogue

def applyPaddlePriceMapping : Result × List Plan :=
  let result := validate upper cast fetchPrice mapping catalogue
  if !apply || result.problems ≠ [] then (result, catalogue)
  else ({ result with applied := true }, result.writes.foldl (Write.perform cast) catalogue)

end Apply

end RestaurantOs.PriceMapping
