import RestaurantOs.Promotions.Store

/-!
# How often a promotion is used

A code is validated before the transaction that places the order, and counted in
it. Several orders may pass the validation for the last use; the conditional
count lets one of them through.
-/

namespace RestaurantOs.Promotions

open Async Prog

abbrev Promise (α : Type) := Prog Op Op.Resp Err α

def tableOp (op : TableOp) : Promise op.Resp := .call (Op.table op)

def throwApi {α : Type} (error : ApiError) : Promise α := .raise (.api error)

/-- `normalized` is `rawCode.trim().toUpperCase()`. -/
structure Env where
  normalized : String → String

structure AppliedPromo where
  promotion : Promotion
  discount : ℚ

def Promotion.discount (promotion : Promotion) (subtotal : ℚ) : ℚ :=
  match promotion.type with
  | .percentage => roundCurrency (subtotal * (promotion.value / 100))
  | .fixed => min promotion.value subtotal

def validatePromoCode (env : Env) (restaurantId : Id) (rawCode : String) (subtotal : ℚ) (businessId : Option Id) :
    Promise AppliedPromo := do
  let promotion : Option Promotion ← tableOp (.promotion (.findOne (env.normalized rawCode) restaurantId businessId))
  match promotion with
  | none => throwApi (.badRequest "Invalid promo code")
  | some promotion =>
    if !promotion.isActive then throwApi (.badRequest "This promo code is no longer active")
    else do
      let now : Time ← tableOp (.loyalty .clock)
      if promotion.startDate.any (now < ·) then throwApi (.badRequest "This promo code isn't active yet")
      else if promotion.endDate.any (· < now) then throwApi (.badRequest "This promo code has expired")
      else if promotion.usageLimit.any (· ≤ promotion.usageCount) then
        throwApi (.badRequest "This promo code has reached its usage limit")
      else if subtotal < promotion.minOrderAmount then
        throwApi (.badRequest s!"This promo code requires a minimum order of {promotion.minOrderAmount}")
      else pure ⟨promotion, promotion.discount subtotal⟩

def transientTransactionError : Err := .other "TransientTransactionError"

/-- `session.withTransaction`: an attempt that aborts is made again, as long as
there is time for `attempts` of them. -/
def withTransaction (placement : Placement) : (attempts : Nat) → Promise Loyalty.Order
  | 0 => .raise transientTransactionError
  | attempts + 1 => do
    let outcome ← (Prog.call (Op.transaction placement) : Promise Loyalty.Order).attempt
    match outcome with
    | .ok order => pure order
    | .error e => if e = transientTransactionError then withTransaction placement attempts else .raise e

/-- `promoCode ? await validatePromoCode(…) : null` -/
def applyPromoCode (env : Env) (input : Loyalty.OrderInput) (businessId : Option Id) : Option String → Promise Placement
  | none => pure ⟨{ input with promoDiscount := none }, none⟩
  | some code => do
    let applied ← validatePromoCode env input.restaurantId code input.subtotal businessId
    pure ⟨{ input with promoDiscount := some applied.discount }, some applied.promotion.id⟩

/-- An order that passed the checks of the restaurant, its items priced. -/
def createOrderForCustomer (env : Env) (attempts : Nat) (input : Loyalty.OrderInput) (promoCode : Option String)
    (businessId : Option Id) : Promise Unit :=
  if input.subtotal < input.minOrderAmount then throwApi (.badRequest s!"Minimum order amount is {input.minOrderAmount}")
  else do
    let placement ← applyPromoCode env input businessId (promoCode.filter (· ≠ ""))
    let _ : Loyalty.Order ← withTransaction placement attempts
    pure ()

def refuseSameCode (scope : Scope) (id : Id) (message : String) : Option String → Promise Unit
  | none => pure ()
  | some code => do
    let existing : Option Promotion ← tableOp (.promotion (.findSameCode scope code id))
    if existing.isSome then throwApi (.conflict message) else pure ()

def setUpdates (scope : Scope) (id : Id) (updates : UpdatePromotionInput) : Promise Unit := do
  let promotion : Option Promotion ← tableOp (.promotion (.findOneAndUpdate id scope updates))
  if promotion.isNone then throwApi (.notFound "Promotion not found") else pure ()

def updatePromotion (restaurantId id : Id) (updates : UpdatePromotionInput) : Promise Unit := do
  refuseSameCode (.location restaurantId) id "A promotion with this code already exists" updates.code
  setUpdates (.location restaurantId) id updates

def assertLocationsBelongToBusiness (businessId : Id) (locationIds : List Id) : Promise Unit := do
  let validCount : Nat ← tableOp (.countLocations businessId locationIds)
  if validCount ≠ locationIds.length then
    throwApi (.badRequest "One or more selected locations do not belong to this business")
  else pure ()

def checkLocations (businessId : Id) : Option (List Id) → Promise Unit
  | none => pure ()
  | some locationIds => assertLocationsBelongToBusiness businessId locationIds

def updateBusinessPromotion (businessId id : Id) (updates : UpdatePromotionInput) : Promise Unit := do
  checkLocations businessId updates.locationIds
  refuseSameCode (.business businessId) id "A promotion with this code already exists for this business" updates.code
  setUpdates (.business businessId) id updates

inductive Request
  | createOrder (attempts : Nat) (input : Loyalty.OrderInput) (promoCode : Option String) (businessId : Option Id)
  | updatePromotion (restaurantId id : Id) (updates : UpdatePromotionInput)
  | updateBusinessPromotion (businessId id : Id) (updates : UpdatePromotionInput)

def program (env : Env) : Request → Promise Unit
  | .createOrder attempts input promoCode businessId => createOrderForCustomer env attempts input promoCode businessId
  | .updatePromotion restaurantId id updates => Promotions.updatePromotion restaurantId id updates
  | .updateBusinessPromotion businessId id updates => Promotions.updateBusinessPromotion businessId id updates

def commits (id : Id) : Entry Op Op.Resp Err → Bool
  | ⟨_, .transaction placement, .ok _⟩ => placement.appliedPromo = some id
  | _ => false

def keepsLimit {α : Type} (id : Id) (c : Config Op Op.Resp Err World α) : Label (Except Err Unit) Loyalty.Event → Bool
  | .run t _ =>
    match c.waiting? t with
    | some (.table (.promotion (.findOneAndUpdate target _ updates))) =>
      target ≠ id || (c.state.promotion? id).all fun stored =>
        updates.usageLimit.all fun raised => stored.usageLimit.all (· ≤ raised)
    | _ => true
  | _ => true

/-! ## What one operation does to a promotion -/

section Perform

variable {w : World} {id : Id} {stored : Promotion}

theorem World.promotion?_update {sel : Promotion → Bool} {f : Promotion → Promotion} (hId : ∀ p, (f p).id = p.id) :
    (w.update sel f).promotion? id = (w.promotion? id).map fun p => if sel p then f p else p := by
  refine Tables.find?_update fun p _ => ?_
  split
  · rw [hId]
  · rfl

theorem id_of_promotion? (h : w.promotion? id = some stored) : stored.id = id := by
  simpa using List.find?_some h

theorem promotion?_updateOne (promotionId : Id) :
    ((PromotionOp.updateOne promotionId).perform w).2.promotion? id =
      (w.promotion? id).map fun p => if promotionId = id ∧ p.usable = true then p.used else p := by
  have hUpdate : ((PromotionOp.updateOne promotionId).perform w).2 =
      w.update (fun p => p.id = promotionId && p.usable) Promotion.used := rfl
  rw [hUpdate, World.promotion?_update (f := Promotion.used) fun _ => rfl]
  cases hStored : w.promotion? id with
  | none => rfl
  | some stored =>
    have hId := id_of_promotion? hStored
    subst hId
    simp only [Option.map_some, Bool.and_eq_true, decide_eq_true_eq, @eq_comm _ stored.id promotionId]

theorem promotion?_findOneAndUpdate {target : Id} {scope : Scope} {updates : UpdatePromotionInput}
    (h : w.promotion? id = some stored) :
    ∃ next, ((PromotionOp.findOneAndUpdate target scope updates).perform w).2.promotion? id = some next ∧
      next.usageCount = stored.usageCount ∧
      (next.usageLimit = stored.usageLimit ∨ target = id ∧ next.usageLimit = (updates.usageLimit <|> stored.usageLimit)) := by
  have hKept : ∃ next, w.promotion? id = some next ∧ next.usageCount = stored.usageCount ∧
      (next.usageLimit = stored.usageLimit ∨ target = id ∧ next.usageLimit = (updates.usageLimit <|> stored.usageLimit)) :=
    ⟨stored, h, rfl, .inl rfl⟩
  simp only [PromotionOp.perform]
  split
  · exact hKept
  · split
    · exact hKept
    · refine ⟨_, (World.promotion?_update (f := updates.set) fun _ => rfl).trans (by rw [h, Option.map_some]), ?_⟩
      split
      · rename_i hSel
        simp only [Bool.and_eq_true, decide_eq_true_eq] at hSel
        exact ⟨rfl, .inr ⟨hSel.1.symm.trans (id_of_promotion? h), rfl⟩⟩
      · exact ⟨rfl, .inl rfl⟩

theorem promotions_of_fromLoyalty {α : Type} {p : Loyalty.Session α} {r : Except Err α} {w' : World}
    (h : (fromLoyalty p).eval tables () w = (r, w')) : w'.promotions = w.promotions := by
  have hPerforms : (fromLoyalty p).Performs fun o => ∃ op, o = TableOp.loyalty op :=
    (performs_all p).translate fun op _ => performs_call ⟨op, rfl⟩
  have hKept : ((fromLoyalty p).eval tables () w).2.promotions = w.promotions := by
    refine Performs.eval (I := fun s : World => s.promotions = w.promotions) hPerforms ?_ rfl
    rintro o s ⟨op, rfl⟩ hSame
    exact hSame
  rw [h] at hKept
  exact hKept

theorem promotions_of_loyalty {op : Loyalty.TableOp} {v : op.Resp} {w' : World}
    (h : (inSession (.loyalty op)).eval tables () w = (.ok v, w')) : w'.promotions = w.promotions := by
  have hPerform := (eval_call (S := tables) (a := ()) (s := w) (TableOp.loyalty op)).symm.trans h
  exact (congrArg (fun r => r.2.promotions) hPerform).symm

theorem promotion?_congr {w' : World} (h : w'.promotions = w.promotions) : w'.promotion? id = w.promotion? id := by
  rw [World.promotion?, h, World.promotion?]

theorem promotion?_recordPromoOnOrder {appliedPromo : Option Id} {w' : World}
    (h : (recordPromoOnOrder appliedPromo).eval tables () w = (.ok (), w')) :
    w'.promotion? id = (w.promotion? id).map (fun p => if appliedPromo = some id then p.used else p) ∧
      (appliedPromo = some id → (w.promotion? id).any Promotion.usable = true) := by
  cases appliedPromo with
  | none =>
    cases h
    refine ⟨?_, (by rintro ⟨⟩)⟩
    cases w.promotion? id <;> rfl
  | some promotionId =>
    obtain ⟨recorded, w₁, hRecorded, hRest⟩ := bind_eval_ok h
    have hPerform := (eval_call (S := tables) (a := ()) (s := w) (TableOp.promotion (.updateOne promotionId))).symm.trans hRecorded
    have hAnswer : (w.promotion? promotionId).any Promotion.usable = recorded := by
      injection congrArg Prod.fst hPerform
    have hState : ((PromotionOp.updateOne promotionId).perform w).2 = w₁ := congrArg Prod.snd hPerform
    cases recorded with
    | false => cases hRest
    | true =>
      cases hRest
      rw [← hState, promotion?_updateOne]
      constructor
      · cases hStored : w.promotion? id with
        | none => rfl
        | some stored =>
          by_cases hEq : promotionId = id
          · subst hEq
            rw [hStored] at hAnswer
            have hUsable : stored.usable = true := hAnswer
            simp only [Option.map_some, hUsable, and_self, if_true]
          · have hNe : ¬ some promotionId = some id := fun h => hEq (Option.some.inj h)
            simp only [Option.map_some, hEq, false_and, if_false, hNe]
      · intro hEq
        cases hEq
        exact hAnswer

theorem promotion?_placeOrder {placement : Placement} {order : Loyalty.Order} {w' : World}
    (h : (placeOrder placement).eval tables () w = (.ok order, w')) :
    w'.promotion? id = (w.promotion? id).map (fun p => if placement.appliedPromo = some id then p.used else p) ∧
      (placement.appliedPromo = some id → (w.promotion? id).any Promotion.usable = true) := by
  obtain ⟨now, w₁, hNow, h⟩ := bind_eval_ok h
  obtain ⟨created, w₂, hCreated, h⟩ := bind_eval_ok h
  obtain ⟨_, w₃, hRedeemed, h⟩ := bind_eval_ok h
  obtain ⟨_, w₄, hRecorded, h⟩ := bind_eval_ok h
  obtain ⟨earned, w₅, hEarned, h⟩ := bind_eval_ok h
  obtain ⟨_, w₆, hSaved, h⟩ := bind_eval_ok h
  have hBefore : w₃.promotion? id = w.promotion? id :=
    promotion?_congr ((promotions_of_fromLoyalty hRedeemed).trans ((promotions_of_loyalty hCreated).trans (promotions_of_loyalty hNow)))
  have hAfter : w₆.promotion? id = w₄.promotion? id :=
    promotion?_congr ((promotions_of_loyalty hSaved).trans (promotions_of_fromLoyalty hEarned))
  cases h
  rw [hAfter, ← hBefore]
  exact promotion?_recordPromoOnOrder hRecorded

end Perform

/-! ## Over a whole run -/

/-- The promotion is used as often as orders were placed with it since its count
was `start`, and within its limit. -/
def Counted (id : Id) (start : Nat) (w : World) (history : List (Entry Op Op.Resp Err)) : Prop :=
  ∃ stored limit, w.promotion? id = some stored ∧ stored.usageLimit = some limit ∧ stored.usageCount ≤ limit ∧
    stored.usageCount = start + history.countP (commits id)

section Counted

variable {w w' : World} {id : Id} {start : Nat} {history : List (Entry Op Op.Resp Err)} {e : Entry Op Op.Resp Err}

theorem Counted.same (h : Counted id start w history) (hState : w'.promotion? id = w.promotion? id)
    (hEntry : commits id e = false) : Counted id start w' (e :: history) := by
  obtain ⟨stored, limit, hStored, hLimit, hWithin, hCount⟩ := h
  refine ⟨stored, limit, hState.trans hStored, hLimit, hWithin, ?_⟩
  rw [List.countP_cons_of_neg (by simp [hEntry])]
  exact hCount

theorem Counted.used (h : Counted id start w history) (hState : w'.promotion? id = (w.promotion? id).map Promotion.used)
    (hUsable : (w.promotion? id).any Promotion.usable = true) (hEntry : commits id e = true) :
    Counted id start w' (e :: history) := by
  obtain ⟨stored, limit, hStored, hLimit, hWithin, hCount⟩ := h
  rw [hStored] at hState hUsable
  have hBelow : stored.usageCount < limit := by
    have hFilter : stored.usable = true := hUsable
    simpa [Promotion.usable, hLimit] using hFilter
  refine ⟨stored.used, limit, hState, hLimit, hBelow, ?_⟩
  rw [List.countP_cons_of_pos hEntry, ← Nat.add_assoc, ← hCount]
  rfl

end Counted

def Op.countsNothing : Op → Prop
  | .table (.promotion (.updateOne _)) => False
  | _ => True

theorem validatePromoCode_performs {env : Env} {restaurantId : Id} {rawCode : String} {subtotal : ℚ} {businessId : Option Id} :
    (validatePromoCode env restaurantId rawCode subtotal businessId).Performs Op.countsNothing := by
  refine (performs_call trivial).bind fun promotion => ?_
  cases promotion with
  | none => trivial
  | some promotion =>
    dsimp only
    split
    · trivial
    · refine (performs_call trivial).bind fun now => ?_
      repeat' split
      all_goals trivial

theorem withTransaction_performs {placement : Placement} {attempts : Nat} :
    (withTransaction placement attempts).Performs Op.countsNothing := by
  induction attempts with
  | zero => trivial
  | succ attempts ih =>
    refine (performs_call trivial).attempt.bind fun outcome => ?_
    cases outcome with
    | ok order => trivial
    | error e =>
      dsimp only
      split
      · exact ih
      · trivial

theorem createOrderForCustomer_performs {env : Env} {attempts : Nat} {input : Loyalty.OrderInput} {promoCode : Option String}
    {businessId : Option Id} : (createOrderForCustomer env attempts input promoCode businessId).Performs Op.countsNothing := by
  unfold createOrderForCustomer
  split
  · trivial
  · refine Performs.bind ?_ fun placement => (withTransaction_performs).bind fun _ => trivial
    cases promoCode.filter (· ≠ "") with
    | none => trivial
    | some code => exact (validatePromoCode_performs).bind fun _ => trivial

theorem refuseSameCode_performs {scope : Scope} {id : Id} {message : String} {code : Option String} :
    (refuseSameCode scope id message code).Performs Op.countsNothing := by
  cases code with
  | none => trivial
  | some code =>
    refine (performs_call trivial).bind fun existing => ?_
    split <;> trivial

theorem setUpdates_performs {scope : Scope} {id : Id} {updates : UpdatePromotionInput} :
    (setUpdates scope id updates).Performs Op.countsNothing := by
  refine (performs_call trivial).bind fun promotion => ?_
  split <;> trivial

theorem program_performs (env : Env) (request : Request) : (program env request).Performs Op.countsNothing := by
  cases request with
  | createOrder attempts input promoCode businessId => exact createOrderForCustomer_performs
  | updatePromotion restaurantId id updates => exact (refuseSameCode_performs).bind fun _ => setUpdates_performs
  | updateBusinessPromotion businessId id updates =>
    refine Performs.bind ?_ fun _ => (refuseSameCode_performs).bind fun _ => setUpdates_performs
    cases updates.locationIds with
    | none => trivial
    | some locationIds =>
      refine (performs_call trivial).bind fun validCount => ?_
      split <;> trivial

section Run

variable {α : Type} {id : Id} {start t : Nat} {a : Except Err Unit} {c c' : Config Op Op.Resp Err World α}

theorem Counted.edited {target : Id} {scope : Scope} {updates : UpdatePromotionInput} {w : World}
    {history : List (Entry Op Op.Resp Err)} {e : Entry Op Op.Resp Err} (h : Counted id start w history)
    (hRaises : target ≠ id ∨ ∀ stored, w.promotion? id = some stored → ∀ limit, stored.usageLimit = some limit →
      ∀ raised, updates.usageLimit = some raised → limit ≤ raised) (hEntry : commits id e = false) :
    Counted id start ((PromotionOp.findOneAndUpdate target scope updates).perform w).2 (e :: history) := by
  obtain ⟨stored, limit, hStored, hLimit, hWithin, hCount⟩ := h
  obtain ⟨next, hNext, hNextCount, hNextLimit⟩ :=
    @promotion?_findOneAndUpdate w id stored target scope updates hStored
  have hEdited : ∃ edited, next.usageLimit = some edited ∧ limit ≤ edited := by
    rcases hNextLimit with hSame | ⟨hTarget, hSet⟩
    · exact ⟨limit, hSame.trans hLimit, le_rfl⟩
    · cases hRaised : updates.usageLimit with
      | none =>
        rw [hRaised, hLimit] at hSet
        exact ⟨limit, hSet, le_rfl⟩
      | some raised =>
        rw [hRaised] at hSet
        exact ⟨raised, hSet, (hRaises.resolve_left (not_not_intro hTarget)) stored hStored limit hLimit raised hRaised⟩
  obtain ⟨edited, hEditedLimit, hLe⟩ := hEdited
  refine ⟨next, edited, hNext, hEditedLimit, ?_, ?_⟩
  · rw [hNextCount]
    exact hWithin.trans hLe
  · rw [hNextCount, List.countP_cons_of_neg (by simp [hEntry])]
    exact hCount

theorem Counted.placed {placement : Placement} {w : World} {history : List (Entry Op Op.Resp Err)}
    (h : Counted id start w history) :
    Counted id start ((Op.transaction placement).perform w).2
      (⟨t, .transaction placement, ((Op.transaction placement).perform w).1⟩ :: history) := by
  delta Op.perform
  dsimp only
  split
  · rename_i order w' hPlaced
    obtain ⟨hState, hUsable⟩ := @promotion?_placeOrder w id placement order w' hPlaced
    by_cases hApplied : placement.appliedPromo = some id
    · simp only [hApplied, if_true] at hState
      exact h.used hState (hUsable hApplied) (decide_eq_true hApplied)
    · simp only [hApplied, if_false, Option.map_id'] at hState
      exact h.same hState (decide_eq_false hApplied)
  · exact h.same rfl rfl

theorem Counted.ran {o : Op} {th : Thread Op Op.Resp Err World α} {k : Except Err o.Resp → Prog Op Op.Resp Err α}
    (h : Counted id start c.state c.history) (hGuard : keepsLimit id c (.run t a) = true) (hRan : store.Ran c t a o th k c')
    (hOp : o.countsNothing) : Counted id start c'.state c'.history := by
  rw [hRan.state, hRan.history]
  cases a with
  | error fault =>
    refine h.same rfl ?_
    cases o <;> rfl
  | ok a =>
    cases o with
    | table op =>
      cases op with
      | loyalty op => exact h.same rfl rfl
      | countLocations businessId ids => exact h.same rfl rfl
      | promotion op =>
        cases op with
        | findOneAndUpdate target scope updates =>
          refine h.edited ?_ rfl
          simp only [keepsLimit, hRan.waiting?, Bool.or_eq_true, decide_eq_true_eq, Option.all_eq_true] at hGuard
          exact hGuard.imp_right fun hAll stored hStored limit hLimit raised hRaised => hAll stored hStored raised hRaised limit hLimit
        | updateOne promotionId => exact hOp.elim
        | findOne code restaurantId businessId => exact h.same rfl rfl
        | findSameCode scope code ne => exact h.same rfl rfl
    | transaction placement => exact h.placed

end Run

/-- While edits only raise the limit of a promotion or keep it, the promotion is
never used more often than that, and exactly as often as orders were placed with
its discount. -/
theorem promotion_within_limit (env : Env) (requests : List Request) (w₀ : World) (id : Id) (promotion : Promotion) (limit : Nat)
    (hStored : w₀.promotion? id = some promotion) (hLimit : promotion.usageLimit = some limit)
    (hStart : promotion.usageCount ≤ limit) {c : Config Op Op.Resp Err World Unit}
    (hReach : store.Reach (fun c l => keepsLimit id c l) (Config.initial w₀ (requests.map (program env))) c) :
    Counted id promotion.usageCount c.state c.history := by
  have hEach : (Config.initial w₀ (requests.map (program env))).PerformsEach fun _ => Op.countsNothing := by
    intro t th hThread
    simp only [Config.initial, List.map_map, List.getElem?_map, Option.map_eq_some_iff] at hThread
    obtain ⟨request, -, rfl⟩ := hThread
    exact program_performs env request
  induction hReach with
  | start => exact ⟨promotion, limit, hStored, hLimit, hStart, rfl⟩
  | @step c c' l hReach hGuard hStep ih =>
    cases l with
    | run t a =>
      obtain ⟨o, th, k, hRan⟩ := Store.run_cases hStep
      exact ih.ran hGuard hRan (hRan.performs_each (hReach.performsEach hEach)).1
    | stop t =>
      obtain ⟨th, -, rfl⟩ := Store.stop_cases hStep
      exact ih
    | event e =>
      cases hStep
      exact ih

/-- Two orders that both passed the validation for the only use, one of them after
an attempt that aborted. -/
theorem promotion_within_limit_last_use :
    ∃ c : Config Op Op.Resp Err World Unit, Counted 1 0 c.state c.history ∧ c.Quiet ∧ c.history.countP (commits 1) = 1 ∧
      c.state.loyalty.orders.length = 1 := by
  let promotion : Promotion := { id := 1, restaurantId := some 7, code := "SAVE", type := .fixed, value := 3, usageLimit := some 1 }
  let w₀ : World := { promotions := [promotion] }
  let order : Request := .createOrder 2 { restaurantId := 7, customerId := 5, subtotal := 20 } (some "SAVE") none
  let c₀ : Config Op Op.Resp Err World Unit := Config.initial w₀ ([order, order].map (program ⟨fun code => code⟩))
  let run (t : Nat) : Label (Except Err Unit) Loyalty.Event := .run t (.ok ())
  obtain ⟨c, hReach, hRun⟩ := store.exists_of_exec (keepsLimit 1) c₀
    [run 0, run 1, run 0, run 1, .run 0 (.error transientTransactionError), run 1, run 0]
    (fun c : Config Op Op.Resp Err World Unit =>
      decide (c.Quiet ∧ c.history.countP (commits 1) = 1 ∧ c.state.loyalty.orders.length = 1)) (by decide +kernel)
  obtain ⟨hQuiet, hCommits, hOrders⟩ := of_decide_eq_true hRun
  exact ⟨c, promotion_within_limit ⟨fun code => code⟩ [order, order] w₀ 1 promotion 1 rfl rfl (by decide) hReach, hQuiet,
    hCommits, hOrders⟩

end RestaurantOs.Promotions
