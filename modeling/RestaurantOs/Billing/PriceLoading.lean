import Mathlib.Data.List.Pairwise
import RestaurantOs.Billing.PriceMapping

/-!
# Loaded catalogues

A write sets an id and leaves the rest of its plan, so a plan is followed through
a call by what it is without its ids. Each id of a mapped plan is right at the
beginning or is set by one of the writes, and no write sets a wrong one.
-/

namespace RestaurantOs.PriceMapping

/-! ## What a write leaves -/

def Pricing.bare (pricing : Pricing) : Pricing := { pricing with providerPriceId := none }

def Plan.bare (plan : Plan) : Plan := { plan with providerProductId := none, pricing := plan.pricing.map Pricing.bare }

def PlanPriceIds.onPricing (ids : PlanPriceIds) (pricing : Pricing) : Pricing := { pricing with providerPriceId := ids.given pricing.interval }

def PlanPriceIds.onPlan (ids : PlanPriceIds) (plan : Plan) : Plan :=
  { plan with providerProductId := some ids.productId, pricing := plan.pricing.map ids.onPricing }

def loaded (mapping : PaddlePriceMapping) (plan : Plan) : Plan :=
  match mapping.find? (·.1 = plan.code) with
  | none => plan
  | some entry => entry.2.onPlan plan

section Bare

variable {cast : String → String} {plan plan' : Plan} {write : Write} {writes : List Write} {ids : PlanPriceIds} {interval : Interval} {id : String}
  {l : List Pricing} {catalogue : List Plan}

theorem bare_setPrice : (setPrice interval id l).map Pricing.bare = l.map Pricing.bare := by
  induction l with
  | nil => rfl
  | cons pricing l ih =>
    rw [setPrice]
    split
    · rfl
    · rw [List.map_cons, List.map_cons, ih]

@[simp] theorem bare_onPlan : (write.onPlan cast plan).bare = plan.bare := by
  cases write with
  | product change =>
    rw [Write.onPlan]
    split
    · rfl
    · rfl
  | price change =>
    rw [Write.onPlan]
    split
    · unfold Plan.bare
      dsimp only
      rw [bare_setPrice]
    · rfl

def onPlan (cast : String → String) (writes : List Write) (plan : Plan) : Plan := writes.foldl (Write.onPlan cast) plan

@[simp] theorem bare_onPlan_all : (onPlan cast writes plan).bare = plan.bare := by
  unfold onPlan
  induction writes generalizing plan with
  | nil => rfl
  | cons write writes ih => rw [List.foldl_cons, ih, bare_onPlan]

theorem foldl_perform : writes.foldl (Write.perform cast) catalogue = catalogue.map (onPlan cast writes) := by
  unfold onPlan
  induction writes generalizing catalogue with
  | nil => exact (List.map_id catalogue).symm
  | cons write writes ih => rw [List.foldl_cons, ih, Write.perform, List.map_map]; rfl

theorem code_eq (h : plan.bare = plan'.bare) : plan.code = plan'.code := congrArg (·.code) h

theorem intervals_eq (h : plan.bare = plan'.bare) : plan.pricing.map (·.interval) = plan'.pricing.map (·.interval) := by
  have hPricing : plan.pricing.map Pricing.bare = plan'.pricing.map Pricing.bare := congrArg (·.pricing) h
  have hIntervals := congrArg (List.map (·.interval)) hPricing
  rw [List.map_map, List.map_map] at hIntervals
  exact hIntervals

theorem onPlan_bare (h : plan.bare = plan'.bare) : ids.onPlan plan = ids.onPlan plan' := by
  have hEach : ∀ plan : Plan, ids.onPlan plan.bare = ids.onPlan plan := by
    intro plan
    unfold PlanPriceIds.onPlan Plan.bare
    dsimp only
    rw [List.map_map]
    rfl
  rw [← hEach plan, h, hEach plan']

theorem onPlan_self (hProduct : plan.providerProductId = some ids.productId)
    (hPrices : ∀ pricing ∈ plan.pricing, pricing.providerPriceId = ids.given pricing.interval) : ids.onPlan plan = plan := by
  have hPricing : plan.pricing.map ids.onPricing = plan.pricing := by
    apply (List.map_congr_left _).trans (List.map_id plan.pricing)
    intro pricing hMem
    unfold PlanPriceIds.onPricing
    rw [← hPrices pricing hMem]
    rfl
  unfold PlanPriceIds.onPlan
  rw [hPricing, ← hProduct]

end Bare

/-! ## What a run of writes establishes -/

section Runs

variable {cast : String → String} {plan : Plan} {writes : List Write}

theorem onPlan_establishes {p : Plan → Prop} (hKept : ∀ write ∈ writes, ∀ plan', plan'.bare = plan.bare → p plan' → p (write.onPlan cast plan'))
    (h : p plan ∨ ∃ write ∈ writes, ∀ plan', plan'.bare = plan.bare → p (write.onPlan cast plan')) : p (onPlan cast writes plan) := by
  unfold onPlan
  have hRun : ∀ (writes : List Write) (plan' : Plan), plan'.bare = plan.bare →
      (∀ write ∈ writes, ∀ plan', plan'.bare = plan.bare → p plan' → p (write.onPlan cast plan')) →
      (p plan' ∨ ∃ write ∈ writes, ∀ plan', plan'.bare = plan.bare → p (write.onPlan cast plan')) → p (writes.foldl (Write.onPlan cast) plan') := by
    intro writes
    induction writes with
    | nil =>
      rintro plan' - - (hNow | ⟨write, hMem, -⟩)
      · exact hNow
      · cases hMem
    | cons write writes ih =>
      intro plan' hBare hKept hLater
      rw [List.forall_mem_cons] at hKept
      refine ih (write.onPlan cast plan') ((bare_onPlan).trans hBare) hKept.2 ?_
      rcases hLater with hNow | ⟨w, hMem, hSets⟩
      · exact .inl (hKept.1 plan' hBare hNow)
      · rcases List.mem_cons.mp hMem with rfl | hRest
        · exact .inl (hSets plan' hBare)
        · exact .inr ⟨w, hRest, hSets⟩
  exact hRun writes plan rfl hKept h

theorem onPlan_other (h : ∀ write ∈ writes, ∀ plan' : Plan, plan'.code = plan.code → write.onPlan cast plan' = plan') :
    onPlan cast writes plan = plan := by
  unfold onPlan
  induction writes with
  | nil => rfl
  | cons write writes ih =>
    rw [List.forall_mem_cons] at h
    rw [List.foldl_cons, h.1 plan rfl, ih h.2]

end Runs

/-! ## What is checked -/

section Checked

variable {upper cast : String → String} {fetchPrice : String → Option PaddlePrice} {mapping : PaddlePriceMapping} {catalogue : List Plan}
  {planCode : String} {ids : PlanPriceIds} {plan plan' : Plan} {pricing : Pricing} {write : Write}

theorem planResult_problems : (planResult upper fetchPrice planCode ids plan).problems =
    (if plan.isActive then [] else [s!"{planCode}: plan is retired (isActive: false); only active plans are sold."]) ++
      plan.pricing.flatMap (fun pricing => (pricingResult upper fetchPrice planCode ids pricing).problems) ++ unsoldProblems planCode ids plan := by
  unfold planResult Result.join
  dsimp only
  rw [List.cons_append, List.flatMap_cons, List.flatMap_append, List.flatMap_map, List.flatMap_singleton, List.append_assoc]

theorem pricingResult_bare : (pricingResult upper fetchPrice planCode ids pricing.bare).problems =
    (pricingResult upper fetchPrice planCode ids pricing).problems := by
  unfold pricingResult Pricing.bare
  dsimp only
  cases ids.given pricing.interval with
  | none => rfl
  | some id =>
    dsimp only
    cases pricing.amountCents with
    | none => rfl
    | some amountCents =>
      cases pricing.currency.filter (· ≠ "") with
      | none => rfl
      | some currency => rfl

theorem any_interval {interval : Interval} : plan.pricing.any (·.interval = interval) = (plan.pricing.map (·.interval)).contains interval := by
  rw [Bool.eq_iff_iff, List.any_eq_true, List.contains_iff_mem, List.mem_map]
  constructor
  · rintro ⟨pricing, hMem, hInterval⟩
    exact ⟨pricing, hMem, of_decide_eq_true hInterval⟩
  · rintro ⟨pricing, hMem, hInterval⟩
    exact ⟨pricing, hMem, decide_eq_true hInterval⟩

theorem planResult_bare (h : plan.bare = plan'.bare) :
    (planResult upper fetchPrice planCode ids plan).problems = (planResult upper fetchPrice planCode ids plan').problems := by
  have hActive : plan.isActive = plan'.isActive := congrArg (·.isActive) h
  have hPricing : plan.pricing.map Pricing.bare = plan'.pricing.map Pricing.bare := congrArg (·.pricing) h
  have hPrices : ∀ plan : Plan, plan.pricing.flatMap (fun pricing => (pricingResult upper fetchPrice planCode ids pricing).problems) =
      (plan.pricing.map Pricing.bare).flatMap fun pricing => (pricingResult upper fetchPrice planCode ids pricing).problems := by
    intro plan
    rw [List.flatMap_map]
    exact List.flatMap_congr fun pricing _ => (pricingResult_bare).symm
  have hUnsold : unsoldProblems planCode ids plan = unsoldProblems planCode ids plan' := by
    unfold unsoldProblems
    simp only [any_interval, intervals_eq h]
  rw [planResult_problems, planResult_problems, hActive, hPrices plan, hPricing, ← hPrices plan', hUnsold]

theorem validate_problems : (validate upper cast fetchPrice mapping catalogue).problems =
    mapping.flatMap (fun entry => (entryResult upper fetchPrice (catalogue.filter (inMapping cast mapping)) entry).problems) ++
      clashProblems cast mapping catalogue := by
  unfold validate Result.join
  dsimp only
  rw [List.flatMap_append, List.flatMap_map, List.flatMap_singleton]

theorem inMapping_bare (h : plan.bare = plan'.bare) : inMapping cast mapping plan = inMapping cast mapping plan' := by
  rw [inMapping, inMapping, code_eq h]

theorem validate_problems_map {f : Plan → Plan} (hBare : ∀ plan, (f plan).bare = plan.bare)
    (hOther : ∀ plan, inMapping cast mapping plan = false → f plan = plan) :
    (validate upper cast fetchPrice mapping (catalogue.map f)).problems = (validate upper cast fetchPrice mapping catalogue).problems := by
  have hPlans : (catalogue.map f).filter (inMapping cast mapping) = (catalogue.filter (inMapping cast mapping)).map f := by
    rw [List.filter_map]
    congr 1
    exact List.filter_congr fun plan _ => inMapping_bare (hBare plan)
  have hEntry : ∀ entry : String × PlanPriceIds,
      (entryResult upper fetchPrice ((catalogue.filter (inMapping cast mapping)).map f) entry).problems =
        (entryResult upper fetchPrice (catalogue.filter (inMapping cast mapping)) entry).problems := by
    intro entry
    have hCode : ((fun plan : Plan => decide (plan.code = entry.1)) ∘ f) = fun plan : Plan => decide (plan.code = entry.1) := by
      funext plan
      rw [Function.comp_apply, code_eq (hBare plan)]
    unfold entryResult
    rw [List.find?_map, hCode]
    cases (catalogue.filter (inMapping cast mapping)).find? (·.code = entry.1) with
    | none => rfl
    | some plan => exact planResult_bare (hBare plan)
  have hClash : clashProblems cast mapping (catalogue.map f) = clashProblems cast mapping catalogue := by
    unfold clashProblems
    rw [List.filter_map, List.map_map]
    have hSame : ∀ plan ∈ catalogue, ((fun plan : Plan => !inMapping cast mapping plan &&
        plan.pricing.any fun pricing => pricing.providerPriceId.any (givenIds mapping).contains) ∘ f) plan =
          (!inMapping cast mapping plan && plan.pricing.any fun pricing => pricing.providerPriceId.any (givenIds mapping).contains) := by
      intro plan _
      rw [Function.comp_apply, inMapping_bare (hBare plan)]
      cases hIn : inMapping cast mapping plan with
      | true => rfl
      | false => rw [hOther plan hIn]
    rw [List.filter_congr hSame]
    apply List.map_congr_left
    intro plan _
    rw [Function.comp_apply, code_eq (hBare plan)]
  rw [validate_problems, validate_problems, hPlans, hClash]
  congr 1
  exact List.flatMap_congr fun entry _ => hEntry entry

theorem mem_join_writes {results : List Result} : write ∈ (Result.join results).writes ↔ ∃ result ∈ results, write ∈ result.writes := by
  unfold Result.writes Result.join
  dsimp only
  simp only [List.mem_append, List.mem_map, List.mem_flatMap]
  constructor
  · rintro (⟨change, ⟨result, hMem, hChange⟩, rfl⟩ | ⟨change, ⟨result, hMem, hChange⟩, rfl⟩)
    · exact ⟨result, hMem, .inl ⟨change, hChange, rfl⟩⟩
    · exact ⟨result, hMem, .inr ⟨change, hChange, rfl⟩⟩
  · rintro ⟨result, hMem, ⟨change, hChange, rfl⟩ | ⟨change, hChange, rfl⟩⟩
    · exact .inl ⟨change, ⟨result, hMem, hChange⟩, rfl⟩
    · exact .inr ⟨change, ⟨result, hMem, hChange⟩, rfl⟩

inductive SetsIdOf (entry : String × PlanPriceIds) : Write → Prop
  | product (from' : Option String) : SetsIdOf entry (.product ⟨entry.1, from', entry.2.productId⟩)
  | price (interval : Interval) (from' : Option String) (id : String) (hGiven : entry.2.given interval = some id) :
    SetsIdOf entry (.price ⟨entry.1, interval, from', id⟩)

theorem pricingResult_writes (hMem : write ∈ (pricingResult upper fetchPrice planCode ids pricing).writes) : SetsIdOf (planCode, ids) write := by
  unfold pricingResult at hMem
  dsimp only at hMem
  split at hMem
  · cases hMem
  · rename_i id hGiven
    split at hMem
    · unfold Result.writes at hMem
      dsimp only at hMem
      rw [List.map_nil, List.nil_append] at hMem
      split at hMem
      · cases hMem
      · rw [List.map_singleton, List.mem_singleton] at hMem
        rw [hMem]
        exact .price _ _ _ hGiven
    · cases hMem

theorem planResult_writes (hMem : write ∈ (planResult upper fetchPrice planCode ids plan).writes) : SetsIdOf (planCode, ids) write := by
  unfold planResult at hMem
  rw [mem_join_writes] at hMem
  obtain ⟨result, hResult, hWrite⟩ := hMem
  rw [List.cons_append, List.mem_cons, List.mem_append, List.mem_map, List.mem_singleton] at hResult
  rcases hResult with rfl | ⟨pricing, -, rfl⟩ | rfl
  · unfold Result.writes at hWrite
    dsimp only at hWrite
    rw [List.map_nil, List.append_nil] at hWrite
    split at hWrite
    · cases hWrite
    · rw [List.map_singleton, List.mem_singleton] at hWrite
      rw [hWrite]
      exact .product _
  · exact pricingResult_writes hWrite
  · cases hWrite

theorem validate_writes (hMem : write ∈ (validate upper cast fetchPrice mapping catalogue).writes) : ∃ entry ∈ mapping, SetsIdOf entry write := by
  unfold validate at hMem
  rw [mem_join_writes] at hMem
  obtain ⟨result, hResult, hWrite⟩ := hMem
  rw [List.mem_append, List.mem_map, List.mem_singleton] at hResult
  rcases hResult with ⟨entry, hEntry, rfl⟩ | rfl
  · refine ⟨entry, hEntry, ?_⟩
    unfold entryResult at hWrite
    split at hWrite
    · cases hWrite
    · exact planResult_writes hWrite
  · cases hWrite

end Checked

/-! ## What no problem means -/

/-- The provider sells at this price what the plan's price says. -/
structure Matches (upper : String → String) (price : PaddlePrice) (productId : String) (pricing : Pricing) : Prop where
  active : price.status = some "active"
  product : price.product_id = some productId
  amount : ∃ cents, pricing.amountCents = some cents ∧ price.unit_price.bind (·.amount) = some (toString cents)
  currency : ∃ currency, pricing.currency = some currency ∧ upper ((price.unit_price.bind (·.currency_code)).getD "") = upper currency
  cycle : ∃ cycle, price.billing_cycle = some cycle ∧ cycle.interval = some (PADDLE_INTERVAL pricing.interval) ∧ cycle.frequency = some 1
  noTrial : price.trial_period = false

structure WellFormed (cast : String → String) (catalogue : List Plan) : Prop where
  codes_nodup : (catalogue.map (·.code)).Nodup
  codes_cast : ∀ plan ∈ catalogue, cast plan.code = plan.code
  intervals_nodup : ∀ plan ∈ catalogue, (plan.pricing.map (·.interval)).Nodup

structure Distinct (mapping : PaddlePriceMapping) : Prop where
  keys_nodup : (mapping.map (·.1)).Nodup
  ids_nodup : (givenIds mapping).Nodup

section Sound

variable {upper cast : String → String} {fetchPrice : String → Option PaddlePrice} {mapping : PaddlePriceMapping} {catalogue : List Plan}
  {planCode : String} {ids : PlanPriceIds} {plan : Plan} {pricing : Pricing} {entry : String × PlanPriceIds} {interval : Interval} {id : String}

theorem ite_nil {p : Prop} [Decidable p] {problems : List String} (hNe : problems ≠ []) : (if p then [] else problems) = [] ↔ p := by
  by_cases h : p
  · simp only [h, if_true]
  · simp only [h, if_false, hNe]

theorem matches_of_check {expected : Expected} (hPricing : expected.interval = pricing.interval ∧ pricing.amountCents = some expected.amountCents ∧
    pricing.currency = some expected.currency) {price : Option PaddlePrice} (h : checkPaddlePrice upper price expected = []) :
    ∃ found, price = some found ∧ Matches upper found expected.productId pricing := by
  cases price with
  | none => cases h
  | some price =>
    refine ⟨price, rfl, ?_⟩
    simp only [checkPaddlePrice, List.append_eq_nil_iff, ite_nil (List.cons_ne_nil _ _)] at h
    obtain ⟨⟨⟨⟨⟨hStatus, hProduct⟩, hAmount⟩, hCurrency⟩, hCycle⟩, hTrial⟩ := h
    rw [Option.any_eq_true] at hCycle
    obtain ⟨cycle, hFound, hEvery⟩ := hCycle
    rw [Bool.and_eq_true, decide_eq_true_eq, decide_eq_true_eq, hPricing.1] at hEvery
    refine ⟨hStatus, hProduct, ⟨_, hPricing.2.1, hAmount⟩, ⟨_, hPricing.2.2, hCurrency⟩, ⟨cycle, hFound, hEvery⟩, ?_⟩
    cases hTrialPeriod : price.trial_period with
    | false => rfl
    | true =>
      rw [hTrialPeriod, if_pos rfl] at hTrial
      cases hTrial

theorem pricing_of_no_problems (h : (pricingResult upper fetchPrice planCode ids pricing).problems = []) :
    ∃ id price, ids.given pricing.interval = some id ∧ fetchPrice id = some price ∧ Matches upper price ids.productId pricing ∧
      (pricing.providerPriceId = some id ∨
        .price ⟨planCode, pricing.interval, pricing.providerPriceId, id⟩ ∈ (pricingResult upper fetchPrice planCode ids pricing).writes) := by
  unfold pricingResult at h ⊢
  dsimp only at h ⊢
  split at h
  · cases h
  · rename_i id hGiven
    split at h
    · rename_i cents currency hCents hCurrency
      have hExpected := (Option.filter_eq_some_iff.mp hCurrency).1
      have hMatches := @matches_of_check upper pricing _ ⟨rfl, hCents, hExpected⟩ _ h
      obtain ⟨price, hFound, hMatches⟩ := hMatches
      refine ⟨id, price, hGiven, hFound, hMatches, ?_⟩
      by_cases hSame : pricing.providerPriceId = some id
      · exact .inl hSame
      · refine .inr ?_
        unfold Result.writes
        dsimp only
        rw [if_neg hSame]
        exact List.mem_cons_self
    · cases h

theorem plan_of_no_problems (hNone : (validate upper cast fetchPrice mapping catalogue).problems = []) (hEntry : entry ∈ mapping) :
    ∃ plan ∈ catalogue, plan.code = entry.1 ∧ (planResult upper fetchPrice entry.1 entry.2 plan).problems = [] ∧
      ∀ write ∈ (planResult upper fetchPrice entry.1 entry.2 plan).writes, write ∈ (validate upper cast fetchPrice mapping catalogue).writes := by
  rw [validate_problems, List.append_eq_nil_iff, List.flatMap_eq_nil_iff] at hNone
  have hResult := hNone.1 entry hEntry
  have hWrites : ∀ write ∈ (entryResult upper fetchPrice (catalogue.filter (inMapping cast mapping)) entry).writes,
      write ∈ (validate upper cast fetchPrice mapping catalogue).writes := fun write hMem =>
    (mem_join_writes).mpr ⟨_, List.mem_append_left _ (List.mem_map_of_mem hEntry), hMem⟩
  unfold entryResult at hResult hWrites
  cases hFound : (catalogue.filter (inMapping cast mapping)).find? (·.code = entry.1) with
  | none =>
    rw [hFound] at hResult
    cases hResult
  | some plan =>
    rw [hFound] at hResult hWrites
    have hCode : plan.code = entry.1 := by simpa using List.find?_some hFound
    exact ⟨plan, (List.mem_filter.mp (List.mem_of_find?_eq_some hFound)).1, hCode, hResult, hWrites⟩

theorem pricing_problems (h : (planResult upper fetchPrice planCode ids plan).problems = []) (hMem : pricing ∈ plan.pricing) :
    (pricingResult upper fetchPrice planCode ids pricing).problems = [] := by
  rw [planResult_problems, List.append_eq_nil_iff, List.append_eq_nil_iff, List.flatMap_eq_nil_iff] at h
  exact h.1.2 pricing hMem

theorem product_write : plan.providerProductId = some ids.productId ∨
    .product ⟨planCode, plan.providerProductId, ids.productId⟩ ∈ (planResult upper fetchPrice planCode ids plan).writes := by
  by_cases hSame : plan.providerProductId = some ids.productId
  · exact .inl hSame
  · refine .inr ((mem_join_writes).mpr ⟨_, List.mem_append_left _ List.mem_cons_self, ?_⟩)
    unfold Result.writes
    dsimp only
    rw [if_neg hSame]
    exact List.mem_cons_self

theorem price_write {write : Write} (hMem : pricing ∈ plan.pricing) (hWrite : write ∈ (pricingResult upper fetchPrice planCode ids pricing).writes) :
    write ∈ (planResult upper fetchPrice planCode ids plan).writes :=
  (mem_join_writes).mpr ⟨_, List.mem_append_left _ (List.mem_cons_of_mem _ (List.mem_map_of_mem hMem)), hWrite⟩

theorem cast_key (hWell : WellFormed cast catalogue) (hNone : (validate upper cast fetchPrice mapping catalogue).problems = [])
    (hEntry : entry ∈ mapping) : cast entry.1 = entry.1 := by
  obtain ⟨plan, hMem, hCode, -⟩ := plan_of_no_problems hNone hEntry
  rw [← hCode]
  exact hWell.codes_cast plan hMem

theorem inMapping_iff (hWell : WellFormed cast catalogue) (hNone : (validate upper cast fetchPrice mapping catalogue).problems = []) :
    inMapping cast mapping plan = true ↔ ∃ entry ∈ mapping, entry.1 = plan.code := by
  rw [inMapping, List.contains_iff_mem, List.mem_map]
  constructor
  · rintro ⟨entry, hEntry, hCast⟩
    exact ⟨entry, hEntry, by rw [← cast_key hWell hNone hEntry]; exact hCast⟩
  · rintro ⟨entry, hEntry, hCode⟩
    exact ⟨entry, hEntry, by rw [cast_key hWell hNone hEntry]; exact hCode⟩

theorem loaded_of_mem (hDistinct : Distinct mapping) (hEntry : entry ∈ mapping) (hCode : plan.code = entry.1) :
    loaded mapping plan = entry.2.onPlan plan := by
  have hFind : mapping.find? (·.1 = entry.1) = some entry := Tables.find?_id hDistinct.keys_nodup hEntry
  unfold loaded
  rw [hCode, hFind]

theorem loaded_of_not_mem (hOther : ∀ entry ∈ mapping, entry.1 ≠ plan.code) : loaded mapping plan = plan := by
  have hFind : mapping.find? (·.1 = plan.code) = none := by
    rw [List.find?_eq_none]
    intro entry hEntry
    rw [decide_eq_true_eq]
    exact hOther entry hEntry
  unfold loaded
  rw [hFind]

/-! ## The writes of a call -/

theorem mem_setPrice {l : List Pricing} (h : pricing ∈ setPrice interval id l) :
    pricing ∈ l ∨ pricing.interval = interval ∧ pricing.providerPriceId = some id := by
  induction l with
  | nil => cases h
  | cons head l ih =>
    rw [setPrice] at h
    split at h
    · rename_i hHead
      rcases List.mem_cons.mp h with rfl | hRest
      · exact .inr ⟨hHead, rfl⟩
      · exact .inl (List.mem_cons_of_mem _ hRest)
    · rcases List.mem_cons.mp h with rfl | hRest
      · exact .inl List.mem_cons_self
      · rcases ih hRest with hMem | hSet
        · exact .inl (List.mem_cons_of_mem _ hMem)
        · exact .inr hSet

theorem setPrice_sets {l : List Pricing} (hNodup : (l.map (·.interval)).Nodup) (h : pricing ∈ setPrice interval id l)
    (hInterval : pricing.interval = interval) : pricing.providerPriceId = some id := by
  induction l with
  | nil => cases h
  | cons head l ih =>
    rw [List.map_cons, List.nodup_cons] at hNodup
    rw [setPrice] at h
    split at h
    · rename_i hHead
      rcases List.mem_cons.mp h with rfl | hRest
      · rfl
      · refine absurd (List.mem_map.mpr ⟨pricing, hRest, ?_⟩) hNodup.1
        rw [hInterval, hHead]
    · rename_i hHead
      rcases List.mem_cons.mp h with rfl | hRest
      · exact absurd hInterval hHead
      · exact ih hNodup.2 hRest

theorem onPlan_cases {write : Write} {other : String × PlanPriceIds} (hWell : WellFormed cast catalogue) (hDistinct : Distinct mapping)
    (hNone : (validate upper cast fetchPrice mapping catalogue).problems = []) (hEntry : entry ∈ mapping) (hOther : other ∈ mapping)
    (hSets : SetsIdOf other write) (hCode : plan.code = entry.1) : write.onPlan cast plan = plan ∨ SetsIdOf entry write := by
  by_cases hSame : other = entry
  · rw [← hSame]
    exact .inr hSets
  · have hNe : plan.code ≠ cast other.1 := by
      rw [cast_key hWell hNone hOther, hCode]
      intro hKey
      exact hSame (Tables.eq_of_id hDistinct.keys_nodup hOther hEntry hKey.symm)
    refine .inl ?_
    cases hSets with
    | product from' => exact if_neg hNe
    | price interval from' id hGiven =>
      rw [Write.onPlan, if_neg]
      rw [Bool.and_eq_true, decide_eq_true_eq]
      exact fun h => hNe h.1

theorem onPlan_product (hWell : WellFormed cast catalogue) (hDistinct : Distinct mapping)
    (hNone : (validate upper cast fetchPrice mapping catalogue).problems = []) (hEntry : entry ∈ mapping)
    (hCode : plan.code = entry.1) (hResult : ∀ write ∈ (planResult upper fetchPrice entry.1 entry.2 plan).writes,
      write ∈ (validate upper cast fetchPrice mapping catalogue).writes) :
    (onPlan cast (validate upper cast fetchPrice mapping catalogue).writes plan).providerProductId = some entry.2.productId := by
  apply onPlan_establishes (p := fun plan => plan.providerProductId = some entry.2.productId)
  · intro write hMem plan' hBare hNow
    obtain ⟨other, hOther, hSets⟩ := validate_writes hMem
    rcases onPlan_cases hWell hDistinct hNone hEntry hOther hSets ((code_eq hBare).trans hCode) with hLeft | hOwn
    · rw [hLeft]
      exact hNow
    · cases hOwn with
      | product from' =>
        rw [Write.onPlan]
        split
        · rfl
        · exact hNow
      | price interval from' id hGiven =>
        rw [Write.onPlan]
        split
        · exact hNow
        · exact hNow
  · rcases @product_write upper fetchPrice entry.1 entry.2 plan with hNow | hWrite
    · exact .inl hNow
    · refine .inr ⟨_, hResult _ hWrite, fun plan' hBare => ?_⟩
      have hSelected : plan'.code = cast entry.1 := by
        rw [code_eq hBare, cast_key hWell hNone hEntry, hCode]
      rw [Write.onPlan, if_pos hSelected]

theorem onPlan_price (hWell : WellFormed cast catalogue) (hDistinct : Distinct mapping)
    (hNone : (validate upper cast fetchPrice mapping catalogue).problems = []) (hEntry : entry ∈ mapping) (hPlan : plan ∈ catalogue)
    (hCode : plan.code = entry.1) (hProblems : (planResult upper fetchPrice entry.1 entry.2 plan).problems = [])
    (hResult : ∀ write ∈ (planResult upper fetchPrice entry.1 entry.2 plan).writes, write ∈ (validate upper cast fetchPrice mapping catalogue).writes)
    (hPricing : pricing ∈ plan.pricing) :
    ∀ pricing' ∈ (onPlan cast (validate upper cast fetchPrice mapping catalogue).writes plan).pricing, pricing'.interval = pricing.interval →
      pricing'.providerPriceId = entry.2.given pricing.interval := by
  apply onPlan_establishes (p := fun plan => ∀ pricing' ∈ plan.pricing, pricing'.interval = pricing.interval →
    pricing'.providerPriceId = entry.2.given pricing.interval)
  · intro write hMem plan' hBare hNow
    obtain ⟨other, hOther, hSets⟩ := validate_writes hMem
    rcases onPlan_cases hWell hDistinct hNone hEntry hOther hSets ((code_eq hBare).trans hCode) with hLeft | hOwn
    · rw [hLeft]
      exact hNow
    · cases hOwn with
      | product from' =>
        rw [Write.onPlan]
        split
        · exact hNow
        · exact hNow
      | price interval from' id hGiven =>
        rw [Write.onPlan]
        split
        · intro pricing' hMem' hInterval
          rcases mem_setPrice hMem' with hOld | ⟨hSame, hId⟩
          · exact hNow pricing' hOld hInterval
          · rw [hId, ← hInterval, hSame, hGiven]
        · exact hNow
  · obtain ⟨id, price, hGiven, -, -, hNow | hWrite⟩ := pricing_of_no_problems (pricing_problems hProblems hPricing)
    · refine .inl fun pricing' hMem' hInterval => ?_
      rw [Tables.eq_of_id (hWell.intervals_nodup plan hPlan) hMem' hPricing hInterval, hNow, hGiven]
    · refine .inr ⟨_, hResult _ (price_write hPricing hWrite), fun plan' hBare => ?_⟩
      have hSelected : (decide (plan'.code = cast entry.1) && plan'.pricing.any (·.interval = pricing.interval)) = true := by
        rw [Bool.and_eq_true, decide_eq_true_eq, code_eq hBare, cast_key hWell hNone hEntry, any_interval, intervals_eq hBare,
          List.contains_iff_mem]
        exact ⟨hCode, List.mem_map_of_mem hPricing⟩
      rw [Write.onPlan, if_pos hSelected, hGiven]
      intro pricing' hMem' hInterval
      refine setPrice_sets ?_ hMem' hInterval
      rw [intervals_eq hBare]
      exact hWell.intervals_nodup plan hPlan

theorem onPlan_writes (hWell : WellFormed cast catalogue) (hDistinct : Distinct mapping)
    (hNone : (validate upper cast fetchPrice mapping catalogue).problems = []) (hPlan : plan ∈ catalogue) :
    onPlan cast (validate upper cast fetchPrice mapping catalogue).writes plan = loaded mapping plan := by
  by_cases hMapped : ∃ entry ∈ mapping, entry.1 = plan.code
  · obtain ⟨entry, hEntry, hKey⟩ := hMapped
    obtain ⟨found, hFound, hCode, hProblems, hResult⟩ := plan_of_no_problems hNone hEntry
    have hSame : found = plan := Tables.eq_of_id hWell.codes_nodup hFound hPlan (hCode.trans hKey)
    subst hSame
    have hProduct := onPlan_product hWell hDistinct hNone hEntry hCode hResult
    rw [loaded_of_mem hDistinct hEntry hCode, ← onPlan_bare (@bare_onPlan_all cast _
      (validate upper cast fetchPrice mapping catalogue).writes), onPlan_self hProduct]
    intro pricing hPricing
    have hIntervals := intervals_eq (@bare_onPlan_all cast found
      (validate upper cast fetchPrice mapping catalogue).writes)
    have hMem : pricing.interval ∈ found.pricing.map (·.interval) := by
      rw [← hIntervals]
      exact List.mem_map_of_mem hPricing
    obtain ⟨before, hBefore, hInterval⟩ := List.mem_map.mp hMem
    rw [onPlan_price hWell hDistinct hNone hEntry hPlan hCode hProblems hResult hBefore pricing hPricing hInterval.symm, hInterval]
  · have hOther : ∀ entry ∈ mapping, entry.1 ≠ plan.code := fun entry hEntry hKey => hMapped ⟨entry, hEntry, hKey⟩
    rw [loaded_of_not_mem hOther]
    apply onPlan_other
    intro write hMem plan' hCode
    obtain ⟨other, hMemOther, hSets⟩ := validate_writes hMem
    have hNe : plan'.code ≠ cast other.1 := by
      rw [cast_key hWell hNone hMemOther, hCode]
      exact (hOther other hMemOther).symm
    cases hSets with
    | product from' => exact if_neg hNe
    | price interval from' id hGiven =>
      rw [Write.onPlan, if_neg]
      rw [Bool.and_eq_true, decide_eq_true_eq]
      exact fun h => hNe h.1

theorem wellFormed_map {f : Plan → Plan} (hWell : WellFormed cast catalogue) (hBare : ∀ plan, (f plan).bare = plan.bare) :
    WellFormed cast (catalogue.map f) := by
  constructor
  · have hCodes : (catalogue.map f).map (·.code) = catalogue.map (·.code) := by
      rw [List.map_map]
      exact List.map_congr_left fun plan _ => code_eq (hBare plan)
    rw [hCodes]
    exact hWell.codes_nodup
  · intro _ hMem
    obtain ⟨plan, hPlan, rfl⟩ := List.mem_map.mp hMem
    rw [code_eq (hBare plan)]
    exact hWell.codes_cast plan hPlan
  · intro _ hMem
    obtain ⟨plan, hPlan, rfl⟩ := List.mem_map.mp hMem
    rw [intervals_eq (hBare plan)]
    exact hWell.intervals_nodup plan hPlan

theorem apply_loads (hWell : WellFormed cast catalogue) (hDistinct : Distinct mapping)
    (hNone : (validate upper cast fetchPrice mapping catalogue).problems = []) :
    (applyPaddlePriceMapping upper cast fetchPrice mapping true catalogue).2 = catalogue.map (loaded mapping) := by
  have hGo : ¬ (!true || decide ((validate upper cast fetchPrice mapping catalogue).problems ≠ [])) = true := by
    rw [hNone]
    exact Bool.false_ne_true
  unfold applyPaddlePriceMapping
  dsimp only
  rw [if_neg hGo, foldl_perform]
  exact List.map_congr_left fun plan hPlan => onPlan_writes hWell hDistinct hNone hPlan

theorem cutShort_eq {k : Nat} (hNone : (validate upper cast fetchPrice mapping catalogue).problems = []) :
    cutShort upper cast fetchPrice mapping true catalogue k =
      catalogue.map (onPlan cast ((validate upper cast fetchPrice mapping catalogue).writes.take k)) := by
  have hGo : ¬ (!true || decide ((validate upper cast fetchPrice mapping catalogue).problems ≠ [])) = true := by
    rw [hNone]
    exact Bool.false_ne_true
  unfold cutShort callWrites
  rw [if_neg hGo, foldl_perform]

theorem apply_cutShort (hWell : WellFormed cast catalogue) (hDistinct : Distinct mapping)
    (hNone : (validate upper cast fetchPrice mapping catalogue).problems = []) (k : Nat) :
    (applyPaddlePriceMapping upper cast fetchPrice mapping true (cutShort upper cast fetchPrice mapping true catalogue k)).2 =
      catalogue.map (loaded mapping) := by
  rw [cutShort_eq hNone]
  have hOther : ∀ plan, inMapping cast mapping plan = false →
      onPlan cast ((validate upper cast fetchPrice mapping catalogue).writes.take k) plan = plan := by
    intro plan hOut
    apply onPlan_other
    intro write hMem plan' hCode
    obtain ⟨other, hEntry, hSets⟩ := validate_writes (List.mem_of_mem_take hMem)
    have hNe : plan'.code ≠ cast other.1 := by
      intro hEq
      rw [Bool.eq_false_iff, ne_eq, inMapping, List.contains_iff_mem] at hOut
      exact hOut (List.mem_map.mpr ⟨other, hEntry, by rw [← hCode, hEq]⟩)
    cases hSets with
    | product from' => exact if_neg hNe
    | price interval from' id hGiven =>
      rw [Write.onPlan, if_neg]
      rw [Bool.and_eq_true, decide_eq_true_eq]
      exact fun h => hNe h.1
  have hChecked := @validate_problems_map upper _ fetchPrice _ catalogue _ (fun plan => bare_onPlan_all) hOther
  rw [apply_loads (wellFormed_map hWell fun plan => bare_onPlan_all) hDistinct (hChecked.trans hNone), List.map_map]
  apply List.map_congr_left
  intro plan hPlan
  rw [Function.comp_apply]
  cases hIn : inMapping cast mapping plan with
  | false => rw [hOther plan hIn]
  | true =>
    obtain ⟨entry, hEntry, hKey⟩ := (inMapping_iff hWell hNone).mp hIn
    rw [loaded_of_mem hDistinct hEntry ((code_eq bare_onPlan_all).trans hKey.symm), loaded_of_mem hDistinct hEntry hKey.symm]
    exact onPlan_bare bare_onPlan_all

end Sound

/-! ## Mappings without problems -/

section Parsed

variable {input : JsonObject} {mapping : PaddlePriceMapping} {interval interval' : Interval} {id : String} {entry entry' : String × PlanPriceIds}

theorem nodup_of_dupes {all : List String} (h : dupes all = []) : all.Nodup := by
  rw [dupes, List.map_eq_nil_iff, List.filter_eq_nil_iff] at h
  rw [List.nodup_iff_injective_get]
  intro i j hSame
  have hFirst : ∀ i : Fin all.length, all.idxOf (all.get i) = i.1 := by
    intro i
    have hMem : (all.get i, i.1) ∈ all.zipIdx := by
      rw [List.mem_zipIdx_iff_getElem?, List.getElem?_eq_getElem i.2]
      rfl
    by_contra hNe
    exact h _ hMem (decide_eq_true hNe)
  apply Fin.ext
  rw [← hFirst i, hSame, hFirst j]

theorem distinct_of_accepted (h : (parsePriceMapping (some input)).2 = []) : Distinct (parsePriceMapping (some input)).1 := by
  unfold parsePriceMapping at h ⊢
  dsimp only at h ⊢
  rw [List.append_eq_nil_iff] at h
  constructor
  · unfold mappingOf
    rw [List.map_map]
    exact (List.filter_sublist.map _).nodup input.keys_nodup
  · apply nodup_of_dupes
    by_contra hNe
    rw [if_neg hNe] at h
    cases h.2

theorem distinct_of_parse {input : Option JsonObject} (h : (parsePriceMapping input).2 = []) : Distinct (parsePriceMapping input).1 := by
  cases input with
  | none => cases h
  | some input => exact distinct_of_accepted h

theorem given_inj (hDistinct : Distinct mapping) (hEntry : entry ∈ mapping) (hEntry' : entry' ∈ mapping) (h : entry.2.given interval = some id)
    (h' : entry'.2.given interval' = some id) : entry = entry' ∧ interval = interval' := by
  have hAll : ∀ interval : Interval, interval ∈ INTERVALS := by
    intro interval
    cases interval with
    | monthly => decide
    | yearly => decide
  have hIds := List.nodup_flatMap.mp hDistinct.ids_nodup
  have hMem : ∀ {entry : String × PlanPriceIds} {interval : Interval}, entry.2.given interval = some id →
      id ∈ INTERVALS.filterMap entry.2.given := fun h => List.mem_filterMap.mpr ⟨_, hAll _, h⟩
  have hSame : entry = entry' := by
    have hSymm : Std.Symm (Function.onFun List.Disjoint fun entry : String × PlanPriceIds => INTERVALS.filterMap entry.2.given) :=
      ⟨fun _ _ hDisjoint _ hMem hMem' => hDisjoint hMem' hMem⟩
    by_contra hNe
    exact hIds.2.forall hEntry hEntry' hNe (hMem h) (hMem h')
  subst hSame
  refine ⟨rfl, ?_⟩
  have hOne := hIds.1 entry hEntry
  have hTwice : ∀ {one two : Interval}, entry.2.given one = some id → entry.2.given two = some id → one = .monthly → two = .yearly → False := by
    rintro _ _ hOneGiven hTwoGiven rfl rfl
    rw [INTERVALS, List.filterMap_cons_some hOneGiven, List.filterMap_cons_some hTwoGiven] at hOne
    exact (List.nodup_cons.mp hOne).1 List.mem_cons_self
  cases interval with
  | monthly =>
    cases interval' with
    | monthly => rfl
    | yearly => exact (hTwice h h' rfl rfl).elim
  | yearly =>
    cases interval' with
    | monthly => exact (hTwice h' h rfl rfl).elim
    | yearly => rfl

theorem mem_givenIds (hEntry : entry ∈ mapping) (h : entry.2.given interval = some id) : id ∈ givenIds mapping := by
  refine List.mem_flatMap.mpr ⟨entry, hEntry, List.mem_filterMap.mpr ⟨interval, ?_, h⟩⟩
  cases interval with
  | monthly => decide
  | yearly => decide

end Parsed

/-! ## All or nothing -/

structure Loaded (upper : String → String) (fetchPrice : String → Option PaddlePrice) (mapping : PaddlePriceMapping) (before after : List Plan) :
    Prop where
  rest : after = before.map (loaded mapping)
  ids : ∀ entry ∈ mapping, ∀ plan ∈ after, plan.code = entry.1 → plan.providerProductId = some entry.2.productId ∧
    ∀ pricing ∈ plan.pricing, ∃ id price, entry.2.given pricing.interval = some id ∧ pricing.providerPriceId = some id ∧
      fetchPrice id = some price ∧ Matches upper price entry.2.productId pricing
  unambiguous : ∀ entry ∈ mapping, ∀ interval id, entry.2.given interval = some id →
    ∀ plan ∈ after, ∀ pricing ∈ plan.pricing, pricing.providerPriceId = some id → plan.code = entry.1 ∧ pricing.interval = interval

section Main

variable {upper cast : String → String} {fetchPrice : String → Option PaddlePrice} {mapping : PaddlePriceMapping} {catalogue : List Plan}

theorem loaded_catalogue (hWell : WellFormed cast catalogue) (hDistinct : Distinct mapping)
    (hNone : (validate upper cast fetchPrice mapping catalogue).problems = []) :
    Loaded upper fetchPrice mapping catalogue (catalogue.map (loaded mapping)) := by
  have hCode : ∀ plan : Plan, (loaded mapping plan).code = plan.code := by
    intro plan
    unfold loaded
    split
    · rfl
    · rfl
  have hIds : ∀ entry ∈ mapping, ∀ plan ∈ catalogue, plan.code = entry.1 → ∀ pricing ∈ plan.pricing, ∃ id price,
      entry.2.given pricing.interval = some id ∧ fetchPrice id = some price ∧ Matches upper price entry.2.productId pricing := by
    intro entry hEntry plan hPlan hKey pricing hPricing
    obtain ⟨found, hFound, hFoundKey, hProblems, -⟩ := plan_of_no_problems hNone hEntry
    have hSame : found = plan := Tables.eq_of_id hWell.codes_nodup hFound hPlan (hFoundKey.trans hKey.symm)
    rw [← hSame] at hPricing
    obtain ⟨id, price, hGiven, hFetched, hMatches, -⟩ := pricing_of_no_problems (pricing_problems hProblems hPricing)
    exact ⟨id, price, hGiven, hFetched, hMatches⟩
  constructor
  · rfl
  · intro entry hEntry plan' hMem hKey
    obtain ⟨plan, hPlan, rfl⟩ := List.mem_map.mp hMem
    rw [hCode] at hKey
    rw [loaded_of_mem hDistinct hEntry hKey]
    refine ⟨rfl, ?_⟩
    intro pricing' hPricing'
    obtain ⟨pricing, hPricing, rfl⟩ := List.mem_map.mp hPricing'
    obtain ⟨id, price, hGiven, hFetched, hMatches⟩ := hIds entry hEntry plan hPlan hKey pricing hPricing
    exact ⟨id, price, hGiven, hGiven, hFetched, hMatches.1, hMatches.2, hMatches.3, hMatches.4, hMatches.5, hMatches.6⟩
  · intro entry hEntry interval id hGiven plan' hMem pricing' hPricing' hId
    obtain ⟨plan, hPlan, rfl⟩ := List.mem_map.mp hMem
    rw [hCode]
    by_cases hMapped : ∃ other ∈ mapping, other.1 = plan.code
    · obtain ⟨other, hOther, hKey⟩ := hMapped
      rw [loaded_of_mem hDistinct hOther hKey.symm] at hPricing'
      obtain ⟨pricing, hPricing, rfl⟩ := List.mem_map.mp hPricing'
      obtain ⟨hSame, hInterval⟩ := given_inj hDistinct hOther hEntry hId hGiven
      rw [← hSame]
      exact ⟨hKey.symm, hInterval⟩
    · -- A plan outside the mapping with such an id would have been a clash.
      rw [loaded_of_not_mem fun other hOther hKey => hMapped ⟨other, hOther, hKey⟩] at hPricing'
      have hOut : inMapping cast mapping plan = false := Bool.eq_false_iff.mpr (mt (inMapping_iff hWell hNone).mp hMapped)
      rw [validate_problems, List.append_eq_nil_iff, clashProblems, List.map_eq_nil_iff, List.filter_eq_nil_iff] at hNone
      refine absurd ?_ (hNone.2 plan hPlan)
      rw [hOut, Bool.and_eq_true, List.any_eq_true]
      refine ⟨rfl, pricing', hPricing', ?_⟩
      rw [hId, Option.any_some, List.contains_iff_mem]
      exact mem_givenIds hEntry hGiven

end Main

/-- A call writes nothing, or loads the catalogue, also when it was cut short before. -/
theorem price_ids_loaded (upper cast : String → String) (fetchPrice : String → Option PaddlePrice) (input : Option JsonObject)
    (hAccepted : (parsePriceMapping input).2 = []) (catalogue : List Plan) (hWell : WellFormed cast catalogue) (apply : Bool) :
    (apply = false ∨ (validate upper cast fetchPrice (parsePriceMapping input).1 catalogue).problems ≠ [] →
      (applyPaddlePriceMapping upper cast fetchPrice (parsePriceMapping input).1 apply catalogue).2 = catalogue) ∧
    (apply = true → (validate upper cast fetchPrice (parsePriceMapping input).1 catalogue).problems = [] →
      Loaded upper fetchPrice (parsePriceMapping input).1 catalogue
        (applyPaddlePriceMapping upper cast fetchPrice (parsePriceMapping input).1 apply catalogue).2 ∧
      ∀ k, (applyPaddlePriceMapping upper cast fetchPrice (parsePriceMapping input).1 apply
          (cutShort upper cast fetchPrice (parsePriceMapping input).1 apply catalogue k)).2 =
        (applyPaddlePriceMapping upper cast fetchPrice (parsePriceMapping input).1 apply catalogue).2) := by
  have hDistinct := distinct_of_parse hAccepted
  constructor
  · intro hStop
    unfold applyPaddlePriceMapping
    dsimp only
    rw [if_pos]
    rw [Bool.or_eq_true, decide_eq_true_eq]
    rcases hStop with rfl | hProblems
    · exact .inl rfl
    · exact .inr hProblems
  · rintro rfl hNone
    rw [apply_loads hWell hDistinct hNone]
    exact ⟨loaded_catalogue hWell hDistinct hNone, fun k => apply_cutShort hWell hDistinct hNone k⟩

namespace Pro

def ids : PlanPriceIds := { productId := "pro_0123456789", monthly := some "pri_0123456789" }

def input : JsonObject := { entries := [("pro", ⟨some ids.productId, ids.monthly, none⟩)], keys_nodup := by decide }

def catalogue : List Plan := [⟨"pro", true, none, [⟨.monthly, some 2900, some "USD", some "mock_price_pro"⟩]⟩]

def fetchPrice (id : String) : Option PaddlePrice :=
  if id = "pri_0123456789" then
    some ⟨some "pro_0123456789", some "active", some ⟨some "2900", some "USD"⟩, some ⟨some "month", some 1⟩, false⟩
  else none

theorem wellFormed : WellFormed id catalogue := ⟨by decide, fun _ _ => rfl, by decide⟩

end Pro

/-- The plan's monthly price gets the id, and no other price has it. -/
theorem pro_loaded : Loaded id Pro.fetchPrice (parsePriceMapping (some Pro.input)).1 Pro.catalogue
    (applyPaddlePriceMapping id id Pro.fetchPrice (parsePriceMapping (some Pro.input)).1 true Pro.catalogue).2 :=
  ((price_ids_loaded id id Pro.fetchPrice (some Pro.input) (by decide) Pro.catalogue Pro.wellFormed true).2 rfl
    (by decide)).1

def pricesLoaded (mapping : PaddlePriceMapping) (plan : Plan) : Plan := { loaded mapping plan with providerProductId := plan.providerProductId }

/-- The product id changes too. -/
theorem product_id_changes : ¬ ∀ (upper cast : String → String) (fetchPrice : String → Option PaddlePrice) (input : Option JsonObject)
    (catalogue : List Plan), (parsePriceMapping input).2 = [] → WellFormed cast catalogue →
      (validate upper cast fetchPrice (parsePriceMapping input).1 catalogue).problems = [] →
        (applyPaddlePriceMapping upper cast fetchPrice (parsePriceMapping input).1 true catalogue).2 =
          catalogue.map (pricesLoaded (parsePriceMapping input).1) := by
  intro h
  have hPro := h id id Pro.fetchPrice (some Pro.input) Pro.catalogue (by decide) Pro.wellFormed (by decide)
  revert hPro
  decide

end RestaurantOs.PriceMapping
