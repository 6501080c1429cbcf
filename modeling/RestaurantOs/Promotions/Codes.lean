import RestaurantOs.Async.Rely
import RestaurantOs.Promotions.Usage

/-!
# What a code means at a location

Codes are unique at a location and at a business, each by an index of its own.
A code means one promotion at a location as long as no write gives it to a
promotion of the location and to one of the business that covers it.
-/

namespace RestaurantOs.Promotions

open Async Prog

/-- `promotionSchema`, and `businessPromotionSchema` with its locations. -/
structure PromotionInput where
  code : String
  name : String
  type : PromotionType
  value : ℚ
  minOrderAmount : ℚ := 0
  isActive : Bool := true
  startDate : Option Time := none
  endDate : Option Time := none
  usageLimit : Option Nat := none
  locationIds : List Id := []
  deriving DecidableEq

/-- `{ ...body, restaurantId }` and `{ ...body, businessId }` -/
def PromotionInput.promotion (body : PromotionInput) (id : Id) (scope : Scope) : Promotion :=
  let base : Promotion :=
    { id
      code := body.code
      name := body.name
      type := body.type
      value := body.value
      minOrderAmount := body.minOrderAmount
      isActive := body.isActive
      startDate := body.startDate
      endDate := body.endDate
      usageLimit := body.usageLimit }
  match scope with
  | .location restaurantId => { base with restaurantId := some restaurantId }
  | .business businessId => { base with businessId := some businessId, locationIds := body.locationIds }

inductive EditOp
  | call (op : Op)
  | findCode (scope : Scope) (code : String)
  | create (scope : Scope) (body : PromotionInput)
  | findOneAndDelete (id : Id) (scope : Scope)

@[reducible] def EditOp.Resp : EditOp → Type
  | call op => op.Resp
  | findCode _ _ | findOneAndDelete _ _ => Option Promotion
  | create _ _ => Promotion

/-- A new promotion gets the id of the answer; ids are unique too. -/
def EditOp.perform : (op : EditOp) → Id → World → Except Err op.Resp × World
  | call op, _, w => op.perform w
  | findCode scope code, _, w => (.ok (w.promotions.find? fun p => scope.has p && p.code = code), w)
  | create scope body, id, w =>
    if w.promotions.any fun p => p.id = id || (body.promotion id scope).clashes p then (.error .duplicateKey, w)
    else (.ok (body.promotion id scope), { w with promotions := w.promotions ++ [body.promotion id scope] })
  | findOneAndDelete id scope, _, w =>
    (.ok ((w.promotion? id).filter scope.has), { w with promotions := w.promotions.filter fun p => !(p.id = id && scope.has p) })

@[reducible] def edits : Store EditOp EditOp.Resp Err World Id Empty where
  perform := EditOp.perform
  advance e := e.elim

abbrev Edit (α : Type) := Prog EditOp EditOp.Resp Err α

def fromPromise {α : Type} (p : Promise α) : Edit α := p.translate fun op => .call (EditOp.call op)

/-! ## Requests -/

def createIn (scope : Scope) (body : PromotionInput) (message : String) : Edit Unit := do
  let existing : Option Promotion ← .call (EditOp.findCode scope body.code)
  if existing.isSome then .raise (.api (.conflict message))
  else do
    let _ : Promotion ← .call (EditOp.create scope body)
    pure ()

def deleteIn (scope : Scope) (id : Id) : Edit Unit := do
  let promotion : Option Promotion ← .call (EditOp.findOneAndDelete id scope)
  if promotion.isNone then .raise (.api (.notFound "Promotion not found")) else pure ()

def createPromotion (restaurantId : Id) (body : PromotionInput) : Edit Unit :=
  createIn (.location restaurantId) body "A promotion with this code already exists"

def deletePromotion (restaurantId id : Id) : Edit Unit := deleteIn (.location restaurantId) id

def createBusinessPromotion (businessId : Id) (body : PromotionInput) : Edit Unit := do
  fromPromise (assertLocationsBelongToBusiness businessId body.locationIds)
  createIn (.business businessId) body "A promotion with this code already exists for this business"

def deleteBusinessPromotion (businessId id : Id) : Edit Unit := deleteIn (.business businessId) id

inductive EditRequest
  | createPromotion (restaurantId : Id) (body : PromotionInput)
  | updatePromotion (restaurantId id : Id) (updates : UpdatePromotionInput)
  | deletePromotion (restaurantId id : Id)
  | createBusinessPromotion (businessId : Id) (body : PromotionInput)
  | updateBusinessPromotion (businessId id : Id) (updates : UpdatePromotionInput)
  | deleteBusinessPromotion (businessId id : Id)

def EditRequest.program : EditRequest → Edit Unit
  | createPromotion restaurantId body => Promotions.createPromotion restaurantId body
  | updatePromotion restaurantId id updates => fromPromise (Promotions.updatePromotion restaurantId id updates)
  | deletePromotion restaurantId id => Promotions.deletePromotion restaurantId id
  | createBusinessPromotion businessId body => Promotions.createBusinessPromotion businessId body
  | updateBusinessPromotion businessId id updates => fromPromise (Promotions.updateBusinessPromotion businessId id updates)
  | deleteBusinessPromotion businessId id => Promotions.deleteBusinessPromotion businessId id

abbrev EditState := Config EditOp EditOp.Resp Err World Unit

def EditState.start (w : World) (requests : List EditRequest) : EditState := Config.initial w (requests.map EditRequest.program)

/-! ## Codes -/

def World.matching (w : World) (restaurant : Restaurant) (code : String) : List Promotion :=
  w.promotions.filter fun p => p.code = code && p.appliesAt restaurant.id restaurant.businessId

def Promotion.covers (p : Promotion) (restaurant : Restaurant) : Bool :=
  restaurant.businessId.any fun businessId => p.businessId = some businessId && restaurant.id ∈ p.locationIds

def World.meets (w : World) (p q : Promotion) : Bool := w.restaurants.any fun r => p.restaurantId = some r.id && q.covers r

def World.taken (w : World) (p : Promotion) : Bool :=
  w.promotions.any fun q => q.id ≠ p.id && p.code = q.code && (w.meets p q || w.meets q p)

/-- A write does not give a location's promotion the code of a business's one that
is for the location, or the other way round. -/
def codesApart (c : EditState) : Label Id Empty → Bool
  | .run t id =>
    match c.waiting? t with
    | some (.create scope body) => !c.state.taken (body.promotion id scope)
    | some (.call (.table (.promotion (.findOneAndUpdate id scope updates)))) =>
      ((c.state.promotion? id).filter scope.has).all fun stored => !c.state.taken (updates.set stored)
    | _ => true
  | _ => true

structure World.CodesApart (w : World) : Prop where
  ids : (w.promotions.map Promotion.id).Nodup
  apart : ∀ p ∈ w.promotions, ∀ q ∈ w.promotions, p.id ≠ q.id → p.code = q.code → ∀ r ∈ w.restaurants,
    p.appliesAt r.id r.businessId = true → q.appliesAt r.id r.businessId = false

/-! ## What an operation does -/

def EditOp.Edits : EditOp → Prop
  | call (.table (.countLocations _ _)) => True
  | call (.table (.promotion op)) =>
    match op with
    | .findSameCode _ _ _ | .findOneAndUpdate _ _ _ => True
    | _ => False
  | call _ => False
  | _ => True

section Programs

variable {scope : Scope} {id : Id} {body : PromotionInput} {message : String}

theorem createIn_performs : (createIn scope body message).Performs EditOp.Edits := by
  refine (performs_call (o := EditOp.findCode scope body.code) trivial).bind fun existing => ?_
  split
  · trivial
  · exact (performs_call (o := EditOp.create scope body) trivial).bind fun _ => trivial

theorem deleteIn_performs : (deleteIn scope id).Performs EditOp.Edits := by
  refine (performs_call (o := EditOp.findOneAndDelete id scope) trivial).bind fun promotion => ?_
  split <;> trivial

theorem fromPromise_performs {α : Type} {p : Promise α} (h : p.Performs fun op => (EditOp.call op).Edits) :
    (fromPromise p).Performs EditOp.Edits :=
  h.translate fun _ hOp => performs_call hOp

theorem assertLocations_performs {businessId : Id} {locationIds : List Id} :
    (assertLocationsBelongToBusiness businessId locationIds).Performs fun op => (EditOp.call op).Edits := by
  refine (performs_call (o := Op.table (.countLocations businessId locationIds)) trivial).bind fun validCount => ?_
  split <;> trivial

theorem refuseSameCode_edits {code : Option String} :
    (refuseSameCode scope id message code).Performs fun op => (EditOp.call op).Edits := by
  cases code with
  | none => trivial
  | some code =>
    refine (performs_call (o := Op.table (.promotion (.findSameCode scope code id))) trivial).bind fun existing => ?_
    split <;> trivial

theorem setUpdates_edits {updates : UpdatePromotionInput} :
    (setUpdates scope id updates).Performs fun op => (EditOp.call op).Edits := by
  refine (performs_call (o := Op.table (.promotion (.findOneAndUpdate id scope updates))) trivial).bind fun promotion => ?_
  split <;> trivial

theorem EditRequest.program_performs (r : EditRequest) : r.program.Performs EditOp.Edits := by
  cases r with
  | createPromotion restaurantId body => exact createIn_performs
  | updatePromotion restaurantId id updates =>
    exact fromPromise_performs ((refuseSameCode_edits).bind fun _ => setUpdates_edits)
  | deletePromotion restaurantId id => exact deleteIn_performs
  | createBusinessPromotion businessId body =>
    exact (fromPromise_performs assertLocations_performs).bind fun _ => createIn_performs
  | updateBusinessPromotion businessId id updates =>
    refine fromPromise_performs (Performs.bind ?_ fun _ => (refuseSameCode_edits).bind fun _ => setUpdates_edits)
    cases updates.locationIds with
    | none => trivial
    | some locationIds => exact assertLocations_performs
  | deleteBusinessPromotion businessId id => exact deleteIn_performs

end Programs

section Steps

variable {w : World} {p q stored : Promotion} {restaurant : Restaurant} {code : String} {id : Id} {scope : Scope}
  {updates : UpdatePromotionInput} {body : PromotionInput}

theorem appliesAt_iff : p.appliesAt restaurant.id restaurant.businessId = true ↔
    p.restaurantId = some restaurant.id ∨ p.covers restaurant = true := by
  rw [Promotion.appliesAt, Promotion.covers, Bool.or_eq_true, decide_eq_true_eq]

theorem apart_of_checked (hClash : p.clashes q = false) (hTaken : w.meets p q = false ∧ w.meets q p = false) (hId : p.id ≠ q.id)
    (hCode : p.code = q.code) (hMem : restaurant ∈ w.restaurants)
    (hp : p.appliesAt restaurant.id restaurant.businessId = true) (hq : q.appliesAt restaurant.id restaurant.businessId = true) :
    False := by
  have hIndexes : (p.restaurantId.isSome && p.restaurantId = q.restaurantId ||
      p.businessId.isSome && p.businessId = q.businessId) = false := by
    simpa [Promotion.clashes, hId, hCode] using hClash
  rw [Bool.or_eq_false_iff] at hIndexes
  rcases (appliesAt_iff).mp hp with hLocationP | hBusinessP <;> rcases (appliesAt_iff).mp hq with hLocationQ | hBusinessQ
  · simp [hLocationP, hLocationQ] at hIndexes
  · have hNot := List.any_eq_false.mp hTaken.1 restaurant hMem
    simp [hLocationP, hBusinessQ] at hNot
  · have hNot := List.any_eq_false.mp hTaken.2 restaurant hMem
    simp [hLocationQ, hBusinessP] at hNot
  · obtain ⟨businessId, hBusiness, hCoversP⟩ := (Option.any_eq_true _ _).mp hBusinessP
    rw [Promotion.covers, hBusiness, Option.any_some] at hBusinessQ
    simp only [Bool.and_eq_true, decide_eq_true_eq] at hCoversP hBusinessQ
    simp [hCoversP.1, hBusinessQ.1] at hIndexes

theorem not_taken (h : w.taken p = false) (hq : q ∈ w.promotions) (hId : p.id ≠ q.id) (hCode : p.code = q.code) :
    w.meets p q = false ∧ w.meets q p = false := by
  have hNot := List.any_eq_false.mp h q hq
  simpa [Ne.symm hId, hCode] using hNot

theorem World.CodesApart.write {w' : World} (h : w.CodesApart) (hIds : (w'.promotions.map Promotion.id).Nodup)
    (hRestaurants : w'.restaurants = w.restaurants) (hMem : ∀ q ∈ w'.promotions, q ∈ w.promotions ∨ q = p)
    (hClash : ∀ q ∈ w.promotions, p.clashes q = false) (hTaken : w.taken p = false) : w'.CodesApart where
  ids := hIds
  apart := by
    intro a ha b hb hId hCode r hr hApplies
    rw [hRestaurants] at hr
    rw [Bool.eq_false_iff]
    intro hApplies'
    rcases hMem a ha with hOldA | rfl <;> rcases hMem b hb with hOldB | rfl
    · rw [h.apart a hOldA b hOldB hId hCode r hr hApplies] at hApplies'
      cases hApplies'
    · exact apart_of_checked (hClash a hOldA) (not_taken hTaken hOldA (Ne.symm hId) hCode.symm) (Ne.symm hId) hCode.symm hr hApplies' hApplies
    · exact apart_of_checked (hClash b hOldB) (not_taken hTaken hOldB hId hCode) hId hCode hr hApplies hApplies'
    · exact hId rfl

theorem World.CodesApart.create {w' : World} {r : Except Err Promotion} (h : w.CodesApart)
    (hTaken : w.taken (body.promotion id scope) = false) (hPerform : (EditOp.create scope body).perform id w = (r, w')) :
    w'.CodesApart := by
  simp only [EditOp.perform] at hPerform
  split at hPerform
  · cases hPerform
    exact h
  · rename_i hFree
    cases hPerform
    have hFree' : ∀ p ∈ w.promotions, p.id ≠ id ∧ (body.promotion id scope).clashes p = false := by
      intro p hp
      have hNot : ¬ (p.id = id || (body.promotion id scope).clashes p) = true := fun hAny => hFree (List.any_eq_true.mpr ⟨p, hp, hAny⟩)
      rw [Bool.or_eq_true, decide_eq_true_eq, not_or, Bool.not_eq_true] at hNot
      exact hNot
    have hNewId : (body.promotion id scope).id = id := by cases scope <;> rfl
    refine h.write ?_ rfl (fun q hq => ?_) (fun q hq => (hFree' q hq).2) hTaken
    · rw [List.map_append, List.map_singleton, hNewId]
      refine List.nodup_append.mpr ⟨h.ids, List.nodup_singleton _, ?_⟩
      intro a ha b hb
      obtain ⟨p, hp, rfl⟩ := List.mem_map.mp ha
      cases List.mem_singleton.mp hb
      exact (hFree' p hp).1
    · exact (List.mem_append.mp hq).imp_right List.mem_singleton.mp

theorem World.CodesApart.update {w' : World} {r : Except Err (Option Promotion)} (h : w.CodesApart)
    (hTaken : ∀ stored, (w.promotion? id).filter scope.has = some stored → w.taken (updates.set stored) = false)
    (hPerform : (PromotionOp.findOneAndUpdate id scope updates).perform w = (r, w')) : w'.CodesApart := by
  simp only [PromotionOp.perform] at hPerform
  split at hPerform
  · cases hPerform
    exact h
  · rename_i stored hStored
    split at hPerform
    · cases hPerform
      exact h
    · rename_i hFree
      cases hPerform
      obtain ⟨hFind, hHas⟩ := Option.filter_eq_some_iff.mp hStored
      have hStoredMem := List.mem_of_find?_eq_some hFind
      refine h.write ?_ rfl (fun q hq => ?_) (fun q hq => ?_) (hTaken stored hStored)
      · rw [World.update, Tables.map_update_eq (f := updates.set) Promotion.id fun _ => rfl]
        exact h.ids
      · obtain ⟨old, hOld, rfl⟩ := Tables.mem_update.mp hq
        split
        · rename_i hSel
          rw [Bool.and_eq_true, decide_eq_true_eq] at hSel
          rw [Tables.eq_of_id h.ids hOld hStoredMem (hSel.1.trans (id_of_promotion? hFind).symm)]
          exact .inr rfl
        · exact .inl hOld
      · rw [Bool.eq_false_iff]
        exact fun hAny => hFree (List.any_eq_true.mpr ⟨q, hq, hAny⟩)

theorem World.CodesApart.delete (h : w.CodesApart) (sel : Promotion → Bool) :
    World.CodesApart { w with promotions := w.promotions.filter sel } where
  ids := h.ids.sublist (List.filter_sublist.map _)
  apart p hp q hq := h.apart p (List.mem_filter.mp hp).1 q (List.mem_filter.mp hq).1

theorem World.CodesApart.matching (h : w.CodesApart) (hMem : restaurant ∈ w.restaurants) (hp : p ∈ w.promotions)
    (hApplies : p.appliesAt restaurant.id restaurant.businessId = true) : w.matching restaurant p.code = [p] := by
  have hOnly : ∀ q ∈ w.matching restaurant p.code, q = p := by
    intro q hq
    obtain ⟨hqMem, hSel⟩ := List.mem_filter.mp hq
    rw [Bool.and_eq_true, decide_eq_true_eq] at hSel
    by_contra hNe
    have hId : q.id ≠ p.id := fun hEq => hNe (Tables.eq_of_id h.ids hqMem hp hEq)
    have hNot := h.apart q hqMem p hp hId hSel.1 restaurant hMem hSel.2
    rw [hApplies] at hNot
    cases hNot
  have hIn : p ∈ w.matching restaurant p.code := List.mem_filter.mpr ⟨hp, by rw [hApplies, Bool.and_true, decide_eq_true_eq]⟩
  have hNodup : (w.matching restaurant p.code).Nodup := (List.Nodup.of_map _ h.ids).filter _
  by_contra hNe
  rcases (hNodup.ne_singleton_iff p).mp hNe with hNil | ⟨q, hq, hOther⟩
  · rw [hNil] at hIn
    cases hIn
  · exact hOther (hOnly q hq)

end Steps

/-! ## Runs -/

theorem World.CodesApart.ran {c c' : EditState} {t : Nat} {id : Id} {o : EditOp} {th : Thread EditOp EditOp.Resp Err World Unit}
    {k : Except Err o.Resp → Edit Unit} (h : c.state.CodesApart) (hGuard : codesApart c (.run t id) = true)
    (hRan : edits.Ran c t id o th k c') (hEdits : o.Edits) : c'.state.CodesApart := by
  have hWaiting := hRan.waiting?
  have hState := hRan.state
  clear hRan
  cases o with
  | findCode scope code =>
    rw [hState]
    exact h
  | create scope body =>
    simp only [codesApart, hWaiting, Bool.not_eq_true'] at hGuard
    exact h.create hGuard (Prod.ext rfl hState.symm)
  | findOneAndDelete target scope =>
    rw [hState]
    exact h.delete _
  | call op =>
    cases op with
    | transaction placement => exact hEdits.elim
    | table op =>
      cases op with
      | loyalty op => exact hEdits.elim
      | countLocations businessId ids =>
        rw [hState]
        exact h
      | promotion op =>
        cases op with
        | findOne code restaurantId businessId => exact hEdits.elim
        | updateOne target => exact hEdits.elim
        | findSameCode scope code ne =>
          rw [hState]
          exact h
        | findOneAndUpdate target scope updates =>
          simp only [codesApart, hWaiting] at hGuard
          refine h.update (fun stored hStored => ?_) (Prod.ext rfl hState.symm)
          rw [hStored, Option.all_some, Bool.not_eq_true'] at hGuard
          exact hGuard

/-- In every state reached, at most one promotion has a code at a location, and a
promotion that is listed there is the one its code finds. -/
theorem code_means_one_promotion {w : World} {requests : List EditRequest} {c : EditState} (hStart : w.CodesApart)
    (h : edits.Reach (fun c l => codesApart c l) (EditState.start w requests) c) : ∀ restaurant ∈ c.state.restaurants,
      (∀ code, (c.state.matching restaurant code).length ≤ 1) ∧
      ∀ p ∈ c.state.promotions, p.appliesAt restaurant.id restaurant.businessId = true → c.state.matching restaurant p.code = [p] := by
  have hKeeps : (EditState.start w requests).Keeps (fun _ _ => True) EditOp.Edits := by
    intro th hMem
    obtain ⟨p, hp, rfl⟩ := List.mem_map.mp hMem
    obtain ⟨r, -, rfl⟩ := List.mem_map.mp hp
    exact r.program_performs.keeps (fun _ => id) (fun _ => trivial) fun _ => trivial
  have hApart := (hKeeps.invariant (I := World.CodesApart) hStart (fun _ _ _ _ => trivial)
    (fun hI hGuard hRan hEdits => hI.ran hGuard hRan hEdits) (fun _ e => e.elim) h).1
  intro restaurant hMem
  refine ⟨fun code => ?_, fun p hp hApplies => hApart.matching hMem hp hApplies⟩
  cases hMatching : c.state.matching restaurant code with
  | nil => exact Nat.zero_le _
  | cons p rest =>
    have hp : p ∈ c.state.matching restaurant code := by rw [hMatching]; exact List.mem_cons_self
    obtain ⟨hpMem, hSel⟩ := List.mem_filter.mp hp
    rw [Bool.and_eq_true, decide_eq_true_eq] at hSel
    rw [← hMatching, ← hSel.1, hApart.matching hMem hpMem hSel.2]
    exact le_refl _

/-! ### A code of the location and of its business -/

def twoLocations : World := { restaurants := [⟨7, some 1⟩, ⟨8, some 1⟩] }

theorem twoLocations_apart : twoLocations.CodesApart := ⟨List.nodup_nil, fun _ hp => nomatch hp⟩

def saleCode (locationIds : List Id) : PromotionInput := { code := "SALE", name := "Sale", type := .fixed, value := 3, locationIds }

/-- The location has the code, the business has it at the other one. -/
theorem twoLocations_codes : ∃ c : EditState, c.state.promotions.length = 2 ∧ ∀ restaurant ∈ c.state.restaurants,
    (∀ code, (c.state.matching restaurant code).length ≤ 1) ∧
    ∀ p ∈ c.state.promotions, p.appliesAt restaurant.id restaurant.businessId = true → c.state.matching restaurant p.code = [p] := by
  obtain ⟨c, hReach, hLength⟩ := edits.exists_of_exec codesApart
    (EditState.start twoLocations [.createPromotion 7 (saleCode []), .createBusinessPromotion 1 (saleCode [8])])
    [.run 0 0, .run 0 2, .run 1 0, .run 1 0, .run 1 3] (fun c => c.state.promotions.length = 2) (by decide +kernel)
  exact ⟨c, of_decide_eq_true hLength, code_means_one_promotion twoLocations_apart hReach⟩

/-- The location and its business use one code. -/
theorem code_means_two_promotions : ¬ ∀ (w : World) (requests : List EditRequest) (c : EditState), w.CodesApart →
    edits.Reach (fun _ _ => True) (EditState.start w requests) c → ∀ restaurant ∈ c.state.restaurants, ∀ code,
      (c.state.matching restaurant code).length ≤ 1 := by
  intro hClaim
  obtain ⟨c, hReach, hBoth⟩ := edits.exists_of_exec (fun _ _ => true)
    (EditState.start twoLocations [.createPromotion 7 (saleCode []), .createBusinessPromotion 1 (saleCode [7, 8])])
    [.run 0 0, .run 0 2, .run 1 0, .run 1 0, .run 1 3]
    (fun c => c.state.restaurants.any fun restaurant => (c.state.matching restaurant "SALE").length = 2) (by decide +kernel)
  obtain ⟨restaurant, hMem, hTwo⟩ := List.any_eq_true.mp hBoth
  have hOne := hClaim _ _ c twoLocations_apart (hReach.mono fun _ _ _ => trivial) restaurant hMem "SALE"
  rw [of_decide_eq_true hTwo] at hOne
  exact absurd hOne (by decide)

end RestaurantOs.Promotions
