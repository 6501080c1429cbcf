import RestaurantOs.MenuEdits.Writes

/-!
# Dropping the cached listings

Every edit checks, writes once and then drops the cached listings of the locations it
wrote for. One that is answered has dropped them.
-/

namespace RestaurantOs.MenuEdits

open Async Prog Menus
open MenuImport (ImportScope ResolvedImport Answer)

/-! ## What an operation leaves -/

section Steps

variable {lower : Text → Text} {w : World} {locationId : Id}

theorem restaurants_apply {change : Write} {menu menu' : Menu} (h : change.apply menu = .ok menu') : menu'.restaurants = menu.restaurants := by
  cases change with
  | createItem doc =>
    rw [Write.apply, Menu.createItem] at h
    split at h <;> cases h
    rfl
  | updateItem scope id updates =>
    rw [Write.apply, Menu.updateItem] at h
    split at h <;> cases h
    rfl
  | deleteItem scope id =>
    rw [Write.apply, Menu.deleteItem] at h
    split at h <;> cases h
    rfl
  | createCategory doc =>
    obtain ⟨_, -, h⟩ := Traversals.bind_ok h
    cases h
    rfl
  | updateCategory scope id updates =>
    obtain ⟨_, -, h⟩ := Traversals.bind_ok h
    cases h
    rfl
  | deleteCategory scope id =>
    obtain ⟨_, -, h⟩ := Traversals.bind_ok h
    cases h
    rfl
  | createGroup doc =>
    obtain ⟨_, -, h⟩ := Traversals.bind_ok h
    cases h
    rfl
  | updateGroup scope menuItemId id updates =>
    obtain ⟨_, -, h⟩ := Traversals.bind_ok h
    cases h
    rfl
  | deleteGroup scope menuItemId id =>
    obtain ⟨_, -, h⟩ := Traversals.bind_ok h
    cases h
    rfl
  | _ =>
    cases h
    rfl

theorem restaurants_perform (o : Op) (a : Answer) (w : World) : (Op.perform lower o a w).2.menu.restaurants = w.menu.restaurants := by
  cases perform_changes o a w with
  | kept hMenu _ => rw [hMenu]
  | written _ hApply _ => exact restaurants_apply hApply
  | imported _ _ hMenu _ =>
    rw [hMenu]
    rfl

theorem writes_perform (o : Op) (a : Answer) (w : World) : w.writes locationId ≤ (Op.perform lower o a w).2.writes locationId := by
  rw [World.writes, World.writes, restaurants_perform]
  refine (List.Sublist.filter _ ?_).length_le
  cases perform_changes o a w with
  | kept _ hLog => rw [hLog]
  | written _ _ hLog =>
    rw [hLog]
    exact List.sublist_cons_self _ _
  | imported _ _ _ hLog =>
    rw [hLog]
    exact List.sublist_cons_self _ _

theorem cache_perform {o : Op} {a : Answer} {entry : CacheEntry} (h : entry ∈ (Op.perform lower o a w).2.cache) :
    entry ∈ w.cache ∨ ∃ listing, o = .set entry.locationId listing ∧ entry.listing = listing := by
  obtain ⟨fault, extracted⟩ := a
  cases o with
  | imports o =>
    refine .inl ?_
    cases o with
    | transaction scope resolved =>
      unfold Op.perform World.logImport at h
      dsimp only at h
      split at h <;> exact h
    | _ => exact h
  | write scope change =>
    cases fault with
    | some text => exact .inl h
    | none =>
      simp only [Op.perform, Op.run, World.write] at h
      split at h <;> exact .inl h
  | del locationIds =>
    cases fault with
    | some text => exact .inl h
    | none => exact .inl (List.mem_filter.mp h).1
  | set location listing =>
    cases fault with
    | some text => exact .inl h
    | none =>
      rcases List.mem_cons.mp h with rfl | hOld
      · exact .inr ⟨listing, rfl, rfl⟩
      · exact .inl (List.mem_filter.mp hOld).1
  | _ => cases fault <;> exact .inl h

end Steps

/-! ## What an edit does -/

def Op.isCheck : Op → Bool
  | findBusinessOf _ | hasCanonicalMenu _ | categoryExists _ _ | itemExists _ _ | countItems _ _ | findLimits _ _ _ | findGroup _ _ _ => true
  | _ => false

def IsCommit (p : Promise Unit) : Prop := ∃ scope change, Sent scope change ∧ p = commit scope change

section Checks

variable {scope : Scope} {change : Write} {check : Promise Unit}

theorem check_call {o : Op} (h : o.isCheck = true) : (.call o : Promise o.Resp).Performs fun o => o.isCheck = true := performs_call h

theorem checks_resolveCanonicalBusinessId {restaurantId : Id} :
    (resolveCanonicalBusinessId restaurantId).Performs fun o => o.isCheck = true := by
  unfold resolveCanonicalBusinessId
  refine (check_call rfl).bind fun businessId => ?_
  cases businessId with
  | none => trivial
  | some businessId => exact (check_call rfl).bind fun _ => trivial

theorem checks_gate : (gate scope).Performs fun o => o.isCheck = true := by
  cases scope with
  | restaurant restaurantId =>
    refine (checks_resolveCanonicalBusinessId).bind fun canonicalBusinessId => ?_
    split <;> trivial
  | business businessId => trivial

theorem checks_assertCategoryIn {categoryId : Id} : (assertCategoryIn scope categoryId).Performs fun o => o.isCheck = true := by
  refine (check_call rfl).bind fun exists' => ?_
  split
  · trivial
  · cases scope <;> trivial

theorem checks_findBusinessOrThrow {restaurantId : Id} {message : String} :
    (findBusinessOrThrow restaurantId message).Performs fun o => o.isCheck = true := by
  refine (check_call rfl).bind fun businessId => ?_
  cases businessId <;> trivial

theorem leads_commit (hSent : Sent scope change) : (commit scope change).LeadsTo (fun o => o.isCheck = true) IsCommit :=
  leadsTo_last ⟨scope, change, hSent, rfl⟩

theorem leads_edit (hCheck : check.Performs fun o => o.isCheck = true) (hSent : Sent scope change) :
    (edit scope check change).LeadsTo (fun o => o.isCheck = true) IsCommit :=
  (checks_gate).leadsTo fun _ => hCheck.leadsTo fun _ => leads_commit hSent

theorem leads_checkThenEdit {o : Op} (h : o.isCheck = true) {check : o.Resp → Promise Unit}
    (hCheck : ∀ r, (check r).Performs fun o => o.isCheck = true) (hSent : Sent scope change) :
    (edit scope (.call o >>= check) change).LeadsTo (fun o => o.isCheck = true) IsCommit :=
  leads_edit ((check_call h).bind hCheck) hSent

theorem leads_program {env : Env} {request : Edit} (hEndpoint : ∀ imported, request ≠ .imports imported) :
    (request.program env).LeadsTo (fun o => o.isCheck = true) IsCommit := by
  cases request with
  | createItem scope newId body => exact leads_edit checks_assertCategoryIn (.createItem body)
  | updateItem scope id updates =>
    refine leads_edit ?_ .updateItem
    cases updates.categoryId with
    | none => trivial
    | some categoryId => exact checks_assertCategoryIn
  | deleteItem scope id => exact leads_edit trivial .deleteItem
  | createCategory scope newId body => exact leads_edit trivial (.createCategory body)
  | updateCategory scope id updates => exact leads_edit trivial .updateCategory
  | deleteCategory scope id =>
    refine @leads_checkThenEdit _ _ (Op.countItems scope id) rfl _ (fun count => ?_) .deleteCategory
    split <;> trivial
  | createGroup scope menuItemId newId optionId body =>
    refine @leads_checkThenEdit _ _ (Op.itemExists scope menuItemId) rfl _ (fun found => ?_) (.createGroup body)
    split <;> trivial
  | updateGroup scope menuItemId id optionId updates =>
    refine leads_edit ?_ (.updateGroup updates)
    unfold assertLimits
    split
    · refine (check_call rfl).bind fun existing => ?_
      cases existing with
      | none => trivial
      | some existing =>
        dsimp only
        split <;> trivial
    · trivial
  | deleteGroup scope menuItemId id => exact leads_edit trivial .deleteGroup
  | putCategoryOverride restaurantId id body =>
    refine (checks_findBusinessOrThrow).leadsTo fun businessId => ?_
    refine (check_call rfl).leadsTo fun category => ?_
    split
    · trivial
    · exact leads_commit .putCategoryOverride
  | deleteCategoryOverride restaurantId id => exact leads_commit .deleteCategoryOverride
  | putMenuItemOverride restaurantId id body =>
    refine (checks_findBusinessOrThrow).leadsTo fun businessId => ?_
    refine (check_call rfl).leadsTo fun item => ?_
    split
    · trivial
    · exact leads_commit .putItemOverride
  | deleteMenuItemOverride restaurantId id => exact leads_commit .deleteItemOverride
  | putModifierGroupOverride restaurantId menuItemId id body =>
    refine (checks_findBusinessOrThrow).leadsTo fun businessId => ?_
    refine (check_call rfl).leadsTo fun group => ?_
    cases group with
    | none => trivial
    | some group =>
      dsimp only
      cases foreignOption group body with
      | some optionId => trivial
      | none => exact leads_commit .putGroupOverride
  | deleteModifierGroupOverride restaurantId id => exact leads_commit .deleteGroupOverride
  | imports imported => exact absurd rfl (hEndpoint imported)

end Checks

/-! ## From the write to the answer -/

inductive Phase
  | unwritten
  | written (scope : Scope)
  | listed (businessId : Id) (locationIds : List Id)
  | dropped

def Op.isAside : Op → Bool
  | write _ _ | findLocations _ | del _ | imports (.transaction _ _) | imports (.invalidateMenuCache _) => false
  | _ => true

theorem aside_of_check {o : Op} (h : o.isCheck = true) : o.isAside = true := by
  cases o <;> first | rfl | cases h

def afterWrite (scope : Scope) {α : Type} (r : Except Err α) : Phase := if r.isOk then .written scope else .unwritten

def afterListing (businessId : Id) (locationIds : List Id) : Phase := if locationIds = [] then .dropped else .listed businessId locationIds

inductive EditMove (lower : Text → Text) (a : Answer) (w : World) : Op → Phase → Phase → Prop
  | aside {o : Op} {pt : Phase} (h : o.isAside = true) : EditMove lower a w o pt pt
  | write {scope : Scope} {change : Write} :
      EditMove lower a w (.write scope change) .unwritten (afterWrite scope (Op.perform lower (.write scope change) a w).1)
  | commit {scope : ImportScope} {resolved : ResolvedImport} : EditMove lower a w (.imports (.transaction scope resolved)) .unwritten
      (afterWrite (scopeOf scope) (Op.perform lower (.imports (.transaction scope resolved)) a w).1)
  | list {businessId : Id} (h : a.fault = none) : EditMove lower a w (.findLocations businessId) (.written (.business businessId))
      (afterListing businessId ((w.menu.restaurants.filter (·.businessId = some businessId)).map (·.id)))
  | drop {restaurantId : Id} (h : a.fault = none) : EditMove lower a w (.del [restaurantId]) (.written (.restaurant restaurantId)) .dropped
  | dropAll {businessId : Id} {locationIds : List Id} (h : a.fault = none) :
      EditMove lower a w (.del locationIds) (.listed businessId locationIds) .dropped
  | listThrows {businessId : Id} (h : a.fault ≠ none) :
      EditMove lower a w (.findLocations businessId) (.written (.business businessId)) (.written (.business businessId))
  | dropThrows {restaurantId : Id} (h : a.fault ≠ none) :
      EditMove lower a w (.del [restaurantId]) (.written (.restaurant restaurantId)) (.written (.restaurant restaurantId))
  | dropAllThrows {businessId : Id} {locationIds : List Id} (h : a.fault ≠ none) :
      EditMove lower a w (.del locationIds) (.listed businessId locationIds) (.written (.business businessId))

@[reducible] def editing (lower : Text → Text) : Protocol Op World Answer := ⟨Phase, fun o a w pt pt' => EditMove lower a w o pt pt', fun _ => True⟩

def Phase.Settled (pt : Phase) : Prop := pt = .unwritten ∨ pt = .dropped

inductive ImportMove (lower : Text → Text) (a : Answer) (w : MenuImport.World) : MenuImport.Op → Phase → Phase → Prop
  | aside {o : MenuImport.Op} {pt : Phase} (h : (Op.imports o).isAside = true) : ImportMove lower a w o pt pt
  | commit {scope : ImportScope} {resolved : ResolvedImport} : ImportMove lower a w (.transaction scope resolved) .unwritten
      (afterWrite (scopeOf scope) ((MenuImport.Op.transaction scope resolved).perform lower a w).1)
  | drop {scope : ImportScope} (h : a.fault = none) : ImportMove lower a w (.invalidateMenuCache scope) (.written (scopeOf scope)) .dropped
  | dropThrows {scope : ImportScope} (h : a.fault ≠ none) :
      ImportMove lower a w (.invalidateMenuCache scope) (.written (scopeOf scope)) (.written (scopeOf scope))

@[reducible] def importing (lower : Text → Text) : Protocol MenuImport.Op MenuImport.World Answer :=
  ⟨Phase, fun o a w pt pt' => ImportMove lower a w o pt pt', fun _ => True⟩

section Follows

variable {lower : Text → Text} {scope : Scope} {pt : Phase}

theorem follows_invalidate {R : Except Err Unit → Phase → Prop} (hOk : R (.ok ()) .dropped)
    (hThrows : ∀ text, R (.error (.other text)) (.written scope)) :
    (invalidate scope).Follows (store lower) (editing lower) (.written scope) (fun v pt => R (.ok v) pt) fun e pt => R (.error e) pt := by
  cases scope with
  | restaurant restaurantId =>
    refine follows_call.mpr fun a w => ?_
    obtain ⟨fault, extracted⟩ := a
    cases fault with
    | some text => exact ⟨_, .dropThrows (by simp), hThrows text⟩
    | none => exact ⟨_, .drop rfl, hOk⟩
  | business businessId =>
    refine follows_bind.mpr (follows_call.mpr fun a w => ?_)
    obtain ⟨fault, extracted⟩ := a
    cases fault with
    | some text => exact ⟨_, .listThrows (by simp), hThrows text⟩
    | none =>
      refine ⟨_, .list rfl, ?_⟩
      change Follows _ _ (if (w.menu.restaurants.filter (·.businessId = some businessId)).map (·.id) = [] then _ else _) _ _ _
      rw [afterListing]
      split
      · exact hOk
      · refine follows_call.mpr fun a' w' => ?_
        obtain ⟨fault', extracted'⟩ := a'
        cases fault' with
        | some text => exact ⟨_, .dropAllThrows (by simp), hThrows text⟩
        | none => exact ⟨_, .dropAll rfl, hOk⟩

theorem follows_commit {p : Promise Unit} (h : IsCommit p) :
    p.Follows (store lower) (editing lower) .unwritten (fun _ pt => pt.Settled) fun _ _ => True := by
  obtain ⟨scope, change, -, rfl⟩ := h
  refine follows_bind.mpr (follows_call.mpr fun a w => ⟨_, .write, ?_⟩)
  cases (Op.perform lower (.write scope change) a w).1 with
  | error err => trivial
  | ok v =>
    exact @follows_invalidate lower scope (fun r pt => r.isOk = true → pt.Settled) (fun _ => .inr rfl) (fun _ hNever => by cases hNever)
      |>.mono (fun _ _ hSettled => hSettled rfl) fun _ _ _ => trivial

theorem follows_importOp {o : MenuImport.Op} {R : Except Err o.Resp → Phase → Prop}
    (h : ∀ a w, ∃ pt', ImportMove lower a w o pt pt' ∧ R (o.perform lower a w).1 pt') :
    (importOp o).attempt.Follows (store lower) (editing lower) pt (fun r pt' => ∃ pt₁, pt' = pt₁ ∧ R r pt₁) fun _ _ => False := by
  have hCall (hNotCache : ∀ scope, o ≠ .invalidateMenuCache scope) : (attempt (.call (Op.imports o))).Follows (store lower) (editing lower) pt
      (fun r pt' => ∃ pt₁, pt' = pt₁ ∧ R r pt₁) fun _ _ => False := by
    refine follows_attempt.mpr (follows_call.mpr fun a w => ?_)
    obtain ⟨pt', hMove, hR⟩ := h a w.imports
    have hMoved : EditMove lower a w (.imports o) pt pt' := by
      cases hMove with
      | aside hAside => exact .aside hAside
      | commit => exact .commit
      | drop hNone => exact absurd rfl (hNotCache _)
      | dropThrows hFault => exact absurd rfl (hNotCache _)
    refine ⟨pt', hMoved, ?_⟩
    have hSame : ((store lower).perform (Op.imports o) a w).1 = (o.perform lower a w.imports).1 := rfl
    rw [hSame]
    cases hResult : (o.perform lower a w.imports).1 with
    | ok v => exact ⟨pt', rfl, hResult ▸ hR⟩
    | error e => exact ⟨pt', rfl, hResult ▸ hR⟩
  cases o with
  | invalidateMenuCache scope =>
    obtain ⟨pt', hMove, hOk⟩ := h {} {}
    cases hMove with
    | dropThrows hFault => exact absurd rfl hFault
    | aside hAside => cases hAside
    | drop =>
      refine follows_attempt.mpr (follows_invalidate (R := fun r pt' => ∃ pt₁, pt' = pt₁ ∧ R r pt₁) ⟨_, rfl, hOk⟩ fun text => ⟨_, rfl, ?_⟩)
      obtain ⟨pt', hMove, hThrown⟩ := h { fault := some text } {}
      cases hMove with
      | aside hAside => cases hAside
      | drop hNone => cases hNone
      | dropThrows => exact hThrown
  | _ => exact hCall fun scope hEq => by cases hEq

section Imports

open MenuImport

theorem aside_call {o : MenuImport.Op} (h : (Op.imports o).isAside = true) :
    (.call o : MenuImport.Promise o.Resp).Performs fun o => (Op.imports o).isAside = true := performs_call h

theorem aside_resolveImportNow {normalized : List NormalizedImportRow} {scope : ImportScope} {duplicateStrategy : DuplicateStrategy} :
    (resolveImportNow lower normalized scope duplicateStrategy).Performs fun o => (Op.imports o).isAside = true := by
  refine (aside_call rfl).bind fun categories => Performs.bind ?_ fun items => trivial
  unfold loadItems
  split
  · trivial
  · exact aside_call rfl

theorem aside_getMenuImportJobForTenant {jobId restaurantId : Id} :
    (getMenuImportJobForTenant jobId restaurantId).Performs fun o => (Op.imports o).isAside = true := by
  refine (aside_call rfl).bind fun job => ?_
  cases job with
  | none => trivial
  | some job =>
    dsimp only
    split
    · trivial
    · cases job.businessId with
      | none => trivial
      | some businessId =>
        refine (aside_call rfl).bind fun restaurant => ?_
        split <;> trivial

theorem follows_aside {α : Type} {p : MenuImport.Promise α} (h : p.Performs fun o => (Op.imports o).isAside = true) :
    p.Follows (MenuImport.store lower) (importing lower) pt (fun _ pt' => pt' = pt) fun _ _ => True :=
  (h.follows fun _ hAside _ _ => ImportMove.aside hAside).mono (fun _ _ h => h) fun _ _ _ => trivial

theorem follows_writeResolvedImportNow {resolved : ResolvedImport} {scope : ImportScope} :
    (writeResolvedImportNow resolved scope).Follows (MenuImport.store lower) (importing lower) .unwritten (fun _ pt => pt = .dropped)
      fun _ _ => True := by
  refine follows_bind.mpr (follows_call.mpr fun a w => ⟨_, .commit, ?_⟩)
  cases ((MenuImport.Op.transaction scope resolved).perform lower a w).1 with
  | error err => trivial
  | ok report =>
    refine follows_bind.mpr (follows_call.mpr fun a w => ?_)
    obtain ⟨fault, extracted⟩ := a
    cases fault with
    | some text => exact ⟨_, .dropThrows (by simp), trivial⟩
    | none =>
      refine ⟨_, .drop rfl, ?_⟩
      refine follows_bind.mpr ((follows_aside (aside_call rfl).attempt).mono ?_ fun _ _ h => h)
      rintro _ pt rfl
      rfl

theorem follows_finishPublishing {claimed : MenuImportJob} {outcome : Except Err MenuImportReport}
    (h : outcome.isOk = true → pt = .dropped) :
    (finishPublishing lower claimed outcome).Follows (MenuImport.store lower) (importing lower) pt (fun _ pt => pt = .dropped) fun _ _ => True := by
  cases outcome with
  | error err =>
    refine follows_bind.mpr ((follows_aside (aside_call rfl)).mono ?_ fun _ _ h => h)
    exact fun _ _ _ => trivial
  | ok report =>
    obtain rfl := h rfl
    refine follows_aside ?_
    refine (aside_call rfl).bind fun publishedAt => (aside_call rfl).bind fun now => (aside_call rfl).attempt.bind fun saved => ?_
    cases saved with
    | ok v => trivial
    | error err => exact (aside_call rfl).bind fun _ => trivial

theorem follows_import {env : MenuImport.Env} {request : ImportRequest} :
    (request.program env).Follows (MenuImport.store env.lower) (importing env.lower) .unwritten (fun _ pt => pt = .unwritten ∨ pt = .dropped)
      fun _ _ => True := by
  cases request with
  | commit params =>
    refine follows_bind.mpr (follows_bind.mpr (follows_ofExcept.mpr ?_))
    cases params.rows env with
    | error err => trivial
    | ok normalized =>
      refine follows_bind.mpr ((follows_aside aside_resolveImportNow).mono ?_ fun _ _ h => h)
      rintro resolved pt rfl
      exact (follows_writeResolvedImportNow).mono (fun _ _ h => .inr h) fun _ _ h => h
  | publish params =>
    refine follows_bind.mpr ((follows_aside aside_getMenuImportJobForTenant).mono ?_ fun _ _ h => h)
    rintro job pt rfl
    split
    · trivial
    · refine follows_bind.mpr ((follows_aside (aside_call rfl)).mono ?_ fun _ _ h => h)
      rintro claimed pt rfl
      cases claimed with
      | none => trivial
      | some claimed =>
        refine follows_bind.mpr (follows_attempt.mpr ?_)
        refine follows_bind.mpr ((follows_aside aside_resolveImportNow).mono ?_ fun err pt _ => ?_)
        · rintro resolved pt rfl
          refine (follows_writeResolvedImportNow).mono (fun report pt h => ?_) fun err pt _ => ?_
          · exact (follows_finishPublishing fun _ => h).mono (fun _ _ h => .inr h) fun _ _ h => h
          · exact (follows_finishPublishing fun hNever => by cases hNever).mono (fun _ _ h => .inr h) fun _ _ h => h
        · exact (follows_finishPublishing fun hNever => by cases hNever).mono (fun _ _ h => .inr h) fun _ _ h => h

end Imports

theorem follows_edit {env : Env} {request : Edit} :
    (request.program env).Follows (store env.lower) (editing env.lower) .unwritten (fun _ pt => pt.Settled) fun _ _ => True := by
  by_cases hImport : ∃ imported, request = .imports imported
  · obtain ⟨imported, rfl⟩ := hImport
    have hImported : (importMenu env.toEnv imported).Follows (store env.lower) (editing env.lower) .unwritten
        (fun _ pt => ∃ pt₁, pt = pt₁ ∧ pt₁.Settled) fun _ pt => ∃ pt₁ : Phase, pt = pt₁ ∧ True := by
      unfold importMenu
      exact @Follows.translate _ _ _ _ _ _ _ _ _ _ _ _ _ _ _ (editing env.lower) _ _ _ _ _ follows_import id fun o pt R h => follows_importOp h
    refine hImported.mono ?_ fun _ _ _ => trivial
    rintro _ pt ⟨_, rfl, hSettled⟩
    exact hSettled
  · exact (leads_program fun imported hEq => hImport ⟨imported, hEq⟩).follows (fun o h a w => EditMove.aside (aside_of_check h))
      (fun p h => follows_commit h) fun _ => trivial

end Follows

end RestaurantOs.MenuEdits
