import RestaurantOs.MenuEdits.Requests

/-!
# What an operation writes

The menu changes by the one write of an endpoint and by the transaction of an import,
each of which is logged; every other operation leaves the menu and the log as they are.
-/

namespace RestaurantOs.MenuEdits

open Async Prog Menus
open MenuImport (ImportScope ResolvedImport Answer passesValidators writtenMenu)

variable {lower : Text → Text} {w w' : World} {menu menu' : Menu}

inductive Changed (lower : Text → Text) (a : Answer) (w w' : World) : Op → Prop
  | kept {o : Op} : w'.menu = w.menu → w'.log = w.log → Changed lower a w w' o
  | written {scope : Scope} {change : Write} : a.fault = none → change.apply w.menu = .ok w'.menu → w'.log = scope :: w.log →
      Changed lower a w w' (.write scope change)
  | imported {scope : ImportScope} {resolved : ResolvedImport} : a.fault = none → passesValidators lower resolved = true →
      w'.menu = writtenMenu lower w.menu scope resolved → w'.log = scopeOf scope :: w.log →
      Changed lower a w w' (.imports (.transaction scope resolved))

theorem menu_setJob {job : MenuImport.MenuImportJob} {v : MenuImport.World} : (MenuImport.setJob job v).menu = v.menu := rfl

theorem menu_saveJob {v : MenuImport.World} {id : Id} {version : Option Nat} {change : MenuImport.MenuImportJob → MenuImport.MenuImportJob} :
    (v.saveJob id version change).2.menu = v.menu := by
  unfold MenuImport.World.saveJob
  split
  · rfl
  · split
    · rfl
    · split <;> rfl

theorem menu_claim {v : MenuImport.World} {id : Id} {from' to' : MenuImport.MenuImportJobStatus} : (v.claim id from' to').2.menu = v.menu := by
  unfold MenuImport.World.claim
  split
  · split <;> rfl
  · rfl

theorem menu_updateUnlessCancelled {v : MenuImport.World} {id : Id} {changes : MenuImport.JobChanges} :
    (v.updateUnlessCancelled id changes).menu = v.menu := by
  unfold MenuImport.World.updateUnlessCancelled
  split
  · split <;> rfl
  · rfl

theorem menu_import {o : MenuImport.Op} {a : Answer} {v : MenuImport.World} (h : ∀ scope resolved, o ≠ .transaction scope resolved) :
    (o.perform lower a v).2.menu = v.menu := by
  rcases MenuImport.perform_cases o a v with ⟨err, hFault⟩ | hRun
  · rw [hFault]
  · rw [hRun]
    cases o with
    | transaction scope resolved => exact absurd rfl (h scope resolved)
    | claimForExtraction id => exact menu_claim
    | claimForPublishing id => exact menu_claim
    | saveJob id version changes => exact menu_saveJob
    | saveRow id version rowNumber patch reviewedAt => exact menu_saveJob
    | updateUnlessCancelled id changes => exact menu_updateUnlessCancelled
    | _ => rfl

theorem transaction_changes {scope : ImportScope} {resolved : ResolvedImport} {a : Answer} :
    Changed lower a w (Op.perform lower (.imports (.transaction scope resolved)) a w).2 (.imports (.transaction scope resolved)) := by
  obtain ⟨fault, extracted⟩ := a
  cases fault with
  | some text => exact .kept rfl rfl
  | none =>
    let r := w.imports.write lower scope resolved
    change Changed lower _ w ({ w with imports := r.2 }.logImport r.1 (.transaction scope resolved)) _
    have hWrite : r = w.imports.write lower scope resolved := rfl
    clear_value r
    unfold MenuImport.World.write MenuImport.writeResolvedImport at hWrite
    by_cases hValid : passesValidators lower resolved = true
    · rw [if_pos hValid] at hWrite
      subst hWrite
      exact .imported rfl hValid rfl rfl
    · rw [if_neg hValid] at hWrite
      subst hWrite
      exact .kept rfl rfl

theorem perform_changes (o : Op) (a : Answer) (w : World) : Changed lower a w (Op.perform lower o a w).2 o := by
  obtain ⟨fault, extracted⟩ := a
  cases o with
  | imports o =>
    by_cases hTransaction : ∃ scope resolved, o = .transaction scope resolved
    · obtain ⟨scope, resolved, rfl⟩ := hTransaction
      exact transaction_changes
    · have hOther : ∀ scope resolved, o ≠ .transaction scope resolved := fun scope resolved hEq => hTransaction ⟨scope, resolved, hEq⟩
      refine .kept ?_ ?_
      · have hMenu := @menu_import lower o ⟨fault, extracted⟩ w.imports hOther
        cases o <;> first | exact hMenu | exact absurd rfl (hOther _ _)
      · cases o <;> first | rfl | exact absurd rfl (hOther _ _)
  | write scope change =>
    cases fault with
    | some text => exact .kept rfl rfl
    | none =>
      simp only [Op.perform, Op.run, World.write]
      cases hApply : change.apply w.menu with
      | ok menu => exact .written rfl hApply rfl
      | error err => exact .kept rfl rfl
  | _ => cases fault <;> exact .kept rfl rfl

/-! ## What a request performs -/

def Op.quiet : Op → Bool
  | .write _ _ => false
  | _ => true

inductive Sent : Scope → Write → Prop
  | createItem {scope : Scope} {newId : Id} (body : MenuItemInput) :
      Sent scope (.createItem (body.doc newId scope.restaurantId scope.businessId))
  | updateItem {scope : Scope} {id : Id} {updates : UpdateMenuItemInput} : Sent scope (.updateItem scope id updates)
  | deleteItem {scope : Scope} {id : Id} : Sent scope (.deleteItem scope id)
  | createCategory {scope : Scope} {newId : Id} (body : CategoryInput) : Sent scope (.createCategory (body.doc scope newId))
  | updateCategory {scope : Scope} {id : Id} {updates : UpdateCategoryInput} : Sent scope (.updateCategory scope id updates)
  | deleteCategory {scope : Scope} {id : Id} : Sent scope (.deleteCategory scope id)
  | createGroup {scope : Scope} {menuItemId newId optionId : Id} (body : ModifierGroupInput) :
      Sent scope (.createGroup (body.doc scope menuItemId newId optionId))
  | updateGroup {scope : Scope} {menuItemId id optionId : Id} (body : UpdateModifierGroupInput) :
      Sent scope (.updateGroup scope menuItemId id (body.updates optionId))
  | deleteGroup {scope : Scope} {menuItemId id : Id} : Sent scope (.deleteGroup scope menuItemId id)
  | putCategoryOverride {businessId restaurantId id : Id} {body : CategoryOverrideInput} :
      Sent (.restaurant restaurantId) (.putCategoryOverride businessId restaurantId id body)
  | deleteCategoryOverride {restaurantId id : Id} : Sent (.restaurant restaurantId) (.deleteCategoryOverride restaurantId id)
  | putItemOverride {businessId restaurantId id : Id} {body : MenuItemOverrideInput} :
      Sent (.restaurant restaurantId) (.putItemOverride businessId restaurantId id body)
  | deleteItemOverride {restaurantId id : Id} : Sent (.restaurant restaurantId) (.deleteItemOverride restaurantId id)
  | putGroupOverride {businessId restaurantId id : Id} {body : ModifierGroupOverrideInput} :
      Sent (.restaurant restaurantId) (.putGroupOverride businessId restaurantId id body)
  | deleteGroupOverride {restaurantId id : Id} : Sent (.restaurant restaurantId) (.deleteGroupOverride restaurantId id)

section Performs

variable {ok : Op → Prop} (hQuiet : ∀ o : Op, o.quiet = true → ok o) {scope : Scope} {change : Write} {check : Promise Unit}

include hQuiet

theorem performs_quiet {o : Op} (h : o.quiet = true) : (.call o : Promise o.Resp).Performs ok := performs_call (hQuiet o h)

end Performs

section Runs

end Runs

section Inversions

variable {α : Type} {idOf : α → Id} {doc : α} {docs docs' : List α} {found : α → Bool} {change : List α → List α} {message : String}

theorem insertDoc_ok (h : insertDoc idOf doc docs = .ok docs') : (∀ d ∈ docs, idOf d ≠ idOf doc) ∧ docs' = docs ++ [doc] := by
  unfold insertDoc at h
  split at h
  · cases h
  · rename_i hNew
    cases h
    refine ⟨fun d hMem hEq => hNew ?_, rfl⟩
    exact List.any_eq_true.mpr ⟨d, hMem, decide_eq_true hEq⟩

theorem changeFound_ok (h : changeFound found change message docs = .ok docs') : docs' = change docs := by
  unfold changeFound at h
  split at h
  · cases h
    rfl
  · cases h

end Inversions

end RestaurantOs.MenuEdits
