import RestaurantOs.Printing.Printers

/-!
# One default printer

A restaurant has at most one enabled default printer of a purpose, as long as each
write that makes a printer one finds no other. A job is then printed by the same
printer, whichever document the database picks.
-/

namespace RestaurantOs.Printing

open Async

/-- Some other printer is the enabled default in the place of `p`. -/
def World.hasOtherDefault (w : World) (p : Printer) : Bool := w.printers.any fun q => q.id != p.id && q.isDefaultOf p.restaurantId p.purpose

def fits (w : World) (p : Printer) : Bool := !(p.isEnabled && p.isDefault) || !w.hasOtherDefault p

/-- An insert or a save that leaves its printer an enabled default finds no other
enabled default of the restaurant and the purpose. -/
def findsNoOther (c : State) : Label (Except Err Unit) Empty → Bool
  | .run t _ =>
    match c.waiting? t with
    | some (.create restaurantId input) => fits c.state (input.printer c.state.nextId restaurantId)
    | some (.save loaded saved) => c.state.printers.all fun stored => stored.id != loaded.id || fits c.state (loaded.saveOver saved stored)
    | _ => true
  | _ => true

structure World.OneDefault (w : World) : Prop where
  ids : (w.printers.map (·.id)).Nodup
  fresh : ∀ p ∈ w.printers, p.id < w.nextId
  unique : ∀ p ∈ w.printers, ∀ q ∈ w.printers, ∀ restaurantId purpose,
    p.isDefaultOf restaurantId purpose = true → q.isDefaultOf restaurantId purpose = true → p.id = q.id

section Writes

variable {w : World} {p q : Printer} {restaurantId : Id} {purpose : PrinterPurpose}

theorem isDefaultOf_iff : p.isDefaultOf restaurantId purpose = true ↔
    p.restaurantId = restaurantId ∧ p.purpose = purpose ∧ p.isEnabled = true ∧ p.isDefault = true := by
  unfold Printer.isDefaultOf
  rw [Bool.and_eq_true, Bool.and_eq_true, Bool.and_eq_true, decide_eq_true_iff, decide_eq_true_iff, and_assoc, and_assoc]

theorem id_eq_of_fits (hFits : fits w p = true) (hp : p.isDefaultOf restaurantId purpose = true) (hMem : q ∈ w.printers)
    (hq : q.isDefaultOf restaurantId purpose = true) : q.id = p.id := by
  obtain ⟨rfl, rfl, hEnabled, hDefault⟩ := (isDefaultOf_iff).mp hp
  unfold fits at hFits
  rw [hEnabled, hDefault, Bool.and_self, Bool.not_true, Bool.false_or, Bool.not_eq_true'] at hFits
  by_contra hOther
  have hHas : w.hasOtherDefault p = true := List.any_eq_true.mpr ⟨q, hMem, by rw [Bool.and_eq_true, bne_iff_ne]; exact ⟨hOther, hq⟩⟩
  rw [hFits] at hHas
  cases hHas

theorem World.OneDefault.lowered {printers : List Printer} (h : w.OneDefault) (hIds : (printers.map (·.id)).Nodup)
    (hFrom : ∀ p ∈ printers, ∃ old ∈ w.printers, old.id = p.id ∧
      ∀ restaurantId purpose, p.isDefaultOf restaurantId purpose = true → old.isDefaultOf restaurantId purpose = true) :
    World.OneDefault { w with printers := printers } := by
  refine ⟨hIds, fun p hp => ?_, fun p hp q hq restaurantId purpose hpd hqd => ?_⟩
  · obtain ⟨old, hOld, hId, -⟩ := hFrom p hp
    exact hId ▸ h.fresh old hOld
  · obtain ⟨oldP, hOldP, hIdP, hDefaultP⟩ := hFrom p hp
    obtain ⟨oldQ, hOldQ, hIdQ, hDefaultQ⟩ := hFrom q hq
    have hSame := h.unique oldP hOldP oldQ hOldQ restaurantId purpose (hDefaultP _ _ hpd) (hDefaultQ _ _ hqd)
    exact hIdP.symm.trans (hSame.trans hIdQ)

theorem World.OneDefault.cleared {besides : Option Id} (h : w.OneDefault) :
    World.OneDefault { w with printers := Tables.update (isOtherDefault restaurantId purpose besides) ({ · with isDefault := false }) w.printers } := by
  refine h.lowered ?_ fun p hp => ?_
  · rw [Tables.map_update_eq (f := fun p : Printer => { p with isDefault := false }) (fun p : Printer => p.id) fun _ => rfl]
    exact h.ids
  · obtain ⟨old, hOld, rfl⟩ := Tables.mem_update.mp hp
    split
    · refine ⟨old, hOld, rfl, fun restaurantId purpose hDefault => ?_⟩
      cases ((isDefaultOf_iff).mp hDefault).2.2.2
    · exact ⟨old, hOld, rfl, fun _ _ hDefault => hDefault⟩

theorem World.OneDefault.deleted {selected : Printer → Bool} (h : w.OneDefault) :
    World.OneDefault { w with printers := w.printers.filter selected } := by
  refine h.lowered (h.ids.sublist (List.filter_sublist.map _)) fun p hp => ?_
  exact ⟨p, (List.mem_filter.mp hp).1, rfl, fun _ _ hDefault => hDefault⟩

theorem World.OneDefault.created {input : CreatePrinterInput} (h : w.OneDefault) (hFits : fits w (input.printer w.nextId restaurantId) = true) :
    World.OneDefault { w with printers := w.printers ++ [input.printer w.nextId restaurantId], nextId := w.nextId + 1 } := by
  refine ⟨?_, fun p hp => ?_, fun p hp q hq restaurantId' purpose' hpd hqd => ?_⟩
  · rw [List.map_append, List.map_singleton, List.nodup_append]
    refine ⟨h.ids, List.nodup_singleton _, fun a ha b hb => ?_⟩
    obtain ⟨old, hOld, rfl⟩ := List.mem_map.mp ha
    rw [List.mem_singleton.mp hb]
    exact (h.fresh old hOld).ne
  · rcases List.mem_append.mp hp with hOld | hNew
    · exact Nat.lt_succ_of_lt (h.fresh p hOld)
    · rw [List.mem_singleton.mp hNew]
      exact Nat.lt_succ_self _
  · rcases List.mem_append.mp hp with hOldP | hNewP <;> rcases List.mem_append.mp hq with hOldQ | hNewQ
    · exact h.unique p hOldP q hOldQ _ _ hpd hqd
    · rw [List.mem_singleton.mp hNewQ] at hqd ⊢
      exact id_eq_of_fits hFits hqd hOldP hpd
    · rw [List.mem_singleton.mp hNewP] at hpd ⊢
      exact (id_eq_of_fits hFits hpd hOldQ hqd).symm
    · rw [List.mem_singleton.mp hNewP, List.mem_singleton.mp hNewQ]

theorem World.OneDefault.saved {loaded saved : Printer} (h : w.OneDefault)
    (hFits : ∀ stored ∈ w.printers, stored.id = loaded.id → fits w (loaded.saveOver saved stored) = true) :
    World.OneDefault { w with printers := Tables.update (·.id = loaded.id) (loaded.saveOver saved) w.printers } := by
  have hKeys : (Tables.update (·.id = loaded.id) (loaded.saveOver saved) w.printers).map (·.id) = w.printers.map (·.id) :=
    Tables.map_update_eq (f := loaded.saveOver saved) (fun p : Printer => p.id) fun _ => rfl
  -- of two printers, the saved one fits and the other is as it was
  have hSaved : ∀ old ∈ w.printers, ∀ other ∈ w.printers, ∀ restaurantId purpose, old.id = loaded.id →
      (loaded.saveOver saved old).isDefaultOf restaurantId purpose = true → other.isDefaultOf restaurantId purpose = true → old.id = other.id :=
    fun old hOld other hOther _ _ hId hDefault hOtherDefault => (id_eq_of_fits (hFits old hOld hId) hDefault hOther hOtherDefault).symm
  refine ⟨(congrArg List.Nodup hKeys).mpr h.ids, fun p hp => ?_, fun p hp q hq restaurantId purpose hpd hqd => ?_⟩
  · obtain ⟨old, hOld, rfl⟩ := Tables.mem_update.mp hp
    split
    · exact h.fresh old hOld
    · exact h.fresh old hOld
  · obtain ⟨oldP, hOldP, rfl⟩ := Tables.mem_update.mp hp
    obtain ⟨oldQ, hOldQ, rfl⟩ := Tables.mem_update.mp hq
    split at hpd <;> split at hqd
    · rename_i hIdP hIdQ
      rw [if_pos hIdP, if_pos hIdQ]
      exact (of_decide_eq_true hIdP).trans (of_decide_eq_true hIdQ).symm
    · rename_i hIdP hIdQ
      rw [if_pos hIdP, if_neg hIdQ]
      exact hSaved oldP hOldP oldQ hOldQ _ _ (of_decide_eq_true hIdP) hpd hqd
    · rename_i hIdP hIdQ
      rw [if_neg hIdP, if_pos hIdQ]
      exact (hSaved oldQ hOldQ oldP hOldP _ _ (of_decide_eq_true hIdQ) hqd hpd).symm
    · rename_i hIdP hIdQ
      rw [if_neg hIdP, if_neg hIdQ]
      exact h.unique oldP hOldP oldQ hOldQ _ _ hpd hqd

end Writes

/-! ## Runs -/

section Runs

variable {w : World} {c c' : State} {requests : List Request}

theorem World.OneDefault.perform {o : Op} (h : w.OneDefault)
    (hCreate : ∀ restaurantId input, o = .create restaurantId input → fits w (input.printer w.nextId restaurantId) = true)
    (hSave : ∀ loaded saved, o = .save loaded saved →
      ∀ stored ∈ w.printers, stored.id = loaded.id → fits w (loaded.saveOver saved stored) = true) :
    (o.perform w).2.OneDefault := by
  cases o with
  | clearDefaults restaurantId purpose besides => exact h.cleared
  | create restaurantId input => exact h.created (hCreate _ _ rfl)
  | findOne id restaurantId => exact h
  | save loaded saved =>
    rw [Op.perform]
    split
    · exact h
    · exact h.saved (hSave _ _ rfl)
  | deleteOne id restaurantId => exact h.deleted
  | createAuditLog event => exact ⟨h.ids, h.fresh, h.unique⟩

theorem World.OneDefault.step {l : Label (Except Err Unit) Empty} (h : c.state.OneDefault) (hGuard : findsNoOther c l = true)
    (hStep : store.step l c = some c') : c'.state.OneDefault := by
  cases l with
  | run t a =>
    obtain ⟨o, th, k, hRan⟩ := Store.run_cases hStep
    rw [hRan.state]
    cases a with
    | error fault => exact h
    | ok answer =>
      simp only [findsNoOther, hRan.waiting?] at hGuard
      refine World.OneDefault.perform h ?_ ?_
      · rintro restaurantId input rfl
        exact hGuard
      · rintro loaded saved rfl stored hStored hId
        have hFits := List.all_eq_true.mp hGuard stored hStored
        rw [Bool.or_eq_true, bne_iff_ne] at hFits
        exact hFits.resolve_left fun hNe => hNe hId
  | stop t =>
    obtain ⟨th, -, rfl⟩ := Store.stop_cases hStep
    exact h
  | event e => cases e

end Runs

namespace Counter

def manager : AuthedUser := ⟨5, .restaurantManager⟩

def receiptPrinter : Printer where
  id := 0
  restaurantId := 1
  name := "Front"
  purpose := .receipt
  connectionType := .browserPrint
  isDefault := true

def kitchenPrinter : Printer where
  id := 1
  restaurantId := 1
  name := "Back"
  purpose := .kitchen
  connectionType := .browserPrint
  isDefault := true

def start : World where
  printers := [receiptPrinter, kitchenPrinter]
  nextId := 2

end Counter

end RestaurantOs.Printing
