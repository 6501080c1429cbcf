import RestaurantOs.Imports.Texts

/-!
# Saved addresses

A customer's address book. Each request reads the account, changes the list of
its addresses and saves it before the next request starts. One address of the
book is the default.
-/

namespace RestaurantOs.Addresses

export Payments (Id ApiError Err)
export Menus (Text)

open MenuImport (trim)

/-- A body whose fields have the types of the schema; what is absent is `none`. -/
structure AddressBody where
  label : Option Text := none
  line1 : Option Text := none
  line2 : Option Text := none
  city : Option Text := none
  state : Option Text := none
  postalCode : Option Text := none
  country : Option Text := none
  latitude : Option ℚ := none
  longitude : Option ℚ := none
  isDefault : Option Bool := none

structure AddressInput where
  label : Option Text
  line1 : Text
  line2 : Option Text
  city : Text
  state : Option Text
  postalCode : Option Text
  country : Option Text
  latitude : Option ℚ
  longitude : Option ℚ
  isDefault : Bool

structure AddressDoc extends AddressInput where
  id : Id

def textWithin (min max : Nat) (field : Option Text) : Bool := field.all fun t => min ≤ t.length && t.length ≤ max

def numberWithin (bound : ℚ) (field : Option ℚ) : Bool := field.all fun x => -bound ≤ x && x ≤ bound

def updateAddressSchema (body : AddressBody) : Option AddressBody :=
  if textWithin 0 50 body.label && textWithin 1 200 body.line1 && textWithin 0 200 body.line2 && textWithin 1 100 body.city &&
      textWithin 0 100 body.state && textWithin 0 20 body.postalCode && textWithin 0 100 body.country &&
      numberWithin 90 body.latitude && numberWithin 180 body.longitude then
    some body
  else none

/-- `isDefault` is absent as `false`; the partial schema leaves it absent. -/
def addressSchema (body : AddressBody) : Option AddressInput := do
  let body ← updateAddressSchema body
  let line1 ← body.line1
  let city ← body.city
  return {
    label := body.label, line1, line2 := body.line2, city, state := body.state, postalCode := body.postalCode
    country := body.country, latitude := body.latitude, longitude := body.longitude
    isDefault := body.isDefault.getD false }

/-- `book` is the addresses of the account, if there is such an account. -/
structure World where
  book : Option (List AddressDoc)
  nextId : Id

namespace AddressDoc

def cast (address : AddressDoc) : AddressDoc :=
  { address with
    line1 := trim address.line1, line2 := address.line2.map trim, city := trim address.city, state := address.state.map trim
    postalCode := address.postalCode.map trim, country := address.country.map trim }

def valid (address : AddressDoc) : Bool :=
  address.line1 ≠ [] && address.city ≠ [] && textWithin 0 50 address.label && numberWithin 90 address.latitude &&
    numberWithin 180 address.longitude

/-- `Object.assign(address, input)` -/
def assign (address : AddressDoc) (input : AddressBody) : AddressDoc :=
  { address with
    label := input.label.or address.label, line1 := input.line1.getD address.line1, line2 := input.line2.or address.line2
    city := input.city.getD address.city, state := input.state.or address.state
    postalCode := input.postalCode.or address.postalCode, country := input.country.or address.country
    latitude := input.latitude.or address.latitude, longitude := input.longitude.or address.longitude
    isDefault := input.isDefault.getD address.isDefault }

def withoutDefault (address : AddressDoc) : AddressDoc := { address with isDefault := false }

end AddressDoc

namespace World

def findById (w : World) : Except Err (List AddressDoc) :=
  match w.book with
  | some addresses => .ok addresses
  | none => .error (.api (.notFound "User not found"))

def save (w : World) (addresses : List AddressDoc) : Except Err World :=
  if (addresses.map AddressDoc.cast).all AddressDoc.valid then .ok { w with book := some (addresses.map AddressDoc.cast) }
  else .error (.other "User validation failed")

end World

def addAddress (input : AddressInput) (w : World) : Except Err World := do
  let addresses ← w.findById
  let makeDefault := input.isDefault || addresses.isEmpty
  let kept := if makeDefault then addresses.map AddressDoc.withoutDefault else addresses
  World.save { w with nextId := w.nextId + 1 } (kept ++ [{ input with id := w.nextId, isDefault := makeDefault }])

def updateAddress (addressId : Id) (input : AddressBody) (w : World) : Except Err World := do
  let addresses ← w.findById
  match addresses.find? fun address => address.id = addressId with
  | none => .error (.api (.notFound "Address not found"))
  | some _ =>
    let kept := if input.isDefault = some true then addresses.map AddressDoc.withoutDefault else addresses
    w.save (Tables.update (fun address => address.id = addressId) (fun address => address.assign input) kept)

def promoteFirst : List AddressDoc → List AddressDoc
  | [] => []
  | address :: addresses => { address with isDefault := true } :: addresses

def deleteAddress (addressId : Id) (w : World) : Except Err World := do
  let addresses ← w.findById
  match addresses.find? fun address => address.id = addressId with
  | none => .error (.api (.notFound "Address not found"))
  | some address =>
    let rest := addresses.filter fun address => address.id ≠ addressId
    w.save (if address.isDefault then promoteFirst rest else rest)

inductive Request
  | add (body : AddressBody)
  | update (addressId : Id) (body : AddressBody)
  | delete (addressId : Id)

namespace Request

def handle : Request → World → Except Err World
  | add body, w => (addressSchema body).elim (.error (.api (.badRequest "Validation failed"))) fun input => addAddress input w
  | update addressId body, w =>
    (updateAddressSchema body).elim (.error (.api (.badRequest "Validation failed"))) fun input => updateAddress addressId input w
  | delete addressId, w => deleteAddress addressId w

def asks (w : World) : Request → Option Id
  | add body => if body.isDefault = some true then some w.nextId else none
  | update addressId body => if body.isDefault = some true then some addressId else none
  | delete _ => none

def keepsDefault (w : World) : Request → Bool
  | update addressId body =>
    body.isDefault ≠ some false || !(w.book.getD []).any fun address => address.id = addressId && address.isDefault
  | _ => true

end Request

/-- The book as the requests leave it, and the address that the last of them
that asked asked to be the default. -/
structure Session where
  world : World
  asked : Option Id := none

def Session.request (s : Session) (r : Request) : Session :=
  match r.handle s.world with
  | .ok w => { world := w, asked := (r.asks s.world).or s.asked }
  | .error _ => s

inductive Session.Reached (guard : World → Request → Bool) : Session → Prop
  | registered {nextId : Id} : Reached guard { world := { book := some [], nextId } }
  | request {s : Session} {r : Request} (h : Reached guard s) (hGuard : guard s.world r = true) : Reached guard (s.request r)

/-! ## One default -/

/-- No address at all, or exactly one default: the address that was asked for, if
it is still there. -/
def OneDefault (addresses : List AddressDoc) (asked : Option Id) : Prop :=
  addresses = [] ∨ ∃ a, addresses.filter (·.isDefault) = [a] ∧ ∀ b ∈ addresses, asked = some b.id → b.id = a.id

/-- Ids are given once. -/
structure Session.Kept (s : Session) (addresses : List AddressDoc) : Prop where
  book : s.world.book = some addresses
  nodup : (addresses.map (·.id)).Nodup
  id_lt : ∀ a ∈ addresses, a.id < s.world.nextId
  asked_lt : ∀ id, s.asked = some id → id < s.world.nextId
  oneDefault : OneDefault addresses s.asked

section Books

variable {addresses : List AddressDoc} {a b : AddressDoc} {asked : Option Id} {f : AddressDoc → AddressDoc}

theorem OneDefault.map (h : OneDefault addresses asked) (hId : ∀ a, (f a).id = a.id)
    (hDefault : ∀ a ∈ addresses, (f a).isDefault = a.isDefault) : OneDefault (addresses.map f) asked := by
  rcases h with rfl | ⟨a, hOne, hAsked⟩
  · exact .inl rfl
  · refine .inr ⟨f a, ?_, fun b hb hAsk => ?_⟩
    · have hSame : addresses.filter ((·.isDefault) ∘ f) = addresses.filter (·.isDefault) := List.filter_congr hDefault
      rw [List.filter_map, hSame, hOne]
      rfl
    · obtain ⟨c, hc, rfl⟩ := List.mem_map.mp hb
      rw [hId] at hAsk ⊢
      rw [hId]
      exact hAsked c hc hAsk

theorem filter_withoutDefault : (addresses.map AddressDoc.withoutDefault).filter (·.isDefault) = [] := by
  refine List.filter_eq_nil_iff.mpr fun b hb => ?_
  obtain ⟨c, -, rfl⟩ := List.mem_map.mp hb
  exact Bool.false_ne_true

theorem filter_of_id (hNodup : (addresses.map (·.id)).Nodup) (ha : a ∈ addresses)
    (hDefault : ∀ b ∈ addresses, b.isDefault = decide (b.id = a.id)) : addresses.filter (·.isDefault) = [a] := by
  induction addresses with
  | nil => cases ha
  | cons c addresses ih =>
    obtain ⟨hNew, hNodup⟩ := List.nodup_cons.mp hNodup
    have hHead := hDefault c List.mem_cons_self
    have hRest := fun b hb => hDefault b (List.mem_cons_of_mem _ hb)
    rcases List.mem_cons.mp ha with rfl | ha
    · rw [List.filter_cons_of_pos (by rw [hHead, decide_eq_true rfl]), List.filter_eq_nil_iff.mpr fun b hb => ?_]
      rw [hRest b hb, decide_eq_true_eq]
      exact fun hEq => hNew (List.mem_map.mpr ⟨b, hb, hEq⟩)
    · have hNe : c.id ≠ a.id := fun hEq => hNew (List.mem_map.mpr ⟨a, ha, hEq.symm⟩)
      rw [List.filter_cons_of_neg (by rw [hHead, decide_eq_true_eq]; exact hNe)]
      exact ih hNodup ha hRest

theorem map_id (f : AddressDoc → AddressDoc) (hId : ∀ a, (f a).id = a.id) : (addresses.map f).map (·.id) = addresses.map (·.id) := by
  rw [List.map_map]
  exact List.map_congr_left fun a _ => hId a

end Books

section Requests

variable {s : Session} {w w' : World} {addresses : List AddressDoc} {r : Request} {addressId : Id}

theorem World.save_ok (h : w.save addresses = .ok w') : w' = { w with book := some (addresses.map AddressDoc.cast) } := by
  unfold World.save at h
  split at h
  · exact (Except.ok.inj h).symm
  · cases h

theorem findById_eq (h : w.book = some addresses) : w.findById = .ok addresses := by
  rw [World.findById, h]

theorem Session.Kept.saved {book : List AddressDoc} {nextId : Id} {asked : Option Id} (hNodup : (book.map (·.id)).Nodup)
    (hIds : ∀ a ∈ book, a.id < nextId) (hAsked : ∀ id, asked = some id → id < nextId) (hOne : OneDefault book asked) :
    Session.Kept { world := { book := some (book.map AddressDoc.cast), nextId }, asked } (book.map AddressDoc.cast) where
  book := rfl
  nodup := by
    rw [map_id AddressDoc.cast fun _ => rfl]
    exact hNodup
  id_lt a ha := by
    obtain ⟨b, hb, rfl⟩ := List.mem_map.mp ha
    exact hIds b hb
  asked_lt := hAsked
  oneDefault := hOne.map (fun _ => rfl) fun _ _ => rfl

theorem Session.Kept.added {body : AddressBody} {input : AddressInput} (h : s.Kept addresses)
    (hInput : addressSchema body = some input) (hAdd : addAddress input s.world = .ok w') :
    ∃ addresses', Session.Kept { world := w', asked := ((Request.add body).asks s.world).or s.asked } addresses' := by
  have hDefault : input.isDefault = body.isDefault.getD false := by
    simp only [addressSchema, Option.bind_eq_bind, Option.bind_eq_some_iff, updateAddressSchema] at hInput
    obtain ⟨body', hBody, line1, -, city, -, hEq⟩ := hInput
    split at hBody
    · cases hBody
      cases hEq
      rfl
    · cases hBody
  rw [addAddress, findById_eq h.book] at hAdd
  have hWorld := World.save_ok hAdd
  subst hWorld
  have hFresh : ∀ a ∈ addresses, a.id ≠ s.world.nextId := fun a ha => (h.id_lt a ha).ne
  have hKept : ∀ {kept : List AddressDoc}, kept.map (·.id) = addresses.map (·.id) → ∀ a ∈ kept, a.id ∈ addresses.map (·.id) :=
    fun hEq a ha => hEq ▸ List.mem_map_of_mem ha
  have hLists : ∀ makeDefault : Bool, (if makeDefault then addresses.map AddressDoc.withoutDefault else addresses).map (·.id) =
      addresses.map (·.id) := by
    intro makeDefault
    cases makeDefault with
    | true => exact map_id _ fun _ => rfl
    | false => rfl
  refine ⟨_, Session.Kept.saved ?_ ?_ ?_ ?_⟩
  · rw [List.map_append, hLists]
    refine List.nodup_append.mpr ⟨h.nodup, List.nodup_singleton _, fun id hId id' hId' => ?_⟩
    obtain ⟨a, ha, rfl⟩ := List.mem_map.mp hId
    rw [List.mem_singleton.mp hId']
    exact hFresh a ha
  · intro a ha
    rcases List.mem_append.mp ha with ha | ha
    · obtain ⟨b, hb, hEq⟩ := List.mem_map.mp (hKept (hLists _) a ha)
      exact hEq ▸ (h.id_lt b hb).trans (Nat.lt_succ_self _)
    · cases List.mem_singleton.mp ha
      exact Nat.lt_succ_self _
  · intro id hAsked
    simp only [Request.asks] at hAsked
    split at hAsked
    · cases hAsked
      exact Nat.lt_succ_self _
    · exact (h.asked_lt id hAsked).trans (Nat.lt_succ_self _)
  · refine .inr ?_
    cases hMake : input.isDefault || addresses.isEmpty with
    | true =>
      refine ⟨_, by rw [if_pos rfl, List.filter_append, filter_withoutDefault]; rfl, fun b hb hAsk => ?_⟩
      rw [if_pos rfl] at hb
      rcases List.mem_append.mp hb with hb | hb
      · -- an old address is asked for only if the new one is not, so there is none
        obtain ⟨c, hc, rfl⟩ := List.mem_map.mp hb
        simp only [Request.asks] at hAsk
        split at hAsk
        · exact absurd (Option.some.inj hAsk).symm (hFresh c hc)
        · rename_i hNot
          rw [hDefault, Bool.or_eq_true] at hMake
          rcases hMake with hTrue | hEmpty
          · cases hBody : body.isDefault with
            | none => rw [hBody] at hTrue; cases hTrue
            | some flag =>
              rw [hBody] at hTrue hNot
              exact absurd (congrArg some hTrue) hNot
          · rw [List.isEmpty_iff.mp hEmpty] at hc
            cases hc
      · rw [List.mem_singleton.mp hb]
    | false =>
      rw [Bool.or_eq_false_iff] at hMake
      rcases h.oneDefault with rfl | ⟨a, hOne, hAsked⟩
      · cases hMake.2
      · refine ⟨a, by rw [if_neg Bool.false_ne_true, List.filter_append, hOne]; rfl, fun b hb hAsk => ?_⟩
        have hNot : ¬ body.isDefault = some true := by
          intro hBody
          rw [hDefault, hBody] at hMake
          cases hMake.1
        simp only [Request.asks, if_neg hNot, Option.none_or] at hAsk
        rw [if_neg Bool.false_ne_true] at hb
        rcases List.mem_append.mp hb with hb | hb
        · exact hAsked b hb hAsk
        · rw [List.mem_singleton.mp hb] at hAsk
          exact absurd (h.asked_lt _ hAsk) (lt_irrefl _)

theorem updateAddressSchema_some {body input : AddressBody} (h : updateAddressSchema body = some input) : input = body := by
  unfold updateAddressSchema at h
  split at h
  · exact (Option.some.inj h).symm
  · cases h

theorem OneDefault.updated {body : AddressBody} {asked : Option Id} {a : AddressDoc} (h : OneDefault addresses asked)
    (hNodup : (addresses.map (·.id)).Nodup) (hFind : addresses.find? (fun address => address.id = addressId) = some a)
    (hKeeps : body.isDefault = some false → ∀ b ∈ addresses, b.id = addressId → b.isDefault = false) :
    OneDefault (Tables.update (fun address => address.id = addressId) (fun address => address.assign body)
      (if body.isDefault = some true then addresses.map AddressDoc.withoutDefault else addresses))
      ((if body.isDefault = some true then some addressId else none).or asked) := by
  have hMem := List.mem_of_find?_eq_some hFind
  have hId := List.find?_some hFind
  rw [decide_eq_true_eq] at hId
  by_cases hBody : body.isDefault = some true
  · rw [if_pos hBody, if_pos hBody]
    have hIds : (Tables.update (fun address => address.id = addressId) (fun address => address.assign body)
        (addresses.map AddressDoc.withoutDefault)).map (·.id) = addresses.map (·.id) := by
      rw [Tables.update, map_id _ fun b => by split <;> rfl, map_id AddressDoc.withoutDefault fun _ => rfl]
    refine .inr ⟨a.withoutDefault.assign body, filter_of_id (hIds ▸ hNodup) ?_ fun b hb => ?_, fun b _ hAsk => ?_⟩
    · exact Tables.mem_update.mpr ⟨_, List.mem_map_of_mem hMem, (if_pos (decide_eq_true hId)).symm⟩
    · obtain ⟨c, hc, rfl⟩ := Tables.mem_update.mp hb
      obtain ⟨d, -, rfl⟩ := List.mem_map.mp hc
      by_cases hd : d.withoutDefault.id = addressId
      · rw [if_pos (decide_eq_true hd)]
        change body.isDefault.getD false = decide (d.withoutDefault.id = a.id)
        rw [hBody, hd, hId, decide_eq_true rfl, Option.getD_some]
      · rw [if_neg (by rw [decide_eq_true_eq]; exact hd)]
        change false = decide (d.withoutDefault.id = a.id)
        rw [hId, decide_eq_false hd]
    · rw [Option.some_or] at hAsk
      exact (Option.some.inj hAsk).symm.trans hId.symm
  · rw [if_neg hBody, if_neg hBody, Option.none_or]
    refine h.map (fun b => by split <;> rfl) fun b hb => ?_
    by_cases hb' : b.id = addressId
    · rw [if_pos (decide_eq_true hb')]
      change body.isDefault.getD b.isDefault = b.isDefault
      cases hFlag : body.isDefault with
      | none => rfl
      | some flag =>
        cases flag with
        | true => exact absurd hFlag hBody
        | false => exact (hKeeps hFlag b hb hb').symm
    · rw [if_neg (by rw [decide_eq_true_eq]; exact hb')]

theorem Session.Kept.updated {body input : AddressBody} (h : s.Kept addresses) (hInput : updateAddressSchema body = some input)
    (hKeeps : (Request.update addressId body).keepsDefault s.world = true) (hUpdate : updateAddress addressId input s.world = .ok w') :
    ∃ addresses', Session.Kept { world := w', asked := ((Request.update addressId body).asks s.world).or s.asked } addresses' := by
  cases updateAddressSchema_some hInput
  rw [updateAddress, findById_eq h.book] at hUpdate
  cases hFind : addresses.find? (fun address => address.id = addressId) with
  | none =>
    simp only [bind, Except.bind, hFind] at hUpdate
    cases hUpdate
  | some a =>
    simp only [bind, Except.bind, hFind] at hUpdate
    have hWorld := World.save_ok hUpdate
    subst hWorld
    have hIds : (Tables.update (fun address : AddressDoc => address.id = addressId) (fun address => address.assign body)
        (if body.isDefault = some true then addresses.map AddressDoc.withoutDefault else addresses)).map (·.id) =
        addresses.map (·.id) := by
      rw [Tables.update, map_id _ fun b => by split <;> rfl]
      split
      · exact map_id _ fun _ => rfl
      · rfl
    refine ⟨_, Session.Kept.saved (hIds ▸ h.nodup) (fun b hb => ?_) (fun id hAsked => ?_) (h.oneDefault.updated h.nodup hFind ?_)⟩
    · obtain ⟨c, hc, hEq⟩ := List.mem_map.mp (hIds ▸ List.mem_map_of_mem hb)
      exact (show c.id = b.id from hEq) ▸ h.id_lt c hc
    · simp only [Request.asks] at hAsked
      split at hAsked
      · cases hAsked
        have hId := List.find?_some hFind
        rw [decide_eq_true_eq] at hId
        exact hId ▸ h.id_lt a (List.mem_of_find?_eq_some hFind)
      · exact h.asked_lt id hAsked
    · intro hFalse b hb hId
      simp only [Request.keepsDefault, hFalse, h.book, Option.getD_some, ne_eq, not_true_eq_false, decide_false, Bool.false_or,
        Bool.not_eq_true', List.any_eq_false, Bool.and_eq_true, decide_eq_true_eq, not_and, Bool.not_eq_true] at hKeeps
      exact hKeeps b hb hId

theorem promoteFirst_ids : (promoteFirst addresses).map (·.id) = addresses.map (·.id) := by
  cases addresses <;> rfl

theorem OneDefault.deleted {asked : Option Id} {a : AddressDoc} (h : OneDefault addresses asked)
    (hNodup : (addresses.map (·.id)).Nodup) (hFind : addresses.find? (fun address => address.id = addressId) = some a) :
    OneDefault (if a.isDefault then promoteFirst (addresses.filter fun address => address.id ≠ addressId)
      else addresses.filter fun address => address.id ≠ addressId) asked := by
  have hMem := List.mem_of_find?_eq_some hFind
  have hId := List.find?_some hFind
  rw [decide_eq_true_eq] at hId
  rcases h with rfl | ⟨d, hOne, hAsked⟩
  · cases hMem
  have hRest : (addresses.filter fun address => address.id ≠ addressId).filter (·.isDefault) =
      [d].filter fun address => address.id ≠ addressId := by
    rw [← hOne, List.filter_filter, List.filter_filter]
    simp only [Bool.and_comm]
  have hStays : ∀ b ∈ addresses.filter (fun address => address.id ≠ addressId), b ∈ addresses ∧ b.id ≠ addressId := by
    intro b hb
    rw [List.mem_filter, decide_eq_true_eq] at hb
    exact hb
  cases hDefault : a.isDefault with
  | true =>
    rw [if_pos rfl]
    have ha : a = d := List.mem_singleton.mp (hOne ▸ List.mem_filter.mpr ⟨hMem, hDefault⟩)
    subst ha
    rw [List.filter_cons_of_neg (by simpa using hId), List.filter_nil] at hRest
    cases hList : addresses.filter (fun address => address.id ≠ addressId) with
    | nil => exact .inl rfl
    | cons b rest =>
      rw [hList] at hRest hStays
      obtain ⟨-, hNone⟩ := List.forall_mem_cons.mp (List.filter_eq_nil_iff.mp hRest)
      refine .inr ⟨{ b with isDefault := true }, ?_, fun c hc hAsk => ?_⟩
      · rw [promoteFirst, List.filter_cons_of_pos rfl, List.filter_eq_nil_iff.mpr hNone]
      · -- what was asked for is gone
        have hGone : ∀ b' ∈ b :: rest, asked ≠ some b'.id := fun b' hb' hAsk' =>
          (hStays b' hb').2 ((hAsked b' (hStays b' hb').1 hAsk').trans hId)
        rcases List.mem_cons.mp hc with rfl | hc
        · exact absurd hAsk (hGone b List.mem_cons_self)
        · exact absurd hAsk (hGone c (List.mem_cons_of_mem _ hc))
  | false =>
    rw [if_neg Bool.false_ne_true]
    have hd := List.mem_filter.mp (hOne ▸ List.mem_singleton_self d : d ∈ addresses.filter (·.isDefault))
    have hNe : d.id ≠ addressId := by
      intro hEq
      have hSame := Tables.eq_of_id hNodup hd.1 hMem (hEq.trans hId.symm)
      rw [hSame, hDefault] at hd
      cases hd.2
    refine .inr ⟨d, ?_, fun b hb hAsk => hAsked b (hStays b hb).1 hAsk⟩
    rw [hRest, List.filter_cons_of_pos (by simpa using hNe), List.filter_nil]

theorem Session.Kept.deleted (h : s.Kept addresses) (hDelete : deleteAddress addressId s.world = .ok w') :
    ∃ addresses', Session.Kept { world := w', asked := s.asked } addresses' := by
  rw [deleteAddress, findById_eq h.book] at hDelete
  cases hFind : addresses.find? (fun address => address.id = addressId) with
  | none =>
    simp only [bind, Except.bind, hFind] at hDelete
    cases hDelete
  | some a =>
    simp only [bind, Except.bind, hFind] at hDelete
    have hWorld := World.save_ok hDelete
    subst hWorld
    have hSub : (if a.isDefault then promoteFirst (addresses.filter fun address => address.id ≠ addressId)
        else addresses.filter fun address => address.id ≠ addressId).map (·.id) =
        (addresses.filter fun address => address.id ≠ addressId).map (·.id) := by
      split
      · exact promoteFirst_ids
      · rfl
    refine ⟨_, Session.Kept.saved ?_ (fun b hb => ?_) h.asked_lt (h.oneDefault.deleted h.nodup hFind)⟩
    · rw [hSub]
      exact h.nodup.sublist (List.Sublist.map _ List.filter_sublist)
    · obtain ⟨c, hc, hEq⟩ := List.mem_map.mp (hSub ▸ List.mem_map_of_mem hb)
      exact (show c.id = b.id from hEq) ▸ h.id_lt c (List.mem_filter.mp hc).1

theorem Session.Kept.request (h : s.Kept addresses) (hKeeps : r.keepsDefault s.world = true) :
    ∃ addresses', (s.request r).Kept addresses' := by
  unfold Session.request
  cases hHandle : r.handle s.world with
  | error err => exact ⟨addresses, h⟩
  | ok w' =>
    cases r with
    | add body =>
      cases hInput : addressSchema body with
      | none =>
        rw [Request.handle, hInput] at hHandle
        cases hHandle
      | some input =>
        rw [Request.handle, hInput] at hHandle
        exact h.added hInput hHandle
    | update addressId body =>
      cases hInput : updateAddressSchema body with
      | none =>
        rw [Request.handle, hInput] at hHandle
        cases hHandle
      | some input =>
        rw [Request.handle, hInput] at hHandle
        exact h.updated hInput hKeeps hHandle
    | delete addressId => exact h.deleted hHandle

end Requests

theorem Session.Reached.kept {s : Session} (h : Session.Reached (fun w r => r.keepsDefault w) s) : ∃ addresses, s.Kept addresses := by
  induction h with
  | registered => exact ⟨[], rfl, List.nodup_nil, by simp, by simp, .inl rfl⟩
  | request _ hGuard ih =>
    obtain ⟨addresses, hKept⟩ := ih
    exact hKept.request hGuard

namespace Home

def body : AddressBody := { line1 := some "1 Main Street".toList, city := some "Springfield".toList }

def saved : Session := Session.request { world := { book := some [], nextId := 0 } } (.add body)

end Home

end RestaurantOs.Addresses
