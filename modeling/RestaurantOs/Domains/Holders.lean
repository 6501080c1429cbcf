import RestaurantOs.Domains.Mappings

/-!
# Hostnames and their holders

A hostname is served for a location whose mapping was confirmed in the DNS, or
that is a client of the agency in whose domain the hostname lies. The second lasts
as long as an agency's domain covers the mapping that rests on it.
-/

namespace RestaurantOs.Domains

open Async Prog
open Agencies (Text Token Agency)

/-! ## The agency of a hostname -/

theorem intercalate_tail {l l' : List Text} (h : l' ∈ l.tails) : List.intercalate ['.'] l' <:+ List.intercalate ['.'] l := by
  induction l with
  | nil =>
    obtain rfl := List.mem_singleton.mp h
    exact List.suffix_rfl
  | cons label rest ih =>
    have hCases : l' ∈ (label :: rest) :: rest.tails := h
    cases List.mem_cons.mp hCases with
    | inl hSelf =>
      subst hSelf
      exact List.suffix_rfl
    | inr hTail =>
      refine (ih hTail).trans ?_
      cases rest with
      | nil => exact List.nil_suffix
      | cons next rest =>
        rw [List.intercalate_cons_cons]
        exact List.suffix_append _ _

theorem hostnameSuffixes_eq_of_length {hostname s t : Text} (hs : s ∈ hostnameSuffixes hostname) (ht : t ∈ hostnameSuffixes hostname)
    (hLength : s.length = t.length) : s = t := by
  obtain ⟨l, hl, rfl⟩ := List.mem_map.mp hs
  obtain ⟨l', hl', rfl⟩ := List.mem_map.mp ht
  have hSuffix := List.suffix_of_suffix_length_le (intercalate_tail (List.mem_filter.mp hl).1) (intercalate_tail (List.mem_filter.mp hl').1)
    hLength.le
  exact hSuffix.eq_of_length hLength

structure World.MostSpecific (w : World) (hostname : Text) (agency : Agency) : Prop where
  mem : agency ∈ w.agencies.agencies
  contains : contains hostname agency = true
  longest : ∀ other ∈ w.agencies.agencies, Domains.contains hostname other = true → domainLength other ≤ domainLength agency

def UniqueVerified (agencies : List Agency) : Prop :=
  ∀ agency ∈ agencies, ∀ other ∈ agencies, ∀ domain, agency.holds domain → other.holds domain → other.id = agency.id

def World.covered (w : World) (hostname : Text) : Bool := w.agencies.agencies.any (contains hostname)

section Owner

variable {w : World} {hostname : Text} {agency owner : Agency}

theorem contains_iff : contains hostname agency = true ↔ ∃ domain ∈ hostnameSuffixes hostname, agency.holds domain := by
  rw [contains, Bool.and_eq_true, decide_eq_true_eq, Option.any_eq_true]
  constructor
  · rintro ⟨⟨domain, hDomain, hIn⟩, hVerified⟩
    exact ⟨domain, List.contains_iff_mem.mp hIn, hVerified, hDomain⟩
  · rintro ⟨domain, hIn, hVerified, hDomain⟩
    exact ⟨⟨domain, hDomain, List.contains_iff_mem.mpr hIn⟩, hVerified⟩

theorem owner_eq_none (h : w.findVerifiedAgencyForHostname hostname = none) : w.covered hostname = false := by
  rw [World.findVerifiedAgencyForHostname, List.head?_eq_none_iff] at h
  rw [World.covered, List.any_eq_false]
  intro agency hMem hContains
  have hSorted : agency ∈ Sorting.sorted compareLonger (w.agencies.agencies.filter (contains hostname)) :=
    Sorting.mem_sorted.mpr (List.mem_filter.mpr ⟨hMem, hContains⟩)
  rw [h] at hSorted
  cases hSorted

theorem owner_mostSpecific (h : w.findVerifiedAgencyForHostname hostname = some owner) : w.MostSpecific hostname owner := by
  have hFilter := List.mem_filter.mp (Sorting.mem_sorted.mp (List.mem_of_head? h))
  refine ⟨hFilter.1, hFilter.2, fun other hOther hContains => ?_⟩
  have hTrans : ∀ a b c : Agency, (compareLonger a b).isLE = true → (compareLonger b c).isLE = true → (compareLonger a c).isLE = true := by
    intro a b c hab hbc
    rw [compareLonger, Nat.isLE_compare] at *
    exact hbc.trans hab
  have hTotal : ∀ a b : Agency, ((compareLonger a b).isLE || (compareLonger b a).isLE) = true := by
    intro a b
    rw [compareLonger, compareLonger, Bool.or_eq_true, Nat.isLE_compare, Nat.isLE_compare]
    exact le_total _ _
  have hSorted := List.pairwise_mergeSort hTrans hTotal (w.agencies.agencies.filter (contains hostname))
  have hOtherSorted : other ∈ Sorting.sorted compareLonger (w.agencies.agencies.filter (contains hostname)) :=
    Sorting.mem_sorted.mpr (List.mem_filter.mpr ⟨hOther, hContains⟩)
  rw [World.findVerifiedAgencyForHostname] at h
  obtain ⟨rest, hRest⟩ := List.head?_eq_some_iff.mp h
  rw [hRest] at hOtherSorted
  cases List.mem_cons.mp hOtherSorted with
  | inl hSelf => rw [hSelf]
  | inr hBehind =>
    have hPairwise : (owner :: rest).Pairwise fun a b => (compareLonger a b).isLE = true := hRest ▸ hSorted
    exact Nat.isLE_compare.mp ((List.pairwise_cons.mp hPairwise).1 other hBehind)

theorem mostSpecific_unique (hUnique : UniqueVerified w.agencies.agencies) (h : w.MostSpecific hostname agency)
    (hOwner : w.MostSpecific hostname owner) : agency.id = owner.id := by
  obtain ⟨domain, hIn, hHolds⟩ := (contains_iff).mp h.contains
  obtain ⟨domain', hIn', hHolds'⟩ := (contains_iff).mp hOwner.contains
  have hLength := le_antisymm (hOwner.longest agency h.mem h.contains) (h.longest owner hOwner.mem hOwner.contains)
  rw [domainLength, domainLength, hHolds.2, hHolds'.2] at hLength
  obtain rfl := hostnameSuffixes_eq_of_length hIn hIn' hLength
  exact hUnique owner hOwner.mem agency h.mem domain hHolds' hHolds

end Owner

/-! ## What the requests rely on -/

def confirms (hostname : Text) (token : Token) : Entry Op Op.Resp Err → Bool
  | ⟨_, .checkDomainVerification host expectedToken, .ok verified⟩ => host = hostname && expectedToken = token && verified
  | _ => false

def confirmed (history : List (Entry Op Op.Resp Err)) (hostname : Text) (token : Token) : Bool := history.any (confirms hostname token)

/-- A mapping that rests on an agency's domain is stored while one covers it, and no
such mapping loses the last one: an agency gets another domain only where each of
them was confirmed itself or lies in the verified domain of some other agency. No
two agencies are saved as verified for one domain. -/
def keepsNamespaces (c : State) : Label (Except Err Unit) Event → Bool
  | .run t _ =>
    match c.waiting? t with
    | some (.agency (.update id _ _)) => c.state.mappings.all fun m =>
        m.status = .pendingVerification || confirmed c.history m.hostname m.verificationToken ||
          c.state.agencies.agencies.any fun other => other.id ≠ id && contains m.hostname other
    | some (.agency (.saveVerified loaded)) => (c.state.agencies.agency? loaded.id).all fun stored =>
        stored.domain.all fun domain => !c.state.agencies.verifiedElsewhere stored.id domain
    | some (.create hostname _ _ true) => c.state.covered (Agencies.lowercase hostname)
    | some (.saveVerified loaded true) => c.state.covered loaded.hostname
    | _ => true
  | _ => true

structure Point where
  loaded : List DomainMapping := []
  checked : List (Text × Token) := []

namespace Point

def after (pt : Point) (o : Op) (r : Except Err o.Resp) : Point :=
  match o, r with
  | .findOwned _ _, .ok (some mapping) => { pt with loaded := mapping :: pt.loaded }
  | .checkDomainVerification hostname expectedToken, .ok true => { pt with checked := (hostname, expectedToken) :: pt.checked }
  | _, _ => pt

/-- A save is of a mapping that was loaded; as verified by its token once that was
checked, with any other status if it was verified. -/
def Allows (pt : Point) : Op → Prop
  | .saveVerified loaded byAgency =>
    loaded ∈ pt.loaded ∧ (byAgency = false → (loaded.hostname, loaded.verificationToken) ∈ pt.checked)
  | .saveStatus loaded status =>
    loaded ∈ pt.loaded ∧ loaded.status ≠ .pendingVerification ∧ status ≠ .pendingVerification
  | _ => True

end Point

@[reducible] def holding : Protocol Op World (Except Err Unit) where
  Point := Point
  Move o a w pt pt' := pt.Allows o ∧ pt' = pt.after o (store.perform o a w).1
  Rest _ := True

section Walk

variable {pt : Point}

theorem follows_quiet {o : Op} (hAllows : pt.Allows o) (hAfter : ∀ r, pt.after o r = pt) {Q : o.Resp → Point → Prop}
    (hQ : ∀ v, Q v pt) : (Prog.call o : Promise o.Resp).Follows store holding pt Q fun _ _ => True := by
  refine follows_call.mpr fun a w => ⟨pt, ⟨hAllows, (hAfter _).symm⟩, ?_⟩
  cases (store.perform o a w).1 with
  | ok v => exact hQ v
  | error err => trivial

theorem recordAuditEvent_follows {restaurantId : Id} {action : String} :
    (recordAuditEvent restaurantId action).Follows store holding pt (fun _ _ => True) fun _ _ => True := by
  unfold recordAuditEvent
  rw [bind_eq, follows_bind, follows_attempt]
  refine follows_call.mpr fun a w => ⟨pt, ⟨trivial, rfl⟩, ?_⟩
  cases (store.perform (.recordAuditEvent restaurantId action) a w).1 <;> trivial

theorem ofAgency_follows {α : Type} (p : Agencies.Promise α) :
    (ofAgency p).Follows store holding pt (fun _ _ => True) fun _ _ => True := by
  induction p with
  | ret v => trivial
  | raise err => trivial
  | await o k ih =>
    change (((Prog.call (Op.agency o) : Promise o.Resp).attempt).bind fun r => ofAgency (k r)).Follows store holding pt _ _
    rw [follows_bind, follows_attempt]
    refine follows_call.mpr fun a w => ⟨pt, ⟨trivial, rfl⟩, ?_⟩
    cases (store.perform (.agency o) a w).1 with
    | ok v => exact ih (.ok v)
    | error err => exact ih (.error err)

theorem agencyNamespaceFor_follows {hostname : Text} {businessId : Id} :
    (agencyNamespaceFor hostname businessId).Follows store holding pt (fun _ pt' => pt' = pt) fun _ _ => True := by
  unfold agencyNamespaceFor
  rw [bind_eq, follows_bind]
  refine follows_quiet (o := .findVerifiedAgency hostname) trivial (fun _ => rfl) fun agency => ?_
  cases agency with
  | none => exact rfl
  | some agency =>
    dsimp only
    rw [bind_eq, follows_bind]
    exact follows_quiet (o := .findBusiness businessId) trivial (fun _ => rfl) fun _ => rfl

theorem createMapping_follows {hostname : Text} {businessId locationId : Id} {byAgency : Bool} :
    (createMapping hostname businessId locationId byAgency).Follows store holding pt (fun _ pt' => pt' = pt) fun _ _ => True := by
  unfold createMapping
  rw [bind_eq, follows_bind, follows_attempt]
  refine follows_call.mpr fun a w => ⟨pt, ⟨trivial, rfl⟩, ?_⟩
  cases (store.perform (.create hostname businessId locationId byAgency) a w).1 with
  | ok mapping => exact rfl
  | error err =>
    dsimp only
    split <;> trivial

theorem addDomain_follows {env : Env} {restaurantId : Id} {hostname : Text} :
    (addDomain env restaurantId hostname).Follows store holding pt (fun _ _ => True) fun _ _ => True := by
  unfold addDomain
  split
  · trivial
  · rw [bind_eq, follows_bind]
    refine follows_quiet (o := .findRestaurant restaurantId) trivial (fun _ => rfl) fun restaurant => ?_
    cases restaurant with
    | none => trivial
    | some restaurant =>
      dsimp only
      cases restaurant.businessId with
      | none => trivial
      | some businessId =>
        dsimp only
        rw [bind_eq, follows_bind]
        refine follows_quiet (o := .findByHostname hostname) trivial (fun _ => rfl) fun existing => ?_
        split
        · trivial
        · rw [bind_eq, follows_bind]
          refine (agencyNamespaceFor_follows).mono ?_ fun _ _ _ => trivial
          rintro namespaceOf _ rfl
          split
          · trivial
          · rw [bind_eq, follows_bind]
            refine (createMapping_follows).mono ?_ fun _ _ _ => trivial
            rintro mapping _ rfl
            rw [bind_eq, follows_bind]
            refine (recordAuditEvent_follows).mono (fun _ _ _ => ?_) fun _ _ _ => trivial
            split
            · rw [bind_eq, follows_bind]
              exact (recordAuditEvent_follows).mono (fun _ _ _ => trivial) fun _ _ _ => trivial
            · trivial

theorem findOwnedMapping_follows {restaurantId mappingId : Id} :
    (findOwnedMapping restaurantId mappingId).Follows store holding pt (fun mapping pt' => mapping ∈ pt'.loaded) fun _ _ => True := by
  unfold findOwnedMapping
  rw [bind_eq, follows_bind]
  refine follows_call.mpr fun a w => ⟨_, ⟨trivial, rfl⟩, ?_⟩
  cases (store.perform (.findOwned mappingId restaurantId) a w).1 with
  | error err => trivial
  | ok mapping =>
    cases mapping with
    | none => trivial
    | some mapping => exact List.mem_cons_self

theorem recordCheck_follows {mapping : DomainMapping} {verified byAgency : Bool} (hLoaded : mapping ∈ pt.loaded)
    (hChecked : byAgency = false → verified = true → (mapping.hostname, mapping.verificationToken) ∈ pt.checked) :
    (recordCheck mapping verified byAgency).Follows store holding pt (fun _ _ => True) fun _ _ => True := by
  unfold recordCheck
  split
  · rename_i hSaves
    rw [Bool.and_eq_true] at hSaves
    rw [bind_eq, follows_bind]
    refine follows_quiet (o := .saveVerified mapping byAgency) ?_ (fun _ => rfl) fun _ => ?_
    · exact ⟨hLoaded, fun hDns => hChecked hDns hSaves.1⟩
    · rw [bind_eq, follows_bind]
      exact (recordAuditEvent_follows).mono (fun _ _ _ => trivial) fun _ _ _ => trivial
  · rw [bind_eq, follows_bind]
    exact follows_quiet (o := .saveChecked mapping) trivial (fun _ => rfl) fun _ => trivial

theorem checkDomainVerificationStatus_follows {restaurantId mappingId : Id} :
    (checkDomainVerificationStatus restaurantId mappingId).Follows store holding pt (fun _ _ => True) fun _ _ => True := by
  unfold checkDomainVerificationStatus
  rw [bind_eq, follows_bind]
  refine (findOwnedMapping_follows).mono ?_ fun _ _ _ => trivial
  intro mapping ptLoaded hLoaded
  rw [bind_eq, follows_bind]
  refine (agencyNamespaceFor_follows).mono ?_ fun _ _ _ => trivial
  rintro namespaceOf _ rfl
  cases namespaceOf with
  | foreign => trivial
  | own => exact recordCheck_follows hLoaded (by rintro ⟨⟩)
  | none =>
    dsimp only
    rw [bind_eq, follows_bind]
    refine follows_call.mpr fun a w => ⟨_, ⟨trivial, rfl⟩, ?_⟩
    cases (store.perform (.checkDomainVerification mapping.hostname mapping.verificationToken) a w).1 with
    | error err => trivial
    | ok verified =>
      dsimp only
      cases verified with
      | false => exact recordCheck_follows hLoaded (by rintro _ ⟨⟩)
      | true => exact recordCheck_follows hLoaded fun _ _ => List.mem_cons_self

theorem saveActive_follows {mapping : DomainMapping} (hLoaded : mapping ∈ pt.loaded) (hVerified : mapping.status ≠ .pendingVerification) :
    (saveActive mapping).Follows store holding pt (fun _ _ => True) fun _ _ => True := by
  unfold saveActive
  rw [bind_eq, follows_bind, follows_attempt]
  refine follows_call.mpr fun a w => ⟨pt, ⟨⟨hLoaded, hVerified, (by rintro ⟨⟩)⟩, rfl⟩, ?_⟩
  cases (store.perform (.saveStatus mapping .active) a w).1 with
  | ok _ => trivial
  | error err =>
    dsimp only
    split <;> trivial

theorem activateDomain_follows {restaurantId mappingId : Id} :
    (activateDomain restaurantId mappingId).Follows store holding pt (fun _ _ => True) fun _ _ => True := by
  unfold activateDomain
  rw [bind_eq, follows_bind]
  refine (findOwnedMapping_follows).mono ?_ fun _ _ _ => trivial
  intro mapping ptLoaded hLoaded
  dsimp only
  split
  · trivial
  · trivial
  · rename_i hVerified
    rw [bind_eq, follows_bind]
    refine (saveActive_follows hLoaded ?_).mono (fun _ _ _ => ?_) fun _ _ _ => trivial
    · rw [hVerified]
      rintro ⟨⟩
    · rw [bind_eq, follows_bind]
      exact (recordAuditEvent_follows).mono (fun _ _ _ => trivial) fun _ _ _ => trivial

theorem deactivateDomain_follows {restaurantId mappingId : Id} :
    (deactivateDomain restaurantId mappingId).Follows store holding pt (fun _ _ => True) fun _ _ => True := by
  unfold deactivateDomain
  rw [bind_eq, follows_bind]
  refine (findOwnedMapping_follows).mono ?_ fun _ _ _ => trivial
  intro mapping ptLoaded hLoaded
  dsimp only
  split
  · trivial
  · rename_i hActive
    rw [bind_eq, follows_bind]
    refine follows_quiet (o := .saveStatus mapping .verified) ?_ (fun _ => rfl) fun _ => ?_
    · rw [not_not] at hActive
      refine ⟨hLoaded, ?_, (by rintro ⟨⟩)⟩
      rw [hActive]
      rintro ⟨⟩
    · rw [bind_eq, follows_bind]
      exact (recordAuditEvent_follows).mono (fun _ _ _ => trivial) fun _ _ _ => trivial

theorem removeDomain_follows {restaurantId mappingId : Id} :
    (removeDomain restaurantId mappingId).Follows store holding pt (fun _ _ => True) fun _ _ => True := by
  unfold removeDomain
  rw [bind_eq, follows_bind]
  refine (findOwnedMapping_follows).mono ?_ fun _ _ _ => trivial
  intro mapping ptLoaded _
  rw [bind_eq, follows_bind]
  refine follows_quiet (o := .deleteOne mapping.id) trivial (fun _ => rfl) fun _ => ?_
  rw [bind_eq, follows_bind]
  exact (recordAuditEvent_follows).mono (fun _ _ _ => trivial) fun _ _ _ => trivial

theorem Request.program_follows {env : Env} (r : Request) :
    (r.program env).Follows store holding {} (fun _ _ => True) fun _ _ => True := by
  cases r with
  | agency request =>
    simp only [Request.program]
    rw [bind_eq, follows_bind]
    exact (ofAgency_follows _).mono (fun _ _ _ => trivial) fun _ _ _ => trivial
  | addDomain restaurantId hostname => exact addDomain_follows
  | checkDomainVerificationStatus restaurantId mappingId => exact checkDomainVerificationStatus_follows
  | activateDomain restaurantId mappingId => exact activateDomain_follows
  | deactivateDomain restaurantId mappingId => exact deactivateDomain_follows
  | removeDomain restaurantId mappingId => exact removeDomain_follows

end Walk

/-! ## What an operation does -/

namespace World

/-- A mapping that was loaded is stored as it was, but for its status; that does not
go back to pending. -/
structure Known (w : World) (loaded : DomainMapping) : Prop where
  given : loaded.id < w.nextId
  stored : ∀ m ∈ w.mappings, m.id = loaded.id → m.hostname = loaded.hostname ∧ m.verificationToken = loaded.verificationToken ∧
    (loaded.status ≠ .pendingVerification → m.status ≠ .pendingVerification)

structure Identified (w : World) : Prop where
  ids : (w.mappings.map (·.id)).Nodup
  given : ∀ m ∈ w.mappings, m.id < w.nextId

end World

section Steps

variable {w : World} {o : Op} {pt : Point} {hostname : Text} {m' loaded : DomainMapping}

theorem mem_updateMapping {id : Id} {status : MappingStatus} (h : m' ∈ (w.updateMapping id ({ · with status := status })).mappings) :
    m' ∈ w.mappings ∨ ∃ m ∈ w.mappings, m.id = id ∧ m' = { m with status := status } := by
  obtain ⟨m, hMem, rfl⟩ := Tables.mem_update.mp h
  by_cases hId : m.id = id
  · rw [if_pos (decide_eq_true hId)]
    exact .inr ⟨m, hMem, hId, rfl⟩
  · rw [if_neg (by simp [hId])]
    exact .inl hMem

theorem mem_perform (h : m' ∈ (o.perform w).2.mappings) : m' ∈ w.mappings ∨
    (∃ m ∈ w.mappings, ∃ loaded status, m.id = loaded.id ∧ m' = { m with status := status } ∧
      ((∃ byAgency, o = .saveVerified loaded byAgency ∧ status = .verified) ∨ o = .saveStatus loaded status)) ∨
    ∃ hostname businessId locationId byAgency, o = .create hostname businessId locationId byAgency ∧
      m' = w.newMapping hostname businessId locationId byAgency := by
  cases o with
  | create hostname businessId locationId byAgency =>
    simp only [Op.perform] at h
    split at h
    · exact .inl h
    · rcases List.mem_append.mp h with hOld | hNew
      · exact .inl hOld
      · exact .inr (.inr ⟨_, _, _, _, rfl, List.mem_singleton.mp hNew⟩)
  | saveVerified loaded byAgency =>
    rcases mem_updateMapping h with hOld | ⟨m, hMem, hId, rfl⟩
    · exact .inl hOld
    · exact .inr (.inl ⟨m, hMem, loaded, _, hId, rfl, .inl ⟨byAgency, rfl, rfl⟩⟩)
  | saveStatus loaded status =>
    simp only [Op.perform] at h
    split at h
    · exact .inl h
    · rcases mem_updateMapping h with hOld | ⟨m, hMem, hId, rfl⟩
      · exact .inl hOld
      · exact .inr (.inl ⟨m, hMem, loaded, _, hId, rfl, .inr rfl⟩)
  | deleteOne id => exact .inl (List.mem_of_mem_filter h)
  | _ => exact .inl h

theorem nextId_perform : w.nextId ≤ (o.perform w).2.nextId := by
  cases o with
  | create hostname businessId locationId byAgency =>
    simp only [Op.perform]
    split
    · exact le_refl _
    · exact Nat.le_succ _
  | saveStatus loaded status =>
    simp only [Op.perform]
    split <;> exact le_refl _
  | _ => exact le_refl _

theorem ids_updateMapping {id : Id} {status : MappingStatus} :
    (w.updateMapping id ({ · with status := status })).mappings.map (·.id) = w.mappings.map (·.id) :=
  Tables.map_update_eq DomainMapping.id fun _ => rfl

theorem World.Identified.perform (h : w.Identified) : (o.perform w).2.Identified := by
  have hSaved (id : Id) (status : MappingStatus) : (w.updateMapping id ({ · with status := status })).Identified := by
    refine ⟨?_, fun m hMem => ?_⟩
    · rw [ids_updateMapping]
      exact h.ids
    · obtain ⟨m, hOld, rfl⟩ := Tables.mem_update.mp hMem
      split <;> exact h.given m hOld
  cases o with
  | agency op => exact ⟨h.ids, h.given⟩
  | create hostname businessId locationId byAgency =>
    simp only [Op.perform]
    split
    · exact h
    · refine ⟨?_, fun m hMem => ?_⟩
      · rw [List.map_append, List.nodup_append]
        refine ⟨h.ids, List.nodup_singleton _, fun id hOld id' hNew => ?_⟩
        obtain ⟨m, hMem, rfl⟩ := List.mem_map.mp hOld
        rw [List.map_singleton, List.mem_singleton] at hNew
        rw [hNew]
        exact (h.given m hMem).ne
      · rcases List.mem_append.mp hMem with hOld | hNew
        · exact (h.given m hOld).trans (Nat.lt_succ_self _)
        · rw [List.mem_singleton.mp hNew]
          exact Nat.lt_succ_self _
  | saveVerified loaded byAgency => exact hSaved loaded.id .verified
  | saveStatus loaded status =>
    simp only [Op.perform]
    split
    · exact h
    · exact hSaved loaded.id status
  | deleteOne id => exact ⟨h.ids.sublist (List.filter_sublist.map _), fun m hMem => h.given m (List.mem_of_mem_filter hMem)⟩
  | _ => exact h

theorem status_of_save (hAllows : pt.Allows o) {status : MappingStatus}
    (h : (∃ byAgency, o = .saveVerified loaded byAgency ∧ status = .verified) ∨ o = .saveStatus loaded status) :
    loaded ∈ pt.loaded ∧ status ≠ .pendingVerification := by
  rcases h with ⟨byAgency, rfl, rfl⟩ | rfl
  · exact ⟨hAllows.1, (by rintro ⟨⟩)⟩
  · exact ⟨hAllows.1, hAllows.2.2⟩

theorem World.Known.perform (h : w.Known loaded) (hAllows : pt.Allows o) : (o.perform w).2.Known loaded := by
  refine ⟨h.given.trans_le nextId_perform, fun m' hMem hId => ?_⟩
  rcases mem_perform hMem with hOld | ⟨m, hOld, _, status, -, rfl, hSave⟩ | ⟨_, _, _, _, -, rfl⟩
  · exact h.stored m' hOld hId
  · obtain ⟨hHostname, hToken, -⟩ := h.stored m hOld hId
    exact ⟨hHostname, hToken, fun _ => (status_of_save hAllows hSave).2⟩
  · exact absurd hId.symm h.given.ne

theorem World.Identified.known (h : w.Identified) (hMem : loaded ∈ w.mappings) : w.Known loaded := by
  refine ⟨h.given loaded hMem, fun m hm hId => ?_⟩
  obtain rfl := Tables.eq_of_id h.ids hm hMem hId
  exact ⟨rfl, rfl, id⟩

/-! ## What happens to the agencies -/

theorem contains_withVerified {agency : Agency} {movesSender : Bool} (h : contains hostname agency = true) :
    contains hostname (agency.withVerified movesSender) = true := by
  obtain ⟨domain, hIn, -, hDomain⟩ := contains_iff.mp h
  exact contains_iff.mpr ⟨domain, hIn, rfl, hDomain⟩

theorem covered_updateAgency {id : Id} {f : Agency → Agency} {agencies : Agencies.World} {agency : Agency}
    (hMem : agency ∈ agencies.agencies) (h : contains hostname (if agency.id = id then f agency else agency) = true) :
    (agencies.updateAgency id f).agencies.any (contains hostname) = true := by
  refine List.any_eq_true.mpr ⟨_, Tables.mem_update.mpr ⟨agency, hMem, rfl⟩, ?_⟩
  simpa using h

theorem covered_perform (h : w.covered hostname = true)
    (hUpdate : ∀ id domain senderReset, o = .agency (.update id domain senderReset) →
      w.agencies.agencies.any (fun other => other.id ≠ id && contains hostname other) = true) :
    (o.perform w).2.covered hostname = true := by
  obtain ⟨agency, hMem, hContains⟩ := List.any_eq_true.mp h
  cases o with
  | agency op =>
    cases op with
    | update id domain senderReset =>
      obtain ⟨other, hOther, hBoth⟩ := List.any_eq_true.mp (hUpdate id domain senderReset rfl)
      rw [Bool.and_eq_true, decide_eq_true_eq] at hBoth
      refine covered_updateAgency hOther ?_
      rw [if_neg hBoth.1]
      exact hBoth.2
    | saveVerified loaded =>
      refine covered_updateAgency hMem ?_
      split
      · exact contains_withVerified hContains
      · exact hContains
    | saveSender loaded sender =>
      refine covered_updateAgency hMem ?_
      split <;> exact hContains
    | _ => exact h
  | create hostname businessId locationId byAgency =>
    simp only [Op.perform]
    split <;> exact h
  | saveStatus loaded status =>
    simp only [Op.perform]
    split <;> exact h
  | _ => exact h

theorem UniqueVerified.updateAgency {agencies : Agencies.World} {id : Id} {f : Agency → Agency} (h : UniqueVerified agencies.agencies)
    (hIds : (agencies.agencies.map (·.id)).Nodup)
    (hAlone : ∀ stored, agencies.agency? id = some stored → ∀ domain, (f stored).holds domain →
      ∀ other ∈ agencies.agencies, other.id ≠ id → ¬ other.holds domain) :
    UniqueVerified (agencies.updateAgency id f).agencies := by
  cases hStored : agencies.agency? id with
  | none =>
    rw [Agencies.updateAgency_none hStored]
    exact h
  | some stored =>
    obtain ⟨-, hStoredId⟩ := Agencies.agency?_spec hStored
    intro agency hMem other hOther domain hHolds hOtherHolds
    rcases Agencies.mem_updateAgency hIds hStored hMem with ⟨hOld, hNe⟩ | rfl
    · rcases Agencies.mem_updateAgency hIds hStored hOther with ⟨hOtherOld, -⟩ | rfl
      · exact h agency hOld other hOtherOld domain hHolds hOtherHolds
      · exact absurd hHolds (hAlone stored hStored domain hOtherHolds agency hOld hNe)
    · rcases Agencies.mem_updateAgency hIds hStored hOther with ⟨hOtherOld, hNe⟩ | rfl
      · exact absurd hOtherHolds (hAlone stored hStored domain hHolds other hOtherOld hNe)
      · rfl

structure AgenciesSound (agencies : List Agency) : Prop where
  ids : (agencies.map (·.id)).Nodup
  unique : UniqueVerified agencies

theorem AgenciesSound.perform (h : AgenciesSound w.agencies.agencies)
    (hSave : ∀ loaded, o = .agency (.saveVerified loaded) → (w.agencies.agency? loaded.id).all (fun stored =>
      stored.domain.all fun domain => !w.agencies.verifiedElsewhere stored.id domain) = true) :
    AgenciesSound (o.perform w).2.agencies.agencies := by
  cases o with
  | agency op =>
    cases op with
    | update id domain senderReset =>
      refine ⟨Agencies.nodup_updateAgency (f := Agency.withDomain domain w.agencies.nextToken senderReset) h.ids fun _ => rfl,
        h.unique.updateAgency (f := Agency.withDomain domain w.agencies.nextToken senderReset) h.ids ?_⟩
      intro stored _ held hHolds
      cases hHolds.1
    | saveVerified loaded =>
      refine ⟨Agencies.nodup_updateAgency (f := Agency.withVerified loaded.movesSender) h.ids fun _ => rfl,
        h.unique.updateAgency (f := Agency.withVerified loaded.movesSender) h.ids ?_⟩
      intro stored hStored domain hHolds other hMem hNe hOtherHolds
      have hAlone := hSave loaded rfl
      have hDomain : stored.domain = some domain := hHolds.2
      rw [hStored, Option.all_some, hDomain, Option.all_some, Bool.not_eq_true', (Agencies.agency?_spec hStored).2] at hAlone
      have hNone := List.any_eq_false.mp hAlone other hMem
      simp [hNe, hOtherHolds.2, hOtherHolds.1] at hNone
    | saveSender loaded sender =>
      refine ⟨Agencies.nodup_updateAgency (f := ({ · with emailSender := some sender })) h.ids fun _ => rfl,
        h.unique.updateAgency (f := ({ · with emailSender := some sender })) h.ids ?_⟩
      intro stored hStored domain hHolds other hMem hNe hOtherHolds
      obtain ⟨hMemStored, hId⟩ := Agencies.agency?_spec hStored
      exact hNe ((h.unique stored hMemStored other hMem domain hHolds hOtherHolds).trans hId)
    | _ => exact h
  | create hostname businessId locationId byAgency =>
    simp only [Op.perform]
    split <;> exact h
  | saveStatus loaded status =>
    simp only [Op.perform]
    split <;> exact h
  | _ => exact h

end Steps

/-! ## Runs -/

section Run

variable {c c' : State} {pts : List Point} {t : Nat} {a : Except Err Unit} {o : Op} {th : Thread Op Op.Resp Err World Response}
  {k : Except Err o.Resp → Promise Response} {pt pt' : Point} {history : List (Entry Op Op.Resp Err)}

/-- What holds of the mappings and of what the requests know. -/
structure Sound (c : State) (pts : List Point) : Prop where
  agencies : AgenciesSound c.state.agencies.agencies
  identified : c.state.Identified
  known : ∀ pt ∈ pts, ∀ loaded ∈ pt.loaded, c.state.Known loaded
  checked : ∀ pt ∈ pts, ∀ pair ∈ pt.checked, confirmed c.history pair.1 pair.2 = true
  justified : ∀ m ∈ c.state.mappings, m.status ≠ .pendingVerification →
    confirmed c.history m.hostname m.verificationToken = true ∨ c.state.covered m.hostname = true

theorem confirmed_cons {hostname : Text} {token : Token} (h : confirmed history hostname token = true) (e : Entry Op Op.Resp Err) :
    confirmed (e :: history) hostname token = true := by
  rw [confirmed, List.any_cons, Bool.or_eq_true]
  exact .inr h

theorem checked_after {r : Except Err o.Resp} {pair : Text × Token} (h : pair ∈ (pt.after o r).checked) :
    pair ∈ pt.checked ∨ confirms pair.1 pair.2 ⟨t, o, r⟩ = true := by
  unfold Point.after at h
  split at h
  · exact .inl h
  · rcases List.mem_cons.mp h with rfl | hOld
    · exact .inr (by simp [confirms])
    · exact .inl hOld
  · exact .inl h

theorem loaded_after {w : World} {loaded : DomainMapping} (h : loaded ∈ (pt.after o (store.perform o a w).1).loaded) :
    loaded ∈ pt.loaded ∨ loaded ∈ (store.perform o a w).2.mappings := by
  cases a with
  | error err =>
    have hSame : pt.after o (store.perform o (.error err) w).1 = pt := by
      cases o <;> rfl
    rw [hSame] at h
    exact .inl h
  | ok _ =>
    cases o with
    | findOwned id restaurantId =>
      cases hFound : w.mappings.find? fun m => m.id = id && m.locationId = restaurantId with
      | none =>
        simp only [Op.perform, hFound, Point.after] at h
        exact .inl h
      | some mapping =>
        simp only [Op.perform, hFound, Point.after] at h
        rcases List.mem_cons.mp h with rfl | hOld
        · exact .inr (List.mem_of_find?_eq_some hFound)
        · exact .inl hOld
    | checkDomainVerification hostname expectedToken =>
      have hSame : (pt.after (.checkDomainVerification hostname expectedToken)
          (store.perform (.checkDomainVerification hostname expectedToken) (.ok ()) w).1).loaded = pt.loaded := by
        simp only [Op.perform]
        cases w.agencies.records.contains (hostname, expectedToken) <;> rfl
      exact .inl (hSame ▸ h)
    | _ => exact .inl h

theorem Sound.justified_perform (h : Sound c pts) (hKeeps : keepsNamespaces c (.run t a) = true) (hWaiting : c.waiting? t = some o)
    (hPoint : pt ∈ pts) (hAllows : pt.Allows o) {m' : DomainMapping} (hMem : m' ∈ (o.perform c.state).2.mappings)
    (hStatus : m'.status ≠ .pendingVerification) :
    confirmed c.history m'.hostname m'.verificationToken = true ∨ (o.perform c.state).2.covered m'.hostname = true := by
  simp only [keepsNamespaces, hWaiting] at hKeeps
  rcases mem_perform hMem with hOld | ⟨m, hOld, loaded, status, hId, rfl, hSave⟩ | ⟨hostname, businessId, locationId, byAgency, rfl, rfl⟩
  · rcases h.justified m' hOld hStatus with hConfirmed | hCovered
    · exact .inl hConfirmed
    · by_cases hUpdate : ∃ id domain senderReset, o = .agency (.update id domain senderReset)
      · obtain ⟨id, domain, senderReset, rfl⟩ := hUpdate
        have hMapping := List.all_eq_true.mp hKeeps m' hOld
        rw [Bool.or_eq_true, Bool.or_eq_true, decide_eq_true_eq, or_iff_right hStatus] at hMapping
        refine hMapping.imp (fun hConfirmed => hConfirmed) fun hOther => covered_perform hCovered ?_
        intro id' domain' senderReset' hSame
        cases hSame
        exact hOther
      · exact .inr (covered_perform hCovered fun id domain senderReset hSame => absurd ⟨id, domain, senderReset, hSame⟩ hUpdate)
  · obtain ⟨hLoaded, -⟩ := status_of_save hAllows hSave
    obtain ⟨hHostname, hToken, hStays⟩ := (h.known pt hPoint loaded hLoaded).stored m hOld hId
    rcases hSave with ⟨byAgency, rfl, rfl⟩ | rfl
    · cases byAgency with
      | false =>
        refine .inl ?_
        have hPair := h.checked pt hPoint _ (hAllows.2 rfl)
        dsimp only at hPair ⊢
        rw [hHostname, hToken]
        exact hPair
      | true =>
        refine .inr (covered_perform ?_ nofun)
        dsimp only
        rw [hHostname]
        exact hKeeps
    · refine (h.justified m hOld (hStays hAllows.2.1)).imp (fun hConfirmed => hConfirmed) fun hCovered => ?_
      exact covered_perform hCovered nofun
  · cases byAgency with
    | false => exact absurd rfl hStatus
    | true => exact .inr (covered_perform hKeeps nofun)

theorem Sound.ran (h : Sound c pts) (hKeeps : keepsNamespaces c (.run t a) = true) (hRan : store.Ran c t a o th k c')
    (hPoint : pts[t]? = some pt) (hMove : holding.Move o a c.state pt pt') : Sound c' (pts.set t pt') := by
  obtain ⟨hAllows, rfl⟩ := hMove
  have hMemPoint := List.mem_of_getElem? hPoint
  have hChecked : ∀ ptU ∈ pts.set t (pt.after o (store.perform o a c.state).1), ∀ pair ∈ ptU.checked,
      confirmed c'.history pair.1 pair.2 = true := by
    intro ptU hMem pair hPair
    rw [hRan.history]
    rcases List.mem_or_eq_of_mem_set hMem with hOld | rfl
    · exact confirmed_cons (h.checked ptU hOld pair hPair) _
    · rcases checked_after (t := t) hPair with hKnown | hConfirms
      · exact confirmed_cons (h.checked pt hMemPoint pair hKnown) _
      · rw [confirmed, List.any_cons, Bool.or_eq_true]
        exact .inl hConfirms
  have hState : AgenciesSound c'.state.agencies.agencies ∧ c'.state.Identified ∧
      (∀ loaded, c.state.Known loaded → c'.state.Known loaded) ∧
      ∀ m ∈ c'.state.mappings, m.status ≠ .pendingVerification →
        confirmed c.history m.hostname m.verificationToken = true ∨ c'.state.covered m.hostname = true := by
    rw [hRan.state]
    cases a with
    | error err => exact ⟨h.agencies, h.identified, fun _ hKnown => hKnown, h.justified⟩
    | ok _ =>
      refine ⟨h.agencies.perform ?_, h.identified.perform, fun _ hKnown => hKnown.perform hAllows,
        fun m hMem hStatus => h.justified_perform hKeeps hRan.waiting? hMemPoint hAllows hMem hStatus⟩
      rintro loaded rfl
      simpa only [keepsNamespaces, hRan.waiting?] using hKeeps
  obtain ⟨hAgencies, hIdentified, hKnown, hJustified⟩ := hState
  refine ⟨hAgencies, hIdentified, fun ptU hMem loaded hLoaded => ?_, hChecked, fun m hMem hStatus => ?_⟩
  · rcases List.mem_or_eq_of_mem_set hMem with hOld | rfl
    · exact hKnown loaded (h.known ptU hOld loaded hLoaded)
    · rcases loaded_after hLoaded with hBefore | hStored
      · exact hKnown loaded (h.known pt hMemPoint loaded hBefore)
      · rw [← hRan.state] at hStored
        exact hIdentified.known hStored
  · rw [hRan.history]
    exact (hJustified m hMem hStatus).imp (fun hConfirmed => confirmed_cons hConfirmed _) id

theorem Event.advance_same {e : Event} {w : World} : (e.advance w).agencies.agencies = w.agencies.agencies ∧
    (e.advance w).mappings = w.mappings ∧ (e.advance w).nextId = w.nextId := by
  cases e with
  | dns event => cases event <;> exact ⟨rfl, rfl, rfl⟩
  | restaurant id businessId active => exact ⟨rfl, rfl, rfl⟩
  | business id agencyId customDomains => exact ⟨rfl, rfl, rfl⟩

theorem Sound.advance {e : Event} (h : Sound c pts) : Sound { c with state := e.advance c.state } pts := by
  obtain ⟨hAgencies, hMappings, hNext⟩ := @Event.advance_same e c.state
  refine ⟨?_, ⟨?_, ?_⟩, fun pt hPt loaded hLoaded => ?_, h.checked, fun m hMem hStatus => ?_⟩
  · rw [hAgencies]
    exact h.agencies
  · rw [hMappings]
    exact h.identified.ids
  · rw [hMappings, hNext]
    exact h.identified.given
  · obtain ⟨hGiven, hStored⟩ := h.known pt hPt loaded hLoaded
    refine ⟨?_, ?_⟩
    · rw [hNext]
      exact hGiven
    · rw [hMappings]
      exact hStored
  · rw [hMappings] at hMem
    rw [World.covered, hAgencies]
    exact h.justified m hMem hStatus

end Run

/-! ## Served hostnames -/

def World.agencyOf (w : World) (restaurant : Restaurant) : Option Id := (restaurant.businessId.bind w.business?).bind (·.agencyId)

/-- The hostname was confirmed with the token of its mapping, or lies in the domain
of the agency that the location is a client of; and it is in no other agency's. -/
structure Held (c : State) (hostname : Text) (restaurant : Restaurant) : Prop where
  justified : (∃ mapping, c.state.mapping? hostname = some mapping ∧ confirmed c.history hostname mapping.verificationToken = true) ∨
    ∃ agency, c.state.MostSpecific hostname agency ∧ c.state.agencyOf restaurant = some agency.id
  notForeign : ∀ agency, c.state.MostSpecific hostname agency → c.state.agencyOf restaurant = some agency.id

theorem live_spec {env : Env} {w : World} {raw hostname : Text} {restaurantId : Id}
    (h : resolveCustomDomain env w raw = .live hostname restaurantId) :
    ∃ mapping restaurant, w.mapping? hostname = some mapping ∧ mapping.status = .active ∧
      w.restaurant? mapping.locationId = some restaurant ∧ restaurant.id = restaurantId ∧
      ∀ owner, w.findVerifiedAgencyForHostname hostname = some owner → w.agencyOf restaurant = some owner.id := by
  unfold resolveCustomDomain at h
  split at h
  · cases h
  · rename_i canonical _
    split at h
    · cases h
    · split at h
      · cases h
      · rename_i mapping hMapping
        split at h
        · cases h
        · rename_i hActive
          split at h
          · cases h
          · rename_i restaurant hRestaurant
            have hStored := (Option.filter_eq_some_iff.mp hRestaurant).1
            split at h
            · cases h
            · split at h
              · rename_i hNone
                cases h
                refine ⟨mapping, restaurant, hMapping, not_not.mp hActive, hStored, rfl, fun owner hOwner => ?_⟩
                rw [hNone] at hOwner
                cases hOwner
              · rename_i namespaceOwner hSome
                split at h
                · rename_i hClient
                  cases h
                  refine ⟨mapping, restaurant, hMapping, not_not.mp hActive, hStored, rfl, fun owner hOwner => ?_⟩
                  rw [hSome] at hOwner
                  cases hOwner
                  exact hClient
                · cases h

theorem Sound.held {c : State} {pts : List Point} (h : Sound c pts) {env : Env} {raw hostname : Text} {restaurantId : Id}
    (hLive : resolveCustomDomain env c.state raw = .live hostname restaurantId) :
    ∃ restaurant ∈ c.state.restaurants, restaurant.id = restaurantId ∧ Held c hostname restaurant := by
  obtain ⟨mapping, restaurant, hMapping, hActive, hRestaurant, hId, hClient⟩ := live_spec hLive
  refine ⟨restaurant, List.mem_of_find?_eq_some hRestaurant, hId, ?_, fun agency hAgency => ?_⟩
  · cases hOwner : c.state.findVerifiedAgencyForHostname hostname with
    | some owner => exact .inr ⟨owner, owner_mostSpecific hOwner, hClient owner hOwner⟩
    | none =>
      refine .inl ⟨mapping, hMapping, ?_⟩
      have hHostname : mapping.hostname = hostname := of_decide_eq_true (@List.find?_some _ (fun m : DomainMapping => decide (m.hostname = hostname)) _ _ hMapping)
      have hStatus : mapping.status ≠ .pendingVerification := by
        rw [hActive]
        rintro ⟨⟩
      have hJustified := h.justified mapping (List.mem_of_find?_eq_some hMapping) hStatus
      rw [hHostname, owner_eq_none hOwner] at hJustified
      exact hJustified.resolve_right Bool.false_ne_true
  · cases hOwner : c.state.findVerifiedAgencyForHostname hostname with
    | some owner =>
      rw [hClient owner hOwner, mostSpecific_unique h.agencies.unique hAgency (owner_mostSpecific hOwner)]
    | none =>
      have hCovered := List.any_eq_false.mp (owner_eq_none hOwner) agency hAgency.mem
      exact absurd hAgency.contains hCovered

/-- No hostname is mapped yet, and no two agencies hold a domain. -/
structure World.IsNew (w : World) : Prop where
  agencies : AgenciesSound w.agencies.agencies
  unmapped : w.mappings = []

/-- While no mapping loses the agency's domain that it rests on, a hostname is served
only for a location that holds it. -/
theorem served_hostname_held {env : Env} {w₀ : World} {requests : List Request} {c : State} (hNew : w₀.IsNew)
    (h : store.Reach (fun c l => keepsNamespaces c l) (State.start env w₀ requests) c) {raw hostname : Text} {restaurantId : Id}
    (hLive : resolveCustomDomain env c.state raw = .live hostname restaurantId) :
    ∃ restaurant ∈ c.state.restaurants, restaurant.id = restaurantId ∧ Held c hostname restaurant := by
  have hTracks : Tracks store holding (requests.map fun _ => ({} : Point)) (State.start env w₀ requests) (requests.map fun _ => {}) :=
    Tracks.initial fun r _ => r.program_follows
  have hUnmapped : (State.start env w₀ requests).state.mappings = [] := hNew.unmapped
  have hStart : Sound (State.start env w₀ requests) (requests.map fun _ => {}) := by
    refine ⟨hNew.agencies, ⟨?_, ?_⟩, ?_, ?_, ?_⟩
    · rw [hUnmapped]
      exact List.nodup_nil
    · rw [hUnmapped]
      exact fun _ h => absurd h List.not_mem_nil
    · intro pt hMem loaded hLoaded
      obtain ⟨r, -, rfl⟩ := List.mem_map.mp hMem
      cases hLoaded
    · intro pt hMem pair hPair
      obtain ⟨r, -, rfl⟩ := List.mem_map.mp hMem
      cases hPair
    · rw [hUnmapped]
      exact fun _ h => absurd h List.not_mem_nil
  obtain ⟨pts, -, hSound⟩ := Tracks.invariant (I := Sound) hTracks hStart
    (fun _ hSound hKeeps hRan hPoint hMove _ => hSound.ran hKeeps hRan hPoint hMove)
    (fun _ hSound _ _ => ⟨hSound.agencies, hSound.identified, hSound.known, hSound.checked, hSound.justified⟩)
    (fun _ hSound _ => hSound.advance) h
  exact hSound.held hLive

def studio : World where
  agencies := { agencies := [{ id := 1 }] }
  restaurants := [{ id := 7, businessId := some 5 }]
  businesses := [{ id := 5, agencyId := some 1 }]

theorem studio_isNew : studio.IsNew := by
  refine ⟨⟨by decide, fun agency hMem other hOther _ _ _ => ?_⟩, rfl⟩
  rw [List.mem_singleton.mp hMem, List.mem_singleton.mp hOther]

def studioDomain : Text := "studio.com".toList

def shopHostname : Text := "shop.studio.com".toList

def clientRequests : List Request :=
  [.agency (.setAgencyDomain 1 studioDomain), .agency (.verifyAgencyDomain 1), .addDomain 7 shopHostname, .activateDomain 7 0,
    .agency (.setAgencyDomain 1 "other.com".toList)]

def clientRun : List (Label (Except Err Unit) Event) :=
  List.replicate 4 (.run 0 (.ok ())) ++ [.event (.dns (.publish studioDomain 0))] ++ List.replicate 5 (.run 1 (.ok ())) ++
    List.replicate 7 (.run 2 (.ok ())) ++ List.replicate 3 (.run 3 (.ok ()))

theorem shop_served_held : ∃ c : State, resolveCustomDomain {} c.state shopHostname = .live shopHostname 7 ∧
    ∃ restaurant ∈ c.state.restaurants, restaurant.id = 7 ∧ Held c shopHostname restaurant := by
  obtain ⟨c, hReach, hLive⟩ := store.exists_of_exec (fun c l => keepsNamespaces c l) (State.start {} studio clientRequests) clientRun
    (fun c : State => resolveCustomDomain {} c.state shopHostname = .live shopHostname 7) (by decide +kernel)
  exact ⟨c, of_decide_eq_true hLive, served_hostname_held studio_isNew hReach (of_decide_eq_true hLive)⟩

/-- The hostname is served on after its agency's domain is gone. -/
theorem shop_served_unheld : ¬ ∀ (env : Env) (w₀ : World) (requests : List Request) (c : State), w₀.IsNew →
    store.Reach (fun _ _ => True) (State.start env w₀ requests) c → ∀ (raw hostname : Text) (restaurantId : Id),
      resolveCustomDomain env c.state raw = .live hostname restaurantId →
        ∃ restaurant ∈ c.state.restaurants, restaurant.id = restaurantId ∧ Held c hostname restaurant := by
  intro hClaim
  obtain ⟨c, hReach, hEnd⟩ := store.exists_of_exec (fun _ _ => true) (State.start {} studio clientRequests)
    (List.flatten [clientRun, List.replicate 4 (.run 4 (.ok ()))])
    (fun c : State => resolveCustomDomain {} c.state shopHostname = .live shopHostname 7 && !c.state.covered shopHostname &&
      c.state.mappings.all fun m => !confirmed c.history shopHostname m.verificationToken) (by decide +kernel)
  rw [Bool.and_eq_true, Bool.and_eq_true, decide_eq_true_eq, Bool.not_eq_true'] at hEnd
  obtain ⟨⟨hLive, hUncovered⟩, hUnconfirmed⟩ := hEnd
  obtain ⟨restaurant, -, -, hHeld⟩ := hClaim {} studio clientRequests c studio_isNew (hReach.mono fun _ _ _ => trivial) shopHostname
    shopHostname 7 hLive
  rcases hHeld.justified with ⟨mapping, hMapping, hConfirmed⟩ | ⟨agency, hAgency, -⟩
  · have hNone := List.all_eq_true.mp hUnconfirmed mapping (List.mem_of_find?_eq_some hMapping)
    rw [hConfirmed] at hNone
    cases hNone
  · exact List.any_eq_false.mp hUncovered agency hAgency.mem hAgency.contains

end RestaurantOs.Domains
