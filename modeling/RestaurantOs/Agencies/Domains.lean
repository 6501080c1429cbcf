import RestaurantOs.Agencies.Requests

/-!
# Verified domains

A domain is verified for one agency, by a check of the token that is stored with
it, and a sender is past waiting for its domain only while that is verified. A
request keeps this as long as what it read still holds when it writes.
-/

namespace RestaurantOs.Agencies

open Async Prog

def confirms (hostname : Text) (token : Token) : Entry Op Op.Resp Err → Prop
  | ⟨_, .checkDomainVerification host expectedToken, .ok verified⟩ => host = hostname ∧ expectedToken = token ∧ verified = true
  | _ => False

def Confirmed (history : List (Entry Op Op.Resp Err)) (hostname : Text) (token : Token) : Prop :=
  ∃ e ∈ history, confirms hostname token e

def Agency.holds (agency : Agency) (domain : Text) : Prop := agency.domainStatus = some .verified ∧ agency.domain = some domain

structure Proven (agencies : List Agency) (history : List (Entry Op Op.Resp Err)) : Prop where
  confirmed : ∀ agency ∈ agencies, agency.domainStatus = some .verified → ∃ domain token,
    agency.domain = some domain ∧ agency.domainVerificationToken = some token ∧ Confirmed history domain token
  unique : ∀ agency ∈ agencies, ∀ other ∈ agencies, ∀ domain, agency.holds domain → other.holds domain → other.id = agency.id
  sender : ∀ agency ∈ agencies, ∀ sender, agency.emailSender = some sender → sender.status ≠ .pendingDomain →
    ∃ domain, agency.holds domain ∧ addressDomain sender.address = some domain

structure World.IsNew (w : World) : Prop where
  ids : (w.agencies.map (·.id)).Nodup
  unverified : ∀ agency ∈ w.agencies, agency.domainStatus ≠ some .verified
  waiting : ∀ agency ∈ w.agencies, agency.emailSender.all (·.status = .pendingDomain) = true

/-- What the writes rely on still holds: the domain and the token are those that
were checked, no other agency holds the domain by then, and no sender gets past
waiting, or stays so, on a domain that is not verified. -/
def asRead (c : State) : Label (Except Err Unit) Event → Bool
  | .run t _ =>
    match c.waiting? t with
    | some (.saveVerified loaded) =>
      (c.state.agency? loaded.id).all fun stored =>
        stored.domain = loaded.domain && stored.domainVerificationToken = loaded.domainVerificationToken &&
          stored.domain.all (fun domain => !c.state.verifiedElsewhere stored.id domain) &&
            (!loaded.movesSender || stored.emailSender.all (addressDomain ·.address = stored.domain))
    | some (.saveSender loaded sender) =>
      sender.status = .pendingDomain ||
        (c.state.agency? loaded.id).all fun stored => stored.domain = loaded.domain && stored.domainStatus = some .verified
    | some (.update id _ senderReset) =>
      senderReset || (c.state.agency? id).all (·.emailSender.all (·.status = .pendingDomain))
    | _ => true
  | _ => true

/-! ## What a request has checked -/

abbrev Point := List (Text × Token)

namespace Point

def after (pt : Point) (o : Op) (r : Except Err o.Resp) : Point :=
  match o, r with
  | .checkDomainVerification hostname expectedToken, .ok true => (hostname, expectedToken) :: pt
  | _, _ => pt

/-- A save of a verified domain is of one that was checked, and a sender that does
not wait is on the domain that was loaded. -/
def Allows (pt : Point) : Op → Prop
  | .saveVerified loaded => ∃ domain token,
      loaded.domain = some domain ∧ loaded.domainVerificationToken = some token ∧ (domain, token) ∈ pt
  | .saveSender loaded sender => ∃ domain, loaded.domain = some domain ∧ addressDomain sender.address = some domain
  | _ => True

end Point

@[reducible] def checking : Protocol Op World (Except Err Unit) where
  Point := Point
  Move o a w pt pt' := pt.Allows o ∧ pt' = pt.after o (store.perform o a w).1
  Rest _ := True

section Walk

variable {pt : Point}

theorem follows_quiet {o : Op} (hAllows : pt.Allows o) (hAfter : ∀ r, pt.after o r = pt) {Q : o.Resp → Point → Prop}
    (hQ : ∀ v, Q v pt) : (Prog.call o : Promise o.Resp).Follows store checking pt Q fun _ _ => True := by
  refine follows_call.mpr fun a w => ⟨pt, ⟨hAllows, (hAfter _).symm⟩, ?_⟩
  cases (store.perform o a w).1 with
  | ok v => exact hQ v
  | error err => trivial

theorem recordAgencyAuditEvent_follows {agencyId : Id} {action : String} :
    (recordAgencyAuditEvent agencyId action).Follows store checking pt (fun _ _ => True) fun _ _ => True := by
  unfold recordAgencyAuditEvent
  rw [bind_eq, follows_bind, follows_attempt]
  refine follows_call.mpr fun a w => ⟨pt, ⟨trivial, rfl⟩, ?_⟩
  cases (store.perform (.recordAuditEvent agencyId action) a w).1 <;> trivial

theorem findAgencyOrThrow_follows {agencyId : Id} :
    (findAgencyOrThrow agencyId).Follows store checking pt (fun _ pt' => pt' = pt) fun _ _ => True := by
  unfold findAgencyOrThrow
  rw [bind_eq, follows_bind]
  refine follows_quiet (o := .findById agencyId) trivial (fun _ => rfl) fun agency => ?_
  cases agency <;> trivial

theorem refuseVerifiedElsewhere_follows {agencyId : Id} {domain : Text} :
    (refuseVerifiedElsewhere agencyId domain).Follows store checking pt (fun _ pt' => pt' = pt) fun _ _ => True := by
  unfold refuseVerifiedElsewhere
  rw [bind_eq, follows_bind]
  refine follows_quiet (o := .existsVerified agencyId domain) trivial (fun _ => rfl) fun taken => ?_
  split <;> trivial

theorem setAgencyDomain_follows {env : Env} {agencyId : Id} {domain : Text} :
    (setAgencyDomain env agencyId domain).Follows store checking pt (fun _ _ => True) fun _ _ => True := by
  unfold setAgencyDomain
  split
  · trivial
  · rw [bind_eq, follows_bind]
    refine (refuseVerifiedElsewhere_follows).mono ?_ fun _ _ _ => trivial
    rintro _ _ rfl
    rw [bind_eq, follows_bind]
    refine (findAgencyOrThrow_follows).mono ?_ fun _ _ _ => trivial
    rintro existing _ rfl
    dsimp only
    rw [bind_eq, follows_bind]
    refine follows_quiet (o := .update agencyId domain _) trivial (fun _ => rfl) fun agency => ?_
    cases agency with
    | none => trivial
    | some agency =>
      dsimp only
      rw [bind_eq, follows_bind]
      exact (recordAgencyAuditEvent_follows).mono (fun _ _ _ => trivial) fun _ _ _ => trivial

theorem recordVerification_follows {agency : Agency} {verified : Bool}
    (hChecked : verified = true → pt.Allows (.saveVerified agency)) :
    (recordVerification agency verified).Follows store checking pt (fun _ _ => True) fun _ _ => True := by
  unfold recordVerification
  split
  · rename_i hSaves
    rw [Bool.and_eq_true] at hSaves
    rw [bind_eq, follows_bind]
    refine follows_quiet (o := .saveVerified agency) (hChecked hSaves.1) (fun _ => rfl) fun _ => ?_
    rw [bind_eq, follows_bind]
    exact (recordAgencyAuditEvent_follows).mono (fun _ _ _ => trivial) fun _ _ _ => trivial
  · trivial

theorem verifyAgencyDomain_follows {agencyId : Id} :
    (verifyAgencyDomain agencyId).Follows store checking pt (fun _ _ => True) fun _ _ => True := by
  unfold verifyAgencyDomain
  rw [bind_eq, follows_bind]
  refine (findAgencyOrThrow_follows).mono ?_ fun _ _ _ => trivial
  rintro agency _ rfl
  cases hDomain : agency.domain.filter (· ≠ []) with
  | none => trivial
  | some domain =>
    cases hToken : agency.domainVerificationToken with
    | none => trivial
    | some token =>
      dsimp only
      rw [bind_eq, follows_bind]
      refine (refuseVerifiedElsewhere_follows).mono ?_ fun _ _ _ => trivial
      rintro _ _ rfl
      rw [bind_eq, follows_bind]
      refine follows_call.mpr fun a w => ⟨_, ⟨trivial, rfl⟩, ?_⟩
      cases (store.perform (.checkDomainVerification domain token) a w).1 with
      | error err => trivial
      | ok verified =>
        dsimp only
        refine recordVerification_follows ?_
        rintro rfl
        exact ⟨domain, token, Option.eq_some_of_filter_eq_some hDomain, hToken, List.mem_cons_self⟩

theorem setAgencyEmailSender_follows {agencyId : Id} {address : Text} :
    (setAgencyEmailSender agencyId address).Follows store checking pt (fun _ _ => True) fun _ _ => True := by
  unfold setAgencyEmailSender
  rw [bind_eq, follows_bind]
  refine (findAgencyOrThrow_follows).mono ?_ fun _ _ _ => trivial
  rintro agency _ rfl
  cases hDomain : agency.domain.filter (· ≠ []) with
  | none => trivial
  | some domain =>
    dsimp only
    split
    · trivial
    · rename_i hOn
      split
      · trivial
      · rw [bind_eq, follows_bind]
        refine follows_quiet (o := .saveSender agency _) ?_ (fun _ => rfl) fun _ => ?_
        · exact ⟨domain, Option.eq_some_of_filter_eq_some hDomain, not_ne_iff.mp hOn⟩
        · rw [bind_eq, follows_bind]
          exact (recordAgencyAuditEvent_follows).mono (fun _ _ _ => trivial) fun _ _ _ => trivial

theorem Request.program_follows {env : Env} (r : Request) :
    (r.program env).Follows store checking [] (fun _ _ => True) fun _ _ => True := by
  cases r with
  | setAgencyDomain agencyId domain => exact setAgencyDomain_follows
  | verifyAgencyDomain agencyId => exact verifyAgencyDomain_follows
  | setAgencyEmailSender agencyId address => exact setAgencyEmailSender_follows

end Walk

/-! ## What a write keeps -/

section Writes

variable {w : World} {history : List (Entry Op Op.Resp Err)} {id : Id} {f : Agency → Agency} {stored : Agency}

theorem Confirmed.cons {hostname : Text} {token : Token} (h : Confirmed history hostname token) (e : Entry Op Op.Resp Err) :
    Confirmed (e :: history) hostname token := by
  obtain ⟨entry, hMem, hConfirms⟩ := h
  exact ⟨entry, List.mem_cons_of_mem e hMem, hConfirms⟩

theorem Proven.cons {agencies : List Agency} (h : Proven agencies history) (e : Entry Op Op.Resp Err) : Proven agencies (e :: history) where
  confirmed agency hMem hVerified := by
    obtain ⟨domain, token, hDomain, hToken, hConfirmed⟩ := h.confirmed agency hMem hVerified
    exact ⟨domain, token, hDomain, hToken, hConfirmed.cons e⟩
  unique := h.unique
  sender := h.sender

theorem agency?_spec (h : w.agency? id = some stored) : stored ∈ w.agencies ∧ stored.id = id := by
  have hSel := List.find?_some h
  exact ⟨List.mem_of_find?_eq_some h, of_decide_eq_true hSel⟩

theorem mem_updateAgency (hIds : (w.agencies.map (·.id)).Nodup) (hStored : w.agency? id = some stored) {agency : Agency}
    (hMem : agency ∈ (w.updateAgency id f).agencies) : agency ∈ w.agencies ∧ agency.id ≠ id ∨ agency = f stored := by
  obtain ⟨hStoredMem, hStoredId⟩ := agency?_spec hStored
  obtain ⟨before, hBefore, rfl⟩ := Tables.mem_update.mp hMem
  by_cases hId : before.id = id
  · rw [Tables.eq_of_id hIds hBefore hStoredMem (hId.trans hStoredId.symm), if_pos (decide_eq_true hStoredId)]
    exact .inr rfl
  · rw [if_neg (by simp [hId])]
    exact .inl ⟨hBefore, hId⟩

theorem updateAgency_none (h : w.agency? id = none) : (w.updateAgency id f).agencies = w.agencies := by
  have hOther : ∀ agency ∈ w.agencies, (if decide (agency.id = id) then f agency else agency) = agency := by
    intro agency hMem
    have hNe := List.find?_eq_none.mp h agency hMem
    rw [if_neg hNe]
  exact List.map_congr_left hOther |>.trans (List.map_id _)

theorem Proven.updateAgency (h : Proven w.agencies history) (hIds : (w.agencies.map (·.id)).Nodup)
    (hConfirmed : ∀ stored, w.agency? id = some stored → (f stored).domainStatus = some .verified → ∃ domain token,
      (f stored).domain = some domain ∧ (f stored).domainVerificationToken = some token ∧ Confirmed history domain token)
    (hAlone : ∀ stored, w.agency? id = some stored → ∀ domain, (f stored).holds domain →
      ∀ other ∈ w.agencies, other.id ≠ id → ¬ other.holds domain)
    (hSender : ∀ stored, w.agency? id = some stored → ∀ sender, (f stored).emailSender = some sender → sender.status ≠ .pendingDomain →
      ∃ domain, (f stored).holds domain ∧ addressDomain sender.address = some domain) :
    Proven (w.updateAgency id f).agencies history := by
  cases hStored : w.agency? id with
  | none =>
    rw [updateAgency_none hStored]
    exact h
  | some stored =>
    refine ⟨fun agency hMem hVerified => ?_, fun agency hMem other hOther domain hHolds hOtherHolds => ?_,
      fun agency hMem sender hSome hPast => ?_⟩
    · rcases mem_updateAgency hIds hStored hMem with ⟨hOld, -⟩ | rfl
      · exact h.confirmed agency hOld hVerified
      · exact hConfirmed stored hStored hVerified
    · rcases mem_updateAgency hIds hStored hMem with ⟨hOld, hNe⟩ | rfl
      · rcases mem_updateAgency hIds hStored hOther with ⟨hOtherOld, -⟩ | rfl
        · exact h.unique agency hOld other hOtherOld domain hHolds hOtherHolds
        · exact absurd hHolds (hAlone stored hStored domain hOtherHolds agency hOld hNe)
      · rcases mem_updateAgency hIds hStored hOther with ⟨hOtherOld, hNe⟩ | rfl
        · exact absurd hOtherHolds (hAlone stored hStored domain hHolds other hOtherOld hNe)
        · rfl
    · rcases mem_updateAgency hIds hStored hMem with ⟨hOld, -⟩ | rfl
      · exact h.sender agency hOld sender hSome hPast
      · exact hSender stored hStored sender hSome hPast

theorem nodup_updateAgency (hIds : (w.agencies.map (·.id)).Nodup) (hf : ∀ agency, (f agency).id = agency.id) :
    ((w.updateAgency id f).agencies.map (·.id)).Nodup := by
  have hSame : (w.updateAgency id f).agencies.map (·.id) = w.agencies.map (·.id) := Tables.map_update_eq Agency.id hf
  rw [hSame]
  exact hIds

theorem Proven.update (h : Proven w.agencies history) (hIds : (w.agencies.map (·.id)).Nodup) {domain : Text} {token : Token}
    {senderReset : Bool} (hReset : senderReset = true ∨ (w.agency? id).all (·.emailSender.all (·.status = .pendingDomain)) = true) :
    Proven (w.updateAgency id (Agency.withDomain domain token senderReset)).agencies history := by
  refine h.updateAgency hIds (fun stored _ hVerified => ?_) (fun stored _ held hHolds => ?_) fun stored hStored sender hSome hPast => ?_
  · cases hVerified
  · cases hHolds.1
  · exfalso
    cases senderReset with
    | true =>
      obtain ⟨before, -, rfl⟩ := Option.map_eq_some_iff.mp (hSome : stored.emailSender.map _ = some sender)
      exact hPast rfl
    | false =>
      have hSame : stored.emailSender = some sender := hSome
      have hWaiting := hReset.resolve_left Bool.false_ne_true
      rw [hStored, Option.all_some, hSame, Option.all_some] at hWaiting
      exact hPast (of_decide_eq_true hWaiting)

theorem Proven.saveVerified (h : Proven w.agencies history) (hIds : (w.agencies.map (·.id)).Nodup) {loaded : Agency} {domain : Text}
    {token : Token} (hDomain : loaded.domain = some domain) (hToken : loaded.domainVerificationToken = some token)
    (hConfirmed : Confirmed history domain token)
    (hRead : (w.agency? loaded.id).all (fun stored =>
      stored.domain = loaded.domain && stored.domainVerificationToken = loaded.domainVerificationToken &&
        stored.domain.all (fun domain => !w.verifiedElsewhere stored.id domain) &&
          (!loaded.movesSender || stored.emailSender.all (addressDomain ·.address = stored.domain))) = true) :
    Proven (w.updateAgency loaded.id (Agency.withVerified loaded.movesSender)).agencies history := by
  have hStored : ∀ stored, w.agency? loaded.id = some stored → stored.domain = some domain ∧
      stored.domainVerificationToken = some token ∧ w.verifiedElsewhere stored.id domain = false ∧
      (loaded.movesSender = true → stored.emailSender.all (addressDomain ·.address = stored.domain) = true) := by
    intro stored hStored
    rw [hStored, Option.all_some, Bool.and_eq_true, Bool.and_eq_true, Bool.and_eq_true, decide_eq_true_eq, decide_eq_true_eq] at hRead
    obtain ⟨⟨⟨hSameDomain, hSameToken⟩, hAlone⟩, hMoves⟩ := hRead
    rw [hSameDomain, hDomain, Option.all_some, Bool.not_eq_true'] at hAlone
    refine ⟨hSameDomain.trans hDomain, hSameToken.trans hToken, hAlone, fun hMovesSender => ?_⟩
    rw [hMovesSender] at hMoves
    exact hMoves
  refine h.updateAgency hIds (fun stored hFound _ => ?_) (fun stored hFound held hHolds other hMem hNe hOtherHolds => ?_)
    fun stored hFound sender hSome hPast => ?_
  · obtain ⟨hSameDomain, hSameToken, -, -⟩ := hStored stored hFound
    exact ⟨domain, token, hSameDomain, hSameToken, hConfirmed⟩
  · obtain ⟨hSameDomain, -, hAlone, -⟩ := hStored stored hFound
    have hHeld : some domain = some held := hSameDomain.symm.trans hHolds.2
    rw [(agency?_spec hFound).2] at hAlone
    have hNone := List.any_eq_false.mp hAlone other hMem
    simp [hNe, hOtherHolds.2, hOtherHolds.1, Option.some.inj hHeld] at hNone
  · obtain ⟨hSameDomain, -, -, hMoves⟩ := hStored stored hFound
    cases hMovesSender : loaded.movesSender with
    | true =>
      rw [hMovesSender] at hSome
      obtain ⟨before, hBefore, rfl⟩ := Option.map_eq_some_iff.mp (hSome : stored.emailSender.map _ = some sender)
      have hOn := hMoves hMovesSender
      rw [hBefore, Option.all_some, decide_eq_true_eq] at hOn
      exact ⟨domain, ⟨rfl, hSameDomain⟩, hOn.trans hSameDomain⟩
    | false =>
      rw [hMovesSender] at hSome
      obtain ⟨held, hHolds, hOn⟩ := h.sender stored (agency?_spec hFound).1 sender hSome hPast
      exact ⟨held, ⟨rfl, hHolds.2⟩, hOn⟩

theorem Proven.saveSender (h : Proven w.agencies history) (hIds : (w.agencies.map (·.id)).Nodup) {loaded : Agency} {sender : EmailSender}
    {domain : Text} (hDomain : loaded.domain = some domain) (hOn : addressDomain sender.address = some domain)
    (hRead : (decide (sender.status = .pendingDomain) || (w.agency? loaded.id).all fun stored =>
      stored.domain = loaded.domain && stored.domainStatus = some .verified) = true) :
    Proven (w.updateAgency loaded.id ({ · with emailSender := some sender })).agencies history := by
  refine h.updateAgency hIds (fun stored hFound hVerified => ?_) (fun stored hFound held hHolds other hMem hNe hOtherHolds => ?_)
    fun stored hFound written hSome hPast => ?_
  · exact h.confirmed stored (agency?_spec hFound).1 hVerified
  · obtain ⟨hMemStored, hId⟩ := agency?_spec hFound
    exact hNe ((h.unique stored hMemStored other hMem held hHolds hOtherHolds).trans hId)
  · cases hSome
    rw [decide_eq_false hPast, Bool.false_or, hFound, Option.all_some, Bool.and_eq_true, decide_eq_true_eq, decide_eq_true_eq] at hRead
    exact ⟨domain, ⟨hRead.2, hRead.1.trans hDomain⟩, hOn⟩

end Writes

/-! ## Runs -/

section Run

variable {c c' : State} {pts : List Point} {t : Nat} {a : Except Err Unit} {o : Op} {th : Thread Op Op.Resp Err World Response}
  {k : Except Err o.Resp → Promise Response} {pt pt' : Point}

structure Sound (c : State) (pts : List Point) : Prop where
  ids : (c.state.agencies.map (·.id)).Nodup
  checked : ∀ pt ∈ pts, ∀ pair ∈ pt, Confirmed c.history pair.1 pair.2
  proven : Proven c.state.agencies c.history

theorem mem_after {r : Except Err o.Resp} {pair : Text × Token} (h : pair ∈ pt.after o r) :
    pair ∈ pt ∨ confirms pair.1 pair.2 ⟨t, o, r⟩ := by
  unfold Point.after at h
  split at h
  · rcases List.mem_cons.mp h with rfl | hOld
    · exact .inr ⟨rfl, rfl, rfl⟩
    · exact .inl hOld
  · exact .inl h

theorem Proven.performed {w : World} {history : List (Entry Op Op.Resp Err)} (h : Proven w.agencies history)
    (hIds : (w.agencies.map (·.id)).Nodup) (hChecked : ∀ pair ∈ pt, Confirmed history pair.1 pair.2) (hAllows : pt.Allows o)
    (hRead : asRead c (.run t a) = true) (hState : c.state = w) (hWaiting : c.waiting? t = some o) :
    ((store.perform o a w).2.agencies.map (·.id)).Nodup ∧ Proven (store.perform o a w).2.agencies history := by
  simp only [asRead, hWaiting, hState] at hRead
  cases a with
  | error fault => exact ⟨hIds, h⟩
  | ok _ =>
    cases o with
    | update id domain senderReset =>
      rw [Bool.or_eq_true] at hRead
      exact ⟨nodup_updateAgency (f := Agency.withDomain domain w.nextToken senderReset) hIds fun _ => rfl, h.update hIds hRead⟩
    | saveVerified loaded =>
      obtain ⟨domain, token, hDomain, hToken, hMem⟩ := hAllows
      exact ⟨nodup_updateAgency (f := Agency.withVerified loaded.movesSender) hIds fun _ => rfl,
        h.saveVerified hIds hDomain hToken (hChecked _ hMem) hRead⟩
    | saveSender loaded sender =>
      obtain ⟨domain, hDomain, hOn⟩ := hAllows
      exact ⟨nodup_updateAgency (f := ({ · with emailSender := some sender })) hIds fun _ => rfl, h.saveSender hIds hDomain hOn hRead⟩
    | _ => exact ⟨hIds, h⟩

theorem Sound.ran (h : Sound c pts) (hRead : asRead c (.run t a) = true) (hRan : store.Ran c t a o th k c')
    (hPoint : pts[t]? = some pt) (hMove : checking.Move o a c.state pt pt') : Sound c' (pts.set t pt') := by
  obtain ⟨hAllows, rfl⟩ := hMove
  have hChecked := h.checked pt (List.mem_of_getElem? hPoint)
  obtain ⟨hIds, hProven⟩ := h.proven.performed h.ids hChecked hAllows hRead rfl hRan.waiting?
  rw [← hRan.state] at hIds hProven
  refine ⟨hIds, fun ptU hMem pair hPair => ?_, ?_⟩
  · rw [hRan.history]
    rcases List.mem_or_eq_of_mem_set hMem with hOld | rfl
    · exact (h.checked ptU hOld pair hPair).cons _
    · rcases mem_after (t := t) hPair with hKnown | hConfirms
      · exact (hChecked pair hKnown).cons _
      · exact ⟨_, List.mem_cons_self, hConfirms⟩
  · rw [hRan.history]
    exact hProven.cons _

end Run

def studio : World := { agencies := [{ id := 1 }] }

theorem studio_isNew : studio.IsNew := ⟨by decide, by decide, by decide⟩

def studioDomain : Text := "studio.com".toList

end RestaurantOs.Agencies
