import RestaurantOs.Payments.Protocol

/-!
# Every request follows the protocol

One lemma for each async function: the phase it starts in, and that it leaves
nothing to be written when it returns or throws.
-/

namespace RestaurantOs.Payments

open Async Prog

def Calm (L : Option Id) (pt : Point) : Prop := pt.lease = L ∧ pt.phase.calm = true

variable {α : Type} {L : Option Id} {ph : Phase} {E : Err → Point → Prop}

theorem Calm.intro (hph : ph.calm = true) : Calm L ⟨L, ph⟩ := ⟨rfl, hph⟩

theorem follows_quiet {o : Op} {Q : o.Resp → Point → Prop} (ho : o.quiet = true) (hph : ph.calm = true)
    (hOk : ∀ v, Q v ⟨L, ph⟩) (hErr : ∀ e, E e ⟨L, ph⟩) :
    (Prog.call o : Promise o.Resp).Follows store protocol ⟨L, ph⟩ Q E := by
  refine follows_call.mpr fun a w => ⟨⟨L, ph⟩, .quiet ho hph, ?_⟩
  cases (store.perform o a w).1 with
  | ok v => exact hOk v
  | error e => exact hErr e

theorem follows_total {o : Op} {pt : Point} {Q : o.Resp → Point → Prop}
    (h : ∀ a w, ∃ v pt', (o.perform a w).1 = .ok v ∧ Move o a w pt pt' ∧ Q v pt') :
    (Prog.call o : Promise o.Resp).Follows store protocol pt Q E := by
  refine follows_call.mpr fun a w => ?_
  obtain ⟨v, pt', hResult, hMove, hQ⟩ := h a w
  refine ⟨pt', hMove, ?_⟩
  rw [show (store.perform o a w).1 = .ok v from hResult]
  exact hQ

theorem follows_dateNow {Q : Time → Point → Prop} {pt : Point}
    (h : ∀ a w, ∃ pt', Move .clock a w pt pt' ∧ Q w.now pt') :
    dateNow.Follows store protocol pt Q E := by
  refine follows_total fun a w => ?_
  obtain ⟨pt', hMove, hQ⟩ := h a w
  exact ⟨w.now, pt', rfl, hMove, hQ⟩

theorem follows_ofExcept_calm {r : Except Err α} {pt : Point} {Q : α → Point → Prop}
    (hOk : ∀ v, Q v pt) (hErr : ∀ e, E e pt) : (ofExcept r : Promise α).Follows store protocol pt Q E := by
  rw [follows_ofExcept]
  cases r with
  | ok v => exact hOk v
  | error e => exact hErr e

theorem follows_nonNull {r : Option α} {pt : Point} {Q : α → Point → Prop}
    (hOk : ∀ v, r = some v → Q v pt) (hErr : r = none → E .nullDocument pt) :
    (nonNull r).Follows store protocol pt Q E := by
  cases r with
  | none => exact hErr rfl
  | some v => exact hOk v rfl

theorem refundProviderFor_follows {env : Env} {payment : Payment} {Q : Provider → Point → Prop}
    (hph : ph.calm = true) (hOk : ∀ v, Q v ⟨L, ph⟩) (hErr : ∀ e, E e ⟨L, ph⟩) :
    (refundProviderFor env payment).Follows store protocol ⟨L, ph⟩ Q E := by
  unfold refundProviderFor
  split
  · exact follows_ofExcept_calm hOk hErr
  · rw [bind_eq, follows_bind]
    refine follows_quiet rfl hph (fun account => ?_) hErr
    cases account with
    | none => exact hErr _
    | some account => exact follows_ofExcept_calm hOk hErr

theorem follows_syncRead {paymentId : Id} {Q : Option Payment → Point → Prop}
    (hNone : Q none ⟨L, .idle⟩)
    (hSkip : ∀ payment : Payment, payment.status.collected = false → Q (some payment) ⟨L, .idle⟩)
    (hRead : ∀ payment : Payment, payment.status.collected = true → Q (some payment) ⟨L, .reading payment⟩) :
    (paymentOp (.findById paymentId)).Follows store protocol ⟨L, .unsynced paymentId⟩ Q E := by
  refine follows_total fun a w => ?_
  cases hFind : w.payments.find? fun p => p.id = paymentId with
  | none => exact ⟨none, _, by rw [← hFind]; rfl, .syncSkip (by simp [hFind]), hNone⟩
  | some payment =>
    cases hCollected : payment.status.collected with
    | false => exact ⟨some payment, _, by rw [← hFind]; rfl, .syncSkip (by simp [hFind, hCollected]),
        hSkip payment hCollected⟩
    | true => exact ⟨some payment, _, by rw [← hFind]; rfl, .syncRead hFind hCollected, hRead payment hCollected⟩

theorem syncPaymentRefundStatus_follows {paymentId : Id} :
    (syncPaymentRefundStatus paymentId).Follows store protocol ⟨L, .unsynced paymentId⟩
      (fun _ => Calm L) (fun _ => Calm L) := by
  unfold syncPaymentRefundStatus
  rw [bind_eq, follows_bind]
  refine follows_syncRead (Calm.intro rfl) (fun payment hCollected => ?_) fun payment hCollected => ?_
  · simp [hCollected, Calm, Phase.calm]
  · simp only [hCollected, Bool.not_true, Bool.false_eq_true, if_false, bind_eq, follows_bind]
    refine follows_total fun a w => ?_
    by_cases hNext : payment.status = refundedStatus payment.amount (roundCurrency (Tables.total Refund.amount
        (w.refunds.filter fun r => r.paymentId = payment.id && r.status = .succeeded)))
    · refine ⟨_, _, rfl, .syncEven hNext, ?_⟩
      rw [if_pos hNext.symm]
      exact Calm.intro rfl
    · refine ⟨_, _, rfl, .syncSum rfl (Ne.symm hNext), ?_⟩
      rw [if_neg (Ne.symm hNext)]
      rw [follows_bind]
      refine follows_call.mpr fun a w => ⟨_, .syncWrite, ?_⟩
      cases (store.perform _ a w).1 with
      | ok _ => exact Calm.intro rfl
      | error _ => exact Calm.intro rfl

theorem announceRefund_follows {updated : Refund} {paymentStatus : Option PaymentStatus} (hph : ph.calm = true) :
    (announceRefund updated paymentStatus).Follows store protocol ⟨L, ph⟩ (fun _ => Calm L) (fun _ => Calm L) := by
  unfold announceRefund
  rw [bind_eq, follows_bind]
  refine follows_quiet rfl hph (fun order => ?_) fun _ => Calm.intro hph
  cases order with
  | none => exact Calm.intro hph
  | some order =>
    simp only [bind_eq, follows_bind]
    have hEmit : (orderOp (.emit order .refunded (some updated.amount))).Follows store protocol ⟨L, ph⟩
        (fun _ => Calm L) (fun _ => Calm L) :=
      follows_quiet rfl hph (fun _ => Calm.intro hph) fun _ => Calm.intro hph
    exact follows_onlyIf (fun _ => follows_quiet rfl hph (fun _ => hEmit) fun _ => Calm.intro hph) fun _ => hEmit

def settledPhase (before updated : Refund) (target : RefundStatus) : Phase :=
  if settlementDue before target then .owing updated target else .unsynced updated.paymentId

theorem adjustTotal_follows {before updated : Refund} {target : RefundStatus} :
    (adjustTotal before updated target).Follows store protocol ⟨L, settledPhase before updated target⟩
      (fun _ pt => pt = ⟨L, .unsynced updated.paymentId⟩) E := by
  unfold adjustTotal settledPhase settlementDue
  by_cases hBack : target = .failed ∧ before.counted
  · obtain ⟨rfl, hCounted⟩ := hBack
    simp only [hCounted]
    exact follows_total fun a w => ⟨(), _, rfl, .giveBack, rfl⟩
  · by_cases hCount : target = .succeeded ∧ ¬ before.counted
    · obtain ⟨rfl, hCounted⟩ := hCount
      rw [if_neg hBack, if_pos ⟨rfl, hCounted⟩]
      simp only [Bool.not_eq_true] at hCounted
      simp only [hCounted]
      exact follows_total fun a w => ⟨(), _, rfl, .count, rfl⟩
    · rw [if_neg hBack, if_neg hCount]
      have hDue : (target = .failed && before.counted || target = .succeeded && !before.counted) = false := by
        cases target <;> cases h : before.counted <;> simp_all
      rw [hDue]
      rfl

theorem settlementEffects_follows {before updated : Refund} {target : RefundStatus} {method : ReportMethod}
    {ctx : ActorContext} :
    (settlementEffects before updated target method ctx).Follows store protocol
      ⟨L, settledPhase before updated target⟩ (fun _ => Calm L) (fun _ => Calm L) := by
  unfold settlementEffects
  simp only [bind_eq, follows_bind]
  refine (adjustTotal_follows).mono ?_ fun _ _ h => h
  rintro _ _ rfl
  refine (syncPaymentRefundStatus_follows).mono ?_ fun _ _ h => h
  rintro paymentStatus ⟨L, ph⟩ ⟨rfl, hph⟩
  have hAnnounce : (Prog.onlyIf (target = .succeeded) (announceRefund updated paymentStatus)).Follows store protocol
      ⟨L, ph⟩ (fun _ pt => (pure (some updated) : Promise (Option Refund)).Follows store protocol pt
        (fun _ => Calm L) (fun _ => Calm L)) (fun _ => Calm L) :=
    follows_onlyIf (fun _ => announceRefund_follows hph) fun _ => Calm.intro hph
  exact follows_onlyIf (fun _ => follows_quiet rfl hph (fun _ => hAnnounce) fun _ => Calm.intro hph)
    fun _ => hAnnounce

theorem findRefund_follows {id : Id} (hph : ph.calm = true) :
    (refundOp (.findById id)).Follows store protocol ⟨L, ph⟩ (fun _ => Calm L) (fun _ => Calm L) :=
  follows_quiet rfl hph (fun _ => Calm.intro hph) fun _ => Calm.intro hph

theorem follows_decide {refund : Refund} {report : RefundReport} {method : ReportMethod}
    {Q : Option Refund → Point → Prop} (hNone : Q none ⟨L, .idle⟩)
    (hSome : ∀ current, Q (some current) ⟨L, .decided current report method⟩) :
    (refundOp (.findById refund.id)).Follows store protocol ⟨L, .reporting refund report method⟩ Q E := by
  refine follows_total fun a w => ?_
  cases hFind : w.refunds.find? fun r => r.id = refund.id with
  | none => exact ⟨none, _, by rw [← hFind]; rfl, .rest rfl rfl, hNone⟩
  | some current => exact ⟨some current, _, by rw [← hFind]; rfl, .decide hFind, hSome current⟩

theorem note_follows {current : Refund} {report : RefundReport} {method : ReportMethod} {Q : Unit → Point → Prop}
    (hStatus : current.status = report.status) (hQ : Q () ⟨L, .idle⟩) :
    (refundOp (.setDetails current.id (reportDetails current report) (method ≠ .manual))).Follows store protocol
      ⟨L, .decided current report method⟩ Q (fun _ => Calm L) := by
  refine follows_call.mpr fun a w => ⟨⟨L, .idle⟩, .note hStatus rfl, ?_⟩
  cases (store.perform _ a w).1 with
  | ok _ => exact hQ
  | error _ => exact Calm.intro rfl

theorem settle_follows {s : Settlement} {current : Refund} {report : RefundReport} {method : ReportMethod}
    {ctx : ActorContext} {evidence : Option String} {now : Time} {Q : Option Refund → Point → Prop}
    (hId : s.id = current.id) (hSource : s.source = current.status) (hTarget : s.target = report.status)
    (hDetails : s.details = reportDetails current report)
    (hResolution : s.resolution = reportResolution current report method ctx evidence now)
    (hAllowed : s.target ∈ refundTransitions s.source) (hNone : Q none ⟨L, .idle⟩)
    (hSome : ∀ before, before.id = current.id → Q (some before) ⟨L, .settled before s.target⟩) :
    (refundOp (.settle s)).Follows store protocol ⟨L, .decided current report method⟩ Q (fun _ => Calm L) := by
  refine follows_call.mpr fun a w => ?_
  cases hFind : w.refunds.find? fun r => r.id = s.id && r.status = s.source with
  | none =>
    refine ⟨⟨L, .idle⟩, .settleLost rfl (by simp [hFind]), ?_⟩
    simp only [Op.perform, RefundOp.perform, hFind]
    exact hNone
  | some before =>
    cases hRef : refTaken w.refunds before s.details with
    | true =>
      refine ⟨⟨L, .idle⟩, .settleLost rfl (by simp [hFind, hRef]), ?_⟩
      simp only [Op.perform, RefundOp.perform, hFind, hRef, if_true]
      exact Calm.intro rfl
    | false =>
      refine ⟨_, .settle hId hSource hTarget hDetails hResolution hAllowed hFind hRef, ?_⟩
      simp only [Op.perform, RefundOp.perform, hFind, hRef, Bool.false_eq_true, if_false]
      refine hSome before ?_
      have hBefore := List.find?_some hFind
      simp only [Bool.and_eq_true, decide_eq_true_eq] at hBefore
      rw [hBefore.1, hId]

theorem follows_reread {before : Refund} {target : RefundStatus} {Q : Option Refund → Point → Prop}
    (hNone : Q none ⟨L, .idle⟩)
    (hSome : ∀ updated, Q (some updated) ⟨L, settledPhase before updated target⟩) :
    (refundOp (.findUpdated before.id)).Follows store protocol ⟨L, .settled before target⟩ Q E := by
  refine follows_total fun a w => ?_
  cases hFind : w.refunds.find? fun r => r.id = before.id with
  | none => exact ⟨none, _, by rw [← hFind]; rfl, .rereadGone hFind, hNone⟩
  | some updated =>
    refine ⟨some updated, ⟨L, settledPhase before updated target⟩, by rw [← hFind]; rfl, ?_, hSome updated⟩
    unfold settledPhase
    cases hDue : settlementDue before target with
    | true => exact .reread hFind hDue
    | false => exact .rereadEven hFind hDue

theorem applyRefundOutcome_follows {refund : Refund} {report : RefundReport} {method : ReportMethod}
    {ctx : ActorContext} {evidence : Option String} :
    (applyRefundOutcome refund report method ctx evidence).Follows store protocol
      ⟨L, .reporting refund report method⟩ (fun _ => Calm L) (fun _ => Calm L) := by
  unfold applyRefundOutcome
  simp only [bind_eq, follows_bind]
  refine follows_decide (Calm.intro rfl) fun current => ?_
  dsimp only
  split
  · rename_i hStatus
    rw [follows_bind]
    exact note_follows hStatus (findRefund_follows rfl)
  · split
    · exact Calm.intro rfl
    · rename_i hNe hAllowed
      rw [follows_bind]
      refine follows_dateNow fun a w => ⟨_, .quiet rfl rfl, ?_⟩
      rw [follows_bind]
      refine settle_follows rfl rfl rfl rfl rfl (by simpa using hAllowed) (findRefund_follows rfl) ?_
      intro before hId
      dsimp only
      rw [follows_bind, ← hId]
      refine follows_reread (Calm.intro rfl) fun updated => ?_
      rw [follows_bind]
      apply follows_nonNull
      · rintro v ⟨⟩
        exact settlementEffects_follows
      · intro hNone
        cases hNone

theorem sent_follows {call : RefundCall} :
    (providerOp (.refundSent call)).Follows store protocol ⟨L, .ready call⟩
      (fun _ pt => pt = ⟨L, .calling call⟩) E :=
  follows_total fun _ _ => ⟨(), _, rfl, .send, rfl⟩

theorem callProviderAndRecord_follows {claim : Refund} {payment : Payment} {provider : Provider} {reissue : Bool}
    {ctx : ActorContext} :
    (callProviderAndRecord claim payment provider reissue ctx).Follows store protocol
      ⟨L, .ready { claim, payment, provider, reissue }⟩ (fun _ => Calm L) (fun _ => Calm L) := by
  unfold callProviderAndRecord
  simp only [bind_eq, follows_bind]
  refine (sent_follows).mono ?_ fun _ _ h => h
  rintro _ _ rfl
  rw [follows_attempt]
  refine follows_call.mpr fun a w => ?_
  simp only [Op.perform, ProviderOp.perform]
  cases hAnswer : a.refund with
  | ok result => exact ⟨_, .answered hAnswer, applyRefundOutcome_follows⟩
  | error err =>
    cases hRejected : err.isRejected with
    | false =>
      refine ⟨_, .unanswered hAnswer hRejected, ?_⟩
      simp only [hRejected, Bool.false_eq_true, if_false, follows_bind]
      refine follows_total fun a w => ⟨(), _, rfl, @Move.setUnknown ⟨claim, payment, provider, reissue⟩ a w L, ?_⟩
      exact follows_quiet rfl rfl (fun _ => Calm.intro rfl) fun _ => Calm.intro rfl
    | true =>
      cases reissue with
      | true =>
        refine ⟨_, .reissueRefused hAnswer hRejected rfl, ?_⟩
        simp only [hRejected, if_true]
        exact Calm.intro rfl
      | false =>
        refine ⟨_, .refused hAnswer hRejected rfl, ?_⟩
        simp only [hRejected, if_true, Bool.false_eq_true, if_false, follows_bind]
        refine follows_total fun a w => ⟨(), _, rfl, @Move.release ⟨claim, payment, provider, false⟩ a w L, ?_⟩
        refine follows_total fun a w => ⟨(), _, rfl, @Move.dropRefused ⟨claim, payment, provider, false⟩ a w L, ?_⟩
        exact Calm.intro rfl

theorem reissueLeased_follows {leased : Refund} {payment : Payment} {provider : Provider} {ctx : ActorContext} :
    (reissueLeased leased payment provider ctx).Follows store protocol
      ⟨some leased.id, .ready { claim := leased, payment, provider, reissue := true }⟩
      (fun _ => Calm none) (fun _ => Calm none) := by
  unfold reissueLeased finallyDo
  have hUnlease : ∀ (r : Except Err (Option Refund × RefundReconcileOutcome)) (ph : Phase), ph.calm = true →
      ((refundOp (.unlease leased.id)).bind fun _ => Prog.ofExcept r).Follows store protocol ⟨some leased.id, ph⟩
        (fun _ => Calm none) (fun _ => Calm none) := by
    intro r ph hph
    rw [follows_bind]
    refine follows_total fun a w => ⟨(), _, rfl, .unlease hph, ?_⟩
    exact follows_ofExcept_calm (fun _ => Calm.intro rfl) fun _ => Calm.intro rfl
  simp only [bind_eq, follows_bind, follows_attempt]
  refine (callProviderAndRecord_follows).mono ?_ ?_
  · rintro refund ⟨_, ph⟩ ⟨rfl, hph⟩
    exact (follows_bind.mp (hUnlease _ ph hph))
  · rintro err ⟨_, ph⟩ ⟨rfl, hph⟩
    refine follows_quiet rfl hph (fun refund => ?_) fun err => ?_
    · exact follows_bind.mp (hUnlease _ ph hph)
    · exact follows_bind.mp (hUnlease _ ph hph)

theorem setLookup_follows {id : Id} {time : Time} {result : LookupResult} {Q : Unit → Point → Prop}
    (hph : ph.calm = true) (hQ : Q () ⟨L, ph⟩) :
    (refundOp (.setLookup id time result)).Follows store protocol ⟨L, ph⟩ Q E :=
  follows_total fun _ _ => ⟨(), _, rfl, .setLookup hph, hQ⟩

theorem dateNow_calm {Q : Time → Point → Prop} (hph : ph.calm = true) (hQ : ∀ now, Q now ⟨L, ph⟩) :
    dateNow.Follows store protocol ⟨L, ph⟩ Q E :=
  follows_dateNow fun _ w => ⟨_, .quiet rfl hph, hQ w.now⟩

theorem lease_follows {refund latest : Refund} {now : Time} {payment : Payment} {provider : Provider}
    {Q : Option Refund → Point → Prop} (hRef : (truthy latest.providerRefundRef).isNone = true)
    (hReserved : latest.amountReserved = true) (hPayment : payment.id = refund.paymentId)
    (hNone : Q none ⟨none, .idle⟩)
    (hSome : ∀ leased, Q (some leased)
      ⟨some leased.id, .ready { claim := leased, payment, provider, reissue := true }⟩) :
    (refundOp (.lease latest.id now (now + STALE_REFUND_CLAIM_MS))).Follows store protocol
      ⟨none, .leasing refund latest now⟩ Q E := by
  refine follows_total fun a w => ?_
  cases hFind : w.refunds.find? fun r => r.id = latest.id && r.status = .pending && r.leaseFree now with
  | none =>
    refine ⟨none, _, ?_, .leaseTaken hFind rfl, hNone⟩
    simp only [Op.perform, RefundOp.perform, hFind]
  | some stored =>
    refine ⟨some (stored.withLease (some (now + STALE_REFUND_CLAIM_MS))), _, ?_,
      @Move.lease a w refund latest now stored payment provider hRef hReserved hPayment hFind, hSome _⟩
    simp only [Op.perform, RefundOp.perform, hFind]

theorem follows_fresh {refund : Refund} {Q : Option Refund → Point → Prop} (hNone : Q none ⟨L, .idle⟩)
    (hSome : ∀ latest, Q (some latest) ⟨L, .fresh refund latest⟩) :
    (refundOp (.findById refund.id)).Follows store protocol ⟨L, .missing refund⟩ Q E := by
  refine follows_total fun a w => ?_
  cases hFind : w.refunds.find? fun r => r.id = refund.id with
  | none => exact ⟨none, _, by rw [← hFind]; rfl, .rest rfl rfl, hNone⟩
  | some latest => exact ⟨some latest, _, by rw [← hFind]; rfl, .fresh hFind, hSome latest⟩

theorem reissueMissing_follows {refund : Refund} {payment : Payment} {provider : Provider} {ctx : ActorContext}
    {allowReissue : Bool} (hPayment : payment.id = refund.paymentId) :
    (reissueMissing refund payment provider ctx allowReissue).Follows store protocol ⟨none, .missing refund⟩
      (fun _ => Calm none) (fun _ => Calm none) := by
  unfold reissueMissing
  simp only [bind_eq, follows_bind]
  refine dateNow_calm rfl fun lookedUpAt => ?_
  refine setLookup_follows rfl ?_
  refine follows_fresh ?_ fun latest => ?_
  · exact Calm.intro rfl
  · simp only [nonNull, follows_ret]
    refine follows_dateNow fun a w => ⟨_, .clock, ?_⟩
    split
    · rename_i h
      rw [follows_bind]
      exact lease_follows h.2.2.1 h.2.2.2.1 hPayment (Calm.intro rfl) fun leased => reissueLeased_follows
    · exact Calm.intro rfl

theorem follows_findPayment {id : Id} {Q : Option Payment → Point → Prop} (hph : ph.calm = true)
    (hNone : Q none ⟨L, ph⟩) (hSome : ∀ payment : Payment, payment.id = id → Q (some payment) ⟨L, ph⟩) :
    (paymentOp (.findById id)).Follows store protocol ⟨L, ph⟩ Q E := by
  refine follows_total fun a w => ?_
  cases hFind : w.payments.find? fun p => p.id = id with
  | none => exact ⟨none, _, by rw [← hFind]; rfl, .quiet rfl hph, hNone⟩
  | some payment =>
    have hId : payment.id = id := by simpa using List.find?_some hFind
    exact ⟨some payment, _, by rw [← hFind]; rfl, .quiet rfl hph, hSome payment hId⟩

theorem reconcileRefund_follows {env : Env} {refund : Refund} {ctx : ActorContext} {allowReissue : Bool} :
    (reconcileRefund env refund ctx allowReissue).Follows store protocol ⟨none, .seen refund⟩
      (fun _ => Calm none) (fun _ => Calm none) := by
  unfold reconcileRefund
  split
  · exact Calm.intro rfl
  · rename_i hPending
    rw [bind_eq, follows_bind]
    refine follows_dateNow fun a w => ?_
    by_cases hOpen : refund.open_ w.now
    · refine ⟨_, .hold hOpen, ?_⟩
      simp only [(Refund.open_iff hOpen.1).mp hOpen, Bool.false_eq_true, if_false, bind_eq, follows_bind]
      refine follows_findPayment rfl (Calm.intro rfl) fun payment hPayment => ?_
      · dsimp only
        rw [follows_bind]
        refine refundProviderFor_follows rfl (fun provider => ?_) fun _ => Calm.intro rfl
        split
        · exact Calm.intro rfl
        · rw [follows_bind, follows_attempt]
          refine follows_call.mpr fun a w => ?_
          simp only [Op.perform, ProviderOp.perform]
          cases hAnswer : a.lookup with
          | error err =>
            refine ⟨_, .rest rfl rfl, ?_⟩
            dsimp only
            rw [follows_bind]
            refine dateNow_calm rfl fun now => ?_
            rw [follows_bind]
            refine setLookup_follows rfl ?_
            rw [follows_bind]
            exact findRefund_follows rfl
          | ok result =>
            cases result with
            | none => exact ⟨_, .missing hAnswer, reissueMissing_follows hPayment⟩
            | some result =>
              refine ⟨_, .found hAnswer, ?_⟩
              dsimp only
              rw [follows_bind]
              refine dateNow_calm rfl fun now => ?_
              rw [follows_bind]
              refine setLookup_follows rfl ?_
              rw [follows_bind]
              exact applyRefundOutcome_follows
    · refine ⟨_, .quiet rfl rfl, ?_⟩
      rw [Refund.open_iff (by simpa using hPending), Bool.not_eq_false] at hOpen
      rw [if_pos hOpen]
      exact Calm.intro rfl

theorem follows_see {op : RefundOp} {Q : Op.Resp (.refund op) → Point → Prop} (hph : ph.calm = true)
    (h : ∀ w, ∃ v, (op.perform w).1 = .ok v ∧
      (Q v ⟨none, ph⟩ ∨ ∃ refund, Op.Reads w refund (.refund op) ∧ Q v ⟨none, .seen refund⟩))
    (ho : (Op.refund op).quiet = true) :
    (refundOp op).Follows store protocol ⟨none, ph⟩ Q E := by
  refine follows_total fun a w => ?_
  obtain ⟨v, hResult, hQ | ⟨refund, hRead, hQ⟩⟩ := h w
  · exact ⟨v, _, hResult, .quiet ho hph, hQ⟩
  · exact ⟨v, _, hResult, .see hph hRead, hQ⟩

theorem sameKeyRefund_follows {env : Env} {input : RefundInput} (hph : ph.calm = true) :
    (sameKeyRefund env input).Follows store protocol ⟨none, ph⟩ (fun _ => Calm none) (fun _ => Calm none) := by
  unfold sameKeyRefund
  rw [bind_eq, follows_bind]
  refine follows_see hph (fun w => ⟨_, rfl, ?_⟩) rfl
  cases hFind : w.refunds.find? fun r =>
      r.restaurantId = input.restaurantId && r.idempotencyKey = input.idempotencyKey with
  | none => exact .inl (Calm.intro hph)
  | some existing =>
    refine .inr ⟨existing, .findByKey (List.mem_of_find?_eq_some hFind), ?_⟩
    simp only [bind_eq, follows_bind]
    refine dateNow_calm rfl fun now => ?_
    split
    · rw [follows_bind]
      exact reconcileRefund_follows
    · exact Calm.intro rfl

theorem refuseUnlessDuplicate_follows {env : Env} {input : RefundInput} {error : ApiError} (hph : ph.calm = true) :
    (refuseUnlessDuplicate env input error).Follows store protocol ⟨none, ph⟩
      (fun _ => Calm none) (fun _ => Calm none) := by
  unfold refuseUnlessDuplicate
  rw [bind_eq, follows_bind]
  refine (sameKeyRefund_follows hph).mono ?_ fun _ _ h => h
  rintro duplicate ⟨_, ph⟩ ⟨rfl, hph⟩
  cases duplicate <;> exact Calm.intro hph

theorem refundClaimed_follows {claim : Refund} {payment : Payment} {provider : Provider} {userId : Id}
    (hPayment : payment.id = claim.paymentId) :
    (refundClaimed claim payment provider userId).Follows store protocol ⟨none, .claimed claim⟩
      (fun _ => Calm none) (fun _ => Calm none) := by
  unfold refundClaimed
  simp only [bind_eq, follows_bind]
  refine follows_total fun a w => ?_
  cases hFind : w.payments.find? fun p => p.id = payment.id && p.status.refundable &&
      p.totalRefunded + claim.amount ≤ p.amount with
  | none =>
    refine ⟨none, _, ?_, .reserveRefused hFind, ?_⟩
    · simp only [Op.perform, PaymentOp.perform, hFind]
    · dsimp only
      rw [follows_bind]
      exact follows_total fun _ _ => ⟨(), _, rfl, .dropUnreserved, Calm.intro rfl⟩
  | some stored =>
    refine ⟨some (stored.addRefunded claim.amount), _, ?_,
      .reserve hPayment hFind, ?_⟩
    · simp only [Op.perform, PaymentOp.perform, hFind]
    · dsimp only
      rw [follows_bind]
      exact follows_total fun _ _ => ⟨(), _, rfl, .mark hPayment, callProviderAndRecord_follows⟩

theorem claimRefund_follows {env : Env} {input : RefundInput} {payment : Payment} {amount : ℚ}
    (hAmount : 0 < amount) :
    (claimRefund env input payment amount).Follows store protocol ⟨none, .paying payment⟩
      (fun _ => Calm none) (fun _ => Calm none) := by
  unfold claimRefund
  rw [bind_eq, follows_bind]
  refine refundProviderFor_follows rfl (fun provider => ?_) fun _ => Calm.intro rfl
  simp only [bind_eq, follows_bind, follows_attempt]
  refine follows_call.mpr fun a w => ?_
  simp only [Op.perform, RefundOp.perform]
  cases hTaken : w.refunds.any fun r =>
      r.restaurantId = input.restaurantId && r.idempotencyKey = input.idempotencyKey with
  | true =>
    refine ⟨_, .keyTaken rfl hTaken, ?_⟩
    simp only [if_true, Err.isDuplicateKey, follows_bind]
    refine follows_quiet rfl rfl (fun winner => ?_) fun _ => Calm.intro rfl
    cases winner <;> exact Calm.intro rfl
  | false =>
    refine ⟨_, .claim ⟨rfl, rfl, rfl, rfl, rfl, hAmount, rfl⟩ rfl hTaken, ?_⟩
    simp only [Bool.false_eq_true, if_false]
    exact refundClaimed_follows rfl

theorem refundWaiting_follows {env : Env} {input : RefundInput} {waiting : Refund} (hph : ph.calm = true) :
    (refundWaiting env input waiting).Follows store protocol ⟨none, ph⟩
      (fun _ => Calm none) (fun _ => Calm none) := by
  unfold refundWaiting
  split
  · rw [bind_eq, follows_bind]
    exact (sameKeyRefund_follows hph).mono (fun _ _ h => h) fun _ _ h => h
  · rw [bind_eq, follows_bind]
    refine (sameKeyRefund_follows hph).mono ?_ fun _ _ h => h
    rintro duplicate ⟨_, ph⟩ ⟨rfl, hph⟩
    cases duplicate with
    | some duplicate => exact Calm.intro hph
    | none =>
      dsimp only
      rw [bind_eq, follows_bind]
      refine dateNow_calm hph fun now => ?_
      split <;> exact Calm.intro hph

theorem refundLoaded_follows {env : Env} {input : RefundInput} {payment : Payment} :
    (refundLoaded env input payment).Follows store protocol ⟨none, .paying payment⟩
      (fun _ => Calm none) (fun _ => Calm none) := by
  unfold refundLoaded
  split
  · exact refuseUnlessDuplicate_follows rfl
  · rw [bind_eq, follows_bind]
    refine follows_quiet rfl rfl (fun waiting => ?_) fun _ => Calm.intro rfl
    cases waiting with
    | some waiting => exact refundWaiting_follows rfl
    | none =>
      dsimp only
      split
      · exact refuseUnlessDuplicate_follows rfl
      · rename_i hAmount
        exact claimRefund_follows (not_le.mp fun h => hAmount (.inl h))

theorem follows_pay {id restaurantId : Id} {Q : Option Payment → Point → Prop} (hph : ph.calm = true)
    (hNone : Q none ⟨L, ph⟩) (hSome : ∀ payment, Q (some payment) ⟨L, .paying payment⟩) :
    (paymentOp (.findOne id restaurantId)).Follows store protocol ⟨L, ph⟩ Q E := by
  refine follows_total fun a w => ?_
  cases hFind : w.payments.find? fun p => p.id = id && p.restaurantId = restaurantId with
  | none => exact ⟨none, _, by rw [← hFind]; rfl, .quiet rfl hph, hNone⟩
  | some payment =>
    exact ⟨some payment, _, by rw [← hFind]; rfl, .pay hph (List.mem_of_find?_eq_some hFind), hSome payment⟩

theorem refundPayment_follows {env : Env} {input : RefundInput} (hph : ph.calm = true) :
    (refundPayment env input).Follows store protocol ⟨none, ph⟩ (fun _ => Calm none) (fun _ => Calm none) := by
  unfold refundPayment
  rw [bind_eq, follows_bind]
  refine (sameKeyRefund_follows hph).mono ?_ fun _ _ h => h
  rintro existing ⟨_, ph⟩ ⟨rfl, hph⟩
  cases existing with
  | some existing => exact Calm.intro hph
  | none =>
    dsimp only
    rw [bind_eq, follows_bind]
    exact follows_pay hph (Calm.intro hph) fun payment => refundLoaded_follows

theorem byHand_follows {refund : Refund} {report : RefundReport} {ctx : ActorContext} {evidence : Option String}
    {a : Answer} {w : World} (hFrom : ph = .held refund ∨ (ph = .seen refund ∧ refund.open_ w.now))
    (hStatus : report.status ≠ .pending) (hRef : report.status = .failed → report.refundRef = none) :
    ∃ pt', Move .clock a w ⟨none, ph⟩ pt' ∧
      (applyRefundOutcome refund report .manual ctx evidence).Follows store protocol pt'
        (fun _ => Calm none) (fun _ => Calm none) :=
  ⟨_, .byHand hFrom hStatus hRef, applyRefundOutcome_follows⟩

theorem refundProviderOf_follows {env : Env} {payment : Option Payment} {Q : Option Provider → Point → Prop}
    (hph : ph.calm = true) (hOk : ∀ v, Q v ⟨L, ph⟩) (hErr : ∀ e, E e ⟨L, ph⟩) :
    (refundProviderOf env payment).Follows store protocol ⟨L, ph⟩ Q E := by
  cases payment with
  | none => exact hOk none
  | some payment =>
    simp only [refundProviderOf, bind_eq, follows_bind]
    exact refundProviderFor_follows hph (fun provider => hOk (some provider)) hErr

theorem confirmNotRefunded_follows {env : Env} {refund : Refund} {input : ResolveRefundInput}
    {actor : ActorContext} :
    (confirmNotRefunded env refund input actor).Follows store protocol ⟨none, .held refund⟩
      (fun _ => Calm none) (fun _ => Calm none) := by
  unfold confirmNotRefunded
  split
  · exact Calm.intro rfl
  · simp only [bind_eq, follows_bind]
    refine dateNow_calm rfl fun now => ?_
    split
    · exact Calm.intro rfl
    · rw [follows_bind]
      refine follows_quiet rfl rfl (fun payment => ?_) fun _ => Calm.intro rfl
      rw [follows_bind]
      refine refundProviderOf_follows rfl (fun provider => ?_) fun _ => Calm.intro rfl
      rw [follows_bind]
      cases provider with
      | none => exact follows_dateNow fun a w => byHand_follows (.inl rfl) (by simp) (by simp)
      | some provider =>
        refine follows_dateNow fun a w => ?_
        dsimp only
        split
        · exact ⟨_, .quiet rfl rfl, Calm.intro rfl⟩
        · exact byHand_follows (.inl rfl) (by simp) (by simp)

theorem resolveHeldRefund_follows {env : Env} {refund : Refund} {input : ResolveRefundInput} {actor : ActorContext} :
    (resolveHeldRefund env refund input actor).Follows store protocol ⟨none, .seen refund⟩
      (fun _ => Calm none) (fun _ => Calm none) := by
  unfold resolveHeldRefund
  split
  · exact Calm.intro rfl
  · rename_i hPending
    rw [bind_eq, follows_bind]
    refine follows_dateNow fun a w => ?_
    by_cases hOpen : refund.open_ w.now
    · simp only [(Refund.open_iff hOpen.1).mp hOpen, Bool.false_eq_true, if_false]
      split
      · split
        · exact ⟨_, .quiet rfl rfl, Calm.intro rfl⟩
        · exact byHand_follows (.inr ⟨rfl, hOpen⟩) (by simp) (by simp)
      · exact ⟨_, .hold hOpen, confirmNotRefunded_follows⟩
    · refine ⟨_, .quiet rfl rfl, ?_⟩
      rw [Refund.open_iff (by simpa using hPending), Bool.not_eq_false] at hOpen
      rw [if_pos hOpen]
      exact Calm.intro rfl

theorem findPaymentRefund_follows {restaurantId orderId paymentId refundId : Id} (hph : ph.calm = true) :
    (findPaymentRefund restaurantId orderId paymentId refundId).Follows store protocol ⟨none, ph⟩
      (fun refund pt => pt = ⟨none, .seen refund⟩) (fun _ => Calm none) := by
  unfold findPaymentRefund
  rw [bind_eq, follows_bind]
  refine follows_see hph (fun w => ⟨_, rfl, ?_⟩) rfl
  cases hFind : w.refunds.find? fun r => r.id = refundId && r.restaurantId = restaurantId &&
      r.paymentId = paymentId && r.orderId = orderId with
  | none => exact .inl (Calm.intro hph)
  | some refund => exact .inr ⟨refund, .findOne (List.mem_of_find?_eq_some hFind), rfl⟩

/-! ## Webhooks -/

theorem findUpdatedRefund_follows {provider : ProviderName} {body : WebhookBody} {update : ProviderRefundUpdate}
    {Q : Option Refund → Point → Prop} (hUpdate : parseStripeRefundEvent body.stripe = some update)
    (hNone : Q none ⟨none, .heard body⟩)
    (hSome : ∀ refund, Q (some refund) ⟨none, .reporting refund update.report .webhook⟩) :
    (findUpdatedRefund provider update).Follows store protocol ⟨none, .heard body⟩ Q E := by
  unfold findUpdatedRefund
  rw [bind_eq, follows_bind]
  refine follows_total fun a w => ?_
  cases hFind : w.refunds.find? fun r => r.provider = provider && r.providerRefundRef = some update.refundRef with
  | some refund => exact ⟨some refund, _, by rw [← hFind]; rfl, .matchRef hUpdate hFind, hSome refund⟩
  | none =>
    refine ⟨none, _, by rw [← hFind]; rfl, .quiet rfl rfl, ?_⟩
    cases hKey : update.refundKey with
    | none => exact hNone
    | some key =>
      refine follows_total fun a w => ?_
      cases hFindKey : w.refunds.find? fun r => r.provider = provider && r.providerRefundKey = some key with
      | none => exact ⟨none, _, by rw [← hFindKey]; rfl, .quiet rfl rfl, hNone⟩
      | some refund =>
        exact ⟨some refund, _, by rw [← hFindKey]; rfl, .matchKey hUpdate hKey hFindKey, hSome refund⟩

theorem applyProviderRefundUpdate_follows {provider : ProviderName} {body : WebhookBody}
    {update : ProviderRefundUpdate} {account : Option Id}
    (hUpdate : parseStripeRefundEvent body.stripe = some update) :
    (applyProviderRefundUpdate provider update account).Follows store protocol ⟨none, .heard body⟩
      (fun _ => Calm none) (fun _ => Calm none) := by
  unfold applyProviderRefundUpdate
  rw [bind_eq, follows_bind]
  refine findUpdatedRefund_follows hUpdate (Calm.intro rfl) fun refund => ?_
  simp only [bind_eq, follows_bind]
  refine follows_quiet rfl rfl (fun payment => ?_) fun _ => Calm.intro rfl
  split
  · exact Calm.intro rfl
  · rw [follows_bind]
    exact applyRefundOutcome_follows

theorem finish_follows {provider : ProviderName} {eventId : String} {processedAt : Option Time}
    {processingError : Option String} (hph : ph.calm = true) :
    (eventOp (.finish provider eventId processedAt processingError)).Follows store protocol ⟨L, ph⟩
      (fun _ => Calm L) (fun _ => Calm L) :=
  follows_quiet rfl hph (fun _ => Calm.intro hph) fun _ => Calm.intro hph

theorem emit_follows {order : Option Order} {status : PaymentStatus} (hph : ph.calm = true) :
    Prog.Follows store protocol (match order with
      | none => pure ()
      | some order => orderOp (.emit order status none) : Promise Unit) ⟨L, ph⟩
      (fun _ => Calm L) (fun _ => Calm L) := by
  cases order with
  | none => exact Calm.intro hph
  | some order => exact follows_quiet rfl hph (fun _ => Calm.intro hph) fun _ => Calm.intro hph

theorem applyPaymentStatusTransition_follows {payment : Payment} {status : PaymentStatus}
    (hMove : ∀ a w, Move (.payment (.transition payment status)) a w ⟨none, ph⟩ ⟨none, .idle⟩) :
    (applyPaymentStatusTransition payment status).Follows store protocol ⟨none, ph⟩
      (fun _ => Calm none) (fun _ => Calm none) := by
  unfold applyPaymentStatusTransition
  rw [bind_eq, follows_bind]
  refine follows_call.mpr fun a w => ⟨_, hMove a w, ?_⟩
  cases (store.perform _ a w).1 with
  | error _ => exact Calm.intro rfl
  | ok order => exact emit_follows rfl

theorem applyPaymentEvent_follows {provider : ProviderName} {body : WebhookBody} {event : ProviderWebhookEvent}
    {account : Option Id} (hSays : provider = .stripe → body.Says event.providerRef event.status) :
    (applyPaymentEvent provider event account).Follows store protocol ⟨none, .heard body⟩
      (fun _ => Calm none) (fun _ => Calm none) := by
  unfold applyPaymentEvent
  rw [bind_eq, follows_bind]
  refine follows_total fun a w => ?_
  cases hFind : w.payments.find? fun p => p.provider = provider && p.providerRef = some event.providerRef &&
      account.all (p.restaurantPaymentAccountId = some ·) with
  | none => exact ⟨none, _, by rw [← hFind]; rfl, .quiet rfl rfl, finish_follows rfl⟩
  | some payment =>
    cases hValid : isValidPaymentTransition payment.status event.status with
    | false =>
      refine ⟨some payment, _, by rw [← hFind]; rfl, .quiet rfl rfl, ?_⟩
      simp only [hValid, Bool.not_false, if_true, bind_eq, follows_bind]
      exact dateNow_calm rfl fun now => finish_follows rfl
    | true =>
      refine ⟨some payment, _, by rw [← hFind]; rfl, .matchPayment hFind hSays hValid, ?_⟩
      simp only [hValid, Bool.not_true, Bool.false_eq_true, if_false, bind_eq, follows_bind]
      refine (applyPaymentStatusTransition_follows fun a w => .transition hValid).mono ?_ fun _ _ h => h
      rintro _ ⟨_, ph⟩ ⟨rfl, hph⟩
      exact dateNow_calm hph fun now => finish_follows hph

/-- What the event that a route read off `body` is about. -/
structure EventOf (body : WebhookBody) (provider : ProviderName) (event : ProviderWebhookEvent) : Prop where
  refund : ∀ update, event.refund = some update → parseStripeRefundEvent body.stripe = some update
  payment : event.refund = none → provider = .stripe → body.Says event.providerRef event.status

theorem processProviderEvent_follows {provider : ProviderName} {body : WebhookBody} {event : ProviderWebhookEvent}
    {account : Option Id} (hEvent : EventOf body provider event) :
    (processProviderEvent provider event account).Follows store protocol ⟨none, .heard body⟩
      (fun _ => Calm none) (fun _ => Calm none) := by
  unfold processProviderEvent
  simp only [bind_eq, follows_bind, follows_attempt]
  refine follows_quiet rfl rfl (fun _ => ?_) fun err => ?_
  · unfold applyProviderEvent
    split
    · rename_i update hRefund
      simp only [bind_eq, follows_bind]
      refine (applyProviderRefundUpdate_follows (hEvent.refund update hRefund)).mono ?_ fun _ _ h => h
      rintro _ ⟨_, ph⟩ ⟨rfl, hph⟩
      exact dateNow_calm hph fun now => finish_follows hph
    · rename_i hRefund
      exact applyPaymentEvent_follows (hEvent.payment hRefund)
  · split <;> exact Calm.intro rfl

theorem truthy_eq_some {s : Option String} {t : String} (h : truthy s = some t) : s = some t := by
  unfold truthy at h
  exact (Option.filter_eq_some_iff.mp h).1

theorem eventOf_verified {provider : Provider} {body : WebhookBody} {event : ProviderWebhookEvent}
    (h : provider.verifyWebhookSignature body = some event) : EventOf body provider.name event := by
  unfold Provider.verifyWebhookSignature at h
  cases hName : provider.name with
  | stripe =>
    simp only [hName, verifyStripeSignature, Option.bind_eq_bind, Option.bind_eq_some_iff] at h
    obtain ⟨eventId, -, eventType, hType, session, hSession, id, hId, h⟩ := h
    cases hRefund : parseStripeRefundEvent body.stripe with
    | some refund =>
      simp only [hRefund, Option.some.injEq] at h
      subst h
      refine ⟨fun update hUpdate => ?_, (by rintro ⟨⟩)⟩
      cases hUpdate
      exact hRefund
    | none =>
      simp only [hRefund, Option.some.injEq] at h
      subst h
      exact ⟨(by rintro _ ⟨⟩), fun _ _ =>
        ⟨session, eventType, hSession, truthy_eq_some hId, truthy_eq_some hType, rfl⟩⟩
  | safepay =>
    simp only [hName, Option.bind_eq_bind, Option.bind_eq_some_iff, Option.some.injEq] at h
    obtain ⟨eventId, -, eventType, -, providerRef, -, status, -, rfl⟩ := h
    exact ⟨(by rintro _ ⟨⟩), (by rintro _ ⟨⟩)⟩
  | mock =>
    simp only [hName, Option.bind_eq_bind, Option.bind_eq_some_iff, Option.some.injEq] at h
    obtain ⟨eventId, -, eventType, -, providerRef, -, status, -, rfl⟩ := h
    exact ⟨(by rintro _ ⟨⟩), (by rintro _ ⟨⟩)⟩

theorem receive_follows {Q : Option WebhookBody → Point → Prop} (hph : ph.calm = true)
    (hNone : Q none ⟨L, ph⟩) (hSome : ∀ body, Q (some body) ⟨L, .heard body⟩) :
    (Prog.call Op.receive : Promise (Option WebhookBody)).Follows store protocol ⟨L, ph⟩ Q E := by
  refine follows_total fun a w => ?_
  cases hBody : a.body with
  | none => exact ⟨none, _, by rw [← hBody]; rfl, .quiet rfl hph, hNone⟩
  | some body => exact ⟨some body, _, by rw [← hBody]; rfl, .hear hph hBody, hSome body⟩

theorem handleProviderWebhook_follows {env : Env} {name : ProviderName} (hph : ph.calm = true) :
    (handleProviderWebhook env name).Follows store protocol ⟨none, ph⟩ (fun _ => Calm none) (fun _ => Calm none) := by
  unfold handleProviderWebhook
  split
  · exact Calm.intro hph
  · split
    · exact Calm.intro hph
    · rename_i provider _
      rw [bind_eq, follows_bind]
      refine receive_follows hph (Calm.intro hph) fun body => ?_
      cases hEvent : provider.verifyWebhookSignature body with
      | none =>
        simp only [Option.bind_some, hEvent]
        exact Calm.intro rfl
      | some event =>
        simp only [Option.bind_some, hEvent]
        exact processProviderEvent_follows (eventOf_verified hEvent)

theorem noteFirstWebhook_follows {account : RestaurantPaymentAccount} {Q : Unit → Point → Prop}
    (hph : ph.calm = true) (hOk : Q () ⟨L, ph⟩) (hErr : ∀ e, E e ⟨L, ph⟩) :
    (noteFirstWebhook account).Follows store protocol ⟨L, ph⟩ Q E := by
  unfold noteFirstWebhook
  refine follows_onlyIf (fun _ => ?_) fun _ => hOk
  rw [bind_eq, follows_bind]
  exact dateNow_calm hph fun now => follows_quiet rfl hph (fun _ => hOk) hErr

theorem handleRestaurantAccountWebhook_follows {env : Env} {name : ProviderName} {accountId : Id}
    (hph : ph.calm = true) :
    (handleRestaurantAccountWebhook env name accountId).Follows store protocol ⟨none, ph⟩
      (fun _ => Calm none) (fun _ => Calm none) := by
  unfold handleRestaurantAccountWebhook
  split
  · exact Calm.intro hph
  · rw [bind_eq, follows_bind]
    refine follows_quiet rfl hph (fun account => ?_) fun _ => Calm.intro hph
    cases account with
    | none => exact Calm.intro hph
    | some account =>
      dsimp only
      split
      · exact Calm.intro hph
      · rw [bind_eq, follows_bind]
        refine follows_ofExcept_calm (fun provider => ?_) fun _ => Calm.intro hph
        rw [bind_eq, follows_bind]
        refine receive_follows hph (Calm.intro hph) fun body => ?_
        cases hEvent : provider.verifyWebhookSignature body with
        | none =>
          simp only [Option.bind_some, hEvent]
          exact Calm.intro rfl
        | some event =>
          simp only [Option.bind_some, hEvent, bind_eq, follows_bind]
          exact noteFirstWebhook_follows rfl (processProviderEvent_follows (eventOf_verified hEvent))
            fun _ => Calm.intro rfl

theorem processAccountEvent_follows {loaded : RestaurantPaymentAccount} {eventId eventType : String}
    {object : Option StripeObject} (hph : ph.calm = true) :
    (processAccountEvent loaded eventId eventType object).Follows store protocol ⟨none, ph⟩
      (fun _ => Calm none) (fun _ => Calm none) := by
  unfold processAccountEvent
  simp only [bind_eq, follows_bind, follows_attempt]
  refine follows_quiet rfl hph (fun _ => ?_) fun err => ?_
  · have hFinish : dateNow.Follows store protocol ⟨none, ph⟩
        (fun now pt => (eventOp (.finish .stripe eventId (some now) none)).Follows store protocol pt
          (fun _ => Calm none) (fun _ => Calm none)) (fun _ => Calm none) :=
      dateNow_calm hph fun now => finish_follows hph
    have hSave : ∀ account : RestaurantPaymentAccount,
        (accountOp (.save loaded account)).Follows store protocol ⟨none, ph⟩
          (fun _ pt => dateNow.Follows store protocol pt
            (fun now pt => (eventOp (.finish .stripe eventId (some now) none)).Follows store protocol pt
              (fun _ => Calm none) (fun _ => Calm none)) (fun _ => Calm none)) (fun _ => Calm none) :=
      fun account => follows_quiet rfl hph (fun _ => hFinish) fun _ => Calm.intro hph
    unfold applyAccountEvent
    split
    · split
      · exact hSave _
      · exact hFinish
    · exact hSave _
  · split <;> exact Calm.intro hph

theorem processConnectEvent_follows {account : RestaurantPaymentAccount} {body : WebhookBody}
    {eventId eventType : String} (hType : body.stripe.type = some eventType) :
    (processConnectEvent account body.stripe eventId eventType).Follows store protocol ⟨none, .heard body⟩
      (fun _ => Calm none) (fun _ => Calm none) := by
  unfold processConnectEvent
  split
  · cases hSession : body.stripe.object.bind fun session => (truthy session.id).map fun id => (session, id) with
    | none => exact Calm.intro rfl
    | some found =>
      obtain ⟨session, id⟩ := found
      simp only [Option.bind_eq_some_iff, Option.map_eq_some_iff, Prod.mk.injEq] at hSession
      obtain ⟨_, hObject, _, hId, rfl, rfl⟩ := hSession
      dsimp only
      rw [bind_eq, follows_bind]
      refine noteFirstWebhook_follows rfl (processProviderEvent_follows ⟨(by rintro _ ⟨⟩), fun _ _ => ?_⟩)
        fun _ => Calm.intro rfl
      exact ⟨_, eventType, hObject, truthy_eq_some hId, hType, rfl⟩
  · cases hRefund : parseStripeRefundEvent body.stripe with
    | some refund =>
      refine processProviderEvent_follows ⟨fun update hUpdate => ?_, (by rintro ⟨⟩)⟩
      cases hUpdate
      exact hRefund
    | none =>
      dsimp only
      split
      · exact processAccountEvent_follows rfl
      · exact Calm.intro rfl

theorem handleStripeConnectWebhook_follows {env : Env} (hph : ph.calm = true) :
    (handleStripeConnectWebhook env).Follows store protocol ⟨none, ph⟩ (fun _ => Calm none) (fun _ => Calm none) := by
  unfold handleStripeConnectWebhook
  split
  · exact Calm.intro hph
  · rw [bind_eq, follows_bind]
    refine receive_follows hph (Calm.intro hph) fun body => ?_
    dsimp only
    split
    · rename_i eventId eventType connectedAccountId hId hType hAccount
      rw [bind_eq, follows_bind]
      refine follows_quiet rfl rfl (fun account => ?_) fun _ => Calm.intro rfl
      cases account with
      | none => exact Calm.intro rfl
      | some account => exact processConnectEvent_follows (truthy_eq_some hType)
    · exact Calm.intro rfl

/-! ## Charges -/

theorem resolveRestaurantPaymentProvider_follows {env : Env} {restaurantId : Id} {Q : Option Provider → Point → Prop}
    (hph : ph.calm = true) (hOk : ∀ v, Q v ⟨L, ph⟩) (hErr : ∀ e, E e ⟨L, ph⟩) :
    (resolveRestaurantPaymentProvider env restaurantId).Follows store protocol ⟨L, ph⟩ Q E := by
  unfold resolveRestaurantPaymentProvider
  rw [bind_eq, follows_bind]
  refine follows_quiet rfl hph (fun account => ?_) hErr
  cases account with
  | none => exact hOk none
  | some account =>
    dsimp only
    rw [bind_eq, follows_bind]
    exact follows_ofExcept_calm (fun provider => hOk (some provider)) hErr

theorem chargeProviderFor_follows {env : Env} {restaurant : Restaurant} {Q : Provider → Point → Prop}
    (hph : ph.calm = true) (hOk : ∀ v, Q v ⟨L, ph⟩) (hErr : ∀ e, E e ⟨L, ph⟩) :
    (chargeProviderFor env restaurant).Follows store protocol ⟨L, ph⟩ Q E := by
  unfold chargeProviderFor
  rw [bind_eq, follows_bind]
  refine follows_ofExcept_calm (fun pooled => ?_) hErr
  rw [bind_eq, follows_bind]
  refine resolveRestaurantPaymentProvider_follows hph (fun own => ?_) hErr
  cases own with
  | some own => exact hOk own
  | none =>
    dsimp only
    split
    · split
      · exact hErr _
      · exact follows_ofExcept_calm hOk hErr
    · exact hOk pooled

theorem insertPayment_follows {draft : Payment} {restaurantId : Id} {idempotencyKey : String} (hph : ph.calm = true)
    (hStatus : draft.status.inFlight = true) (hTotal : draft.totalRefunded = 0) :
    (insertPayment draft restaurantId idempotencyKey).Follows store protocol ⟨L, ph⟩
      (fun _ => Calm L) (fun _ => Calm L) := by
  unfold insertPayment
  simp only [bind_eq, follows_bind, follows_attempt]
  refine follows_call.mpr fun a w => ⟨_, .charge hph hStatus hTotal, ?_⟩
  cases (store.perform _ a w).1 with
  | ok payment => exact Calm.intro rfl
  | error err =>
    dsimp only
    split
    · rw [follows_bind]
      refine follows_quiet rfl rfl (fun winner => ?_) fun _ => Calm.intro rfl
      cases winner <;> exact Calm.intro rfl
    · exact Calm.intro rfl

theorem openIntent_follows {env : Env} {input : CreatePaymentInput} {order : Order} (hph : ph.calm = true) :
    (openIntent env input order).Follows store protocol ⟨L, ph⟩ (fun _ => Calm L) (fun _ => Calm L) := by
  unfold openIntent
  rw [bind_eq, follows_bind]
  refine follows_quiet rfl hph (fun restaurant => ?_) fun _ => Calm.intro hph
  cases restaurant with
  | none => exact Calm.intro hph
  | some restaurant =>
    dsimp only
    split
    · exact Calm.intro hph
    · rw [bind_eq, follows_bind]
      refine chargeProviderFor_follows hph (fun provider => ?_) fun _ => Calm.intro hph
      split
      · exact Calm.intro hph
      · rw [bind_eq, follows_bind]
        exact follows_quiet rfl hph (fun _ => insertPayment_follows hph rfl rfl) fun _ => Calm.intro hph

theorem createPaymentForOrder_follows {env : Env} {input : CreatePaymentInput} (hph : ph.calm = true) :
    (createPaymentForOrder env input).Follows store protocol ⟨L, ph⟩ (fun _ => Calm L) (fun _ => Calm L) := by
  unfold createPaymentForOrder
  rw [bind_eq, follows_bind]
  refine follows_quiet rfl hph (fun existing => ?_) fun _ => Calm.intro hph
  cases existing with
  | some existing => exact Calm.intro hph
  | none =>
    dsimp only
    rw [bind_eq, follows_bind]
    refine follows_quiet rfl hph (fun order => ?_) fun _ => Calm.intro hph
    cases order with
    | none => exact Calm.intro hph
    | some order =>
      dsimp only
      split
      · exact Calm.intro hph
      · split
        · exact Calm.intro hph
        · split
          · exact Calm.intro hph
          · rw [bind_eq, follows_bind]
            refine follows_quiet rfl hph (fun reusable => ?_) fun _ => Calm.intro hph
            cases reusable with
            | some reusable => exact Calm.intro hph
            | none => exact openIntent_follows hph

theorem getPosTerminalProvider_follows {env : Env} {Q : Provider → Point → Prop} (hOk : ∀ v, Q v ⟨L, ph⟩)
    (hErr : ∀ e, E e ⟨L, ph⟩) : (getPosTerminalProvider env).Follows store protocol ⟨L, ph⟩ Q E := by
  unfold getPosTerminalProvider
  split
  · exact hOk _
  · exact hErr _

theorem openTerminalPayment_follows {env : Env} {input : CreatePosTerminalInput} {order : Order}
    (hph : ph.calm = true) :
    (openTerminalPayment env input order).Follows store protocol ⟨L, ph⟩ (fun _ => Calm L) (fun _ => Calm L) := by
  unfold openTerminalPayment
  rw [bind_eq, follows_bind]
  refine follows_quiet rfl hph (fun restaurant => ?_) fun _ => Calm.intro hph
  cases restaurant with
  | none => exact Calm.intro hph
  | some restaurant =>
    dsimp only
    split
    · exact Calm.intro hph
    · rw [bind_eq, follows_bind]
      refine getPosTerminalProvider_follows (fun provider => ?_) fun _ => Calm.intro hph
      rw [bind_eq, follows_bind]
      exact follows_quiet rfl hph (fun _ => insertPayment_follows hph rfl rfl) fun _ => Calm.intro hph

theorem createPosTerminalPayment_follows {env : Env} {input : CreatePosTerminalInput} (hph : ph.calm = true) :
    (createPosTerminalPayment env input).Follows store protocol ⟨L, ph⟩ (fun _ => Calm L) (fun _ => Calm L) := by
  unfold createPosTerminalPayment
  rw [bind_eq, follows_bind]
  refine follows_quiet rfl hph (fun existing => ?_) fun _ => Calm.intro hph
  cases existing with
  | some existing => exact Calm.intro hph
  | none =>
    dsimp only
    rw [bind_eq, follows_bind]
    refine follows_quiet rfl hph (fun order => ?_) fun _ => Calm.intro hph
    cases order with
    | none => exact Calm.intro hph
    | some order =>
      dsimp only
      split
      · exact Calm.intro hph
      · split
        · exact Calm.intro hph
        · split
          · exact Calm.intro hph
          · rw [bind_eq, follows_bind]
            refine follows_quiet rfl hph (fun reusable => ?_) fun _ => Calm.intro hph
            cases reusable with
            | some reusable => exact Calm.intro hph
            | none => exact openTerminalPayment_follows hph

theorem retrieve_follows {provider : Provider} {payment : Payment} {Q : SessionReport → Point → Prop}
    (hph : ph.calm = true) (hErr : ∀ e, E e ⟨L, ph⟩)
    (hSame : ∀ report : SessionReport,
      isValidPaymentTransition payment.status (provider.snapshotStatus report) = false → Q report ⟨L, ph⟩)
    (hChange : ∀ report : SessionReport,
      isValidPaymentTransition payment.status (provider.snapshotStatus report) = true →
        Q report ⟨L, .judging payment (provider.snapshotStatus report)⟩) :
    (providerOp (.retrieve provider payment.providerRef)).Follows store protocol ⟨L, ph⟩ Q E := by
  refine follows_call.mpr fun a w => ?_
  simp only [Op.perform, ProviderOp.perform]
  cases hAnswer : a.report with
  | error err => exact ⟨_, .quiet rfl hph, hErr err⟩
  | ok report =>
    cases hValid : isValidPaymentTransition payment.status (provider.snapshotStatus report) with
    | false => exact ⟨_, .quiet rfl hph, hSame report hValid⟩
    | true => exact ⟨_, .retrieved hph rfl hAnswer hValid, hChange report hValid⟩

theorem reconcilePayment_follows {env : Env} {payment : Payment} (hph : ph.calm = true) :
    (reconcilePayment env payment).Follows store protocol ⟨none, ph⟩ (fun _ => Calm none) (fun _ => Calm none) := by
  have hGo : ∀ account : Option RestaurantPaymentAccount, Prog.Follows store protocol
      (if payment.restaurantPaymentAccountId.isSome && account.isNone then pure ()
      else do
        let provider ← .ofExcept (retrieveProvider env payment account)
        let report : SessionReport ← providerOp (.retrieve provider payment.providerRef)
        let status := provider.snapshotStatus report
        if status = payment.status then pure ()
        else if !isValidPaymentTransition payment.status status then pure ()
        else applyPaymentStatusTransition payment status : Promise Unit) ⟨none, ph⟩
      (fun _ => Calm none) (fun _ => Calm none) := by
    intro account
    split
    · exact Calm.intro hph
    · rw [bind_eq, follows_bind]
      refine follows_ofExcept_calm (fun provider => ?_) fun _ => Calm.intro hph
      rw [bind_eq, follows_bind]
      refine retrieve_follows hph (fun _ => Calm.intro hph) (fun report hValid => ?_) fun report hValid => ?_
      · simp only [hValid, Bool.not_false, if_true, ite_self]
        exact Calm.intro hph
      · dsimp only
        split
        · exact Calm.intro rfl
        · simp only [hValid, Bool.not_true, Bool.false_eq_true, if_false]
          exact applyPaymentStatusTransition_follows fun a w => .transition hValid
  unfold reconcilePayment findPaymentAccount
  rw [bind_eq, follows_bind]
  split
  · exact hGo none
  · exact follows_quiet rfl hph hGo fun _ => Calm.intro hph

theorem reconcilePayments_follows {env : Env} {payments : List Payment} (hph : ph.calm = true) :
    (reconcilePayments env payments).Follows store protocol ⟨none, ph⟩ (fun _ => Calm none) (fun _ => Calm none) := by
  induction payments generalizing ph with
  | nil => exact Calm.intro hph
  | cons payment rest ih =>
    unfold reconcilePayments
    simp only [bind_eq, follows_bind, follows_attempt]
    refine (reconcilePayment_follows hph).mono ?_ ?_
    · rintro _ ⟨_, ph⟩ ⟨rfl, hph⟩
      exact ih hph
    · rintro _ ⟨_, ph⟩ ⟨rfl, hph⟩
      exact ih hph

theorem reconcileStalePayments_follows {env : Env} (hph : ph.calm = true) :
    (reconcileStalePayments env).Follows store protocol ⟨none, ph⟩ (fun _ => Calm none) (fun _ => Calm none) := by
  unfold reconcileStalePayments
  rw [bind_eq, follows_bind]
  refine dateNow_calm hph fun now => ?_
  rw [bind_eq, follows_bind]
  exact follows_quiet rfl hph (fun stale => reconcilePayments_follows hph) fun _ => Calm.intro hph

theorem loadTerminalPayment_follows {restaurantId orderId paymentId : Id} {Q : Payment → Point → Prop}
    (hph : ph.calm = true) (hOk : ∀ v, Q v ⟨L, ph⟩) (hErr : ∀ e, E e ⟨L, ph⟩) :
    (loadTerminalPayment restaurantId orderId paymentId).Follows store protocol ⟨L, ph⟩ Q E := by
  unfold loadTerminalPayment
  rw [bind_eq, follows_bind]
  refine follows_quiet rfl hph (fun payment => ?_) hErr
  cases payment with
  | none => exact hErr _
  | some payment => exact hOk payment

theorem getPosTerminalPaymentStatus_follows {env : Env} {restaurantId orderId paymentId : Id}
    (hph : ph.calm = true) :
    (getPosTerminalPaymentStatus env restaurantId orderId paymentId).Follows store protocol ⟨none, ph⟩
      (fun _ => Calm none) (fun _ => Calm none) := by
  unfold getPosTerminalPaymentStatus
  rw [bind_eq, follows_bind]
  refine loadTerminalPayment_follows hph (fun payment => ?_) fun _ => Calm.intro hph
  split
  · exact Calm.intro hph
  · simp only [bind_eq, follows_bind, follows_attempt]
    refine getPosTerminalProvider_follows (fun provider => ?_) fun _ => Calm.intro hph
    refine retrieve_follows hph (fun _ => Calm.intro hph) (fun report hValid => ?_) fun report hValid => ?_
    · simp only [hValid, Bool.false_eq_true, and_false, if_false]
      exact Calm.intro hph
    · split
      · rw [follows_bind]
        refine (applyPaymentStatusTransition_follows fun a w => .transition hValid).mono ?_ fun _ _ h => h
        rintro _ ⟨_, ph⟩ ⟨rfl, hph⟩
        exact loadTerminalPayment_follows hph (fun _ => Calm.intro hph) fun _ => Calm.intro hph
      · exact Calm.intro rfl

theorem cancelAtTerminal_follows {env : Env} {providerRef : Option String} {Q : Unit → Point → Prop}
    (hph : ph.calm = true) (hOk : Q () ⟨L, ph⟩) (hErr : ∀ e, E e ⟨L, ph⟩) :
    (cancelAtTerminal env providerRef).Follows store protocol ⟨L, ph⟩ Q E := by
  unfold cancelAtTerminal
  split
  · exact hOk
  · rw [bind_eq, follows_bind]
    exact getPosTerminalProvider_follows (fun _ => follows_quiet rfl hph (fun _ => hOk) hErr) hErr

theorem cancelPosTerminalPayment_follows {env : Env} {restaurantId orderId paymentId : Id} (hph : ph.calm = true) :
    (cancelPosTerminalPayment env restaurantId orderId paymentId).Follows store protocol ⟨none, ph⟩
      (fun _ => Calm none) (fun _ => Calm none) := by
  unfold cancelPosTerminalPayment
  rw [bind_eq, follows_bind]
  refine loadTerminalPayment_follows hph (fun payment => ?_) fun _ => Calm.intro hph
  split
  · exact Calm.intro hph
  · simp only [bind_eq, follows_bind]
    have hLoad : ∀ ph : Phase, ph.calm = true →
        (loadTerminalPayment restaurantId orderId paymentId).Follows store protocol ⟨none, ph⟩
          (fun _ => Calm none) (fun _ => Calm none) := fun ph hph =>
      loadTerminalPayment_follows hph (fun _ => Calm.intro hph) fun _ => Calm.intro hph
    refine cancelAtTerminal_follows hph ?_ fun _ => Calm.intro hph
    refine follows_onlyIf (fun hValid => ?_) fun _ => hLoad ph hph
    refine (applyPaymentStatusTransition_follows fun a w => .cancel hph hValid).mono ?_ fun _ _ h => h
    rintro _ ⟨_, ph⟩ ⟨rfl, hph⟩
    exact hLoad ph hph

/-! ## Accounts -/

theorem findConnectable_follows {restaurantId : Id} {Q : Restaurant → Point → Prop} (hph : ph.calm = true)
    (hOk : ∀ v, Q v ⟨L, ph⟩) (hErr : ∀ e, E e ⟨L, ph⟩) :
    (findConnectable restaurantId).Follows store protocol ⟨L, ph⟩ Q E := by
  unfold findConnectable
  rw [bind_eq, follows_bind]
  refine follows_quiet rfl hph (fun restaurant => ?_) hErr
  cases restaurant with
  | none => exact hErr _
  | some restaurant =>
    dsimp only
    split
    · exact hErr _
    · exact hOk restaurant

theorem connectRestaurantPaymentAccount_follows {env : Env} {restaurantId userId : Id}
    {encryptedCredentials : String} (hph : ph.calm = true) :
    (connectRestaurantPaymentAccount env restaurantId userId encryptedCredentials).Follows store protocol ⟨L, ph⟩
      (fun _ => Calm L) (fun _ => Calm L) := by
  unfold connectRestaurantPaymentAccount
  simp only [bind_eq, follows_bind]
  refine findConnectable_follows hph (fun restaurant => ?_) fun _ => Calm.intro hph
  refine follows_ofExcept_calm (fun provider => ?_) fun _ => Calm.intro hph
  refine follows_quiet rfl hph (fun verified => ?_) fun _ => Calm.intro hph
  split
  · rw [follows_bind]
    exact follows_quiet rfl hph (fun _ => Calm.intro hph) fun _ => Calm.intro hph
  · rw [follows_bind]
    refine follows_quiet rfl hph (fun _ => ?_) fun _ => Calm.intro hph
    rw [follows_bind]
    refine dateNow_calm hph fun now => ?_
    rw [follows_bind]
    refine follows_quiet rfl hph (fun saved => ?_) fun _ => Calm.intro hph
    exact follows_quiet rfl hph (fun _ => Calm.intro hph) fun _ => Calm.intro hph

theorem resumeOrCreate_follows {restaurantId : Id} {country email : String} {resumable : Option RestaurantPaymentAccount}
    {Q : RestaurantPaymentAccount → Point → Prop} (hph : ph.calm = true) (hOk : ∀ v, Q v ⟨L, ph⟩)
    (hErr : ∀ e, E e ⟨L, ph⟩) :
    (resumeOrCreate restaurantId country email resumable).Follows store protocol ⟨L, ph⟩ Q E := by
  cases resumable with
  | some account => exact hOk account
  | none =>
    simp only [resumeOrCreate, bind_eq, follows_bind]
    exact follows_quiet rfl hph (fun _ => follows_quiet rfl hph hOk hErr) hErr

theorem connectStripeConnect_follows {restaurantId : Id} (hph : ph.calm = true) :
    (connectStripeConnect restaurantId).Follows store protocol ⟨L, ph⟩ (fun _ => Calm L) (fun _ => Calm L) := by
  unfold connectStripeConnect
  simp only [bind_eq, follows_bind]
  refine findConnectable_follows hph (fun restaurant => ?_) fun _ => Calm.intro hph
  split
  · exact Calm.intro hph
  · exact Calm.intro hph
  · simp only [follows_bind]
    refine follows_quiet rfl hph (fun resumable => ?_) fun _ => Calm.intro hph
    refine resumeOrCreate_follows hph (fun account => ?_) fun _ => Calm.intro hph
    exact follows_quiet rfl hph (fun _ => Calm.intro hph) fun _ => Calm.intro hph

theorem syncStripeConnectStatus_follows {restaurantId userId : Id} (hph : ph.calm = true) :
    (syncStripeConnectStatus restaurantId userId).Follows store protocol ⟨L, ph⟩
      (fun _ => Calm L) (fun _ => Calm L) := by
  unfold syncStripeConnectStatus
  rw [bind_eq, follows_bind]
  refine follows_quiet rfl hph (fun account => ?_) fun _ => Calm.intro hph
  cases account with
  | none => exact Calm.intro hph
  | some loaded =>
    dsimp only
    split
    · exact Calm.intro hph
    · simp only [bind_eq, follows_bind]
      refine follows_quiet rfl hph (fun report => ?_) fun _ => Calm.intro hph
      refine dateNow_calm hph fun now => ?_
      have hAudit : (Prog.onlyIf (resolveConnectAccountStatus report = .active ∧ loaded.status ≠ .active)
          (recordAuditEvent .accountConnected loaded.id userId)).Follows store protocol ⟨L, ph⟩
          (fun _ => Calm L) (fun _ => Calm L) :=
        follows_onlyIf (fun _ => follows_quiet rfl hph (fun _ => Calm.intro hph) fun _ => Calm.intro hph)
          fun _ => Calm.intro hph
      have hSave : ∀ account : RestaurantPaymentAccount,
          (accountOp (.save loaded account)).Follows store protocol ⟨L, ph⟩
            (fun _ pt => (Prog.onlyIf (resolveConnectAccountStatus report = .active ∧ loaded.status ≠ .active)
              (recordAuditEvent .accountConnected loaded.id userId)).Follows store protocol pt
              (fun _ => Calm L) (fun _ => Calm L)) (fun _ => Calm L) :=
        fun account => follows_quiet rfl hph (fun _ => hAudit) fun _ => Calm.intro hph
      exact follows_onlyIf (fun _ => follows_quiet rfl hph (fun _ => hSave _) fun _ => Calm.intro hph)
        fun _ => hSave _

theorem disconnectRestaurantPaymentAccount_follows {restaurantId userId : Id} (hph : ph.calm = true) :
    (disconnectRestaurantPaymentAccount restaurantId userId).Follows store protocol ⟨L, ph⟩
      (fun _ => Calm L) (fun _ => Calm L) := by
  unfold disconnectRestaurantPaymentAccount
  rw [bind_eq, follows_bind]
  refine follows_quiet rfl hph (fun account => ?_) fun _ => Calm.intro hph
  cases account with
  | none => exact Calm.intro hph
  | some loaded =>
    simp only [bind_eq, follows_bind]
    refine follows_quiet rfl hph (fun _ => ?_) fun _ => Calm.intro hph
    exact follows_quiet rfl hph (fun _ => Calm.intro hph) fun _ => Calm.intro hph

/-! ## Orders -/

theorem performs_quiet {o : Op} (h : o.quiet = true) : (Prog.call o : Promise o.Resp).Performs fun o => o.quiet = true :=
  performs_call h

theorem follows_of_quiet {p : Promise α} (h : p.Performs fun o => o.quiet = true) (hph : ph.calm = true) :
    p.Follows store protocol ⟨L, ph⟩ (fun _ => Calm L) (fun _ => Calm L) := by
  induction p with
  | ret a => exact Calm.intro hph
  | raise e => exact Calm.intro hph
  | await o k ih => exact fun a w => ⟨⟨L, ph⟩, .quiet h.1 hph, ih _ (h.2 _)⟩

theorem recordStatusChange_quiet (order : Order) (nextStatus : OrderStatus) (actor : Option ActorContext) :
    (recordStatusChange order nextStatus actor).Performs fun o => o.quiet = true := by
  cases actor with
  | none => trivial
  | some actor => exact performs_quiet rfl

theorem applyOrderStatusTransition_quiet (orderId restaurantId : Id) (nextStatus : OrderStatus)
    (actor : Option ActorContext) :
    (applyOrderStatusTransition orderId restaurantId nextStatus actor).Performs fun o => o.quiet = true := by
  unfold applyOrderStatusTransition
  refine (performs_quiet rfl).bind fun order => ?_
  cases order with
  | none => trivial
  | some order =>
    dsimp only
    split
    · trivial
    · split
      · trivial
      · refine (performs_quiet rfl).bind fun now => (performs_quiet rfl).bind fun _ => ?_
        refine (performs_onlyIf (performs_quiet rfl)).bind fun _ => (recordStatusChange_quiet _ _ _).bind fun _ => ?_
        exact (performs_onlyIf (performs_quiet rfl)).bind fun _ => trivial

theorem updateOrderStatus_quiet (restaurantId id : Id) (nextStatus : OrderStatus) (actor : ActorContext) :
    (updateOrderStatus restaurantId id nextStatus actor).Performs fun o => o.quiet = true :=
  (applyOrderStatusTransition_quiet _ _ _ _).bind fun _ => performs_quiet rfl

theorem advanceOrderForDeliveryStatus_quiet (orderId restaurantId : Id) (deliveryStatus : DeliveryStatus)
    (actor : Option ActorContext) :
    (advanceOrderForDeliveryStatus orderId restaurantId deliveryStatus actor).Performs fun o => o.quiet = true := by
  unfold advanceOrderForDeliveryStatus
  split
  · trivial
  · refine Performs.bind (Performs.attempt ?_) fun _ => trivial
    refine (performs_quiet rfl).bind fun order => ?_
    cases order with
    | none => trivial
    | some order =>
      refine (performs_onlyIf ?_).bind fun _ => performs_onlyIf ?_
      · exact (applyOrderStatusTransition_quiet _ _ _ _).bind fun _ => performs_quiet rfl
      · exact (applyOrderStatusTransition_quiet _ _ _ _).bind fun _ => performs_quiet rfl

theorem cancelMyOrder_quiet (id userId : Id) : (cancelMyOrder id userId).Performs fun o => o.quiet = true := by
  unfold cancelMyOrder
  refine (performs_quiet rfl).bind fun order => ?_
  cases order with
  | none => trivial
  | some order =>
    dsimp only
    split
    · trivial
    · split
      · trivial
      · refine (performs_quiet rfl).bind fun now => (performs_quiet rfl).bind fun _ => ?_
        exact (performs_quiet rfl).bind fun _ => performs_quiet rfl

theorem updateOrderPaymentStatus_quiet (restaurantId id : Id) (paid : Bool) :
    (updateOrderPaymentStatus restaurantId id paid).Performs fun o => o.quiet = true := by
  unfold updateOrderPaymentStatus
  refine (performs_quiet rfl).bind fun existing => ?_
  cases existing with
  | none => trivial
  | some existing =>
    dsimp only
    split
    · trivial
    · split
      · trivial
      · refine (performs_quiet rfl).bind fun order => ?_
        cases order with
        | none => trivial
        | some order => exact performs_quiet rfl

/-! ## Requests -/

theorem answered_follows {p : Promise α} {pt : Point} (h : p.Follows store protocol pt (fun _ => Calm L) E) :
    (answered p).Follows store protocol pt (fun _ => Calm L) E := by
  unfold answered
  rw [follows_bind]
  exact h

theorem Request.program_follows (env : Env) (request : Request) :
    (request.program env).Follows store protocol {} (fun _ => Calm none) (fun _ => Calm none) := by
  have hNamed : ∀ {restaurantId orderId paymentId refundId : Id} {f : Refund → Promise Unit},
      (∀ refund, (f refund).Follows store protocol ⟨none, .seen refund⟩ (fun _ => Calm none) (fun _ => Calm none)) →
      (findPaymentRefund restaurantId orderId paymentId refundId >>= f).Follows store protocol {}
        (fun _ => Calm none) (fun _ => Calm none) := by
    intro restaurantId orderId paymentId refundId f hf
    rw [bind_eq, follows_bind]
    refine (findPaymentRefund_follows rfl).mono ?_ fun _ _ h => h
    rintro refund _ rfl
    exact hf refund
  cases request with
  | refund input => exact answered_follows (refundPayment_follows rfl)
  | checkRefund => exact hNamed fun _ => answered_follows reconcileRefund_follows
  | retryRefund => exact hNamed fun _ => answered_follows reconcileRefund_follows
  | resolveRefund => exact hNamed fun _ => answered_follows resolveHeldRefund_follows
  | providerWebhook name => exact handleProviderWebhook_follows rfl
  | accountWebhook name accountId => exact handleRestaurantAccountWebhook_follows rfl
  | connectWebhook => exact handleStripeConnectWebhook_follows rfl
  | reconcilePayments => exact reconcileStalePayments_follows rfl
  | createPayment input => exact answered_follows (createPaymentForOrder_follows rfl)
  | createTerminalPayment input => exact answered_follows (createPosTerminalPayment_follows rfl)
  | pollTerminalPayment => exact answered_follows (getPosTerminalPaymentStatus_follows rfl)
  | cancelTerminalPayment => exact answered_follows (cancelPosTerminalPayment_follows rfl)
  | connectAccount => exact connectRestaurantPaymentAccount_follows rfl
  | connectStripe => exact connectStripeConnect_follows rfl
  | syncStripe => exact syncStripeConnectStatus_follows rfl
  | disconnectAccount => exact disconnectRestaurantPaymentAccount_follows rfl
  | updateOrderStatus => exact follows_of_quiet (updateOrderStatus_quiet _ _ _ _) rfl
  | advanceOrder => exact follows_of_quiet (advanceOrderForDeliveryStatus_quiet _ _ _ _) rfl
  | cancelMyOrder => exact follows_of_quiet (cancelMyOrder_quiet _ _) rfl
  | updateOrderPaymentStatus => exact follows_of_quiet (updateOrderPaymentStatus_quiet _ _ _) rfl

end RestaurantOs.Payments
