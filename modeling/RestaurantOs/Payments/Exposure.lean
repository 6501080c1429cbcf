import RestaurantOs.Payments.Claims

/-!
# Exposure

The refunds that may cost money at the provider are the exposed ones; their
amounts, with what a failed refund has yet to give back, are within the payment's
total and within its amount.
-/

namespace RestaurantOs.Payments

open Async

def World.refunded (w : World) (paymentId : Id) : ℚ :=
  Tables.total (fun e : ProviderRefund => e.amount)
    (w.ledger.filter fun e => e.paymentId = paymentId && e.status = .succeeded)

def World.unreserved (w : World) (paymentId : Id) : ℚ :=
  Tables.total Refund.amount
    (w.refunds.filter fun r => r.paymentId = paymentId && r.status = .pending && !r.amountReserved)

def World.Backed (w : World) : Prop :=
  ∀ p ∈ w.payments, w.refunded p.id ≤ p.totalRefunded + w.unreserved p.id ∧ w.refunded p.id ≤ p.amount

instance (w : World) : Decidable w.Backed := inferInstanceAs (Decidable (∀ p ∈ w.payments, _ ∧ _))

/-- Nothing has been refunded yet. -/
structure World.Opening (w : World) : Prop where
  consistent : w.Consistent
  refunds : w.refunds = []
  received : w.received = []
  ledger : w.ledger = []
  totals : ∀ p ∈ w.payments, p.totalRefunded = 0 ∧ 0 ≤ p.amount

/-! ## An honest provider -/

def RefundStatus.upTo (reported current : RefundStatus) : Bool :=
  reported = current || (refundTransitions reported).contains current

def ProviderRefund.agrees (e : ProviderRefund) (w : World) (result : ProviderRefundResult) : Bool :=
  result.refundRef = w.refundRefs e.key && result.status.upTo e.status

/-- An answer comes from the refund made under the call's key, a rejected call
has moved nothing and will not, a lookup reports what there is, and a webhook
tells of a refund by its reference and by the key it was made with. -/
def honestProvider (c : State) : Label Answer Event → Bool
  | .run t a =>
    match c.waiting? t with
    | some (.provider (.refundAnswered call)) =>
      match a.refund with
      | .ok result => c.state.ledger.any fun e => e.key = call.request.key && e.agrees c.state result
      | .error err => !err.isRejected || c.state.received.contains call.request
    | some (.provider (.lookupRefund _ _ key ref)) =>
      match a.lookup with
      | .ok (some result) => c.state.ledger.any fun e =>
          (e.key = key || ref = some (c.state.refundRefs e.key)) && e.agrees c.state result &&
            result.status = e.status
      | .ok none => !(c.state.ledger.any fun e => e.key = key)
      | .error _ => true
    | some .receive =>
      match a.body.bind fun body => parseStripeRefundEvent body.stripe with
      | some update => c.state.ledger.any fun e =>
          (update.refundKey = none || update.refundKey = some e.key) && e.agrees c.state update.toProviderRefundResult
      | none => true
    | _ => true
  | _ => true

/-! ## The steps that put money at risk -/

/-- The request is about to reserve, call, release or delete for the refund
`id`. -/
def Op.worksOn (id : Id) : Op → Bool
  | .payment (.reserve _ claim) | .payment (.release _ claim) | .refund (.markReserved claim)
  | .refund (.deleteRefused claim) => claim.id = id
  | .provider (.refundSent call) => call.claim.id = id
  | _ => false

/-- The request has claimed the refund `id` and has not finished with it. -/
def Op.claims (id : Id) : Op → Bool
  | .payment (.reserve _ claim) | .payment (.release _ claim) | .refund (.deleteUnreserved claim)
  | .refund (.markReserved claim) | .refund (.deleteRefused claim) => claim.id = id
  | .provider (.refundSent call) | .provider (.refundAnswered call) => call.claim.id = id && !call.reissue
  | _ => false

/-- Nothing can still be refunded of a counted refund that a person settles as
not refunded. -/
def notRefunded (c : State) (s : Settlement) : Bool :=
  c.state.refunds.all fun r => !(r.id = s.id && r.status = s.source && r.counted) ||
    (r.status = .pending && !(c.waiting.any (Op.worksOn r.id)) && !(c.state.received.any (·.key = r.refundKey)) &&
      !(c.state.ledger.any fun e => e.key = r.refundKey && e.status ≠ .failed))

def careful (c : State) : Label Answer Event → Bool
  | .run t _ =>
    match c.waiting? t with
    | some (.refund (.settle s)) => !(s.byHand && s.target = .failed && s.applies c.state) || notRefunded c s
    | some (.refund (.lease id now _)) =>
      !(c.state.refunds.any fun r => r.id = id && r.status = .pending && r.leaseFree now) ||
        !(c.waiting.any (Op.claims id))
    | _ => true
  | .stop t =>
    match c.waiting? t with
    | some (.refund (.deleteRefused claim)) =>
      !(c.state.refunds.any fun r => r.id = claim.id && r.status = .pending && r.amountReserved)
    | _ => true
  | .event _ => true

def RefundOp.byHand : RefundOp → Bool
  | settle s => s.byHand
  | setDetails _ _ clearUnknown => !clearUnknown
  | _ => false

def NamesOwn (c : State) : Label Answer Event → Prop
  | .run t _ => ∀ op, c.waiting? t = some (.refund op) → op.byHand = true →
    ∀ r ∈ (op.perform c.state).2.refunds, ∀ ref, r.providerRefundRef = some ref →
      (∃ r₀ ∈ c.state.refunds, r₀.id = r.id ∧ r₀.providerRefundRef = some ref) ∨
        ∀ key, c.state.refundRefs key = ref → key = r.refundKey
  | _ => True

/-! ## The provider's books -/

def World.inFlight (w : World) (key : ProviderRefundKey) : Nat := w.received.countP fun r => r.key = key

def World.Recorded (w : World) (key : ProviderRefundKey) : Prop := ∃ e ∈ w.ledger, e.key = key

structure World.Unsent (w : World) (key : ProviderRefundKey) : Prop where
  inFlight : w.inFlight key = 0
  recorded : ¬ w.Recorded key

def World.Stored (w : World) (claim : Refund) : Prop := ∃ s ∈ w.stakes, s.claim = claim.claim

structure Stake.Matches (s : Stake) (r : RefundRequest) : Prop where
  key_eq : s.claim.key = r.key
  paymentId_eq : s.claim.paymentId = r.paymentId
  amount_eq : s.claim.amount = r.amount

/-- A provider's report about the refund of `key`. -/
structure RefundReport.Truthful (w : World) (key : ProviderRefundKey) (report : RefundReport) : Prop where
  ref : ∀ ref, report.refundRef = some ref → ref = w.refundRefs key
  failed : report.status = .failed → ∃ e ∈ w.ledger, e.key = key ∧ e.status = .failed

def Refund.RefOwn (w : World) (r : Refund) : Prop :=
  ∀ ref, r.providerRefundRef = some ref → ∀ key, w.refundRefs key = ref → key = r.refundKey

def Phase.reissues : Phase → Option Id
  | ready call | calling call => if call.reissue then some call.claim.id else none
  | _ => none

def Phase.working : Phase → Option Refund
  | claimed claim | unreserved claim | reserved claim => some claim
  | ready call | calling call | refused call | released call => some call.claim
  | _ => none

/-- What the provider's books and the exposed refunds `S` are like while a
request is working on a refund. -/
def Phase.Safe (S : Id → Prop) (w : World) : Phase → Prop
  | claimed claim | unreserved claim => w.Unsent claim.refundKey
  | reserved claim => w.Unsent claim.refundKey ∧ S claim.id
  | ready call => (call.reissue = false → w.Unsent call.claim.refundKey ∧ S call.claim.id) ∧
      (call.reissue = true → S call.claim.id ∨ w.Recorded call.claim.refundKey)
  | calling call => call.reissue = false →
      (w.inFlight call.claim.refundKey = 1 ∧ ¬ w.Recorded call.claim.refundKey) ∨
        (w.inFlight call.claim.refundKey = 0 ∧ w.Recorded call.claim.refundKey)
  | refused call => w.Unsent call.claim.refundKey ∧ S call.claim.id
  | released call => w.Unsent call.claim.refundKey
  | _ => True

def Phase.Honest (w : World) : Phase → Prop
  | heard body => ∀ update, parseStripeRefundEvent body.stripe = some update →
      ∃ e ∈ w.ledger, update.refundRef = w.refundRefs e.key ∧
        (update.refundKey = none ∨ update.refundKey = some e.key) ∧ (update.status = .failed → e.status = .failed)
  | seen r | held r => r.RefOwn w
  | reporting r report method | decided r report method => method ≠ .manual → report.Truthful w r.refundKey
  | fresh _ latest | leasing _ latest _ => latest.amountReserved = true →
      ∀ s ∈ w.stakes, s.claim.id = latest.id → s.status = .pending → s.reserved = true
  | _ => True

def Phase.refundDue (paymentId : Id) : Phase → ℚ
  | settled before target => if before.paymentId = paymentId ∧ target = .failed ∧ before.counted = true then before.amount else 0
  | owing updated target => if updated.paymentId = paymentId ∧ target = .failed then updated.amount else 0
  | _ => 0

open Classical in
noncomputable def Stake.exposure (S : Id → Prop) (paymentId : Id) (s : Stake) : ℚ :=
  if s.claim.paymentId = paymentId ∧ S s.claim.id then s.claim.amount else 0

def Config.RunsAt (c : State) (pts : List Point) (t : Nat) (pt : Point) : Prop :=
  (∃ th, c.threads[t]? = some th ∧ th.stopped = false) ∧ pts[t]? = some pt

/-- The refunds `S` cover everything that the provider may have refunded or
may still refund. -/
structure Exposed (S : Id → Prop) (c : State) (pts : List Point) : Prop where
  ordered : Ordered c.state pts
  refs : ∀ r ∈ c.state.refunds, r.RefOwn c.state
  honest : ∀ pt ∈ pts, pt.phase.Honest c.state
  ledgerKeys : (c.state.ledger.map fun e => e.key).Nodup
  ledger : ∀ e ∈ c.state.ledger, ∃ s ∈ c.state.stakes, s.Matches e.toRefundRequest ∧
    (S s.claim.id ∨ (e.status = .failed ∧ s.status = .failed))
  received : ∀ r ∈ c.state.received, ∃ s ∈ c.state.stakes, s.Matches r ∧ (S s.claim.id ∨ c.state.Recorded r.key)
  reserved : ∀ s ∈ c.state.stakes, s.status = .pending → s.reserved = true → S s.claim.id ∨
    ∃ t pt call, Config.RunsAt c pts t pt ∧ pt.phase = .released call ∧ call.claim.id = s.claim.id
  stored : ∀ t pt r, Config.RunsAt c pts t pt → pt.phase.working = some r → c.state.Stored r
  safe : ∀ t pt, Config.RunsAt c pts t pt → pt.phase.Safe S c.state
  apart : ∀ t pt id, Config.RunsAt c pts t pt → pt.phase.owner = some id → ∀ pu ∈ pts, pu.phase.reissues ≠ some id
  funded : ∀ p ∈ c.state.payments, Tables.total (Stake.exposure S p.id) c.state.stakes +
    Tables.total (fun pt : Point => pt.phase.refundDue p.id) pts ≤ p.totalRefunded
  within : ∀ p ∈ c.state.payments, Tables.total (Stake.exposure S p.id) c.state.stakes ≤ p.amount

section Frame

variable {S : Id → Prop} {c c' : State} {start pts : List Point} {t : Nat} {a : Answer} {o : Op}
  {th : Thread Op Op.Resp Err World Unit} {k : Except Err o.Resp → Promise Unit} {pt pt' : Point}

theorem Config.RunsAt.of_ran (hRan : store.Ran c t a o th k c') (hPoint : pts[t]? = some pt) :
    Config.RunsAt c pts t pt := ⟨⟨th, hRan.thread, hRan.running⟩, hPoint⟩

theorem Config.RunsAt.cases {u : Nat} {pu : Point} (hRan : store.Ran c t a o th k c')
    (h : Config.RunsAt c' (pts.set t pt') u pu) : (u = t ∧ pu = pt') ∨ (u ≠ t ∧ Config.RunsAt c pts u pu) := by
  obtain ⟨⟨thU, hThread, hRunning⟩, hU⟩ := h
  rcases Tables.getElem?_set_cases hU with hSame | ⟨hNe, hU⟩
  · exact .inl hSame
  · rw [hRan.threads, List.getElem?_set_ne hNe.symm] at hThread
    exact .inr ⟨hNe, ⟨thU, hThread, hRunning⟩, hU⟩

theorem Config.RunsAt.other {u : Nat} {pu : Point} (hRan : store.Ran c t a o th k c') (h : Config.RunsAt c pts u pu)
    (hNe : u ≠ t) : Config.RunsAt c' (pts.set t pt') u pu := by
  obtain ⟨⟨thU, hThread, hRunning⟩, hU⟩ := h
  exact ⟨⟨thU, by rw [hRan.threads, List.getElem?_set_ne hNe.symm]; exact hThread, hRunning⟩,
    by rw [List.getElem?_set_ne hNe.symm]; exact hU⟩

theorem Config.RunsAt.self (hRan : store.Ran c t a o th k c') (hPoint : pts[t]? = some pt) :
    Config.RunsAt c' (pts.set t pt') t pt' :=
  ⟨⟨_, by rw [hRan.threads, Tables.getElem?_set_eq hRan.thread], rfl⟩, Tables.getElem?_set_eq hPoint⟩

end Frame

section Books

variable {w : World} {o : Op} {a : Answer} {pt pt' : Point} {key : ProviderRefundKey}

theorem World.recorded_perform : (o.perform a w).2.Recorded key ↔ w.Recorded key := by
  unfold World.Recorded
  rw [(o.ledger_perform a w).1]

inductive Posts (o : Op) (a : Answer) : Phase → Phase → ProviderRefundKey → Prop
  | send {call} (hOp : o = .provider (.refundSent call)) : Posts o a (.ready call) (.calling call) call.claim.refundKey
  | reject {call ph'} {err : Err} (hOp : o = .provider (.refundAnswered call)) (hAnswer : a.refund = .error err)
      (hRejected : err.isRejected = true) : Posts o a (.calling call) ph' call.claim.refundKey

theorem Op.inbox_quiet (h : o.quiet = true) (l : List RefundRequest) : o.inbox a l = l := by
  cases o with
  | provider op => cases op <;> first | rfl | cases h
  | _ => rfl

theorem Move.posts (h : Move o a w pt pt') : o.inbox a w.received = w.received ∨
    ∃ key, Posts o a pt.phase pt'.phase key := by
  induction h with
  | send => exact .inr ⟨_, .send rfl⟩
  | refused hAnswer hRejected => exact .inr ⟨_, .reject rfl hAnswer hRejected⟩
  | reissueRefused hAnswer hRejected => exact .inr ⟨_, .reject rfl hAnswer hRejected⟩
  | answered hAnswer => exact .inl (by simp only [Op.inbox, hAnswer])
  | unanswered hAnswer hRejected => exact .inl (by simp only [Op.inbox, hAnswer, hRejected, Bool.false_eq_true, if_false])
  | quiet ho | rest ho => exact .inl (Op.inbox_quiet ho _)
  | see hph hRead => exact .inl (Op.inbox_quiet hRead.quiet _)
  | _ => exact .inl rfl

theorem World.inFlight_perform (h : Move o a w pt pt') (hOther : ∀ key', Posts o a pt.phase pt'.phase key' → key' ≠ key) :
    (o.perform a w).2.inFlight key = w.inFlight key := by
  unfold World.inFlight
  rw [o.received_perform a w]
  rcases h.posts with hSame | ⟨key', hPosts⟩
  · rw [hSame]
  · have hNe := hOther key' hPosts
    generalize pt.phase = ph at hPosts
    generalize pt'.phase = ph' at hPosts
    cases hPosts with
    | @send call hOp =>
      subst hOp
      have hKey : call.request.key ≠ key := hNe
      simp [Op.inbox, hKey]
    | @reject call _ err hOp hAnswer hRejected =>
      subst hOp
      have hKey : call.request.key ≠ key := hNe
      simp only [Op.inbox, hAnswer, hRejected, if_true]
      by_cases hMem : call.request ∈ w.received
      · rw [(List.perm_cons_erase hMem).countP_eq, List.countP_cons_of_neg (by simpa using hKey)]
      · rw [List.erase_of_not_mem hMem]

theorem World.Unsent.perform (h : Move o a w pt pt') (hOther : ∀ key', Posts o a pt.phase pt'.phase key' → key' ≠ key)
    (hUnsent : w.Unsent key) : (o.perform a w).2.Unsent key :=
  ⟨(World.inFlight_perform h hOther).trans hUnsent.inFlight, fun hRecorded => hUnsent.recorded ((World.recorded_perform).mp hRecorded)⟩

theorem World.Unsent.not_received (h : w.Unsent key) {r : RefundRequest} (hr : r ∈ w.received) : r.key ≠ key := by
  have hNone := List.countP_eq_zero.mp h.inFlight r hr
  simpa using hNone

end Books

/-! ## The exposed refunds after a move -/

/-- A reservation exposes its refund; a release, and the failure of a counted
refund, end the exposure. -/
def exposedAfter (S : Id → Prop) (o : Op) (pt' : Point) (id : Id) : Prop :=
  match o, pt'.phase with
  | .payment (.reserve _ _), .reserved claim => S id ∨ id = claim.id
  | .payment (.release _ _), .released call => S id ∧ id ≠ call.claim.id
  | .refund (.settle _), .settled before .failed => S id ∧ ¬ (before.counted = true ∧ id = before.id)
  | .refund (.create _), .claimed claim => S id ∧ id ≠ claim.id
  | _, _ => S id

inductive Ends (o : Op) (w : World) : Phase → Phase → Refund → Prop
  | release {call} : Ends o w (.refused call) (.released call) call.claim
  | fail {s before current report method} (hApplies : s.Applies w before) (hOp : o = .refund (.settle s))
      (hId : s.id = current.id) (hAllowed : s.target ∈ refundTransitions s.source) (hTarget : s.target = report.status)
      (hHand : s.byHand = decide (method = .manual)) (hFailed : s.target = .failed)
      (hCounted : before.counted = true) :
      Ends o w (.decided current report method) (.settled before .failed) before

section After

variable {S : Id → Prop} {w : World} {o : Op} {a : Answer} {pt pt' : Point} {id : Id}

theorem exposedAfter_quiet (h : o.quiet = true) : exposedAfter S o pt' id = S id := by
  cases o with
  | refund op => cases op <;> first | rfl | cases h
  | payment op => cases op <;> first | rfl | cases h
  | _ => rfl

theorem Move.exposedAfter_of (h : Move o a w pt pt') (hS : S id) :
    exposedAfter S o pt' id ∨ id = w.nextId ∨ ∃ r, Ends o w pt.phase pt'.phase r ∧ r.id = id := by
  induction h with
  | reserve => exact .inl (.inl hS)
  | @release call =>
    by_cases hId : id = call.claim.id
    · exact .inr (.inr ⟨_, .release, hId.symm⟩)
    · exact .inl ⟨hS, hId⟩
  | @settle s _ _ _ current report method _ _ _ before hId hSource hTarget hDetails hResolution hAllowed hFind hRef =>
    by_cases hFailed : s.target = .failed
    · by_cases hEnds : before.counted = true ∧ id = before.id
      · refine .inr (.inr ⟨before, ?_, hEnds.2.symm⟩)
        rw [hFailed]
        exact .fail ⟨hFind, hRef⟩ rfl hId hAllowed hTarget (Settlement.byHand_eq hResolution) hFailed hEnds.1
      · refine .inl ?_
        rw [hFailed]
        exact ⟨hS, hEnds⟩
    · refine .inl ?_
      cases hStatus : s.target with
      | failed => exact absurd hStatus hFailed
      | pending | succeeded => exact hS
  | @claim _ _ w =>
    by_cases hId : id = w.nextId
    · exact .inr (.inl hId)
    · exact .inl ⟨hS, hId⟩
  | quiet ho | rest ho => exact .inl (exposedAfter_quiet ho ▸ hS)
  | see hph hRead => exact .inl (exposedAfter_quiet hRead.quiet ▸ hS)
  | _ => exact .inl hS

/-- The refund that a request is about to put money at risk for. -/
def Phase.worker : Phase → Option Id
  | reserved claim => some claim.id
  | ready call | refused call | released call => some call.claim.id
  | _ => none

theorem Phase.worker_calm {ph : Phase} (h : ph.calm = true) : ph.worker = none := by
  cases ph <;> first | rfl | cases h

theorem Phase.owner_calm {ph : Phase} (h : ph.calm = true) : ph.owner = none := by
  cases ph <;> first | rfl | cases h

theorem Phase.working_calm {ph : Phase} (h : ph.calm = true) : ph.working = none := by
  cases ph <;> first | rfl | cases h

theorem Move.worksOn (h : Move o a w pt pt') (hWorker : pt.phase.worker = some id) : o.worksOn id = true := by
  induction h with
  | mark | send | release | dropRefused =>
    cases hWorker
    exact decide_eq_true rfl
  | quiet _ hph | rest _ hph | setLookup hph | hear hph | see hph | leaseTaken _ hph | unlease hph | keyTaken hph
  | settleLost hph | pay hph | retrieved hph | cancel hph | charge hph =>
    rw [Phase.worker_calm hph] at hWorker
    cases hWorker
  | byHand hFrom => rcases hFrom with rfl | ⟨rfl, -⟩ <;> cases hWorker
  | _ => cases hWorker

theorem Move.claims (h : Move o a w pt pt') (hOwner : pt.phase.owner = some id) : o.claims id = true := by
  induction h with
  | reserve | reserveRefused | dropUnreserved | mark =>
    cases hOwner
    exact decide_eq_true rfl
  | @send call | @answered call | @refused call | @reissueRefused call | @unanswered call =>
    cases hReissue : call.reissue with
    | true =>
      rw [Phase.owner, hReissue, if_pos rfl] at hOwner
      cases hOwner
    | false =>
      rw [Phase.owner, hReissue, if_neg Bool.false_ne_true] at hOwner
      cases hOwner
      simp only [Op.claims, hReissue, decide_true, Bool.not_false, Bool.and_self]
  | release | dropRefused =>
    simp only [Phase.owner] at hOwner
    split at hOwner
    · cases hOwner
    · cases hOwner
      exact decide_eq_true rfl
  | quiet _ hph | rest _ hph | setLookup hph | hear hph | see hph | leaseTaken _ hph | unlease hph | keyTaken hph
  | settleLost hph | pay hph | retrieved hph | cancel hph | charge hph =>
    rw [Phase.owner_calm hph] at hOwner
    cases hOwner
  | byHand hFrom => rcases hFrom with rfl | ⟨rfl, -⟩ <;> cases hOwner
  | _ => cases hOwner

end After

end RestaurantOs.Payments
