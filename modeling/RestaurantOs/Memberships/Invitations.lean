import RestaurantOs.Memberships.Writes

/-!
# Invitations and revocations

A revoked membership becomes active again only by an update or by a later
invitation, as long as no acceptance lands on one that is revoked and no invitation
from before the revocation is written after it.
-/

namespace RestaurantOs.Memberships

open Async Prog

/-- The operations since request `t` began, its first one included. -/
def sinceBegan (t : Nat) : List (Entry Op Op.Resp Err) → List (Entry Op Op.Resp Err)
  | [] => []
  | e :: earlier => if (e :: earlier).any (·.thread = t) then e :: sinceBegan t earlier else []

def Op.revokes (id : Id) : Op → Bool
  | .saveMembership loaded saved => loaded.id = id && saved.status = .revoked && loaded.status ≠ .revoked
  | _ => false

def activates (token : Token) : Entry Op Op.Resp Err → Bool
  | ⟨_, .activate _ token', .ok (some _)⟩ => token' = token
  | _ => false

/-- An acceptance lands on a membership that is still invited or is active, an
invitation lands if no revocation did since its request began, and an invitation
that was made again after a revocation is not sent again. -/
def heedsRevocation (c : State) : Label Unit Time → Bool
  | .run t _ =>
    match c.waiting? t with
    | some (.activate id token) => c.state.memberships.all fun stored =>
        !(stored.id = id && stored.inviteTokenHash = some token) || stored.status = .invited || stored.status = .active
    | some (.saveMembership loaded saved) =>
      saved.inviteTokenHash = loaded.inviteTokenHash ||
        if saved.status = loaded.status then
          !(c.history.any (·.op.revokes loaded.id)) ||
            c.state.memberships.all fun stored => !(stored.id = loaded.id && stored.status = .invited)
        else !((sinceBegan t c.history).any (·.op.revokes loaded.id))
    | _ => true
  | _ => true

structure World.Tokens (w : World) : Prop where
  given : ∀ m ∈ w.memberships, ∀ token, m.inviteTokenHash = some token → token < w.nextToken
  apart : ∀ m ∈ w.memberships, ∀ m' ∈ w.memberships, ∀ token, m.inviteTokenHash = some token →
    m'.inviteTokenHash = some token → m.id = m'.id

/-! ## Where tokens go -/

section Steps

variable {w : World} {o : Op} {m m' : AgencyMembership} {token : Token} {pt : Point}

theorem turn_token (hAllows : pt.Allows o) (h : (o.turn w m).inviteTokenHash = some token) : m.inviteTokenHash = some token ∨
    pt.pending = some token ∧ ∃ loaded saved, o = .saveMembership loaded saved ∧ m.id = loaded.id := by
  cases o with
  | saveMembership loaded saved =>
    simp only [Op.turn] at h
    split at h
    · rename_i hId
      simp only [AgencyMembership.saveOver, overwrite] at h
      split at h
      · exact .inl h
      · rename_i hChanged
        refine .inr ⟨?_, loaded, saved, rfl, hId⟩
        have hSaves := hAllows.2
        unfold Point.Saves at hSaves
        split at hSaves
        · obtain ⟨⟨token', hPending, hSaved⟩, -⟩ := hSaves
          rw [hPending, ← hSaved, h]
        · obtain ⟨⟨token', hPending, hSaved⟩, -⟩ := hSaves
          rw [hPending, ← hSaved, h]
        · exact hSaves.elim
        · exact absurd (by rw [hSaves.1]; rfl) hChanged
    · exact .inl h
  | activate id token' =>
    simp only [Op.turn] at h
    split at h
    · cases h
    · exact .inl h
  | _ => exact .inl h

theorem added_spec (hAllows : pt.Allows o) (h : m ∈ o.added w) : m.status = .invited ∧ ∃ token, m.inviteTokenHash = some token ∧
    pt.pending = some token ∧ ∃ agencyId userId role invitedBy expiresAt, o = .createMembership agencyId userId role invitedBy token expiresAt := by
  cases o with
  | createMembership agencyId userId role invitedBy token expiresAt =>
    simp only [Op.added] at h
    split at h
    · cases h
    · cases List.mem_singleton.mp h
      exact ⟨rfl, token, rfl, hAllows.1, agencyId, userId, role, invitedBy, expiresAt, rfl⟩
  | _ => cases h

def Op.target (o : Op) (w : World) : Id :=
  match o with
  | .saveMembership loaded _ => loaded.id
  | _ => w.nextId

theorem token_perform (hAllows : pt.Allows o) (hMem : m' ∈ (o.perform w).2.memberships) (h : m'.inviteTokenHash = some token) :
    (∃ m ∈ w.memberships, m' = o.turn w m ∧ m.inviteTokenHash = some token) ∨
      pt.pending = some token ∧ m'.id = o.target w ∧ ∀ r, (pt.after o r).pending = none := by
  rw [o.memberships_perform] at hMem
  rcases List.mem_append.mp hMem with hMem | hMem
  · obtain ⟨m, hOld, rfl⟩ := List.mem_map.mp hMem
    rcases turn_token hAllows h with hKept | ⟨hPending, loaded, saved, rfl, hId⟩
    · exact .inl ⟨m, hOld, rfl, hKept⟩
    · exact .inr ⟨hPending, by rw [Op.turn_id]; exact hId, fun _ => rfl⟩
  · obtain ⟨-, token', hToken, hPending, agencyId, userId, role, invitedBy, expiresAt, rfl⟩ := added_spec hAllows hMem
    rw [hToken] at h
    cases h
    exact .inr ⟨hPending, Op.added_id hMem, fun _ => rfl⟩

theorem nextToken_perform (o : Op) (w : World) : w.nextToken ≤ (o.perform w).2.nextToken := by
  cases o with
  | generateSecureToken => exact Nat.le_succ _
  | createUser email token expiresAt =>
    simp only [Op.perform]
    split <;> exact le_refl _
  | createMembership agencyId userId role invitedBy token expiresAt =>
    simp only [Op.perform]
    split <;> exact le_refl _
  | _ => exact le_refl _

theorem pending_after (h : (pt.after o (o.perform w).1).pending = some token) :
    (pt.pending = some token ∧ o ≠ .generateSecureToken) ∨ (o = .generateSecureToken ∧ token = w.nextToken) := by
  cases o with
  | generateSecureToken =>
    cases h
    exact .inr ⟨rfl, rfl⟩
  | saveMembership | createMembership => cases h
  | createUser email token' expiresAt =>
    refine .inl ⟨?_, fun hSame => by cases hSame⟩
    simp only [Op.perform] at h
    split at h <;> exact h
  | _ => exact .inl ⟨h, fun hSame => by cases hSame⟩

theorem loaded_after {m : AgencyMembership} (h : (pt.after o (o.perform w).1).loaded = some m) :
    pt.loaded = some m ∨ (m ∈ w.memberships ∧ (pt.after o (o.perform w).1).pending = pt.pending) := by
  cases o with
  | findMembershipOf agencyId userId => exact .inr ⟨List.mem_of_find?_eq_some h, rfl⟩
  | findMembership id agencyId => exact .inr ⟨List.mem_of_find?_eq_some h, rfl⟩
  | createUser email token' expiresAt =>
    refine .inl ?_
    simp only [Op.perform] at h
    split at h <;> exact h
  | _ => exact .inl h

theorem request_after (pt : Point) (o : Op) (r : Except Err o.Resp) : (pt.after o r).request = pt.request := by
  cases o <;> cases r <;> rfl

theorem activates_perform {t : Nat} (h : activates token ⟨t, o, (o.perform w).1⟩ = true) :
    ∃ m ∈ w.memberships, m.inviteTokenHash = some token ∧ o = .activate m.id token := by
  cases o with
  | activate id token' =>
    simp only [Op.perform] at h
    cases hFind : w.memberships.find? fun m => m.id = id && m.inviteTokenHash = some token' with
    | none =>
      rw [hFind] at h
      cases h
    | some m =>
      rw [hFind] at h
      have hToken : token' = token := of_decide_eq_true h
      have hSel := List.find?_some hFind
      rw [Bool.and_eq_true, decide_eq_true_eq, decide_eq_true_eq] at hSel
      exact ⟨m, List.mem_of_find?_eq_some hFind, by rw [hSel.2, hToken], by rw [hSel.1, hToken]⟩
  | _ => cases h

end Steps

/-! ## Tokens in a run -/

structure Unused (c : State) (token : Token) : Prop where
  stored : ∀ m ∈ c.state.memberships, m.inviteTokenHash ≠ some token
  history : ∀ e ∈ c.history, activates token e = false

/-- A request that has not written its token yet is the only one to have it, and
a token that has activated a membership is gone. -/
structure Fresh (requests : List Request) (c : State) (pts : List Point) : Prop where
  identified : c.state.Identified
  tokens : c.state.Tokens
  requests : ∀ {t : Nat} {pt : Point}, pts[t]? = some pt → requests[t]? = some pt.request
  loaded : ∀ {t : Nat} {pt : Point} {m : AgencyMembership} {token : Token}, pts[t]? = some pt → pt.loaded = some m →
    m.inviteTokenHash = some token → token < c.state.nextToken ∧ pt.pending ≠ some token
  issued : ∀ {t : Nat} {pt : Point} {token : Token}, pts[t]? = some pt → pt.pending = some token →
    token < c.state.nextToken ∧ ⟨t, .generateSecureToken, .ok token⟩ ∈ c.history ∧ Unused c token
  apart : ∀ {t u : Nat} {pt pt' : Point} {token : Token}, pts[t]? = some pt → pts[u]? = some pt' →
    pt.pending = some token → pt'.pending = some token → t = u
  spent : ∀ {e : Entry Op Op.Resp Err} {token : Token}, e ∈ c.history → activates token e = true →
    token < c.state.nextToken ∧ ∀ m ∈ c.state.memberships, m.inviteTokenHash ≠ some token
  once : ∀ token, (c.history.filter (activates token)).length ≤ 1

section Runs

variable {requests : List Request} {c c' : State} {pts : List Point} {t : Nat} {o : Op} {pt : Point} {token : Token}
  {m' : AgencyMembership} {th : Thread Op Op.Resp Err World Response} {k : Except Err o.Resp → Promise Response}

theorem Fresh.nextToken_le (hRan : store.Ran c t () o th k c') : c.state.nextToken ≤ c'.state.nextToken := by
  rw [hRan.state]
  exact nextToken_perform o c.state

theorem Fresh.token_cases (hRan : store.Ran c t () o th k c') (hAllows : pt.Allows o) (hMem : m' ∈ c'.state.memberships)
    (hToken : m'.inviteTokenHash = some token) : (∃ m ∈ c.state.memberships, m' = o.turn c.state m ∧ m.inviteTokenHash = some token) ∨
      pt.pending = some token ∧ m'.id = o.target c.state ∧ ∀ r, (pt.after o r).pending = none := by
  rw [hRan.state] at hMem
  exact token_perform hAllows hMem hToken

theorem Fresh.tokens_ran (h : Fresh requests c pts) (hRan : store.Ran c t () o th k c') (hPoint : pts[t]? = some pt)
    (hAllows : pt.Allows o) : c'.state.Tokens where
  given := by
    intro m' hMem token hToken
    refine Nat.lt_of_lt_of_le ?_ (Fresh.nextToken_le hRan)
    rcases Fresh.token_cases hRan hAllows hMem hToken with ⟨m, hOld, -, hOldToken⟩ | ⟨hPending, -, -⟩
    · exact h.tokens.given m hOld token hOldToken
    · exact (h.issued hPoint hPending).1
  apart := by
    intro m₁ hMem₁ m₂ hMem₂ token hToken₁ hToken₂
    rcases Fresh.token_cases hRan hAllows hMem₁ hToken₁ with ⟨n₁, hOld₁, rfl, hOldToken₁⟩ | ⟨hPending₁, hTarget₁, -⟩ <;>
      rcases Fresh.token_cases hRan hAllows hMem₂ hToken₂ with ⟨n₂, hOld₂, rfl, hOldToken₂⟩ | ⟨hPending₂, hTarget₂, -⟩
    · rw [Op.turn_id, Op.turn_id]
      exact h.tokens.apart n₁ hOld₁ n₂ hOld₂ token hOldToken₁ hOldToken₂
    · exact absurd hOldToken₁ ((h.issued hPoint hPending₂).2.2.stored n₁ hOld₁)
    · exact absurd hOldToken₂ ((h.issued hPoint hPending₁).2.2.stored n₂ hOld₂)
    · exact hTarget₁.trans hTarget₂.symm

theorem Fresh.used_ran (h : Fresh requests c pts) (hRan : store.Ran c t () o th k c') (hAllows : pt.Allows o)
    (hUsed : activates token ⟨t, o, (o.perform c.state).1⟩ = true) : ∀ m' ∈ c'.state.memberships, m'.inviteTokenHash ≠ some token := by
  intro m' hMem hToken
  obtain ⟨m, hOld, hOldToken, rfl⟩ := activates_perform hUsed
  rw [hRan.state, Op.memberships_perform] at hMem
  rcases List.mem_append.mp hMem with hMem | hMem
  · obtain ⟨n, hN, rfl⟩ := List.mem_map.mp hMem
    have hNToken : n.inviteTokenHash = some token := by
      rcases turn_token hAllows hToken with hKept | ⟨-, loaded, saved, hOp, -⟩
      · exact hKept
      · cases hOp
    have hId := h.tokens.apart n hN m hOld token hNToken hOldToken
    simp only [Op.turn, hId, hNToken, decide_true, Bool.and_true, if_true] at hToken
    cases hToken
  · cases hMem

theorem Unused.ran (h : Unused c token) (hRan : store.Ran c t () o th k c') (hAllows : pt.Allows o)
    (hOther : pt.pending = some token → ∃ r, (pt.after o r).pending = some token) : Unused c' token where
  stored := by
    intro m' hMem hToken
    rcases Fresh.token_cases hRan hAllows hMem hToken with ⟨m, hOld, -, hOldToken⟩ | ⟨hPending, -, hGone⟩
    · exact h.stored m hOld hOldToken
    · obtain ⟨r, hAfter⟩ := hOther hPending
      rw [hGone r] at hAfter
      cases hAfter
  history := by
    intro e hMem
    rw [hRan.history] at hMem
    rcases List.mem_cons.mp hMem with rfl | hMem
    · rw [Bool.eq_false_iff]
      intro hUsed
      obtain ⟨m, hOld, hOldToken, -⟩ := activates_perform hUsed
      exact h.stored m hOld hOldToken
    · exact h.history e hMem

theorem Fresh.unused_next (h : Fresh requests c pts) : Unused c c.state.nextToken where
  stored m hMem hToken := Nat.lt_irrefl _ (h.tokens.given m hMem _ hToken)
  history e hMem := by
    rw [Bool.eq_false_iff]
    intro hUsed
    exact Nat.lt_irrefl _ (h.spent hMem hUsed).1

theorem Fresh.issued_ran (h : Fresh requests c pts) (hRan : store.Ran c t () o th k c') (hPoint : pts[t]? = some pt)
    (hAllows : pt.Allows o) (hPending : (pt.after o (o.perform c.state).1).pending = some token) :
    token < c'.state.nextToken ∧ ⟨t, .generateSecureToken, .ok token⟩ ∈ c'.history ∧ Unused c' token := by
  rcases pending_after hPending with ⟨hOld, -⟩ | ⟨rfl, rfl⟩
  · obtain ⟨hGiven, hIssued, hUnused⟩ := h.issued hPoint hOld
    refine ⟨hGiven.trans_le (nextToken_le hRan), ?_, hUnused.ran hRan hAllows fun _ => ⟨_, hPending⟩⟩
    rw [hRan.history]
    exact List.mem_cons_of_mem _ hIssued
  · refine ⟨?_, ?_, h.unused_next.ran hRan hAllows fun _ => ⟨_, hPending⟩⟩
    · rw [hRan.state]
      exact Nat.lt_succ_self _
    · rw [hRan.history]
      exact List.mem_cons_self

theorem Fresh.apart_ran {u : Nat} {ptU : Point} (h : Fresh requests c pts) (hPoint : pts[t]? = some pt)
    (hPointU : pts[u]? = some ptU) (hPending : (pt.after o (o.perform c.state).1).pending = some token)
    (hPendingU : ptU.pending = some token) : t = u := by
  rcases pending_after hPending with ⟨hOld, -⟩ | ⟨rfl, rfl⟩
  · exact h.apart hPoint hPointU hOld hPendingU
  · exact absurd (h.issued hPointU hPendingU).1 (Nat.lt_irrefl _)

theorem Fresh.loaded_ran {m : AgencyMembership} (h : Fresh requests c pts) (hRan : store.Ran c t () o th k c') (hPoint : pts[t]? = some pt)
    (hLoaded : (pt.after o (o.perform c.state).1).loaded = some m) (hToken : m.inviteTokenHash = some token) :
    token < c'.state.nextToken ∧ (pt.after o (o.perform c.state).1).pending ≠ some token := by
  have hGiven : token < c.state.nextToken := by
    rcases loaded_after hLoaded with hOld | ⟨hMem, -⟩
    · exact (h.loaded hPoint hOld hToken).1
    · exact h.tokens.given m hMem token hToken
  refine ⟨hGiven.trans_le (nextToken_le hRan), fun hPending => ?_⟩
  rcases pending_after hPending with ⟨hPt, -⟩ | ⟨rfl, rfl⟩
  · rcases loaded_after hLoaded with hOld | ⟨hMem, -⟩
    · exact (h.loaded hPoint hOld hToken).2 hPt
    · exact (h.issued hPoint hPt).2.2.stored m hMem hToken
  · exact Nat.lt_irrefl _ hGiven

theorem Fresh.spent_ran {e : Entry Op Op.Resp Err} (h : Fresh requests c pts) (hRan : store.Ran c t () o th k c') (hPoint : pts[t]? = some pt)
    (hAllows : pt.Allows o) (hMem : e ∈ c'.history) (hUsed : activates token e = true) :
    token < c'.state.nextToken ∧ ∀ m ∈ c'.state.memberships, m.inviteTokenHash ≠ some token := by
  rw [hRan.history] at hMem
  rcases List.mem_cons.mp hMem with rfl | hMem
  · obtain ⟨m, hOld, hOldToken, -⟩ := activates_perform hUsed
    exact ⟨(h.tokens.given m hOld token hOldToken).trans_le (nextToken_le hRan), h.used_ran hRan hAllows hUsed⟩
  · obtain ⟨hGiven, hGone⟩ := h.spent hMem hUsed
    refine ⟨hGiven.trans_le (nextToken_le hRan), fun m' hMem' hToken => ?_⟩
    rcases token_cases hRan hAllows hMem' hToken with ⟨m, hOld, -, hOldToken⟩ | ⟨hPending, -, -⟩
    · exact hGone m hOld hOldToken
    · have hNever := (h.issued hPoint hPending).2.2.history e hMem
      rw [hUsed] at hNever
      cases hNever

theorem Fresh.once_ran (h : Fresh requests c pts) (hRan : store.Ran c t () o th k c') (token : Token) :
    (c'.history.filter (activates token)).length ≤ 1 := by
  rw [hRan.history, List.filter_cons]
  split
  · rename_i hUsed
    obtain ⟨m, hOld, hOldToken, -⟩ := activates_perform hUsed
    have hNone : c.history.filter (activates token) = [] := by
      rw [List.filter_eq_nil_iff]
      intro e hMem hBefore
      exact (h.spent hMem hBefore).2 m hOld hOldToken
    rw [hNone]
    exact le_refl _
  · exact h.once token

theorem Fresh.next (h : Fresh requests c pts) (hRan : store.Ran c t () o th k c') (hPoint : pts[t]? = some pt)
    (hAllows : pt.Allows o) : Fresh requests c' (pts.set t (pt.after o (o.perform c.state).1)) where
  identified := by
    rw [hRan.state]
    exact h.identified.perform o
  tokens := h.tokens_ran hRan hPoint hAllows
  requests := by
    intro u ptU hPointU
    rcases Tables.getElem?_set_cases hPointU with ⟨rfl, rfl⟩ | ⟨-, hPointU⟩
    · rw [request_after]
      exact h.requests hPoint
    · exact h.requests hPointU
  loaded := by
    intro u ptU m token hPointU hLoaded hToken
    rcases Tables.getElem?_set_cases hPointU with ⟨rfl, rfl⟩ | ⟨-, hPointU⟩
    · exact h.loaded_ran hRan hPoint hLoaded hToken
    · obtain ⟨hGiven, hNe⟩ := h.loaded hPointU hLoaded hToken
      exact ⟨hGiven.trans_le (nextToken_le hRan), hNe⟩
  issued := by
    intro u ptU token hPointU hPending
    rcases Tables.getElem?_set_cases hPointU with ⟨rfl, rfl⟩ | ⟨hNe, hPointU⟩
    · exact h.issued_ran hRan hPoint hAllows hPending
    · obtain ⟨hGiven, hIssued, hUnused⟩ := h.issued hPointU hPending
      refine ⟨hGiven.trans_le (nextToken_le hRan), ?_, hUnused.ran hRan hAllows fun hPt => ?_⟩
      · rw [hRan.history]
        exact List.mem_cons_of_mem _ hIssued
      · exact absurd (h.apart hPointU hPoint hPending hPt) hNe
  apart := by
    intro u v ptU ptV token hPointU hPointV hPendingU hPendingV
    rcases Tables.getElem?_set_cases hPointU with ⟨rfl, rfl⟩ | ⟨-, hOldU⟩ <;>
      rcases Tables.getElem?_set_cases hPointV with ⟨rfl, rfl⟩ | ⟨-, hOldV⟩
    · rfl
    · exact h.apart_ran hPoint hOldV hPendingU hPendingV
    · exact (h.apart_ran hPoint hOldU hPendingV hPendingU).symm
    · exact h.apart hOldU hOldV hPendingU hPendingV
  spent := h.spent_ran hRan hPoint hAllows
  once := h.once_ran hRan

theorem Fresh.stop (h : Fresh requests c pts) : Fresh requests { c with threads := c.threads.set t { th with stopped := true } } pts where
  identified := h.identified
  tokens := h.tokens
  requests := h.requests
  loaded := h.loaded
  issued hPoint hPending :=
    let ⟨hGiven, hIssued, hUnused⟩ := h.issued hPoint hPending
    ⟨hGiven, hIssued, hUnused.stored, hUnused.history⟩
  apart := h.apart
  spent := h.spent
  once := h.once

theorem Fresh.event (h : Fresh requests c pts) (elapsed : Time) : Fresh requests { c with state := advance elapsed c.state } pts where
  identified := ⟨h.identified.ids, h.identified.given⟩
  tokens := ⟨h.tokens.given, h.tokens.apart⟩
  requests := h.requests
  loaded := h.loaded
  issued hPoint hPending :=
    let ⟨hGiven, hIssued, hUnused⟩ := h.issued hPoint hPending
    ⟨hGiven, hIssued, hUnused.stored, hUnused.history⟩
  apart := h.apart
  spent := h.spent
  once := h.once

theorem Fresh.start {w : World} (hIds : w.Identified) (hTokens : w.Tokens) :
    Fresh requests (State.start w requests) (requests.map fun r => { request := r }) := by
  have hPoints : ∀ {t : Nat} {pt : Point}, (requests.map fun r => ({ request := r } : Point))[t]? = some pt →
      requests[t]? = some pt.request ∧ pt.loaded = none ∧ pt.pending = none := by
    intro t pt hPoint
    rw [List.getElem?_map] at hPoint
    obtain ⟨r, hr, rfl⟩ := Option.map_eq_some_iff.mp hPoint
    exact ⟨hr, rfl, rfl⟩
  constructor
  case identified => exact hIds
  case tokens => exact hTokens
  case requests => exact fun hPoint => (hPoints hPoint).1
  case loaded =>
    intro t pt m token hPoint hLoaded
    rw [(hPoints hPoint).2.1] at hLoaded
    cases hLoaded
  case issued =>
    intro t pt token hPoint hPending
    rw [(hPoints hPoint).2.2] at hPending
    cases hPending
  case apart =>
    intro t u pt pt' token hPoint _ hPending
    rw [(hPoints hPoint).2.2] at hPending
    cases hPending
  case spent => exact fun hMem => nomatch hMem
  case once => exact fun _ => Nat.zero_le _

theorem Fresh.reach {w : World} {guard : State → Label Unit Time → Prop} (hIds : w.Identified) (hTokens : w.Tokens)
    (h : store.Reach guard (State.start w requests) c) :
    ∃ pts, Tracks store writing (requests.map fun r => { request := r }) c pts ∧ Fresh requests c pts := by
  have hTracks : Tracks store writing (requests.map fun r => ({ request := r } : Point)) (State.start w requests)
      (requests.map fun r => { request := r }) :=
    Tracks.initial fun r _ => r.program_follows
  exact Tracks.invariant (I := Fresh requests) hTracks (Fresh.start hIds hTokens)
    (fun _ hFresh _ hRan hPoint hMove _ => by
      obtain ⟨hAllows, rfl⟩ := hMove
      exact hFresh.next hRan hPoint hAllows)
    (fun _ hFresh _ _ => hFresh.stop) (fun _ hFresh _ => hFresh.event _) h

end Runs

/-! ## After a revocation -/

def World.hasStatus (w : World) (id : Id) (status : MembershipStatus) : Bool :=
  w.memberships.any fun m => m.id = id && m.status = status

/-- A request to invite that had not begun by `earlier` issued the token. -/
def IssuedSince (requests : List Request) (earlier : List (Entry Op Op.Resp Err)) (c : State) (token : Token) : Prop :=
  ∃ t inviterId agencyId email role, requests[t]? = some (.inviteMember inviterId agencyId email role) ∧
    ⟨t, .generateSecureToken, .ok token⟩ ∈ c.history ∧ ∀ e ∈ earlier, e.thread ≠ t

/-- What holds since the membership `id` was revoked: an invitation that it has
is a later one. -/
structure Renewed (requests : List Request) (earlier : List (Entry Op Op.Resp Err)) (id : Id) (c : State) : Prop where
  given : id < c.state.nextId
  history : ∃ newer, c.history = newer ++ earlier
  invited : ∀ {m : AgencyMembership} {token : Token}, m ∈ c.state.memberships → m.id = id → m.status = .invited →
    m.inviteTokenHash = some token → IssuedSince requests earlier c token

section Revoked

variable {requests : List Request} {c c' c₁ c₂ : State} {pts : List Point} {t : Nat} {o : Op} {pt : Point} {token : Token} {id : Id}
  {loaded saved m : AgencyMembership} {e : Entry Op Op.Resp Err} {newer older earlier : List (Entry Op Op.Resp Err)}
  {th : Thread Op Op.Resp Err World Response} {k : Except Err o.Resp → Promise Response}

theorem mem_sinceBegan (newer : List (Entry Op Op.Resp Err)) (h : (e :: older).any (·.thread = t) = true) :
    e ∈ sinceBegan t (newer ++ e :: older) := by
  induction newer with
  | nil =>
    rw [List.nil_append, sinceBegan, if_pos h]
    exact List.mem_cons_self
  | cons x newer ih =>
    have hAny : (x :: (newer ++ e :: older)).any (·.thread = t) = true := by
      rw [List.any_cons, List.any_append, h, Bool.or_true, Bool.or_true]
    rw [List.cons_append, sinceBegan, if_pos hAny]
    exact List.mem_cons_of_mem _ ih

theorem IssuedSince.ran (h : IssuedSince requests earlier c token) (hRan : store.Ran c t () o th k c') :
    IssuedSince requests earlier c' token := by
  obtain ⟨u, inviterId, agencyId, email, role, hRequest, hIssued, hLate⟩ := h
  refine ⟨u, inviterId, agencyId, email, role, hRequest, ?_, hLate⟩
  rw [hRan.history]
  exact List.mem_cons_of_mem _ hIssued

theorem saveOver_token_same (h : saved.inviteTokenHash = loaded.inviteTokenHash) :
    (loaded.saveOver saved m).inviteTokenHash = m.inviteTokenHash := if_pos h

theorem saveOver_token_changed (h : saved.inviteTokenHash ≠ loaded.inviteTokenHash) :
    (loaded.saveOver saved m).inviteTokenHash = saved.inviteTokenHash := if_neg h

theorem saveOver_status_same (h : saved.status = loaded.status) : (loaded.saveOver saved m).status = m.status := if_pos h

theorem saveOver_status_changed (h : saved.status ≠ loaded.status) : (loaded.saveOver saved m).status = saved.status := if_neg h

theorem Fresh.token_changed (h : Fresh requests c pts) (hPoint : pts[t]? = some pt) (hLoaded : pt.loaded = some loaded)
    (hBrings : pt.Brings saved) : saved.inviteTokenHash ≠ loaded.inviteTokenHash := by
  obtain ⟨token, hPending, hSaved⟩ := hBrings
  intro hEq
  exact (h.loaded hPoint hLoaded (hEq.symm.trans hSaved)).2 hPending

theorem Renewed.kept (h : Renewed requests (e :: older) id c) (hRevokes : e.op.revokes id = true) (hFresh : Fresh requests c pts)
    (hPoint : pts[t]? = some pt) (hAllows : pt.Allows (.saveMembership loaded saved))
    (hWaiting : c.waiting? t = some (.saveMembership loaded saved)) (hHeeds : heedsRevocation c (.run t ()) = true)
    (hMem : m ∈ c.state.memberships) (hId : m.id = id) (hLoadedId : m.id = loaded.id)
    (hInvited : (loaded.saveOver saved m).status = .invited)
    (hToken : (loaded.saveOver saved m).inviteTokenHash = some token) : IssuedSince requests (e :: older) c token := by
  obtain ⟨hLoaded, hSaves⟩ := hAllows
  obtain ⟨newer, hHistory⟩ := h.history
  have hId' : loaded.id = id := hLoadedId.symm.trans hId
  simp only [heedsRevocation, hWaiting, hId'] at hHeeds
  unfold Point.Saves at hSaves
  split at hSaves
  · rename_i inviterId agencyId email role hRequest
    obtain ⟨hBrings, hStatus, hLoadedStatus, -⟩ := hSaves
    have hChanged := hFresh.token_changed hPoint hLoaded hBrings
    have hStatusChanged : saved.status ≠ loaded.status := fun hEq => hLoadedStatus (hEq.symm.trans hStatus)
    obtain ⟨token', hPending, hSaved⟩ := hBrings
    rw [saveOver_token_changed hChanged, hSaved] at hToken
    cases hToken
    rw [decide_eq_false hChanged, Bool.false_or, if_neg hStatusChanged, Bool.not_eq_true'] at hHeeds
    refine ⟨t, inviterId, agencyId, email, role, hRequest ▸ hFresh.requests hPoint, (hFresh.issued hPoint hPending).2.1, ?_⟩
    intro e' hMem' hThread
    have hBegan : e ∈ sinceBegan t c.history := by
      rw [hHistory]
      exact mem_sinceBegan newer (List.any_eq_true.mpr ⟨e', hMem', decide_eq_true hThread⟩)
    have hNot := List.any_eq_false.mp hHeeds e hBegan
    exact hNot hRevokes
  · obtain ⟨hBrings, hStatus, -⟩ := hSaves
    rw [saveOver_status_same hStatus] at hInvited
    have hChanged := hFresh.token_changed hPoint hLoaded hBrings
    have hAny : (c.history.any (·.op.revokes id)) = true := by
      rw [hHistory]
      exact List.any_eq_true.mpr ⟨e, List.mem_append_right _ List.mem_cons_self, hRevokes⟩
    rw [decide_eq_false hChanged, Bool.false_or, if_pos hStatus, hAny, Bool.not_true, Bool.false_or] at hHeeds
    have hStored := List.all_eq_true.mp hHeeds m hMem
    simp [hId, hInvited] at hStored
  · exact hSaves.elim
  · rename_i agencyId membershipId updates hRequest
    obtain ⟨rfl, -⟩ := hSaves
    have hSame : (updates.apply loaded).inviteTokenHash = loaded.inviteTokenHash := rfl
    rw [saveOver_token_same hSame] at hToken
    refine h.invited hMem hId ?_ hToken
    by_cases hStatus : (updates.apply loaded).status = loaded.status
    · rw [saveOver_status_same hStatus] at hInvited
      exact hInvited
    · rw [saveOver_status_changed hStatus] at hInvited
      cases hUpdate : updates.status with
      | none => exact absurd (by simp [MembershipUpdates.apply, hUpdate]) hStatus
      | some status => exact absurd (by simpa [MembershipUpdates.apply, hUpdate] using hInvited) status.property

theorem Renewed.ran (h : Renewed requests (e :: older) id c) (hRevokes : e.op.revokes id = true) (hFresh : Fresh requests c pts)
    (hHeeds : heedsRevocation c (.run t ()) = true) (hRan : store.Ran c t () o th k c') (hPoint : pts[t]? = some pt)
    (hAllows : pt.Allows o) : Renewed requests (e :: older) id c' where
  given := by
    rw [hRan.state]
    exact h.given.trans_le ((Nat.le_add_right _ _).trans (o.nextId_perform c.state))
  history := by
    obtain ⟨newer, hHistory⟩ := h.history
    exact ⟨⟨t, o, (o.perform c.state).1⟩ :: newer, by rw [hRan.history, hHistory]; rfl⟩
  invited := by
    intro m' token hMem hId hInvited hToken
    rw [hRan.state, Op.memberships_perform] at hMem
    rcases List.mem_append.mp hMem with hMem | hMem
    · obtain ⟨m, hOld, rfl⟩ := List.mem_map.mp hMem
      rw [Op.turn_id] at hId
      refine IssuedSince.ran ?_ hRan
      cases o with
      | saveMembership loaded saved =>
        simp only [Op.turn] at hInvited hToken
        split at hInvited
        · rename_i hLoadedId
          rw [if_pos hLoadedId] at hToken
          exact h.kept hRevokes hFresh hPoint hAllows hRan.waiting? hHeeds hOld hId hLoadedId hInvited hToken
        · rename_i hNe
          rw [if_neg hNe] at hToken
          exact h.invited hOld hId hInvited hToken
      | activate id' token' =>
        simp only [Op.turn] at hInvited hToken
        split at hInvited
        · cases hInvited
        · rename_i hNot
          rw [if_neg hNot] at hToken
          exact h.invited hOld hId hInvited hToken
      | _ => exact h.invited hOld hId hInvited hToken
    · exact absurd ((Op.added_id hMem).symm.trans hId) (Nat.ne_of_gt h.given)

theorem becomes_active (hFresh : Fresh requests c pts) (hRan : store.Ran c t () o th k c') (hPoint : pts[t]? = some pt)
    (hAllows : pt.Allows o) (hBefore : c.state.hasStatus id .active = false) (hAfter : c'.state.hasStatus id .active = true) :
    (∃ agencyId membershipId updates, requests[t]? = some (.updateMember agencyId membershipId updates)) ∨
      ∃ m ∈ c.state.memberships, m.id = id ∧ m.status ≠ .active ∧ ∃ token, m.inviteTokenHash = some token ∧ o = .activate id token := by
  obtain ⟨m', hMem, hSel⟩ := List.any_eq_true.mp hAfter
  rw [Bool.and_eq_true, decide_eq_true_eq, decide_eq_true_eq] at hSel
  rw [hRan.state, Op.memberships_perform] at hMem
  rcases List.mem_append.mp hMem with hMem | hMem
  · obtain ⟨m, hOld, rfl⟩ := List.mem_map.mp hMem
    rw [Op.turn_id] at hSel
    have hInactive : m.status ≠ .active := by
      intro hActive
      have hNot := List.any_eq_false.mp hBefore m hOld
      simp [hSel.1, hActive] at hNot
    cases o with
    | saveMembership loaded saved =>
      refine .inl ?_
      have hActive := hSel.2
      simp only [Op.turn] at hActive
      split at hActive
      · have hChanged : saved.status ≠ loaded.status := by
          intro hSame
          rw [saveOver_status_same hSame] at hActive
          exact hInactive hActive
        rw [saveOver_status_changed hChanged] at hActive
        have hRequest := hFresh.requests hPoint
        have hSaves := hAllows.2
        unfold Point.Saves at hSaves
        split at hSaves
        · rw [hSaves.2.1] at hActive
          cases hActive
        · exact absurd hSaves.2.1 hChanged
        · exact hSaves.elim
        · rename_i agencyId membershipId updates hUpdate
          exact ⟨agencyId, membershipId, updates, hUpdate ▸ hRequest⟩
      · exact absurd hActive hInactive
    | activate id' token =>
      have hActive := hSel.2
      simp only [Op.turn] at hActive
      split at hActive
      · rename_i hHit
        rw [Bool.and_eq_true, decide_eq_true_eq, decide_eq_true_eq] at hHit
        exact .inr ⟨m, hOld, hSel.1, hInactive, token, hHit.2, by rw [← hHit.1, hSel.1]⟩
      · exact absurd hActive hInactive
    | _ => exact absurd hSel.2 hInactive
  · rw [(added_spec hAllows hMem).1] at hSel
    cases hSel.2

theorem Renewed.start (hFresh : Fresh requests c pts) (hEarlier : c.history = earlier) (hRevoked : c.state.hasStatus id .revoked = true) :
    Renewed requests earlier id c := by
  obtain ⟨m, hMem, hSel⟩ := List.any_eq_true.mp hRevoked
  rw [Bool.and_eq_true, decide_eq_true_eq, decide_eq_true_eq] at hSel
  refine ⟨hSel.1 ▸ hFresh.identified.given m hMem, ⟨[], hEarlier⟩, fun hOther hId hInvited => ?_⟩
  rw [Tables.eq_of_id hFresh.identified.ids hOther hMem (hId.trans hSel.1.symm), hSel.2] at hInvited
  cases hInvited

theorem Renewed.reach (hStart : ∃ pts, Tracks store writing (requests.map fun r => { request := r }) c₁ pts ∧ Fresh requests c₁ pts)
    (hRenewed : Renewed requests (e :: older) id c₁) (hRevokes : e.op.revokes id = true)
    (h : store.Reach (fun c l => heedsRevocation c l) c₁ c₂) :
    ∃ pts, Tracks store writing (requests.map fun r => { request := r }) c₂ pts ∧ Fresh requests c₂ pts ∧
      Renewed requests (e :: older) id c₂ := by
  obtain ⟨pts, hTracks, hFresh⟩ := hStart
  exact Tracks.invariant (I := fun c pts => Fresh requests c pts ∧ Renewed requests (e :: older) id c) hTracks ⟨hFresh, hRenewed⟩
    (fun _ hBoth hHeeds hRan hPoint hMove _ => by
      obtain ⟨hAllows, rfl⟩ := hMove
      exact ⟨hBoth.1.next hRan hPoint hAllows, hBoth.2.ran hRevokes hBoth.1 hHeeds hRan hPoint hAllows⟩)
    (fun _ hBoth _ _ => ⟨hBoth.1.stop, hBoth.2.given, hBoth.2.history, hBoth.2.invited⟩)
    (fun _ hBoth _ => ⟨hBoth.1.event _, hBoth.2.given, hBoth.2.history, hBoth.2.invited⟩) h

end Revoked

/-- Once an update has revoked a membership, it becomes active again only by an
update or by a token of a later invitation; and a token activates at most once. -/
theorem revocation_sticks {w : World} {requests : List Request} (hIds : w.Identified) (hTokens : w.Tokens) :
    (∀ c₁ c₁' c₂ c₃ t u o id, store.Reach (fun c l => heedsRevocation c l) (State.start w requests) c₁ →
      c₁.waiting? t = some o → o.revokes id = true → store.step (.run t ()) c₁ = some c₁' →
      c₁'.state.hasStatus id .revoked = true → store.Reach (fun c l => heedsRevocation c l) c₁' c₂ →
      heedsRevocation c₂ (.run u ()) = true → store.step (.run u ()) c₂ = some c₃ →
      c₂.state.hasStatus id .active = false → c₃.state.hasStatus id .active = true →
      (∃ agencyId membershipId updates, requests[u]? = some (.updateMember agencyId membershipId updates)) ∨
        ∃ token, c₂.waiting? u = some (.activate id token) ∧ IssuedSince requests c₁'.history c₂ token) ∧
    ∀ c token, store.Reach (fun _ _ => True) (State.start w requests) c → (c.history.filter (activates token)).length ≤ 1 := by
  refine ⟨?_, fun c token h => ?_⟩
  · intro c₁ c₁' c₂ c₃ t u o id h₁ hWaiting hRevokes hRevoke hRevoked h₂ hHeeds hStep hBefore hAfter
    have h₁' : store.Reach (fun _ _ => True) (State.start w requests) c₁' := (h₁.mono fun _ _ _ => trivial).step trivial hRevoke
    obtain ⟨o', thT, kT, hRanT⟩ := Store.run_cases hRevoke
    have hOp : o' = o := Option.some.inj (hRanT.waiting?.symm.trans hWaiting)
    obtain ⟨pts₁, hTracks₁, hFresh₁⟩ := Fresh.reach hIds hTokens h₁'
    have hRenewed₁ := Renewed.start hFresh₁ hRanT.history hRevoked
    obtain ⟨pts, hTracks, hFresh, hRenewed⟩ := Renewed.reach ⟨pts₁, hTracks₁, hFresh₁⟩ hRenewed₁ (by rw [hOp]; exact hRevokes) h₂
    obtain ⟨o₂, th₂, k₂, hRan⟩ := Store.run_cases hStep
    obtain ⟨pt, pt', hPoint, hMove, -⟩ := hTracks.ran hRan
    rcases becomes_active hFresh hRan hPoint hMove.1 hBefore hAfter with hUpdate | ⟨m, hMem, hId, hInactive, token, hToken, rfl⟩
    · exact .inl hUpdate
    · refine .inr ⟨token, hRan.waiting?, ?_⟩
      rw [hRanT.history]
      simp only [heedsRevocation, hRan.waiting?] at hHeeds
      have hStored := List.all_eq_true.mp hHeeds m hMem
      have hInvited : m.status = .invited := by simpa [hId, hToken, hInactive] using hStored
      exact hRenewed.invited hMem hId hInvited hToken
  · obtain ⟨pts, -, hFresh⟩ := Fresh.reach hIds hTokens h
    exact hFresh.once token

/-! ### A member who is invited, and removed -/

def invitingAgency : World where
  agencies := [1]
  users := [{ id := 2, email := "a@x.com", role := .agencyMember }, { id := 3, email := "b@x.com", role := .customer }]
  memberships := [{ id := 4, agencyId := 1, userId := 3, role := .agencyStaff, inviteTokenHash := some 0, inviteExpiresAt := some 9 }]
  nextId := 5
  nextToken := 1

theorem invitingAgency_identified : invitingAgency.Identified := ⟨by decide, by decide⟩

theorem invitingAgency_tokens : invitingAgency.Tokens := by
  refine ⟨fun m hMem token hToken => ?_, fun m hMem m' hMem' _ _ _ => ?_⟩
  · cases List.mem_singleton.mp hMem
    cases hToken
    decide
  · cases List.mem_singleton.mp hMem
    cases List.mem_singleton.mp hMem'
    rfl

def removingRequests : List Request :=
  [.updateMember 1 4 .revoke, .inviteMember 2 1 "b@x.com" .agencyStaff, .acceptAgencyInvite 1 none]

/-- The member is removed, invited again, and accepts that. -/
theorem revocation_sticks_invited : ∃ c₁ c₂ c₃ : State, c₂.state.hasStatus 4 .active = false ∧ c₃.state.hasStatus 4 .active = true ∧
    ((∃ agencyId membershipId updates, removingRequests[2]? = some (.updateMember agencyId membershipId updates)) ∨
      ∃ token, c₂.waiting? 2 = some (.activate 4 token) ∧ IssuedSince removingRequests c₁.history c₂ token) := by
  obtain ⟨c, hReach, hEnd⟩ := store.exists_of_exec heedsRevocation (State.start invitingAgency removingRequests) [.run 0 ()]
    (fun c => (c.waiting? 0).any (·.revokes 4) && (store.step (.run 0 ()) c).any fun c₁ => c₁.state.hasStatus 4 .revoked &&
      (store.exec heedsRevocation (List.flatten [List.replicate 9 (.run 1 ()), List.replicate 2 (.run 2 ())]) c₁).any fun c₂ =>
        heedsRevocation c₂ (.run 2 ()) && !(c₂.state.hasStatus 4 .active) &&
          (store.step (.run 2 ()) c₂).any fun c₃ => c₃.state.hasStatus 4 .active) (by decide +kernel)
  rw [Bool.and_eq_true] at hEnd
  obtain ⟨o, hWaiting, hRevokes⟩ := (Option.any_eq_true _ _).mp hEnd.1
  obtain ⟨c₁, hRevoke, hRest⟩ := (Option.any_eq_true _ _).mp hEnd.2
  rw [Bool.and_eq_true] at hRest
  obtain ⟨c₂, hExec, hLast⟩ := (Option.any_eq_true _ _).mp hRest.2
  rw [Bool.and_eq_true, Bool.and_eq_true, Bool.not_eq_true'] at hLast
  obtain ⟨c₃, hStep, hActive⟩ := (Option.any_eq_true _ _).mp hLast.2
  exact ⟨c₁, c₂, c₃, hLast.1.2, hActive, (revocation_sticks invitingAgency_identified invitingAgency_tokens).1 c c₁ c₂ c₃ 0 2 o 4
    hReach hWaiting hRevokes hRevoke hRest.1 (Store.Reach.of_exec _ hExec) hLast.1.1 hStep hLast.1.2 hActive⟩

/-- The invitation from before the removal is accepted after it. -/
theorem revoked_member_accepts : ¬ ∀ (w : World) (requests : List Request) (c₁ c₁' c₂ c₃ : State) (t u : Nat) (o : Op) (id : Id),
    w.Identified → w.Tokens → store.Reach (fun _ _ => True) (State.start w requests) c₁ → c₁.waiting? t = some o →
    o.revokes id = true → store.step (.run t ()) c₁ = some c₁' → c₁'.state.hasStatus id .revoked = true →
    store.Reach (fun _ _ => True) c₁' c₂ → store.step (.run u ()) c₂ = some c₃ → c₂.state.hasStatus id .active = false →
    c₃.state.hasStatus id .active = true →
    (∃ agencyId membershipId updates, requests[u]? = some (.updateMember agencyId membershipId updates)) ∨
      ∃ token, c₂.waiting? u = some (.activate id token) ∧ IssuedSince requests c₁'.history c₂ token := by
  intro hClaim
  let requests : List Request := [.updateMember 1 4 .revoke, .acceptAgencyInvite 0 none]
  obtain ⟨c, hReach, hEnd⟩ := store.exists_of_exec (fun _ _ => true) (State.start invitingAgency requests) [.run 0 ()]
    (fun c => (c.waiting? 0).any (·.revokes 4) && (store.step (.run 0 ()) c).any fun c₁ => c₁.state.hasStatus 4 .revoked &&
      (store.exec (fun _ _ => true) (List.replicate 2 (.run 1 ())) c₁).any fun c₂ => !(c₂.state.hasStatus 4 .active) &&
        (store.step (.run 1 ()) c₂).any fun c₃ => c₃.state.hasStatus 4 .active) (by decide +kernel)
  rw [Bool.and_eq_true] at hEnd
  obtain ⟨o, hWaiting, hRevokes⟩ := (Option.any_eq_true _ _).mp hEnd.1
  obtain ⟨c₁, hRevoke, hRest⟩ := (Option.any_eq_true _ _).mp hEnd.2
  rw [Bool.and_eq_true] at hRest
  obtain ⟨c₂, hExec, hLast⟩ := (Option.any_eq_true _ _).mp hRest.2
  rw [Bool.and_eq_true, Bool.not_eq_true'] at hLast
  obtain ⟨c₃, hStep, hActive⟩ := (Option.any_eq_true _ _).mp hLast.2
  rcases hClaim invitingAgency requests c c₁ c₂ c₃ 0 1 o 4 invitingAgency_identified invitingAgency_tokens
    (hReach.mono fun _ _ _ => trivial) hWaiting hRevokes hRevoke hRest.1 ((Store.Reach.of_exec _ hExec).mono fun _ _ _ => trivial)
    hStep hLast.1 hActive with ⟨agencyId, membershipId, updates, hUpdate⟩ | ⟨token, -, t, inviterId, agencyId, email, role, hInvite, -⟩
  · cases hUpdate
  · have hMem : Request.inviteMember inviterId agencyId email role ∈ requests := List.mem_of_getElem? hInvite
    simp [requests] at hMem

end RestaurantOs.Memberships
