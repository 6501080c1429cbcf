import RestaurantOs.Async.Protocol
import RestaurantOs.Imports.JobService

/-!
# Jobs that end once

The worker, the reviewer's edits, cancellations and publications of one job, in
any interleaving. Where the job has not ended between what a request reads and
saves, where no cancellation is saved during a publication, and where no
publication fails behind its transaction, it ends once and is written at most once.
-/

namespace RestaurantOs.MenuImport

open Async Prog Menus

inductive JobRequest
  | extract (attemptInfo : AttemptInfo)
  | edit (restaurantId : Id) (rowNumber : Nat) (patch : DraftRowPatch)
  | cancel (restaurantId : Id)
  | publish (restaurantId : Id) (defaultDuplicateStrategy : DefaultStrategy)

def JobRequest.program (env : WorkerEnv) (jobId : Id) : JobRequest → Promise Unit
  | extract attemptInfo => runMenuImportExtraction env jobId attemptInfo
  | edit restaurantId rowNumber patch => updateMenuImportDraftRow jobId restaurantId rowNumber patch
  | cancel restaurantId => cancelMenuImportJob jobId restaurantId
  | publish restaurantId defaultDuplicateStrategy => publishMenuImportJob env.lower { jobId, restaurantId, defaultDuplicateStrategy }

/-! ## What the history tells -/

def Op.status? : (o : Op) → Except Err o.Resp → Option MenuImportJobStatus
  | findJob _, .ok job => Option.map (·.status) job
  | claimForExtraction _, .ok job => Option.map (·.status) job
  | claimForPublishing _, .ok job => Option.map (·.status) job
  | saveJob _ _ changes, .ok _ => changes.status
  | _, _ => none

def Op.claimsPublishing? : (o : Op) → Except Err o.Resp → Option Bool
  | claimForPublishing _, .ok job => some (Option.isSome job)
  | _, _ => none

def Op.commits : (o : Op) → Except Err o.Resp → Bool
  | transaction _ _, .ok _ => true
  | _, _ => false

def Op.cancels : (o : Op) → Except Err o.Resp → Bool
  | saveJob _ _ changes, .ok _ => changes.status = some .cancelled
  | _, _ => false

def World.status? (w : World) (jobId : Id) : Option MenuImportJobStatus := (w.job? jobId).map (·.status)

namespace State

variable (c : State)

/-- Request `t` has claimed the job for publishing and is still running. -/
def publishes (t : Nat) : Bool :=
  (c.latest? Op.claimsPublishing? t).getD false && c.threads[t]?.any fun th => !th.stopped && th.next?.isSome

def committed (t : Nat) : Bool := c.history.any fun e => e.thread = t && e.op.commits e.result

/-- The job has ended since request `t` read its status. -/
def overtaken (jobId : Id) (t : Nat) : Bool :=
  (c.state.status? jobId).any (·.isTerminal) && !(c.latest? Op.status? t).any (·.isTerminal)

def commits : Nat := c.history.countP fun e => e.op.commits e.result

end State

/-! ## The condition -/

def Op.isAudit : Op → Bool
  | audit _ _ => true
  | _ => false

/-- A status is saved by a request that the job's end has not overtaken, and
`cancelled` while nobody publishes. -/
def savesInTime (jobId : Id) (c : State) (t : Nat) (a : Answer) : Op → Bool
  | .saveJob _ _ changes =>
    a.fault.isSome || changes.status.isNone ||
      (!c.overtaken jobId t && (changes.status ≠ some .cancelled || !(List.range c.threads.length).any c.publishes))
  | _ => true

def finishes (lower : Text → Text) (c : State) (t : Nat) (a : Answer) (o : Op) : Bool :=
  !c.committed t || o.isAudit || (Op.perform lower o a c.state).1.isOk

def keepsEnd (lower : Text → Text) (jobId : Id) (c : State) : Label Answer Event → Bool
  | .run t a => (c.waiting? t).all fun o => savesInTime jobId c t a o && finishes lower c t a o
  | _ => true

/-! ## Where a request stands -/

/-- `live` has read that the job has not ended, `extracting` is the worker's
section, `publishing` the publication's before its transaction and `written`
behind it. -/
inductive Stage
  | fresh | live | extracting | publishing | written | failed | done
  deriving DecidableEq

def Op.quiet : Op → Bool
  | clock | findRestaurant _ | saveRow _ _ _ _ _ | readSource _ | extract _ | findCategories _ | findItems _ _ | audit _ _ => true
  | _ => false

namespace Stage

def busy : Stage → Bool
  | extracting | publishing | written => true
  | _ => false

def afterRead : Except Err (Option MenuImportJob) → Stage
  | .ok (some job) => if job.status.isTerminal then fresh else live
  | _ => fresh

def afterCheck : Except Err (Option MenuImportJob) → Stage
  | .ok (some job) => if job.status = .cancelled then done else extracting
  | _ => extracting

def afterClaim (claimed : Stage) : Except Err (Option MenuImportJob) → Stage
  | .ok (some _) => claimed
  | _ => done

def after {α : Type} (succeeded thrown : Stage) : Except Err α → Stage
  | .ok _ => succeeded
  | .error _ => thrown

inductive Move (lower : Text → Text) (jobId : Id) (a : Answer) (w : World) : Op → Stage → Stage → Prop
  | quiet {o : Op} {pt : Stage} (hQuiet : o.quiet = true) : Move lower jobId a w o pt pt
  | read : Move lower jobId a w (.findJob jobId) fresh (afterRead (Op.perform lower (.findJob jobId) a w).1)
  | check : Move lower jobId a w (.findJob jobId) extracting (afterCheck (Op.perform lower (.findJob jobId) a w).1)
  | claimExtraction : Move lower jobId a w (.claimForExtraction jobId) fresh
      (afterClaim extracting (Op.perform lower (.claimForExtraction jobId) a w).1)
  | claimPublishing : Move lower jobId a w (.claimForPublishing jobId) live
      (afterClaim publishing (Op.perform lower (.claimForPublishing jobId) a w).1)
  | cancel {version : Option Nat} {changes : JobChanges} (hStatus : changes.status = some .cancelled) :
      Move lower jobId a w (.saveJob jobId version changes) live done
  | progress {version : Option Nat} {changes : JobChanges}
      (hStatus : changes.status = some .extracting ∨ changes.status = some .normalizing) :
      Move lower jobId a w (.saveJob jobId version changes) extracting extracting
  | finish {version : Option Nat} {changes : JobChanges} (hStatus : changes.status = some .readyForReview) :
      Move lower jobId a w (.saveJob jobId version changes) extracting
        (after done extracting (Op.perform lower (.saveJob jobId version changes) a w).1)
  | giveUp {changes : JobChanges} (hStatus : changes.status = some .failed ∨ changes.status = some .pending) :
      Move lower jobId a w (.updateUnlessCancelled jobId changes) extracting done
  | write {scope : ImportScope} {resolved : ResolvedImport} : Move lower jobId a w (.transaction scope resolved) publishing
      (after written publishing (Op.perform lower (.transaction scope resolved) a w).1)
  | giveBack {version : Option Nat} {changes : JobChanges} (hStatus : changes.status = some .readyForReview) :
      Move lower jobId a w (.saveJob jobId version changes) publishing done
  | invalidate {scope : ImportScope} : Move lower jobId a w (.invalidateMenuCache scope) written
      (after written failed (Op.perform lower (.invalidateMenuCache scope) a w).1)
  | complete {version : Option Nat} {changes : JobChanges} (hStatus : changes.status = some .completed) :
      Move lower jobId a w (.saveJob jobId version changes) written
        (after done failed (Op.perform lower (.saveJob jobId version changes) a w).1)
  | fail {o : Op} : Move lower jobId a w o failed failed

def Rest (pt : Stage) : Prop := pt.busy = false

end Stage

@[reducible] def passage (lower : Text → Text) (jobId : Id) : Protocol Op World Answer where
  Point := Stage
  Move o a w := Stage.Move lower jobId a w o
  Rest := Stage.Rest

section Walk

variable {lower : Text → Text} {jobId : Id} {pt : Stage} {α : Type}

theorem follows_quiet {o : Op} {Q : o.Resp → Stage → Prop} {E : Err → Stage → Prop} (hQuiet : o.quiet = true) (hQ : ∀ v, Q v pt)
    (hE : ∀ err, E err pt) : (Prog.call o : Promise o.Resp).Follows (store lower) (passage lower jobId) pt Q E := by
  refine follows_call.mpr fun a w => ⟨pt, .quiet hQuiet, ?_⟩
  cases ((store lower).perform o a w).1 with
  | ok v => exact hQ v
  | error err => exact hE err

theorem id_of_found {w : World} {job : MenuImportJob} {a : Answer}
    (h : (Op.perform lower (.findJob jobId) a w).1 = .ok (some job)) : job.id = jobId := by
  rcases @perform_cases lower (.findJob jobId) a w with ⟨err, hPerform⟩ | hPerform
  · rw [hPerform] at h
    cases h
  · rw [hPerform] at h
    exact id_of_job? (Except.ok.inj h)

theorem getMenuImportJobForTenant_follows {restaurantId : Id} :
    (getMenuImportJobForTenant jobId restaurantId).Follows (store lower) (passage lower jobId) .fresh
      (fun job pt => job.id = jobId ∧ pt = if job.status.isTerminal then .fresh else .live) fun _ => Stage.Rest := by
  unfold getMenuImportJobForTenant
  refine follows_bind.mpr (follows_call.mpr fun a w => ⟨_, .read, ?_⟩)
  dsimp only
  cases hRead : (Op.perform lower (.findJob jobId) a w).1 with
  | error err => rfl
  | ok found =>
    cases found with
    | none => rfl
    | some job =>
      have hId := id_of_found hRead
      have hRest : Stage.Rest (Stage.afterRead (.ok (some job))) := by
        unfold Stage.afterRead
        dsimp only
        split <;> rfl
      dsimp only
      split
      · exact ⟨hId, rfl⟩
      · split
        · exact hRest
        · refine follows_bind.mpr (follows_quiet rfl (fun restaurant => ?_) fun _ => hRest)
          split
          · exact ⟨hId, rfl⟩
          · exact hRest

theorem edit_follows {restaurantId : Id} {rowNumber : Nat} {patch : DraftRowPatch} :
    (updateMenuImportDraftRow jobId restaurantId rowNumber patch).Follows (store lower) (passage lower jobId) .fresh
      (fun _ => Stage.Rest) fun _ => Stage.Rest := by
  unfold updateMenuImportDraftRow
  refine follows_bind.mpr ((getMenuImportJobForTenant_follows).mono ?_ fun _ _ h => h)
  rintro job pt ⟨-, rfl⟩
  have hRest : Stage.Rest (if job.status.isTerminal then .fresh else .live) := by
    split <;> rfl
  split
  · exact hRest
  · split
    · exact hRest
    · exact follows_bind.mpr (follows_quiet rfl (fun now => follows_quiet rfl (fun _ => hRest) fun _ => hRest) fun _ => hRest)

theorem cancelMenuImportJob_follows {restaurantId : Id} :
    (cancelMenuImportJob jobId restaurantId).Follows (store lower) (passage lower jobId) .fresh
      (fun _ => Stage.Rest) fun _ => Stage.Rest := by
  unfold cancelMenuImportJob
  refine follows_bind.mpr ((getMenuImportJobForTenant_follows).mono ?_ fun _ _ h => h)
  rintro job pt ⟨rfl, rfl⟩
  split
  · exact rfl
  · refine follows_bind.mpr (follows_quiet rfl (fun cancelledAt => ?_) fun _ => rfl)
    refine follows_bind.mpr (follows_quiet rfl (fun now => ?_) fun _ => rfl)
    refine follows_call.mpr fun a w => ⟨_, .cancel rfl, ?_⟩
    split <;> rfl

theorem resolveImportNow_follows {rows : List NormalizedImportRow} {scope : ImportScope} {strategy : DuplicateStrategy} :
    (resolveImportNow lower rows scope strategy).Follows (store lower) (passage lower jobId) pt (fun _ pt' => pt' = pt) fun _ pt' => pt' = pt := by
  unfold resolveImportNow
  refine follows_bind.mpr (follows_quiet rfl (fun categories => ?_) fun _ => rfl)
  unfold loadItems
  split
  · exact rfl
  · exact follows_bind.mpr (follows_quiet rfl (fun items => rfl) fun _ => rfl)

theorem writeResolvedImportNow_follows {resolved : ResolvedImport} {scope : ImportScope} :
    (writeResolvedImportNow resolved scope).Follows (store lower) (passage lower jobId) .publishing (fun _ pt => pt = .written)
      fun _ pt => pt = .publishing ∨ pt = .failed := by
  unfold writeResolvedImportNow
  refine follows_bind.mpr (follows_call.mpr fun a w => ⟨_, .write, ?_⟩)
  dsimp only
  cases (Op.perform lower (.transaction scope resolved) a w).1 with
  | error err => exact .inl rfl
  | ok report =>
    refine follows_bind.mpr (follows_call.mpr fun a w => ⟨_, .invalidate, ?_⟩)
    dsimp only
    cases (Op.perform lower (.invalidateMenuCache scope) a w).1 with
    | error err => exact .inr rfl
    | ok v => exact follows_bind.mpr (follows_attempt.mpr (follows_quiet rfl (fun _ => rfl) fun _ => rfl))

theorem saveClaimed_failed {claimed : MenuImportJob} {changes : JobChanges} {Q : Unit → Stage → Prop} {E : Err → Stage → Prop}
    (hQ : ∀ v, Q v .failed) (hE : ∀ err, E err .failed) :
    (saveClaimed claimed changes).Follows (store lower) (passage lower jobId) .failed Q E := by
  refine follows_call.mpr fun a w => ⟨_, .fail, ?_⟩
  split
  · exact hQ _
  · exact hE _

theorem finishPublishing_follows {claimed : MenuImportJob} (hId : claimed.id = jobId) {outcome : Except Err MenuImportReport}
    (hPoint : match outcome with
      | .ok _ => pt = .written
      | .error _ => pt = .publishing ∨ pt = .failed) :
    (finishPublishing lower claimed outcome).Follows (store lower) (passage lower jobId) pt (fun _ => Stage.Rest) fun _ => Stage.Rest := by
  subst hId
  cases outcome with
  | error err =>
    unfold finishPublishing
    rcases hPoint with rfl | rfl
    · refine follows_bind.mpr (follows_call.mpr fun a w => ⟨_, .giveBack rfl, ?_⟩)
      split <;> rfl
    · exact follows_bind.mpr (saveClaimed_failed (fun _ => rfl) fun _ => rfl)
  | ok report =>
    obtain rfl : pt = .written := hPoint
    unfold finishPublishing
    refine follows_bind.mpr (follows_call.mpr fun a w => ⟨_, .quiet rfl, ?_⟩)
    refine follows_bind.mpr (follows_call.mpr fun a' w' => ⟨_, .quiet rfl, ?_⟩)
    refine follows_bind.mpr (follows_attempt.mpr (follows_call.mpr fun a w => ⟨_, .complete rfl, ?_⟩))
    dsimp only
    split
    · rename_i hSaved
      rw [hSaved]
      exact rfl
    · rename_i err hSaved
      rw [hSaved]
      exact follows_bind.mpr (saveClaimed_failed (fun _ => rfl) fun _ => rfl)

theorem id_of_claimed {w : World} {id : Id} {from' to' : MenuImportJobStatus} {job : MenuImportJob}
    (h : (w.claim id from' to').1 = some job) : job.id = id := by
  unfold World.claim at h
  split at h
  · rename_i found hFound
    have hId := id_of_job? hFound
    split at h
    · cases h
      exact hId
    · cases h
  · cases h

theorem publishMenuImportJob_follows {restaurantId : Id} {defaultDuplicateStrategy : DefaultStrategy} :
    (publishMenuImportJob lower { jobId, restaurantId, defaultDuplicateStrategy }).Follows (store lower) (passage lower jobId) .fresh
      (fun _ => Stage.Rest) fun _ => Stage.Rest := by
  unfold publishMenuImportJob
  refine follows_bind.mpr ((getMenuImportJobForTenant_follows).mono ?_ fun _ _ h => h)
  rintro job pt ⟨rfl, rfl⟩
  split
  · show Stage.Rest _
    split <;> rfl
  · rename_i hReady
    rw [not_not.mp hReady]
    refine follows_bind.mpr (follows_call.mpr fun a w => ⟨_, .claimPublishing, ?_⟩)
    dsimp only
    rcases @perform_cases lower (.claimForPublishing job.id) a w with ⟨err, hPerform⟩ | hPerform
    · rw [hPerform]
      exact rfl
    · have hResult : (Op.perform lower (.claimForPublishing job.id) a w).1 = .ok (w.claim job.id .readyForReview .publishing).1 := by
        rw [hPerform]
        rfl
      rw [hResult]
      dsimp only
      cases hClaimed : (w.claim job.id .readyForReview .publishing).1 with
      | none => exact rfl
      | some claimed =>
        have hId := id_of_claimed hClaimed
        dsimp only
        refine follows_bind.mpr (follows_attempt.mpr ?_)
        unfold publishClaimed
        refine follows_bind.mpr ((resolveImportNow_follows).mono ?_ ?_)
        · rintro resolved pt rfl
          refine (writeResolvedImportNow_follows).mono ?_ ?_
          · rintro report pt rfl
            exact finishPublishing_follows hId rfl
          · intro err pt hPoint
            exact finishPublishing_follows hId hPoint
        · rintro err pt rfl
          exact finishPublishing_follows hId (.inl rfl)

theorem unlessCancelled_follows {rest : Promise Unit} {Q : Unit → Stage → Prop} {E : Err → Stage → Prop} (hDone : Q () .done)
    (hError : ∀ err, E err .extracting) (hRest : rest.Follows (store lower) (passage lower jobId) .extracting Q E) :
    (unlessCancelled jobId rest).Follows (store lower) (passage lower jobId) .extracting Q E := by
  unfold unlessCancelled isCancelled
  refine follows_bind.mpr (follows_bind.mpr (follows_call.mpr fun a w => ⟨_, .check, ?_⟩))
  dsimp only
  cases (Op.perform lower (.findJob jobId) a w).1 with
  | error err => exact hError err
  | ok found =>
    cases found with
    | none => exact hRest
    | some job =>
      refine follows_ret.mpr ?_
      unfold Stage.afterCheck
      dsimp only
      rw [Option.any_some]
      by_cases hCancelled : job.status = .cancelled
      · rw [if_pos hCancelled, decide_eq_true hCancelled]
        exact hDone
      · rw [if_neg hCancelled, decide_eq_false hCancelled]
        exact hRest

theorem extractRows_follows {env : WorkerEnv} {job : MenuImportJob} (hId : job.id = jobId) :
    (extractRows env job).Follows (store env.lower) (passage env.lower jobId) .extracting (fun _ pt => pt = .done)
      fun _ pt => pt = .extracting := by
  subst hId
  unfold extractRows
  refine unlessCancelled_follows rfl (fun _ => rfl) ?_
  refine follows_bind.mpr (follows_quiet rfl (fun _ => ?_) fun _ => rfl)
  refine unlessCancelled_follows rfl (fun _ => rfl) ?_
  refine follows_bind.mpr (follows_call.mpr fun a w => ⟨_, .progress (.inl rfl), ?_⟩)
  split
  · refine follows_bind.mpr (follows_quiet rfl (fun rows => ?_) fun _ => rfl)
    refine unlessCancelled_follows rfl (fun _ => rfl) ?_
    refine follows_bind.mpr (follows_call.mpr fun a w => ⟨_, .progress (.inr rfl), ?_⟩)
    split
    · refine follows_bind.mpr ((resolveImportNow_follows).mono ?_ fun _ _ h => h)
      rintro resolved pt rfl
      refine follows_call.mpr fun a w => ⟨_, .finish rfl, ?_⟩
      dsimp only
      split
      · rename_i hSaved
        rw [hSaved]
        rfl
      · rename_i hSaved
        rw [hSaved]
        rfl
    · exact rfl
  · exact rfl

theorem failExtraction_follows {env : WorkerEnv} {attemptInfo : AttemptInfo} {err : Err} :
    (failExtraction env jobId attemptInfo err).Follows (store lower) (passage lower jobId) .extracting (fun _ => Stage.Rest)
      fun _ => Stage.Rest := by
  unfold failExtraction
  split
  · refine follows_bind.mpr (follows_call.mpr fun a w => ⟨_, .quiet rfl, ?_⟩)
    refine follows_bind.mpr (follows_call.mpr fun a w => ⟨_, .giveUp (.inl rfl), ?_⟩)
    split <;> rfl
  · refine follows_bind.mpr (follows_call.mpr fun a w => ⟨_, .giveUp (.inr rfl), ?_⟩)
    split <;> rfl

theorem runMenuImportExtraction_follows {env : WorkerEnv} {attemptInfo : AttemptInfo} :
    (runMenuImportExtraction env jobId attemptInfo).Follows (store env.lower) (passage env.lower jobId) .fresh (fun _ => Stage.Rest)
      fun _ => Stage.Rest := by
  unfold runMenuImportExtraction
  refine follows_bind.mpr (follows_call.mpr fun a w => ⟨_, .claimExtraction, ?_⟩)
  dsimp only
  rcases @perform_cases env.lower (.claimForExtraction jobId) a w with ⟨err, hPerform⟩ | hPerform
  · rw [hPerform]
    exact rfl
  · have hResult : (Op.perform env.lower (.claimForExtraction jobId) a w).1 = .ok (w.claim jobId .pending .processing).1 := by
      rw [hPerform]
      rfl
    rw [hResult]
    dsimp only
    cases hClaimed : (w.claim jobId .pending .processing).1 with
    | none => exact rfl
    | some claimed =>
      have hId := id_of_claimed hClaimed
      dsimp only
      refine follows_bind.mpr (follows_attempt.mpr ((extractRows_follows hId).mono ?_ ?_))
      · rintro v pt rfl
        exact rfl
      · rintro err pt rfl
        exact failExtraction_follows

theorem JobRequest.program_follows {env : WorkerEnv} (request : JobRequest) :
    (request.program env jobId).Follows (store env.lower) (passage env.lower jobId) .fresh (fun _ => Stage.Rest) fun _ => Stage.Rest := by
  cases request with
  | extract attemptInfo => exact runMenuImportExtraction_follows
  | edit restaurantId rowNumber patch => exact edit_follows
  | cancel restaurantId => exact cancelMenuImportJob_follows
  | publish restaurantId defaultDuplicateStrategy => exact publishMenuImportJob_follows

end Walk

/-! ## What becomes of the status -/

section Status

variable {lower : Text → Text} {jobId : Id} {w : World} {job : MenuImportJob} {a : Answer} {o : Op}

theorem status?_setJob :
    (setJob job w).status? jobId = if job.id = jobId then (w.status? jobId).map fun _ => job.status else w.status? jobId := by
  unfold World.status? World.job? setJob
  rw [Tables.find?_update, Option.map_map]
  · cases hFound : w.jobs.find? (·.id = jobId) with
    | none => exact (ite_self none).symm
    | some found =>
      have hId := @id_of_job? jobId w found hFound
      rw [Option.map_some, Option.map_some, Option.map_some, Function.comp_apply]
      by_cases hSame : job.id = jobId
      · rw [if_pos hSame, if_pos (decide_eq_true (hId.trans hSame.symm))]
      · rw [if_neg hSame, if_neg fun h => hSame ((of_decide_eq_true h).symm.trans hId)]
  · intro d _
    split
    · rename_i hd
      rw [of_decide_eq_true hd]
    · rfl

theorem saveJob_cases {id : Id} {version : Option Nat} {change : MenuImportJob → MenuImportJob} :
    (∃ err, w.saveJob id version change = (.error err, w)) ∨
      ∃ job, w.job? id = some job ∧ w.saveJob id version change = (.ok (), setJob (change job) w) := by
  unfold World.saveJob
  split
  · exact .inl ⟨_, rfl⟩
  · rename_i job hFound
    split
    · exact .inl ⟨_, rfl⟩
    · split
      · exact .inr ⟨job, hFound, rfl⟩
      · exact .inl ⟨_, rfl⟩

theorem status?_saveJob {id : Id} {version : Option Nat} {change : MenuImportJob → MenuImportJob}
    (hKeep : ∀ job, (change job).id = job.id ∧ (change job).status = job.status) :
    (w.saveJob id version change).2.status? jobId = w.status? jobId := by
  rcases @saveJob_cases w id version change with ⟨err, hSave⟩ | ⟨job, hFound, hSave⟩
  · rw [hSave]
  · rw [hSave, status?_setJob, (hKeep job).1, (hKeep job).2, id_of_job? hFound]
    split
    · rename_i hId
      subst hId
      unfold World.status?
      rw [hFound]
      rfl
    · rfl

def Op.keepsStatus : Op → Bool
  | claimForExtraction _ | claimForPublishing _ | saveJob _ _ _ | updateUnlessCancelled _ _ => false
  | _ => true

theorem status?_kept (hKeeps : o.keepsStatus = true) : (Op.perform lower o a w).2.status? jobId = w.status? jobId := by
  rcases @perform_cases lower o a w with ⟨err, hPerform⟩ | hPerform
  · rw [hPerform]
  · rw [hPerform]
    cases o with
    | saveRow id version rowNumber patch reviewedAt => exact status?_saveJob fun job => ⟨rfl, rfl⟩
    | transaction scope resolved =>
      change (w.write lower scope resolved).2.status? jobId = _
      unfold World.write
      split <;> rfl
    | claimForExtraction | claimForPublishing | saveJob | updateUnlessCancelled => cases hKeeps
    | _ => rfl

theorem status?_save {version : Option Nat} {changes : JobChanges} {status : MenuImportJobStatus} (hStatus : changes.status = some status) :
    (∃ err, Op.perform lower (.saveJob jobId version changes) a w = (.error err, w)) ∨
      (a.fault = none ∧ (Op.perform lower (.saveJob jobId version changes) a w).1 = .ok () ∧
        (Op.perform lower (.saveJob jobId version changes) a w).2.status? jobId = some status) := by
  obtain ⟨fault, rows⟩ := a
  cases fault with
  | some text => exact .inl ⟨.other text, rfl⟩
  | none =>
    change (∃ err, w.saveJob jobId version changes.apply = (.error err, w)) ∨
      (_ ∧ (w.saveJob jobId version changes.apply).1 = .ok () ∧ (w.saveJob jobId version changes.apply).2.status? jobId = some status)
    rcases @saveJob_cases w jobId version changes.apply with ⟨err, hSave⟩ | ⟨job, hFound, hSave⟩
    · exact .inl ⟨err, hSave⟩
    · refine .inr ⟨rfl, by rw [hSave], ?_⟩
      have hSame := id_of_job? hFound
      have hId : (changes.apply job).id = jobId := hSame
      have hNew : (changes.apply job).status = status := by
        unfold JobChanges.apply
        rw [hStatus]
        rfl
      rw [hSave, status?_setJob, if_pos hId, hNew]
      unfold World.status?
      rw [hFound]
      rfl

theorem claim_cases {from' to' : MenuImportJobStatus} :
    w.claim jobId from' to' = (none, w) ∨ ∃ job, (w.claim jobId from' to').1 = some job ∧ job.status = to' ∧
      w.status? jobId = some from' ∧ (w.claim jobId from' to').2.status? jobId = some to' := by
  unfold World.claim
  split
  · rename_i job hFound
    split
    · rename_i hStatus
      have hBefore : w.status? jobId = some from' := by
        unfold World.status?
        rw [hFound, Option.map_some, hStatus]
      refine .inr ⟨_, rfl, rfl, hBefore, ?_⟩
      have hSame := id_of_job? hFound
      have hId : ({ job with status := to' } : MenuImportJob).id = jobId := hSame
      rw [status?_setJob, if_pos hId, hBefore]
      rfl
    · exact .inl rfl
  · exact .inl rfl

theorem status?_updateUnlessCancelled {changes : JobChanges} {status : MenuImportJobStatus} (hStatus : changes.status = some status) :
    (Op.perform lower (.updateUnlessCancelled jobId changes) a w).2.status? jobId = w.status? jobId ∨
      (w.status? jobId ≠ some .cancelled ∧ (Op.perform lower (.updateUnlessCancelled jobId changes) a w).2.status? jobId = some status) := by
  rcases @perform_cases lower (.updateUnlessCancelled jobId changes) a w with ⟨err, hPerform⟩ | hPerform
  · rw [hPerform]
    exact .inl rfl
  · rw [hPerform]
    change (w.updateUnlessCancelled jobId changes).status? jobId = _ ∨ (_ ∧ (w.updateUnlessCancelled jobId changes).status? jobId = _)
    unfold World.updateUnlessCancelled
    split
    · rename_i job hFound
      have hBefore : w.status? jobId = some job.status := by
        unfold World.status?
        rw [hFound]
        rfl
      split
      · exact .inl rfl
      · rename_i hNot
        refine .inr ⟨fun h => hNot (Option.some.inj (hBefore.symm.trans h)), ?_⟩
        have hSame := id_of_job? hFound
        have hId : (changes.apply job).id = jobId := hSame
        have hNew : (changes.apply job).status = status := by
          unfold JobChanges.apply
          rw [hStatus]
          rfl
        rw [status?_setJob, if_pos hId, hNew, hBefore]
        rfl
    · exact .inl rfl

end Status

/-! ## The invariant -/

namespace Stage

def fits (status : Option MenuImportJobStatus) (stopped : Bool) : Stage → Bool
  | extracting => [some .processing, some .extracting, some .normalizing, some .cancelled].contains status
  | publishing | written => status = some .publishing || (stopped && status = some .cancelled)
  | failed => false
  | _ => true

/-- The request has last read or saved a status that is no end. -/
def informed : Stage → Bool
  | live | extracting | publishing | written => true
  | _ => false

def publishes : Stage → Bool
  | publishing | written => true
  | _ => false

end Stage

structure Ending (jobId : Id) (c : State) (pts : List Stage) : Prop where
  fits : ∀ {t : Nat} {th : Thread Op Op.Resp Err World Unit} {pt : Stage}, c.threads[t]? = some th → pts[t]? = some pt →
    pt.fits (c.state.status? jobId) th.stopped = true
  alone : ∀ {t u : Nat} {pt pu : Stage}, pts[t]? = some pt → pts[u]? = some pu → pt.busy = true → pu.busy = true → t = u
  seen : ∀ {t : Nat} {pt : Stage}, pts[t]? = some pt → pt.informed = true → (c.latest? Op.status? t).any (·.isTerminal) = false
  claimed : ∀ {t : Nat} {pt : Stage}, pts[t]? = some pt → pt.publishes = true → (c.latest? Op.claimsPublishing? t).getD false = true
  committed : ∀ {t : Nat}, pts[t]? = some .written → c.committed t = true
  once : c.commits ≤ 1
  unwritten : ∀ {t : Nat}, pts[t]? = some .publishing → c.commits = 0
  uncommitted : [some .publishing, some .completed, some .cancelled].contains (c.state.status? jobId) = false → c.commits = 0
  cancelled : (c.history.any fun e => e.op.cancels e.result) = true → c.state.status? jobId = some .cancelled
  inOrder : c.history.Pairwise fun later earlier => later.op.commits later.result = true → earlier.op.cancels earlier.result = false

/-- What a move that is allowed does to the status, and where it takes the
request. -/
inductive Shift (jobId : Id) (c : State) (status : Option MenuImportJobStatus) (pt pt' : Stage) : Prop
  | same (hStatus : status = c.state.status? jobId) (hBusy : pt'.busy = true → pt.busy = true) (hFits : pt'.fits status false = true)
  | enter (hStatus : c.state.status? jobId = some .pending ∨ c.state.status? jobId = some .readyForReview)
      (hFits : pt'.fits status false = true)
  | inside (hBusy : pt.busy = true) (hOpen : (c.state.status? jobId).any (·.isTerminal) = false) (hFits : pt'.fits status false = true)
      (hWritten : pt = .written → status = some .completed)
  | cancel (hOpen : (c.state.status? jobId).any (·.isTerminal) = false) (hStatus : status = some .cancelled) (hDone : pt' = .done)
      (hIdle : ∀ t < c.threads.length, c.publishes t = false)

section Runs

variable {lower : Text → Text} {jobId : Id} {start pts : List Stage} {c c' : State}
  {t : Nat} {a : Answer} {o : Op} {th : Thread Op Op.Resp Err World Unit} {k : Except Err o.Resp → Promise Unit} {pt pt' : Stage}

theorem Stage.fits_idle {status : Option MenuImportJobStatus} {stopped : Bool} (hBusy : pt.busy = false) (hKept : pt ≠ .failed) :
    pt.fits status stopped = true := by
  cases pt with
  | failed => exact absurd rfl hKept
  | extracting | publishing | written => cases hBusy
  | _ => rfl

theorem Stage.fits_extracting {status : Option MenuImportJobStatus} {stopped : Bool} (h : Stage.extracting.fits status stopped = true) :
    (status = some .processing ∨ status = some .extracting ∨ status = some .normalizing) ∨ status = some .cancelled := by
  unfold Stage.fits at h
  rw [List.contains_iff_mem] at h
  simp only [List.mem_cons, List.not_mem_nil, or_false] at h
  rcases h with h | h | h | h
  · exact .inl (.inl h)
  · exact .inl (.inr (.inl h))
  · exact .inl (.inr (.inr h))
  · exact .inr h

theorem Stage.fits_publishes {status : Option MenuImportJobStatus} (hPublishes : pt.publishes = true)
    (h : pt.fits status false = true) : status = some .publishing := by
  cases pt with
  | publishing | written =>
    unfold Stage.fits at h
    rw [Bool.false_and, Bool.or_false] at h
    exact of_decide_eq_true h
  | _ => cases hPublishes

theorem inTime_of_save {version : Option Nat} {changes : JobChanges} {status : MenuImportJobStatus} (hI : Ending jobId c pts)
    (hPoint : pts[t]? = some pt) (hInformed : pt.informed = true) (hStatus : changes.status = some status) (hFault : a.fault = none)
    (h : savesInTime jobId c t a (.saveJob jobId version changes) = true) :
    (c.state.status? jobId).any (·.isTerminal) = false ∧ (status = .cancelled → ∀ u < c.threads.length, c.publishes u = false) := by
  unfold savesInTime at h
  dsimp only at h
  rw [hFault, hStatus] at h
  simp only [Option.isSome_none, Option.isNone_some, Bool.false_or, Bool.and_eq_true, Bool.not_eq_true'] at h
  obtain ⟨hOvertaken, hIdle⟩ := h
  unfold State.overtaken at hOvertaken
  rw [hI.seen hPoint hInformed, Bool.not_false, Bool.and_true] at hOvertaken
  refine ⟨hOvertaken, ?_⟩
  rintro rfl u hu
  rw [decide_eq_false (not_not.mpr rfl), Bool.false_or, Bool.not_eq_true', List.any_eq_false] at hIdle
  exact Bool.eq_false_iff.mpr (hIdle u (List.mem_range.mpr hu))

theorem ok_of_finishes (hCommitted : c.committed t = true) (hAudit : o.isAudit = false) (h : finishes lower c t a o = true) :
    (Op.perform lower o a c.state).1.isOk = true := by
  rw [finishes, hCommitted, hAudit] at h
  exact h

theorem shift_of_move (hI : Ending jobId c pts) (hRan : (store lower).Ran c t a o th k c') (hPoint : pts[t]? = some pt)
    (hMove : Stage.Move lower jobId a c.state o pt pt') (hTime : savesInTime jobId c t a o = true)
    (hFinishes : finishes lower c t a o = true) : Shift jobId c (c'.state.status? jobId) pt pt' := by
  have hFits := hI.fits hRan.thread hPoint
  rw [hRan.running] at hFits
  rw [hRan.state]
  dsimp only
  cases hMove with
  | quiet hQuiet =>
    have hKept : o.keepsStatus = true := by
      cases o with
      | clock | findRestaurant | saveRow | readSource | extract | findCategories | findItems | audit => rfl
      | _ => cases hQuiet
    rw [status?_kept hKept]
    exact .same rfl id hFits
  | read =>
    rw [status?_kept rfl]
    refine .same rfl ?_ ?_
    · unfold Stage.afterRead
      split
      · split <;> rintro ⟨⟩
      · rintro ⟨⟩
    · unfold Stage.afterRead
      split
      · split <;> rfl
      · rfl
  | check =>
    rw [status?_kept rfl]
    refine .same rfl (fun _ => rfl) ?_
    unfold Stage.afterCheck
    split
    · split
      · rfl
      · exact hFits
    · exact hFits
  | claimExtraction =>
    rcases @perform_cases lower (.claimForExtraction jobId) a c.state with ⟨err, hPerform⟩ | hPerform
    · rw [hPerform]
      exact .same rfl (fun hBusy => hBusy) rfl
    · have hClaim : Op.run lower (.claimForExtraction jobId) a.extracted c.state =
          (.ok (c.state.claim jobId .pending .processing).1, (c.state.claim jobId .pending .processing).2) := rfl
      rw [hPerform, hClaim]
      rcases @claim_cases jobId c.state .pending .processing with hNone | ⟨job, hSome, -, hBefore, hAfter⟩
      · rw [hNone]
        exact .same rfl (fun hBusy => hBusy) rfl
      · rw [hSome, hAfter]
        exact .enter (.inl hBefore) rfl
  | claimPublishing =>
    rcases @perform_cases lower (.claimForPublishing jobId) a c.state with ⟨err, hPerform⟩ | hPerform
    · rw [hPerform]
      exact .same rfl (fun hBusy => hBusy) rfl
    · have hClaim : Op.run lower (.claimForPublishing jobId) a.extracted c.state =
          (.ok (c.state.claim jobId .readyForReview .publishing).1, (c.state.claim jobId .readyForReview .publishing).2) := rfl
      rw [hPerform, hClaim]
      rcases @claim_cases jobId c.state .readyForReview .publishing with hNone | ⟨job, hSome, -, hBefore, hAfter⟩
      · rw [hNone]
        exact .same rfl (fun hBusy => hBusy) rfl
      · rw [hSome, hAfter]
        exact .enter (.inr hBefore) rfl
  | @cancel version changes hStatus =>
    rcases @status?_save lower jobId c.state a version changes _ hStatus with ⟨err, hPerform⟩ | ⟨hFault, -, hAfter⟩
    · rw [hPerform]
      exact .same rfl (fun hBusy => hBusy) rfl
    · obtain ⟨hOpen, hIdle⟩ := inTime_of_save hI hPoint rfl hStatus hFault hTime
      rw [hAfter]
      exact .cancel hOpen rfl rfl (hIdle rfl)
  | @progress version changes hStatus =>
    rcases hStatus with hStatus | hStatus
    · rcases @status?_save lower jobId c.state a version changes _ hStatus with ⟨err, hPerform⟩ | ⟨hFault, -, hAfter⟩
      · rw [hPerform]
        exact .same rfl (fun hBusy => hBusy) hFits
      · obtain ⟨hOpen, -⟩ := inTime_of_save hI hPoint rfl hStatus hFault hTime
        rw [hAfter]
        exact .inside rfl hOpen rfl (fun h => by cases h)
    · rcases @status?_save lower jobId c.state a version changes _ hStatus with ⟨err, hPerform⟩ | ⟨hFault, -, hAfter⟩
      · rw [hPerform]
        exact .same rfl (fun hBusy => hBusy) hFits
      · obtain ⟨hOpen, -⟩ := inTime_of_save hI hPoint rfl hStatus hFault hTime
        rw [hAfter]
        exact .inside rfl hOpen rfl (fun h => by cases h)
  | @finish version changes hStatus =>
    rcases @status?_save lower jobId c.state a version changes _ hStatus with ⟨err, hPerform⟩ | ⟨hFault, hOk, hAfter⟩
    · rw [hPerform]
      exact .same rfl (fun _ => rfl) hFits
    · obtain ⟨hOpen, -⟩ := inTime_of_save hI hPoint rfl hStatus hFault hTime
      rw [hOk, hAfter]
      exact .inside rfl hOpen rfl (fun h => by cases h)
  | @giveUp changes hStatus =>
    have hOpen : c.state.status? jobId ≠ some .cancelled → (c.state.status? jobId).any (·.isTerminal) = false := by
      intro hNot
      rcases Stage.fits_extracting hFits with (h | h | h) | h
      · rw [h]
        rfl
      · rw [h]
        rfl
      · rw [h]
        rfl
      · exact absurd h hNot
    have hUpdate : ∀ status, changes.status = some status → Shift jobId c
        ((Op.perform lower (.updateUnlessCancelled jobId changes) a c.state).2.status? jobId) .extracting .done := by
      intro status hStatus
      rcases @status?_updateUnlessCancelled lower jobId c.state a changes status hStatus with hSame | ⟨hNot, hAfter⟩
      · exact .same hSame (fun h => by cases h) rfl
      · exact .inside rfl (hOpen hNot) rfl (fun h => by cases h)
    rcases hStatus with hStatus | hStatus
    · exact hUpdate _ hStatus
    · exact hUpdate _ hStatus
  | @write scope resolved =>
    rw [status?_kept rfl]
    refine .same rfl (fun _ => rfl) ?_
    unfold Stage.after
    split
    · exact hFits
    · exact hFits
  | @giveBack version changes hStatus =>
    rcases @status?_save lower jobId c.state a version changes _ hStatus with ⟨err, hPerform⟩ | ⟨hFault, -, hAfter⟩
    · rw [hPerform]
      exact .same rfl (fun h => by cases h) rfl
    · obtain ⟨hOpen, -⟩ := inTime_of_save hI hPoint rfl hStatus hFault hTime
      exact .inside rfl hOpen rfl (fun h => by cases h)
  | @invalidate scope =>
    rw [status?_kept rfl]
    have hOk := ok_of_finishes (hI.committed hPoint) rfl hFinishes
    refine .same rfl (fun _ => rfl) ?_
    unfold Stage.after
    split
    · exact hFits
    · rename_i err hThrown
      rw [hThrown] at hOk
      cases hOk
  | @complete version changes hStatus =>
    have hOk := ok_of_finishes (hI.committed hPoint) rfl hFinishes
    rcases @status?_save lower jobId c.state a version changes _ hStatus with ⟨err, hPerform⟩ | ⟨hFault, hSaved, hAfter⟩
    · rw [hPerform] at hOk
      cases hOk
    · obtain ⟨hOpen, -⟩ := inTime_of_save hI hPoint rfl hStatus hFault hTime
      rw [hSaved, hAfter]
      exact .inside rfl hOpen rfl (fun _ => rfl)
  | fail => cases hFits

theorem Shift.ended {status : Option MenuImportJobStatus} (h : Shift jobId c status pt pt')
    (hEnded : (c.state.status? jobId).any (·.isTerminal) = true) : status = c.state.status? jobId := by
  cases h with
  | same hStatus hBusy hFits => exact hStatus
  | enter hStatus hFits =>
    rcases hStatus with hStatus | hStatus <;> rw [hStatus] at hEnded <;> cases hEnded
  | inside hBusy hOpen hFits hWritten =>
    rw [hOpen] at hEnded
    cases hEnded
  | cancel hOpen hStatus hDone hIdle =>
    rw [hOpen] at hEnded
    cases hEnded

theorem Stage.busy_of_waiting {status : Option MenuImportJobStatus} {stopped : Bool}
    (hStatus : status = some .pending ∨ status = some .readyForReview) (h : pt.fits status stopped = true) : pt.busy = false := by
  rcases hStatus with rfl | rfl
  · cases stopped <;> cases pt <;> first | rfl | cases h
  · cases stopped <;> cases pt <;> first | rfl | cases h

theorem Ending.idle_of_waiting (hI : Ending jobId c pts)
    (hStatus : c.state.status? jobId = some .pending ∨ c.state.status? jobId = some .readyForReview) {u : Nat}
    {thU : Thread Op Op.Resp Err World Unit} {pu : Stage} (hThread : c.threads[u]? = some thU) (hPointU : pts[u]? = some pu) :
    pu.busy = false :=
  Stage.busy_of_waiting hStatus (hI.fits hThread hPointU)

theorem publishes_of (hI : Ending jobId c pts) {thU : Thread Op Op.Resp Err World Unit} {u : Nat} {pu : Stage}
    (hT : Tracks (store lower) (passage lower jobId) start c pts) (hThread : c.threads[u]? = some thU) (hPointU : pts[u]? = some pu)
    (hPublishes : pu.publishes = true) (hRunning : thU.stopped = false) : c.publishes u = true := by
  rw [State.publishes, hI.claimed hPointU hPublishes, Bool.true_and, hThread, Option.any_some, hRunning, Bool.not_false, Bool.true_and]
  cases hNext : thU.next?.isSome with
  | true => rfl
  | false =>
    have hRest : pu.busy = false := hT.rest_of_ended hThread hPointU hNext
    cases pu with
    | publishing | written => cases hRest
    | _ => cases hPublishes

theorem Shift.fits_other {status : Option MenuImportJobStatus} (h : Shift jobId c status pt pt') (hI : Ending jobId c pts)
    (hT : Tracks (store lower) (passage lower jobId) start c pts) (hPoint : pts[t]? = some pt) {u : Nat}
    {thU : Thread Op Op.Resp Err World Unit} {pu : Stage} (hNe : u ≠ t) (hThread : c.threads[u]? = some thU) (hPointU : pts[u]? = some pu) :
    pu.fits status thU.stopped = true := by
  have hFits := hI.fits hThread hPointU
  have hKept : pu ≠ .failed := by
    rintro rfl
    cases hFits
  cases h with
  | same hStatus hBusy hFits' =>
    rw [hStatus]
    exact hFits
  | enter hStatus hFits' => exact Stage.fits_idle (hI.idle_of_waiting hStatus hThread hPointU) hKept
  | inside hBusy hOpen hFits' hWritten =>
    cases hBusyU : pu.busy with
    | true => exact absurd (hI.alone hPointU hPoint hBusyU hBusy) hNe
    | false => exact Stage.fits_idle hBusyU hKept
  | cancel hOpen hStatus hDone hIdle =>
    rw [hStatus]
    cases hStopped : thU.stopped with
    | true =>
      cases pu with
      | failed => exact absurd rfl hKept
      | _ => rfl
    | false =>
      cases hPublishes : pu.publishes with
      | true =>
        have hSome := publishes_of hI hT hThread hPointU hPublishes hStopped
        rw [hIdle u (List.getElem?_eq_some_iff.mp hThread).1] at hSome
        cases hSome
      | false =>
        cases pu with
        | failed => exact absurd rfl hKept
        | publishing | written => cases hPublishes
        | _ => rfl

theorem Shift.busy {status : Option MenuImportJobStatus} (h : Shift jobId c status pt pt') (hI : Ending jobId c pts)
    (hT : Tracks (store lower) (passage lower jobId) start c pts) (hPoint : pts[t]? = some pt) (hBusy' : pt'.busy = true) {u : Nat}
    {pu : Stage} (hPointU : pts[u]? = some pu) (hBusyU : pu.busy = true) : u = t := by
  cases h with
  | same hStatus hBusy hFits => exact hI.alone hPointU hPoint hBusyU (hBusy hBusy')
  | enter hStatus hFits =>
    obtain ⟨thU, hThread⟩ := hT.thread_exists hPointU
    rw [hI.idle_of_waiting hStatus hThread hPointU] at hBusyU
    cases hBusyU
  | inside hBusy hOpen hFits hWritten => exact hI.alone hPointU hPoint hBusyU hBusy
  | cancel hOpen hStatus hDone hIdle =>
    rw [hDone] at hBusy'
    cases hBusy'

/-! ### What the history tells of a move -/

theorem claimed_of_extracting {w : World}
    (h : (Stage.afterClaim .extracting (Op.perform lower (.claimForExtraction jobId) a w).1).informed = true) :
    ∃ job, (Op.perform lower (.claimForExtraction jobId) a w).1 = .ok (some job) ∧ job.status = .processing := by
  rcases @perform_cases lower (.claimForExtraction jobId) a w with ⟨err, hPerform⟩ | hPerform
  · rw [hPerform] at h
    cases h
  · have hClaim : (Op.perform lower (.claimForExtraction jobId) a w).1 = .ok (w.claim jobId .pending .processing).1 := by
      rw [hPerform]
      rfl
    rw [hClaim] at h ⊢
    rcases @claim_cases jobId w .pending .processing with hNone | ⟨job, hSome, hStatus, -⟩
    · rw [hNone] at h
      cases h
    · rw [hSome]
      exact ⟨job, rfl, hStatus⟩

theorem claimed_of_publishing {w : World}
    (h : (Stage.afterClaim .publishing (Op.perform lower (.claimForPublishing jobId) a w).1).informed = true) :
    ∃ job, (Op.perform lower (.claimForPublishing jobId) a w).1 = .ok (some job) ∧ job.status = .publishing := by
  rcases @perform_cases lower (.claimForPublishing jobId) a w with ⟨err, hPerform⟩ | hPerform
  · rw [hPerform] at h
    cases h
  · have hClaim : (Op.perform lower (.claimForPublishing jobId) a w).1 = .ok (w.claim jobId .readyForReview .publishing).1 := by
      rw [hPerform]
      rfl
    rw [hClaim] at h ⊢
    rcases @claim_cases jobId w .readyForReview .publishing with hNone | ⟨job, hSome, hStatus, -⟩
    · rw [hNone] at h
      cases h
    · rw [hSome]
      exact ⟨job, rfl, hStatus⟩

theorem seen_move (hI : Ending jobId c pts) (hRan : (store lower).Ran c t a o th k c') (hPoint : pts[t]? = some pt)
    (hMove : Stage.Move lower jobId a c.state o pt pt') (hTime : savesInTime jobId c t a o = true) (hInformed : pt'.informed = true) :
    (c'.latest? Op.status? t).any (·.isTerminal) = false := by
  have hFits := hI.fits hRan.thread hPoint
  rw [hRan.running] at hFits
  have hOld : pt.informed = true → o.status? (Op.perform lower o a c.state).1 = none →
      (c'.latest? Op.status? t).any (·.isTerminal) = false := by
    intro hBefore hNone
    rw [hRan.latest?, if_pos rfl, hNone, Option.none_or]
    exact hI.seen hPoint hBefore
  have hNew : ∀ status : MenuImportJobStatus, status.isTerminal = false → o.status? (Op.perform lower o a c.state).1 = some status →
      (c'.latest? Op.status? t).any (·.isTerminal) = false := by
    intro status hOpen hSome
    rw [hRan.latest?, if_pos rfl, hSome, Option.some_or, Option.any_some]
    exact hOpen
  cases hMove with
  | quiet hQuiet =>
    refine hOld hInformed ?_
    cases o with
    | clock | findRestaurant | saveRow | readSource | extract | findCategories | findItems | audit => rfl
    | _ => cases hQuiet
  | read =>
    cases hRead : (Op.perform lower (.findJob jobId) a c.state).1 with
    | error err =>
      rw [hRead] at hInformed
      cases hInformed
    | ok found =>
      cases found with
      | none =>
        rw [hRead] at hInformed
        cases hInformed
      | some job =>
        rw [hRead] at hInformed
        unfold Stage.afterRead at hInformed
        dsimp only at hInformed
        split at hInformed
        · cases hInformed
        · rename_i hOpen
          refine hNew job.status (Bool.eq_false_iff.mpr hOpen) ?_
          rw [hRead]
          rfl
  | check =>
    rcases @perform_cases lower (.findJob jobId) a c.state with ⟨err, hPerform⟩ | hPerform
    · refine hOld rfl ?_
      rw [hPerform]
      rfl
    · have hRead : (Op.perform lower (.findJob jobId) a c.state).1 = .ok (c.state.job? jobId) := by
        rw [hPerform]
        rfl
      cases hFound : c.state.job? jobId with
      | none =>
        refine hOld rfl ?_
        rw [hRead, hFound]
        rfl
      | some job =>
        have hStatus : c.state.status? jobId = some job.status := by
          unfold World.status?
          rw [hFound]
          rfl
        rw [hRead, hFound] at hInformed
        unfold Stage.afterCheck at hInformed
        dsimp only at hInformed
        split at hInformed
        · cases hInformed
        · rename_i hNot
          refine hNew job.status ?_ (by rw [hRead, hFound]; rfl)
          rw [hStatus] at hFits
          rcases Stage.fits_extracting hFits with (h | h | h) | h
          · rw [Option.some.inj h]
            rfl
          · rw [Option.some.inj h]
            rfl
          · rw [Option.some.inj h]
            rfl
          · exact absurd (Option.some.inj h) hNot
  | claimExtraction =>
    obtain ⟨job, hClaimed, hStatus⟩ := claimed_of_extracting hInformed
    refine hNew .processing rfl ?_
    rw [hClaimed]
    exact congrArg some hStatus
  | claimPublishing =>
    obtain ⟨job, hClaimed, hStatus⟩ := claimed_of_publishing hInformed
    refine hNew .publishing rfl ?_
    rw [hClaimed]
    exact congrArg some hStatus
  | cancel hStatus => cases hInformed
  | @progress version changes hStatus =>
    cases hSaved : (Op.perform lower (.saveJob jobId version changes) a c.state).1 with
    | error err =>
      refine hOld rfl ?_
      rw [hSaved]
      rfl
    | ok v =>
      rcases hStatus with hStatus | hStatus
      · refine hNew .extracting rfl ?_
        rw [hSaved]
        exact hStatus
      · refine hNew .normalizing rfl ?_
        rw [hSaved]
        exact hStatus
  | @finish version changes hStatus =>
    cases hSaved : (Op.perform lower (.saveJob jobId version changes) a c.state).1 with
    | error err =>
      refine hOld rfl ?_
      rw [hSaved]
      rfl
    | ok v =>
      rw [hSaved] at hInformed
      cases hInformed
  | giveUp hStatus => cases hInformed
  | write => exact hOld rfl rfl
  | giveBack hStatus => cases hInformed
  | invalidate => exact hOld rfl rfl
  | @complete version changes hStatus =>
    cases hSaved : (Op.perform lower (.saveJob jobId version changes) a c.state).1 with
    | error err =>
      rw [hSaved] at hInformed
      cases hInformed
    | ok v =>
      rw [hSaved] at hInformed
      cases hInformed
  | fail => cases hInformed

theorem claimed_move (hI : Ending jobId c pts) (hRan : (store lower).Ran c t a o th k c') (hPoint : pts[t]? = some pt)
    (hMove : Stage.Move lower jobId a c.state o pt pt') (hPublishes : pt'.publishes = true) :
    (c'.latest? Op.claimsPublishing? t).getD false = true := by
  have hOld : pt.publishes = true → o.claimsPublishing? (Op.perform lower o a c.state).1 = none →
      (c'.latest? Op.claimsPublishing? t).getD false = true := by
    intro hBefore hNone
    rw [hRan.latest?, if_pos rfl, hNone, Option.none_or]
    exact hI.claimed hPoint hBefore
  cases hMove with
  | quiet hQuiet =>
    refine hOld hPublishes ?_
    cases o with
    | clock | findRestaurant | saveRow | readSource | extract | findCategories | findItems | audit => rfl
    | _ => cases hQuiet
  | read =>
    unfold Stage.afterRead at hPublishes
    split at hPublishes
    · split at hPublishes <;> cases hPublishes
    · cases hPublishes
  | check =>
    unfold Stage.afterCheck at hPublishes
    split at hPublishes
    · split at hPublishes <;> cases hPublishes
    · cases hPublishes
  | claimExtraction =>
    unfold Stage.afterClaim at hPublishes
    split at hPublishes <;> cases hPublishes
  | claimPublishing =>
    have hInformed : (Stage.afterClaim .publishing (Op.perform lower (.claimForPublishing jobId) a c.state).1).informed = true := by
      unfold Stage.afterClaim at hPublishes ⊢
      split at hPublishes
      · rfl
      · cases hPublishes
    obtain ⟨job, hClaimed, -⟩ := claimed_of_publishing hInformed
    rw [hRan.latest?, if_pos rfl]
    dsimp only
    rw [hClaimed]
    rfl
  | finish hStatus =>
    unfold Stage.after at hPublishes
    split at hPublishes <;> cases hPublishes
  | write => exact hOld rfl rfl
  | invalidate => exact hOld rfl rfl
  | complete hStatus =>
    unfold Stage.after at hPublishes
    split at hPublishes <;> cases hPublishes
  | cancel | progress | giveUp | giveBack | fail => cases hPublishes

theorem committed_of_ran (hRan : (store lower).Ran c t a o th k c') {u : Nat} :
    c'.committed u = ((decide (t = u) && o.commits (Op.perform lower o a c.state).1) || c.committed u) := by
  rw [State.committed, hRan.history, List.any_cons]
  rfl

theorem commits_of_ran (hRan : (store lower).Ran c t a o th k c') :
    c'.commits = c.commits + if o.commits (Op.perform lower o a c.state).1 then 1 else 0 := by
  rw [State.commits, hRan.history, List.countP_cons]
  rfl

theorem of_commits (hMove : Stage.Move lower jobId a c.state o pt pt') (hKept : pt ≠ .failed)
    (h : o.commits (Op.perform lower o a c.state).1 = true) :
    pt = .publishing ∧ pt' = .written := by
  cases hMove with
  | quiet hQuiet =>
    cases o with
    | clock | findRestaurant | saveRow | readSource | extract | findCategories | findItems | audit => cases h
    | _ => cases hQuiet
  | @write scope resolved =>
    refine ⟨rfl, ?_⟩
    cases hWritten : (Op.perform lower (.transaction scope resolved) a c.state).1 with
    | error err =>
      rw [hWritten] at h
      cases h
    | ok report => rfl
  | fail => exact absurd rfl hKept
  | _ => cases h

theorem of_cancels (hMove : Stage.Move lower jobId a c.state o pt pt') (hKept : pt ≠ .failed)
    (h : o.cancels (Op.perform lower o a c.state).1 = true) :
    (Op.perform lower o a c.state).2.status? jobId = some .cancelled := by
  have hSave : ∀ (version : Option Nat) (changes : JobChanges), o = .saveJob jobId version changes →
      (Op.perform lower o a c.state).2.status? jobId = some .cancelled := by
    rintro version changes rfl
    cases hSaved : (Op.perform lower (.saveJob jobId version changes) a c.state).1 with
    | error err =>
      rw [hSaved] at h
      cases h
    | ok v =>
      rw [hSaved] at h
      rcases @status?_save lower jobId c.state a version changes _ (of_decide_eq_true h) with ⟨err, hPerform⟩ | ⟨-, -, hAfter⟩
      · rw [hPerform] at hSaved
        cases hSaved
      · exact hAfter
  cases hMove with
  | quiet hQuiet =>
    cases o with
    | clock | findRestaurant | saveRow | readSource | extract | findCategories | findItems | audit => cases h
    | _ => cases hQuiet
  | cancel hStatus => exact hSave _ _ rfl
  | progress hStatus => exact hSave _ _ rfl
  | finish hStatus => exact hSave _ _ rfl
  | giveBack hStatus => exact hSave _ _ rfl
  | complete hStatus => exact hSave _ _ rfl
  | fail => exact absurd rfl hKept
  | _ => cases h

theorem written_move (hMove : Stage.Move lower jobId a c.state o pt pt') (hRan : (store lower).Ran c t a o th k c')
    (hBefore : pt = .written → c.committed t = true) (hWritten : pt' = .written) : c'.committed t = true := by
  rw [committed_of_ran hRan]
  have hOld : pt = .written → (decide (t = t) && o.commits (Op.perform lower o a c.state).1 || c.committed t) = true := by
    intro h
    rw [hBefore h, Bool.or_true]
  induction hMove with
  | quiet hQuiet => exact hOld hWritten
  | read =>
    unfold Stage.afterRead at hWritten
    split at hWritten
    · split at hWritten <;> cases hWritten
    · cases hWritten
  | check =>
    unfold Stage.afterCheck at hWritten
    split at hWritten
    · split at hWritten <;> cases hWritten
    · cases hWritten
  | claimExtraction =>
    unfold Stage.afterClaim at hWritten
    split at hWritten <;> cases hWritten
  | claimPublishing =>
    unfold Stage.afterClaim at hWritten
    split at hWritten <;> cases hWritten
  | finish hStatus =>
    unfold Stage.after at hWritten
    split at hWritten <;> cases hWritten
  | @write scope resolved =>
    cases hResult : (Op.perform lower (.transaction scope resolved) a c.state).1 with
    | error err =>
      rw [hResult] at hWritten
      cases hWritten
    | ok report =>
      rw [decide_eq_true rfl]
      rfl
  | invalidate => exact hOld rfl
  | complete hStatus => exact hOld rfl
  | cancel | progress | giveUp | giveBack | fail => cases hWritten

theorem publishing_move (hMove : Stage.Move lower jobId a c.state o pt pt') (hPublishing : pt' = .publishing) :
    (pt = .publishing ∧ o.commits (Op.perform lower o a c.state).1 = false) ∨
      pt = .live := by
  cases hMove with
  | quiet hQuiet =>
    refine .inl ⟨hPublishing, ?_⟩
    cases o with
    | clock | findRestaurant | saveRow | readSource | extract | findCategories | findItems | audit => rfl
    | _ => cases hQuiet
  | read =>
    unfold Stage.afterRead at hPublishing
    split at hPublishing
    · split at hPublishing <;> cases hPublishing
    · cases hPublishing
  | check =>
    unfold Stage.afterCheck at hPublishing
    split at hPublishing
    · split at hPublishing <;> cases hPublishing
    · cases hPublishing
  | claimExtraction =>
    unfold Stage.afterClaim at hPublishing
    split at hPublishing <;> cases hPublishing
  | claimPublishing => exact .inr rfl
  | finish hStatus =>
    unfold Stage.after at hPublishing
    split at hPublishing <;> cases hPublishing
  | @write scope resolved =>
    cases hResult : (Op.perform lower (.transaction scope resolved) a c.state).1 with
    | error err => exact .inl ⟨rfl, rfl⟩
    | ok report =>
      rw [hResult] at hPublishing
      cases hPublishing
  | invalidate =>
    unfold Stage.after at hPublishing
    split at hPublishing <;> cases hPublishing
  | complete hStatus =>
    unfold Stage.after at hPublishing
    split at hPublishing <;> cases hPublishing
  | cancel | progress | giveUp | giveBack | fail => cases hPublishing

/-! ### The invariant is kept -/

theorem commits_kept (hRan : (store lower).Ran c t a o th k c') (h : o.commits (Op.perform lower o a c.state).1 = false) :
    c'.commits = c.commits := by
  rw [commits_of_ran hRan, h]
  rfl

theorem uncommitted_run {status : Option MenuImportJobStatus} (hI : Ending jobId c pts) (hShift : Shift jobId c status pt pt')
    (hPoint : pts[t]? = some pt) (hFits : pt.fits (c.state.status? jobId) false = true)
    (hStatus : [some .publishing, some .completed, some .cancelled].contains status = false) : c.commits = 0 := by
  cases hShift with
  | same hSame hBusy hFits' =>
    rw [hSame] at hStatus
    exact hI.uncommitted hStatus
  | enter hWaiting hFits' =>
    refine hI.uncommitted ?_
    rcases hWaiting with h | h <;> rw [h] <;> rfl
  | inside hBusy hOpen hFits' hWritten =>
    cases pt with
    | extracting =>
      refine hI.uncommitted ?_
      rcases Stage.fits_extracting hFits with (h | h | h) | h
      · rw [h]
        rfl
      · rw [h]
        rfl
      · rw [h]
        rfl
      · rw [h] at hOpen
        cases hOpen
    | publishing => exact hI.unwritten hPoint
    | written =>
      rw [hWritten rfl] at hStatus
      cases hStatus
    | _ => cases hBusy
  | cancel hOpen hCancelled hDone hIdle =>
    rw [hCancelled] at hStatus
    cases hStatus

theorem Ending.run (hI : Ending jobId c pts) (hT : Tracks (store lower) (passage lower jobId) start c pts)
    (hGuard : keepsEnd lower jobId c (.run t a) = true) (hRan : (store lower).Ran c t a o th k c') (hPoint : pts[t]? = some pt)
    (hMove : Stage.Move lower jobId a c.state o pt pt') : Ending jobId c' (pts.set t pt') := by
  unfold keepsEnd at hGuard
  dsimp only at hGuard
  rw [hRan.waiting?, Option.all_some, Bool.and_eq_true] at hGuard
  obtain ⟨hTime, hFinishes⟩ := hGuard
  have hShift := shift_of_move hI hRan hPoint hMove hTime hFinishes
  have hFits := hI.fits hRan.thread hPoint
  rw [hRan.running] at hFits
  have hKept : pt ≠ .failed := by
    rintro rfl
    cases hFits
  have hCommits : o.commits (Op.perform lower o a c.state).1 = true →
      pt = .publishing ∧ pt' = .written ∧ c.state.status? jobId = some .publishing ∧ c.commits = 0 := by
    intro h
    obtain ⟨rfl, rfl⟩ := of_commits hMove hKept h
    exact ⟨rfl, rfl, Stage.fits_publishes rfl hFits, hI.unwritten hPoint⟩
  constructor
  · intro u thU pu hThread hPointU
    rw [hRan.threads] at hThread
    rcases Tables.getElem?_set_cases hPointU with ⟨rfl, rfl⟩ | ⟨hNe, hPointU⟩
    · rw [Tables.getElem?_set_eq hRan.thread] at hThread
      cases hThread
      cases hShift with
      | same hStatus hBusy hFits' => exact hFits'
      | enter hStatus hFits' => exact hFits'
      | inside hBusy hOpen hFits' hWritten => exact hFits'
      | cancel hOpen hStatus hDone hIdle =>
        rw [hDone]
        rfl
    · rw [List.getElem?_set_ne (Ne.symm hNe)] at hThread
      exact hShift.fits_other hI hT hPoint hNe hThread hPointU
  · intro u v pu pv hPointU hPointV hBusyU hBusyV
    rcases Tables.getElem?_set_cases hPointU with ⟨rfl, rfl⟩ | ⟨hNeU, hAtU⟩
    · rcases Tables.getElem?_set_cases hPointV with ⟨rfl, rfl⟩ | ⟨hNeV, hAtV⟩
      · rfl
      · exact (hShift.busy hI hT hPoint hBusyU hAtV hBusyV).symm
    · rcases Tables.getElem?_set_cases hPointV with ⟨rfl, rfl⟩ | ⟨hNeV, hAtV⟩
      · exact hShift.busy hI hT hPoint hBusyV hAtU hBusyU
      · exact hI.alone hAtU hAtV hBusyU hBusyV
  · intro u pu hPointU hInformed
    rcases Tables.getElem?_set_cases hPointU with ⟨rfl, rfl⟩ | ⟨hNe, hPointU⟩
    · exact seen_move hI hRan hPoint hMove hTime hInformed
    · rw [hRan.latest?, if_neg (Ne.symm hNe)]
      exact hI.seen hPointU hInformed
  · intro u pu hPointU hPublishes
    rcases Tables.getElem?_set_cases hPointU with ⟨rfl, rfl⟩ | ⟨hNe, hPointU⟩
    · exact claimed_move hI hRan hPoint hMove hPublishes
    · rw [hRan.latest?, if_neg (Ne.symm hNe)]
      exact hI.claimed hPointU hPublishes
  · intro u hPointU
    rcases Tables.getElem?_set_cases hPointU with ⟨rfl, hWritten⟩ | ⟨hNe, hPointU⟩
    · refine written_move hMove hRan ?_ hWritten.symm
      rintro rfl
      exact hI.committed hPoint
    · rw [committed_of_ran hRan, hI.committed hPointU, Bool.or_true]
  · cases hNew : o.commits (Op.perform lower o a c.state).1 with
    | true =>
      obtain ⟨-, -, -, hZero⟩ := hCommits hNew
      rw [commits_of_ran hRan, hNew, hZero]
      exact Nat.le_refl 1
    | false =>
      rw [commits_kept hRan hNew]
      exact hI.once
  · intro u hPointU
    rcases Tables.getElem?_set_cases hPointU with ⟨rfl, hPublishing⟩ | ⟨hNe, hPointU⟩
    · rcases publishing_move hMove hPublishing.symm with ⟨rfl, hNone⟩ | rfl
      · rw [commits_kept hRan hNone]
        exact hI.unwritten hPoint
      · subst hPublishing
        cases hNew : o.commits (Op.perform lower o a c.state).1 with
        | true =>
          obtain ⟨hPt, -⟩ := hCommits hNew
          cases hPt
        | false =>
          rw [commits_kept hRan hNew]
          cases hShift with
          | same hStatus hBusy hFits' => cases hBusy rfl
          | enter hStatus hFits' =>
            refine hI.uncommitted ?_
            rcases hStatus with h | h <;> rw [h] <;> rfl
          | inside hBusy hOpen hFits' hWritten => cases hBusy
          | cancel hOpen hStatus hDone hIdle => cases hDone
    · cases hNew : o.commits (Op.perform lower o a c.state).1 with
      | true =>
        obtain ⟨rfl, -⟩ := hCommits hNew
        exact absurd (hI.alone hPointU hPoint rfl rfl) hNe
      | false =>
        rw [commits_kept hRan hNew]
        exact hI.unwritten hPointU
  · intro hStatus
    cases hNew : o.commits (Op.perform lower o a c.state).1 with
    | true =>
      obtain ⟨rfl, rfl, hPublishing, -⟩ := hCommits hNew
      cases hShift with
      | same hSame hBusy hFits' =>
        rw [hSame, hPublishing] at hStatus
        cases hStatus
      | enter hWaiting hFits' =>
        rw [hPublishing] at hWaiting
        rcases hWaiting with h | h <;> cases h
      | inside hBusy hOpen hFits' hWritten =>
        rw [Stage.fits_publishes rfl hFits'] at hStatus
        cases hStatus
      | cancel hOpen hCancelled hDone hIdle => cases hDone
    | false =>
      rw [commits_kept hRan hNew]
      exact uncommitted_run hI hShift hPoint hFits hStatus
  · intro hCancels
    rw [hRan.history, List.any_cons, Bool.or_eq_true] at hCancels
    rcases hCancels with hNow | hBefore
    · rw [hRan.state]
      exact of_cancels hMove hKept hNow
    · have hEnded : (c.state.status? jobId).any (·.isTerminal) = true := by
        rw [hI.cancelled hBefore]
        rfl
      rw [hShift.ended hEnded]
      exact hI.cancelled hBefore
  · rw [hRan.history, List.pairwise_cons]
    refine ⟨fun earlier hMem hNow => ?_, hI.inOrder⟩
    obtain ⟨-, -, hPublishing, -⟩ := hCommits hNow
    cases hCancels : earlier.op.cancels earlier.result with
    | false => rfl
    | true =>
      have hStatus := hI.cancelled (List.any_eq_true.mpr ⟨earlier, hMem, hCancels⟩)
      rw [hPublishing] at hStatus
      cases hStatus

theorem Ending.stop (hI : Ending jobId c pts) (hThread : c.threads[t]? = some th) :
    Ending jobId { c with threads := c.threads.set t { th with stopped := true } } pts := by
  refine ⟨fun {u thU pu} hThreadU hPointU => ?_, hI.alone, hI.seen, hI.claimed, hI.committed, hI.once, hI.unwritten, hI.uncommitted,
    hI.cancelled, hI.inOrder⟩
  rcases Tables.getElem?_set_cases hThreadU with ⟨rfl, rfl⟩ | ⟨-, hThreadU⟩
  · have hFits := hI.fits hThread hPointU
    cases pu with
    | publishing | written =>
      unfold Stage.fits at hFits ⊢
      rw [Bool.or_eq_true, Bool.and_eq_true] at hFits ⊢
      rcases hFits with h | ⟨-, h⟩
      · exact .inl h
      · exact .inr ⟨rfl, h⟩
    | _ => exact hFits
  · exact hI.fits hThreadU hPointU

theorem Ending.advance (hI : Ending jobId c pts) (e : Event) :
    Ending jobId { c with state := (store lower).advance e c.state } pts := by
  obtain ⟨elapsed⟩ := e
  exact ⟨hI.fits, hI.alone, hI.seen, hI.claimed, hI.committed, hI.once, hI.unwritten, hI.uncommitted, hI.cancelled, hI.inOrder⟩

theorem Ending.initial {w : World} {programs : List (Promise Unit)} (h : ∀ pt ∈ pts, pt = .fresh) :
    Ending jobId (.initial w programs : State) pts := by
  have hFresh : ∀ {t : Nat} {pt : Stage}, pts[t]? = some pt → pt = .fresh := fun hPoint => h _ (List.mem_of_getElem? hPoint)
  constructor
  · intro t th pt _ hPoint
    rw [hFresh hPoint]
    rfl
  · intro t u pt pu hPoint _ hBusy
    rw [hFresh hPoint] at hBusy
    cases hBusy
  · intro t pt hPoint hInformed
    rw [hFresh hPoint] at hInformed
    cases hInformed
  · intro t pt hPoint hPublishes
    rw [hFresh hPoint] at hPublishes
    cases hPublishes
  · intro t hPoint
    cases hFresh hPoint
  · exact Nat.zero_le 1
  · intro t hPoint
    cases hFresh hPoint
  · intro _
    rfl
  · intro hCancels
    cases hCancels
  · exact List.Pairwise.nil

theorem ending_of_reach {env : WorkerEnv} {w : World} {requests : List JobRequest}
    (hReach : (store env.lower).Reach (fun c l => keepsEnd env.lower jobId c l)
      (.initial w (requests.map (JobRequest.program env jobId))) c) :
    ∃ pts, Tracks (store env.lower) (passage env.lower jobId) (requests.map fun _ => Stage.fresh) c pts ∧ Ending jobId c pts := by
  have hTracks : Tracks (store env.lower) (passage env.lower jobId) (requests.map fun _ => Stage.fresh)
      (.initial w (requests.map (JobRequest.program env jobId)) : State) (requests.map fun _ => Stage.fresh) :=
    Tracks.initial fun request _ => request.program_follows
  refine hTracks.invariant (I := fun c pts => Ending jobId c pts) (Ending.initial ?_) ?_ ?_ ?_ hReach
  · intro pt hMem
    obtain ⟨request, -, rfl⟩ := List.mem_map.mp hMem
    rfl
  · intro c c' pts t a o th k pt pt' hT hI hGuard hRan hPoint hMove _
    exact hI.run hT hGuard hRan hPoint hMove
  · intro c pts t th _ hI _ hThread
    exact hI.stop hThread
  · intro c pts e _ hI _
    exact hI.advance e

theorem ended_step {env : WorkerEnv} {l : Label Answer Event} (hI : Ending jobId c pts)
    (hT : Tracks (store env.lower) (passage env.lower jobId) start c pts) (hGuard : keepsEnd env.lower jobId c l = true)
    (hStep : (store env.lower).step l c = some c') (hEnded : (c.state.status? jobId).any (·.isTerminal) = true) :
    c'.state.status? jobId = c.state.status? jobId := by
  cases l with
  | run t a =>
    obtain ⟨o, th, k, hRan⟩ := Store.run_cases hStep
    obtain ⟨pt, pt', hPoint, hMove, -⟩ := hT.ran hRan
    unfold keepsEnd at hGuard
    dsimp only at hGuard
    rw [hRan.waiting?, Option.all_some, Bool.and_eq_true] at hGuard
    exact (shift_of_move hI hRan hPoint hMove hGuard.1 hGuard.2).ended hEnded
  | stop t =>
    obtain ⟨th, -, rfl⟩ := Store.stop_cases hStep
    rfl
  | event e =>
    cases hStep
    rfl

theorem ended_of_reach {env : WorkerEnv} {w : World} {requests : List JobRequest}
    (hReach : (store env.lower).Reach (fun c l => keepsEnd env.lower jobId c l)
      (.initial w (requests.map (JobRequest.program env jobId))) c)
    (hLater : (store env.lower).Reach (fun c l => keepsEnd env.lower jobId c l) c c')
    (hEnded : (c.state.status? jobId).any (·.isTerminal) = true) : c'.state.status? jobId = c.state.status? jobId := by
  induction hLater with
  | start => rfl
  | step hBefore hGuard hStep ih =>
    obtain ⟨pts, hT, hI⟩ := ending_of_reach (hReach.trans hBefore)
    rw [← ih] at hEnded
    exact (ended_step hI hT hGuard hStep hEnded).trans ih

end Runs

/-- From `c` on to `c'` the job's end stays, and the menu has been written at
most once by then and never behind a cancellation. -/
structure EndsOnce (jobId : Id) (c c' : State) : Prop where
  final : ∀ status, c.state.status? jobId = some status → status.isTerminal = true → c'.state.status? jobId = some status
  once : c'.commits ≤ 1
  inOrder : c'.history.Pairwise fun later earlier => later.op.commits later.result = true → earlier.op.cancels earlier.result = false

/-- Where every status is saved in time, no cancellation is saved during a
publication, and no publication throws behind its transaction, a job ends once
and is written at most once, and never behind its cancellation. -/
theorem import_job_ends_once (env : WorkerEnv) (jobId : Id) (w : World) (requests : List JobRequest) {c c' : State}
    (hReach : (store env.lower).Reach (fun c l => keepsEnd env.lower jobId c l)
      (.initial w (requests.map (JobRequest.program env jobId))) c)
    (hLater : (store env.lower).Reach (fun c l => keepsEnd env.lower jobId c l) c c') : EndsOnce jobId c c' := by
  obtain ⟨pts, -, hEnd⟩ := ending_of_reach (hReach.trans hLater)
  refine ⟨fun status hStatus hTerminal => ?_, hEnd.once, hEnd.inOrder⟩
  have hEnded : (c.state.status? jobId).any (·.isTerminal) = true := by
    rw [hStatus]
    exact hTerminal
  rw [ended_of_reach hReach hLater hEnded]
  exact hStatus

namespace EmptyDraft

def env : WorkerEnv := { lower := id }

def world : World := { jobs := [{ id := 7, restaurantId := 1, status := .readyForReview }] }

def requests : List (Promise Unit) := [JobRequest.publish 1 .skip, .cancel 1].map (JobRequest.program env 7)

end EmptyDraft

/-- The cancellation comes when the job has been published, and is refused. -/
theorem import_job_published_once : ∃ c c' : State, c.state.status? 7 = some .completed ∧ c'.waiting = [] ∧ c'.commits = 1 ∧ EndsOnce 7 c c' := by
  obtain ⟨c, hReach, hFirst⟩ := (store EmptyDraft.env.lower).exists_of_exec (keepsEnd EmptyDraft.env.lower 7)
    (.initial EmptyDraft.world EmptyDraft.requests) (List.replicate 9 (.run 0 {}))
    (fun c : State => decide (c.state.status? 7 = some .completed) &&
      ((store EmptyDraft.env.lower).exec (keepsEnd EmptyDraft.env.lower 7) [.run 1 {}] c).any
        fun c' : State => c'.waiting.isEmpty && decide (c'.commits = 1)) (by decide +kernel)
  rw [Bool.and_eq_true, decide_eq_true_eq] at hFirst
  obtain ⟨c', hLater, hLast⟩ := (store EmptyDraft.env.lower).exists_of_exec (keepsEnd EmptyDraft.env.lower 7) c [.run 1 {}]
    (fun c' : State => c'.waiting.isEmpty && decide (c'.commits = 1)) hFirst.2
  rw [Bool.and_eq_true, decide_eq_true_eq, List.isEmpty_iff] at hLast
  exact ⟨c, c', hFirst.1, hLast.1, hLast.2,
    import_job_ends_once EmptyDraft.env 7 EmptyDraft.world [.publish 1 .skip, .cancel 1] hReach hLater⟩

/-- A cancellation is answered while the job is being published; the menu is
written behind it, and the job completed. -/
theorem import_job_written_behind_cancellation : ¬ ∀ (env : WorkerEnv) (jobId : Id) (w : World) (requests : List JobRequest) (c c' : State),
    (store env.lower).Reach (fun _ _ => True) (.initial w (requests.map (JobRequest.program env jobId))) c →
    (store env.lower).Reach (fun _ _ => True) c c' → EndsOnce jobId c c' := by
  intro hClaim
  obtain ⟨c, hReach, hWritten⟩ := (store EmptyDraft.env.lower).exists_of_exec (fun _ _ => true)
    (.initial EmptyDraft.world EmptyDraft.requests)
    [.run 0 {}, .run 0 {}, .run 1 {}, .run 1 {}, .run 1 {}, .run 1 {}, .run 0 {}, .run 0 {}]
    (fun c : State => decide ¬ c.history.Pairwise fun later earlier : Entry Op Op.Resp Err =>
      later.op.commits later.result = true → earlier.op.cancels earlier.result = false) (by decide +kernel)
  have hEnds := hClaim EmptyDraft.env 7 EmptyDraft.world [.publish 1 .skip, .cancel 1] c c (hReach.mono fun _ _ _ => trivial) .start
  exact of_decide_eq_true hWritten hEnds.inOrder

end RestaurantOs.MenuImport
