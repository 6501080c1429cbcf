import RestaurantOs.Async.Run
import RestaurantOs.Imports.WriteImport

/-!
# Import jobs

An import job, its draft rows, and the store that its worker, its reviewer and
every import of the menu work on. Any call may throw; it then has had no
effect.
-/

namespace RestaurantOs.MenuImport

open Async Menus

export Payments (Time errorMessage)

inductive MenuImportJobStatus
  | pending | processing | extracting | normalizing | readyForReview | publishing | completed | failed | cancelled
  deriving DecidableEq

namespace MenuImportJobStatus

def text : MenuImportJobStatus → String
  | pending => "pending"
  | processing => "processing"
  | extracting => "extracting"
  | normalizing => "normalizing"
  | readyForReview => "ready_for_review"
  | publishing => "publishing"
  | completed => "completed"
  | failed => "failed"
  | cancelled => "cancelled"

def isTerminal (status : MenuImportJobStatus) : Bool := [completed, failed, cancelled].contains status

end MenuImportJobStatus

structure DraftRow where
  rowNumber : Nat
  categoryName : Text
  itemName : Text
  description : Option Text := none
  price : Option ℚ := none
  isAvailable : Bool := true
  sortOrder : Nat := 0
  imageUrl : Option Text := none
  modifierGroups : List MenuImportModifierGroupPreview := []
  issues : List MenuImportRowIssue := []
  systemAction : MenuImportRowAction
  matchedItemId : Option Id := none
  userAction : Option MenuImportRowAction := none
  reviewedAt : Option Time := none
  deriving DecidableEq

def DraftRow.valid (row : DraftRow) : Bool :=
  row.categoryName ≠ [] && row.itemName ≠ [] &&
    row.modifierGroups.all fun g => g.name ≠ [] && decide (1 ≤ g.maxSelect) &&
      g.options.all fun o => o.name ≠ [] && decide (0 ≤ o.priceAdjustment)

structure JobError where
  message : String
  occurredAt : Time
  deriving DecidableEq

/-- `version` is `__v`, which counts the changes of the array of draft rows. -/
structure MenuImportJob where
  id : Id
  restaurantId : Id
  businessId : Option Id := none
  status : MenuImportJobStatus := .pending
  draftRows : List DraftRow := []
  categories : List MenuImportCategorySummary := []
  error : Option JobError := none
  publishedReport : Option MenuImportReport := none
  publishedAt : Option Time := none
  cancelledAt : Option Time := none
  sourceRetentionDeleteAt : Option Time := none
  version : Nat := 0
  deriving DecidableEq

/-- The modified paths that `save` sends. `issues` are pushed onto those of the
rows of their numbers. -/
structure JobChanges where
  status : Option MenuImportJobStatus := none
  draftRows : Option (List DraftRow) := none
  issues : List (Nat × List MenuImportRowIssue) := []
  categories : Option (List MenuImportCategorySummary) := none
  error : Option JobError := none
  publishedReport : Option MenuImportReport := none
  publishedAt : Option Time := none
  cancelledAt : Option Time := none
  sourceRetentionDeleteAt : Option Time := none
  deriving DecidableEq

/-- `updateMenuImportDraftRowSchema` -/
structure DraftRowPatch where
  categoryName : Option Text := none
  itemName : Option Text := none
  description : Option Text := none
  price : Option ℚ := none
  isAvailable : Option Bool := none
  sortOrder : Option Nat := none
  imageUrl : Option Text := none
  modifierGroups : Option (List MenuImportModifierGroupPreview) := none
  userAction : Option MenuImportRowAction := none
  deriving DecidableEq

def DraftRowPatch.apply (patch : DraftRowPatch) (reviewedAt : Time) (row : DraftRow) : DraftRow :=
  { row with
    categoryName := patch.categoryName.getD row.categoryName
    itemName := patch.itemName.getD row.itemName
    description := patch.description.or row.description
    price := patch.price.or row.price
    isAvailable := patch.isAvailable.getD row.isAvailable
    sortOrder := patch.sortOrder.getD row.sortOrder
    imageUrl := patch.imageUrl.or row.imageUrl
    modifierGroups := patch.modifierGroups.getD row.modifierGroups
    userAction := patch.userAction.or row.userAction
    reviewedAt := some reviewedAt }

def pushIssues (issues : List (Nat × List MenuImportRowIssue)) (row : DraftRow) : DraftRow :=
  { row with issues := row.issues ++ (issues.filter (·.1 = row.rowNumber)).flatMap (·.2) }

/-- Replacing the array or pushing into its elements counts the version up. -/
def JobChanges.apply (changes : JobChanges) (job : MenuImportJob) : MenuImportJob :=
  { job with
    status := changes.status.getD job.status
    draftRows := (changes.draftRows.getD job.draftRows).map (pushIssues changes.issues)
    categories := changes.categories.getD job.categories
    error := changes.error.or job.error
    publishedReport := changes.publishedReport.or job.publishedReport
    publishedAt := changes.publishedAt.or job.publishedAt
    cancelledAt := changes.cancelledAt.or job.cancelledAt
    sourceRetentionDeleteAt := changes.sourceRetentionDeleteAt.or job.sourceRetentionDeleteAt
    version := if changes.draftRows.isSome || !changes.issues.isEmpty then job.version + 1 else job.version }

/-! ## The store -/

structure World where
  menu : Menu := {}
  jobs : List MenuImportJob := []
  now : Time := 0

def World.job? (w : World) (id : Id) : Option MenuImportJob := w.jobs.find? (·.id = id)

/-- What the extraction provider read of one row; its text fields are given as
the code collapses and trims them. -/
structure ExtractedRow where
  categoryName : Text
  itemName : Text
  description : Option Text := none
  price : Option Text := none
  isAvailable : Option Bool := none
  imageUrl : Option Text := none
  modifierGroups : List MenuImportModifierGroupPreview := []
  deriving DecidableEq

/-- A save that touches an element of the draft rows carries the version that
its copy was read at. `readSource` reads the job's files or its URL, `extract`
asks the provider. -/
inductive Op
  | clock
  | findJob (id : Id)
  | findRestaurant (id : Id)
  | claimForExtraction (id : Id)
  | claimForPublishing (id : Id)
  | saveJob (id : Id) (version : Option Nat) (changes : JobChanges)
  | saveRow (id : Id) (version : Nat) (rowNumber : Nat) (patch : DraftRowPatch) (reviewedAt : Time)
  | updateUnlessCancelled (id : Id) (changes : JobChanges)
  | readSource (id : Id)
  | extract (id : Id)
  | findCategories (scope : ImportScope)
  | findItems (scope : ImportScope) (categoryIds : List Id)
  | transaction (scope : ImportScope) (resolved : ResolvedImport)
  | invalidateMenuCache (scope : ImportScope)
  | audit (scope : ImportScope) (report : MenuImportReport)
  deriving DecidableEq

@[reducible] def Op.Resp : Op → Type
  | clock => Time
  | findJob _ | claimForExtraction _ | claimForPublishing _ => Option MenuImportJob
  | findRestaurant _ => Option Restaurant
  | extract _ => List ExtractedRow
  | findCategories _ => List Category
  | findItems _ _ => List MenuItem
  | transaction _ _ => MenuImportReport
  | _ => Unit

/-- Whether the call throws, and what the provider extracts. -/
structure Answer where
  fault : Option String := none
  extracted : List ExtractedRow := []

inductive Event
  | tick (elapsed : Time)

def setJob (job : MenuImportJob) (w : World) : World := { w with jobs := Tables.update (·.id = job.id) (fun _ => job) w.jobs }

/-- `findOneAndUpdate({ _id, status: "from" }, { $set: { status: "to" } }, { new: true })` -/
def World.claim (w : World) (id : Id) (from' to' : MenuImportJobStatus) : Option MenuImportJob × World :=
  match w.job? id with
  | some job =>
    if job.status = from' then
      let claimed := { job with status := to' }
      (some claimed, setJob claimed w)
    else (none, w)
  | none => (none, w)

/-- A save whose element paths were read at another version throws, and one
that leaves an invalid draft row. -/
def World.saveJob (w : World) (id : Id) (version : Option Nat) (change : MenuImportJob → MenuImportJob) : Except Err Unit × World :=
  match w.job? id with
  | none => (.error (.other "No document found for query on model \"MenuImportJob\""), w)
  | some job =>
    if version.any (· ≠ job.version) then (.error (.other "VersionError"), w)
    else if (change job).draftRows.all (·.valid) then (.ok (), setJob (change job) w)
    else (.error (.other "ValidationError"), w)

def World.editRow (rowNumber : Nat) (patch : DraftRowPatch) (reviewedAt : Time) (job : MenuImportJob) : MenuImportJob :=
  { job with draftRows := Tables.update (·.rowNumber = rowNumber) (patch.apply reviewedAt) job.draftRows }

def World.updateUnlessCancelled (w : World) (id : Id) (changes : JobChanges) : World :=
  match w.job? id with
  | some job => if job.status = .cancelled then w else setJob (changes.apply job) w
  | none => w

def World.write (lower : Text → Text) (w : World) (scope : ImportScope) (resolved : ResolvedImport) :
    Except Err MenuImportReport × World :=
  match writeResolvedImport lower w.menu scope resolved with
  | .ok (report, menu) => (.ok report, { w with menu })
  | .error err => (.error err, w)

def Op.run (lower : Text → Text) : (op : Op) → List ExtractedRow → World → Except Err op.Resp × World
  | clock, _, w => (.ok w.now, w)
  | findJob id, _, w => (.ok (w.job? id), w)
  | findRestaurant id, _, w => (.ok (w.menu.restaurants.find? (·.id = id)), w)
  | claimForExtraction id, _, w =>
    let (claimed, w) := w.claim id .pending .processing
    (.ok claimed, w)
  | claimForPublishing id, _, w =>
    let (claimed, w) := w.claim id .readyForReview .publishing
    (.ok claimed, w)
  | saveJob id version changes, _, w => w.saveJob id version changes.apply
  | saveRow id version rowNumber patch reviewedAt, _, w => w.saveJob id (some version) (World.editRow rowNumber patch reviewedAt)
  | updateUnlessCancelled id changes, _, w => (.ok (), w.updateUnlessCancelled id changes)
  | readSource _, _, w => (.ok (), w)
  | extract _, rows, w => (.ok rows, w)
  | findCategories scope, _, w => (.ok (loadExistingCategories w.menu scope), w)
  | findItems scope categoryIds, _, w => (.ok (loadExistingItems w.menu scope categoryIds), w)
  | transaction scope resolved, _, w => w.write lower scope resolved
  | invalidateMenuCache _, _, w => (.ok (), w)
  | audit _ _, _, w => (.ok (), w)

def Op.perform (lower : Text → Text) (op : Op) (a : Answer) (w : World) : Except Err op.Resp × World :=
  match op, a.fault with
  | clock, _ => (.ok w.now, w)
  | op, some text => (.error (.other text), w)
  | op, none => op.run lower a.extracted w

def Event.advance : Event → World → World
  | tick elapsed, w => { w with now := w.now + elapsed }

@[reducible] def store (lower : Text → Text) : Store Op Op.Resp Err World Answer Event where
  perform := Op.perform lower
  advance := Event.advance

section Perform

variable {lower : Text → Text} {jobId : Id} {w : World} {job : MenuImportJob}

theorem id_of_job? (h : w.job? jobId = some job) : job.id = jobId :=
  of_decide_eq_true (@List.find?_some _ (fun j : MenuImportJob => decide (j.id = jobId)) _ _ h)

theorem perform_cases (o : Op) (a : Answer) (w : World) :
    (∃ err, Op.perform lower o a w = (.error err, w)) ∨ Op.perform lower o a w = Op.run lower o a.extracted w := by
  obtain ⟨fault, rows⟩ := a
  cases fault with
  | none => cases o <;> exact .inr rfl
  | some text =>
    cases o with
    | clock => exact .inr rfl
    | _ => exact .inl ⟨.other text, rfl⟩

theorem job?_setJob {old : MenuImportJob} (hFound : w.job? jobId = some old) (hId : job.id = jobId) :
    (setJob job w).job? jobId = some job := by
  subst hId
  have hOld := id_of_job? hFound
  unfold World.job? setJob
  rw [Tables.find?_update]
  · have hFind : w.jobs.find? (fun j => decide (j.id = job.id)) = some old := hFound
    rw [hFind, Option.map_some, if_pos (decide_eq_true hOld)]
  · intro d _
    split
    · rename_i hd
      rw [decide_eq_true rfl, hd]
    · rfl

end Perform

instance : Inhabited Answer := ⟨{}⟩

instance : Inhabited World := ⟨{}⟩

end RestaurantOs.MenuImport
