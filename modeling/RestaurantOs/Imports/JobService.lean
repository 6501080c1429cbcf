import RestaurantOs.Imports.Jobs

/-!
# The calls of an import

The synchronous import, the worker that extracts a job's rows, the reviewer's
edits, the cancellation and the publication.
-/

namespace RestaurantOs.MenuImport

open Async Prog Menus

abbrev Promise (α : Type) := Prog Op Op.Resp Err α

abbrev State := Config Op Op.Resp Err World Unit

def throwApi {α : Type} (error : ApiError) : Promise α := .raise (.api error)

/-! ## Planning and writing -/

def loadItems (scope : ImportScope) (categoryIds : List Id) : Promise (List MenuItem) :=
  if categoryIds = [] then .ret [] else .call (Op.findItems scope categoryIds)

def resolveImportNow (lower : Text → Text) (normalized : List NormalizedImportRow) (scope : ImportScope)
    (duplicateStrategy : DuplicateStrategy) : Promise ResolvedImport := do
  let categories : List Category ← .call (Op.findCategories scope)
  let items ← loadItems scope (existingCategoryIds lower categories normalized)
  pure (planImport lower categories items duplicateStrategy normalized)

/-- The cache is dropped and the import logged behind the transaction; a failed
log is ignored. -/
def writeResolvedImportNow (resolved : ResolvedImport) (scope : ImportScope) : Promise MenuImportReport := do
  let report : MenuImportReport ← .call (Op.transaction scope resolved)
  let _ : Unit ← .call (Op.invalidateMenuCache scope)
  let _ ← attempt (.call (Op.audit scope report))
  pure report

structure CommitParams where
  buffer : Buffer
  kind : MenuImportFileKind
  requestedMapping : MenuImportColumnMapping
  scope : ImportScope
  duplicateStrategy : DuplicateStrategy

def CommitParams.rows (env : Env) (params : CommitParams) : Except Err (List NormalizedImportRow) := do
  let sheet ← parseUploadedSheet env params.buffer params.kind
  let mapping := appliedMapping env sheet.headers params.requestedMapping
  let unmapped := missingRequiredFields mapping
  if unmapped ≠ [] then
    .error (.api (.badRequest s!"This mapping is missing required fields: {joinFields unmapped}."))
  else .ok (normalizeRows env sheet mapping)

def commitImportNow (env : Env) (params : CommitParams) : Promise MenuImportReport := do
  let normalized ← ofExcept (params.rows env)
  let resolved ← resolveImportNow env.lower normalized params.scope params.duplicateStrategy
  writeResolvedImportNow resolved params.scope

/-! ## Jobs -/

def getMenuImportJobForTenant (jobId restaurantId : Id) : Promise MenuImportJob := do
  let job : Option MenuImportJob ← .call (Op.findJob jobId)
  match job with
  | none => throwApi (.notFound "Import job not found")
  | some job =>
    if job.restaurantId = restaurantId then pure job
    else
      match job.businessId with
      | none => throwApi (.notFound "Import job not found")
      | some businessId => do
        let restaurant : Option Restaurant ← .call (Op.findRestaurant restaurantId)
        if restaurant.bind (·.businessId) = some businessId then pure job
        else throwApi (.notFound "Import job not found")

def updateMenuImportDraftRow (jobId restaurantId : Id) (rowNumber : Nat) (patch : DraftRowPatch) : Promise Unit := do
  let job ← getMenuImportJobForTenant jobId restaurantId
  if job.status ≠ .readyForReview then
    throwApi (.badRequest s!"This import can't be edited while it's \"{job.status.text}\" — only while it's ready for review.")
  else if job.draftRows.all fun row => row.rowNumber ≠ rowNumber then
    throwApi (.notFound s!"Row {rowNumber} not found on this import.")
  else do
    let now : Time ← .call Op.clock
    .call (Op.saveRow job.id job.version rowNumber patch now)

def SOURCE_FILE_RETENTION_DAYS : Nat := 14

def retentionDeadline (now : Time) : Time := now + SOURCE_FILE_RETENTION_DAYS * 24 * 60 * 60 * 1000

def cancelMenuImportJob (jobId restaurantId : Id) : Promise Unit := do
  let job ← getMenuImportJobForTenant jobId restaurantId
  if job.status.isTerminal then
    throwApi (.badRequest s!"This import is already \"{job.status.text}\" and can't be cancelled.")
  else do
    let cancelledAt : Time ← .call Op.clock
    let now : Time ← .call Op.clock
    .call (Op.saveJob job.id none
      { status := some .cancelled, cancelledAt := some cancelledAt, sourceRetentionDeleteAt := some (retentionDeadline now) })

/-! ## Publishing -/

inductive DefaultStrategy
  | skip | update | merge
  deriving DecidableEq

structure PublishMenuImportJobParams where
  jobId : Id
  restaurantId : Id
  defaultDuplicateStrategy : DefaultStrategy
  deriving DecidableEq

def DraftRow.normalized (row : DraftRow) : NormalizedImportRow where
  rowNumber := row.rowNumber
  categoryName := row.categoryName
  itemName := row.itemName
  description := row.description
  price := row.price
  isAvailable := row.isAvailable
  sortOrder := some row.sortOrder
  imageUrl := row.imageUrl
  modifierGroups := row.modifierGroups
  issues := row.issues

def DefaultStrategy.planned : DefaultStrategy → DuplicateStrategy
  | update => .update
  | _ => .skip

def reviewRow (defaultDuplicateStrategy : DefaultStrategy) (draftRows : List DraftRow) (r : MenuImportPreviewRow) :
    MenuImportPreviewRow :=
  if r.action = .error then r
  else
    match (mapGet (·.rowNumber) draftRows r.row.rowNumber).bind (·.userAction) with
    | some userAction => { r with action := userAction }
    | none => if r.action = .update ∧ defaultDuplicateStrategy = .merge then { r with action := .merge } else r

def reviewPlan (defaultDuplicateStrategy : DefaultStrategy) (draftRows : List DraftRow) (resolved : ResolvedImport) : ResolvedImport :=
  { resolved with rows := resolved.rows.map (reviewRow defaultDuplicateStrategy draftRows) }

def pushedIssues (lower : Text → Text) (draftRows : List DraftRow) : List (Nat × List MenuImportRowIssue) :=
  ((draftRows.zip (markDuplicates lower [] (draftRows.map (·.normalized)))).map fun (row, marked) =>
    (row.rowNumber, marked.issues.drop row.issues.length)).filter (·.2 ≠ [])

def saveClaimed (claimed : MenuImportJob) (changes : JobChanges) : Promise Unit :=
  .call (Op.saveJob claimed.id (if changes.issues = [] then none else some claimed.version) changes)

def publishClaimed (lower : Text → Text) (params : PublishMenuImportJobParams) (claimed : MenuImportJob) : Promise MenuImportReport := do
  let scope : ImportScope := { restaurantId := params.restaurantId, canonicalBusinessId := claimed.businessId }
  let resolved ← resolveImportNow lower (claimed.draftRows.map (·.normalized)) scope params.defaultDuplicateStrategy.planned
  writeResolvedImportNow (reviewPlan params.defaultDuplicateStrategy claimed.draftRows resolved) scope

def finishPublishing (lower : Text → Text) (claimed : MenuImportJob) : Except Err MenuImportReport → Promise Unit
  | .error err => do
    saveClaimed claimed { status := some .readyForReview, issues := pushedIssues lower claimed.draftRows }
    .raise err
  | .ok report => do
    let publishedAt : Time ← .call Op.clock
    let now : Time ← .call Op.clock
    let changes : JobChanges :=
      { status := some .completed
        issues := pushedIssues lower claimed.draftRows
        publishedReport := some report
        publishedAt := some publishedAt
        sourceRetentionDeleteAt := some (retentionDeadline now) }
    let saved ← (saveClaimed claimed changes).attempt
    match saved with
    | .ok _ => pure ()
    | .error err => do
      saveClaimed claimed { changes with status := some .readyForReview }
      .raise err

def publishMenuImportJob (lower : Text → Text) (params : PublishMenuImportJobParams) : Promise Unit := do
  let job ← getMenuImportJobForTenant params.jobId params.restaurantId
  if job.status ≠ .readyForReview then
    throwApi (.badRequest s!"This import can't be published while it's \"{job.status.text}\" — only while it's ready for review.")
  else do
    let claimed : Option MenuImportJob ← .call (Op.claimForPublishing job.id)
    match claimed with
    | none => throwApi (.conflict "This import is already being published.")
    | some claimed => do
      let outcome ← (publishClaimed lower params claimed).attempt
      finishPublishing lower claimed outcome

/-! ## Extraction -/

/-- Which errors would fail identically on every retry. -/
structure WorkerEnv where
  lower : Text → Text
  permanent : Err → Bool := fun _ => false

def normalizedRowFromExtracted (rowNumber : Nat) (extracted : ExtractedRow) : NormalizedImportRow where
  rowNumber := rowNumber
  categoryName := collapseWhitespace extracted.categoryName
  itemName := collapseWhitespace extracted.itemName
  description := (extracted.description.map trim).filter (· ≠ [])
  price := extracted.price.bind fun price => if trim price = [] then none else normalizePrice price
  isAvailable := extracted.isAvailable.getD true
  imageUrl := (extracted.imageUrl.map trim).filter (· ≠ [])
  modifierGroups := extracted.modifierGroups
  issues :=
    (if collapseWhitespace extracted.categoryName = [] then [{ field := some .categoryName, message := "Category is missing." }] else []) ++
    (if collapseWhitespace extracted.itemName = [] then [{ field := some .itemName, message := "Item name is missing." }] else []) ++
    match extracted.price with
    | none => [{ field := some .price, message := "Price is missing." }]
    | some price =>
      if trim price = [] then [{ field := some .price, message := "Price is missing." }]
      else if (normalizePrice price).isNone then
        [{ field := some .price, message := s!"Price \"{textString price}\" is not valid." }]
      else []

def extractionResultToNormalizedRows (rows : List ExtractedRow) : List NormalizedImportRow :=
  rows.mapIdx fun i row => normalizedRowFromExtracted (i + 1) row

def buildDraftRow (row : NormalizedImportRow) (planned : MenuImportPreviewRow) : DraftRow where
  rowNumber := row.rowNumber
  categoryName := row.categoryName
  itemName := row.itemName
  description := row.description
  price := row.price
  isAvailable := row.isAvailable
  sortOrder := row.sortOrder.getD 0
  imageUrl := row.imageUrl
  modifierGroups := row.modifierGroups
  issues := planned.row.issues
  systemAction := planned.action
  matchedItemId := planned.matchedItemId

def isCancelled (jobId : Id) : Promise Bool := do
  let current : Option MenuImportJob ← .call (Op.findJob jobId)
  pure (current.any (·.status = .cancelled))

/-- `if (await isCancelled(jobId)) return;` -/
def unlessCancelled (jobId : Id) (rest : Promise Unit) : Promise Unit := do
  let cancelled ← isCancelled jobId
  if cancelled then pure () else rest

def extractRows (env : WorkerEnv) (job : MenuImportJob) : Promise Unit :=
  unlessCancelled job.id do
    let _ : Unit ← .call (Op.readSource job.id)
    unlessCancelled job.id do
      let _ : Unit ← .call (Op.saveJob job.id none { status := some .extracting })
      let rows : List ExtractedRow ← .call (Op.extract job.id)
      unlessCancelled job.id do
        let _ : Unit ← .call (Op.saveJob job.id none { status := some .normalizing })
        let normalized := extractionResultToNormalizedRows rows
        let resolved ← resolveImportNow env.lower normalized
          { restaurantId := job.restaurantId, canonicalBusinessId := job.businessId } .skip
        .call (Op.saveJob job.id (some job.version)
          { status := some .readyForReview
            draftRows := some (List.zipWith buildDraftRow normalized resolved.rows)
            categories := some resolved.categories })

structure AttemptInfo where
  attemptsMade : Nat
  maxAttempts : Nat
  deriving DecidableEq

def failExtraction (env : WorkerEnv) (jobId : Id) (attemptInfo : AttemptInfo) (err : Err) : Promise Unit := do
  if env.permanent err ∨ attemptInfo.maxAttempts ≤ attemptInfo.attemptsMade + 1 then do
    let occurredAt : Time ← .call Op.clock
    let _ : Unit ← .call (Op.updateUnlessCancelled jobId
      { status := some .failed, error := some { message := errorMessage err, occurredAt } })
    .raise err
  else do
    let _ : Unit ← .call (Op.updateUnlessCancelled jobId { status := some .pending })
    .raise err

def runMenuImportExtraction (env : WorkerEnv) (jobId : Id) (attemptInfo : AttemptInfo) : Promise Unit := do
  let job : Option MenuImportJob ← .call (Op.claimForExtraction jobId)
  match job with
  | none => pure ()
  | some job => do
    let outcome ← (extractRows env job).attempt
    match outcome with
    | .ok _ => pure ()
    | .error err => failExtraction env jobId attemptInfo err

end RestaurantOs.MenuImport
