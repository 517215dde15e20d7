import XFoilFoam.Precalc.Actions
import XFoilFoam.Progressive.Budget

/-! The other operations that write `sim_precalc_obligations.state`: `ensurePrecalcObligationsInTransaction`, the answered
submit failure, the repair from an accepted result and the requeue after a better mesh recovery. -/
namespace XFoilFoam.Precalc
open Progressive (CampaignStatus)
set_option autoImplicit false

variable {F : Type} [Binary64 F]

/-- The rows of a table of obligations that stand for one cell; there is at most one. -/
def Obligation.ofCell (o : Obligation) (airfoilId revisionId : String) (aoaDeg : ℚ) : Bool :=
  o.airfoilId == airfoilId && o.revisionId == revisionId && decide (o.aoaDeg = aoaDeg)

/-! ## Ensuring -/

structure PrecalcObligationCell where
  airfoilId : String
  revisionId : String
  aoaDeg : ℚ
  sourceResultId : Option String
  sourceResultAttemptId : Option String

structure PrecalcObligationOwnership where
  campaignIds : List String
  requestIds : List String
  syncPromiseIds : List String
  backgroundOwner : Bool

/-- A row of `sim_urans_requests`; an open one is pending or running. -/
structure OwnerRequest where
  isOpen : Bool
  backgroundOwner : Bool

structure SyncPromise where
  active : Bool
  expiresAt : ℕ
  remoteSolver : Bool

structure PromisePoint where
  promiseId : String
  airfoilId : String
  revisionId : String
  aoaDeg : ℚ
  active : Bool

/-- The rows of owners, and the `sim_job_id` of results. -/
structure OwnerTables where
  now : ℕ
  campaigns : Table String CampaignStatus
  requests : Table String OwnerRequest
  promises : Table String SyncPromise
  promisePoints : List PromisePoint
  resultJobs : Table String String

namespace OwnerTables
variable (t : OwnerTables)

def liveCampaign (id : String) : Bool :=
  (t.campaigns.find? id).any fun status => decide (status ∈ [CampaignStatus.active, .attention, .paused])

def sharedLiveOwner (own : PrecalcObligationOwnership) : Bool :=
  own.backgroundOwner || own.campaignIds.any t.liveCampaign ||
    own.requestIds.any fun id => (t.requests.find? id).any fun request => request.isOpen && request.backgroundOwner

def livePromise (id : String) : Bool :=
  (t.promises.find? id).any fun promise => promise.active && decide (t.now < promise.expiresAt) && promise.remoteSolver

def remoteCell (own : PrecalcObligationOwnership) (cell : PrecalcObligationCell) : Bool :=
  t.promisePoints.any fun point =>
    own.syncPromiseIds.contains point.promiseId && point.active && point.airfoilId == cell.airfoilId &&
      point.revisionId == cell.revisionId && decide (point.aoaDeg = cell.aoaDeg) && t.livePromise point.promiseId

end OwnerTables

def settledResult (status : ResultStatus) : Bool := decide (status ∈ [ResultStatus.done, .failed])

/-- A generic queue mutation owns the cell.  `null !== undefined`: a result without a job is never transferred. -/
def canonicalBusy (w : World F) (t : OwnerTables) (transferFromJobId : Option String) (cell : PrecalcObligationCell) :
    Bool :=
  (w.results.rows.find? fun row =>
    row.2.airfoilId == cell.airfoilId && row.2.simulationPresetRevisionId == some cell.revisionId &&
      decide (row.2.aoaDeg = cell.aoaDeg)).any fun row =>
    !settledResult row.2.status &&
      (t.resultJobs.find? row.1).all fun jobId => decide (transferFromJobId ≠ some jobId)

def sourceBusy (w : World F) (cell : PrecalcObligationCell) : Bool :=
  cell.sourceResultId.any fun id => !(w.results.find? id).any fun result => settledResult result.status

def sourceAttempt (w : World F) (cell : PrecalcObligationCell) : Option String :=
  if cell.sourceResultId.isNone && cell.sourceResultAttemptId.isNone then
    ((w.resultAttempts.rows.filter fun row =>
      row.2.airfoilId == cell.airfoilId && row.2.simulationPresetRevisionId == some cell.revisionId &&
        decide (row.2.aoaDeg = cell.aoaDeg) && decide (row.2.regime = some .rans)).getLast?).map Prod.fst
  else cell.sourceResultAttemptId

def PrecalcObligationCell.inserted (cell : PrecalcObligationCell) (sourceResultAttemptId : Option String)
    (backgroundOwner : Bool) : Obligation where
  airfoilId := cell.airfoilId
  revisionId := cell.revisionId
  aoaDeg := cell.aoaDeg
  sourceResultAttemptId := sourceResultAttemptId
  state := .pending
  attemptCount := 0
  remediationAttemptsGranted := 0
  submitFailureCount := 0
  nextSubmitAt := none
  continuationSegmentCount := 0
  continuationNoProgressCount := 0
  latestSimJobId := none
  backgroundOwner := backgroundOwner
  lastOutcome := none
  lastError := none
  attempts_le := Obligation.noAttempts_le
  noProgress_le := Obligation.noSegments_le

/-- `ON CONFLICT DO UPDATE`: of the closed states only `cancelled` is left again. -/
def Obligation.attach (o : Obligation) (sourceResultAttemptId : Option String) (backgroundOwner : Bool) : Obligation :=
  { o with
    sourceResultAttemptId := o.sourceResultAttemptId.or sourceResultAttemptId
    backgroundOwner := o.backgroundOwner || backgroundOwner
    state := if o.state = .cancelled then .pending else o.state }

/-- What one call of `ensurePrecalcObligationsInTransaction` is given beside its cells. -/
structure Ensuring where
  owners : OwnerTables
  ownership : PrecalcObligationOwnership
  transferFromJobId : Option String

/-- The turn of one cell; `newId` is drawn by the insertion. -/
def ensureCell (w : World F) (e : Ensuring) (newId : String) (cell : PrecalcObligationCell)
    (obligations : Table String (Ledger F)) : Except String (Table String (Ledger F)) :=
  if !(e.owners.sharedLiveOwner e.ownership || e.owners.remoteCell e.ownership cell) then .ok obligations
  else
    match obligations.rows.find? fun row => row.2.obligation.ofCell cell.airfoilId cell.revisionId cell.aoaDeg with
    | some (id, _) =>
      if sourceBusy w cell then .ok obligations
      else
        .ok (obligations.modify id fun l =>
          l.setObligation (l.obligation.attach (sourceAttempt w cell) e.ownership.backgroundOwner))
    | none =>
      if canonicalBusy w e.owners e.transferFromJobId cell || sourceBusy w cell then .ok obligations
      else
        match obligations.insert? newId
            ⟨cell.inserted (sourceAttempt w cell) e.ownership.backgroundOwner, [], Ledger.apart_nil⟩ with
        | none => .error "duplicate key value violates unique constraint"
        | some obligations' => .ok obligations'

def ensurePrecalcObligationsInTransaction (w : World F) (e : Ensuring) :
    List (String × PrecalcObligationCell) → Table String (Ledger F) → Except String (Table String (Ledger F))
  | [], obligations => .ok obligations
  | (newId, cell) :: cells, obligations =>
    match ensureCell w e newId cell obligations with
    | .error text => .error text
    | .ok obligations' => ensurePrecalcObligationsInTransaction w e cells obligations'

/-! ## Answered submit failures -/

def answeredSubmitRetryBackoffMs : ℕ := 30000

structure SubmitFailure where
  simJobId : String
  error : String
  httpStatus : Option ℕ
  now : ℕ

namespace SubmitFailure

def retryable5xx (f : SubmitFailure) : Bool :=
  f.httpStatus.any fun status => decide (500 ≤ status) && decide (status < 600)

/-- One delayed retry after a first server error; anything else blocks. -/
def settled (f : SubmitFailure) (o : Obligation) : Obligation :=
  let retry := f.retryable5xx && decide (o.submitFailureCount < 1)
  { o with
    state := if retry then .pending else .blocked
    latestSimJobId := some f.simJobId
    submitFailureCount := min 2 (o.submitFailureCount + 1)
    nextSubmitAt := if retry then some (f.now + answeredSubmitRetryBackoffMs) else none
    lastOutcome := some (.other (if retry then "submit_retry_wait" else "submit_blocked"))
    lastError := some f.error }

def turn (f : SubmitFailure) (o : Obligation) : Obligation :=
  if o.closed then o
  else if o.latestSimJobId ≠ some f.simJobId then o
  -- a replay of the same failed composition does not consume the allowance twice
  else if o.lastOutcome = some (.other "submit_retry_wait") ∧ o.lastError = some f.error then o
  else f.settled o

end SubmitFailure

/-- `recordPrecalcObligationSubmitFailureInTransaction`. -/
def recordPrecalcObligationSubmitFailure (f : SubmitFailure) (obligationIds : List String)
    (obligations : Table String (Ledger F)) : Table String (Ledger F) :=
  obligations.map fun id l => if obligationIds.contains id then l.setObligation (f.turn l.obligation) else l

/-! ## Repair from an accepted result -/

inductive InterpretationState where
  | accepted
  | continuationRequired
  | terminalFailure
  | legacyUncertified
  deriving DecidableEq

inductive InterpretationRegime where
  | legacyEngineReported
  | ransHold
  | steadyEquivalent
  | periodic
  | broadbandStationary
  | trendingUnresolved
  deriving DecidableEq

/-- The columns of `results` that only the repair reads. -/
structure CurrentResult where
  fidelity : Option String
  qualityWarnings : Option (List String)
  currentResultAttemptId : Option String
  currentCanonicalSelectionId : Option String
  currentResultInterpretationId : Option String

structure CanonicalSelection where
  resultId : String
  resultAttemptId : String
  resultInterpretationId : String

structure Interpretation where
  resultId : String
  resultAttemptId : String
  sourceArchiveId : Option String
  state : InterpretationState
  source : String
  regime : InterpretationRegime

structure EvidenceArchive where
  resultId : String
  resultAttemptId : String
  current : Bool
  blobId : String

structure EvidenceBlob where
  backend : String
  compression : String
  mimeType : String
  verified : Bool

structure RepairTables where
  results : Table String CurrentResult
  selections : Table String CanonicalSelection
  interpretations : Table String Interpretation
  archives : Table String EvidenceArchive
  blobs : Table String EvidenceBlob

namespace RepairTables
variable (t : RepairTables)

def verifiedBlob (blobId : String) : Bool :=
  (t.blobs.find? blobId).any fun blob =>
    blob.backend == "gcs" && blob.compression == "zstd" && blob.mimeType == "application/zstd" && blob.verified

/-- The interpretation is an accepted reading of a current, verified archive of this very attempt. -/
def acceptedReading (resultId attemptId : String) (i : Interpretation) : Bool :=
  i.resultId == resultId && i.resultAttemptId == attemptId && decide (i.state = .accepted) &&
    i.source == "archive_backfill" && decide (i.regime ∈ [InterpretationRegime.periodic, .steadyEquivalent]) &&
      (i.sourceArchiveId.bind t.archives.find?).any fun archive =>
        archive.resultId == resultId && archive.resultAttemptId == attemptId && archive.current &&
          t.verifiedBlob archive.blobId

/-- The selection that the result currently points at chooses an accepted reading of the attempt. -/
def acceptedInterpretation (resultId attemptId : String) (r : CurrentResult) : Bool :=
  (r.currentCanonicalSelectionId.bind t.selections.find?).any fun selected =>
    selected.resultId == resultId && selected.resultAttemptId == attemptId &&
      r.currentResultInterpretationId == some selected.resultInterpretationId &&
      (t.interpretations.find? selected.resultInterpretationId).any (t.acceptedReading resultId attemptId)

end RepairTables

def ResultAttempt.accepted (a : ResultAttempt F) : Bool := a.classification.any fun c => decide (c.1 = .accepted)

def ResultAttempt.preliminary (a : ResultAttempt F) : Bool :=
  a.isPrecalc || ((a.evidencePayload.get "fidelity").isNullish && decide (a.regime = some .urans))

/-- What the repair asks of the current attempt of a result, its job and the revision of its cell. -/
def repairable (w : World F) (resultId : String) (result : ResultRow) (a : ResultAttempt F) (accepted : Bool) :
    Bool :=
  a.resultId == some resultId && a.airfoilId == result.airfoilId &&
    a.simulationPresetRevisionId == result.simulationPresetRevisionId && a.bcId == result.bcId &&
    decide (a.aoaDeg = result.aoaDeg) && decide (a.status = .done) && a.preliminary &&
    decide (result.status = .done) && accepted &&
    (result.simulationPresetRevisionId.bind w.revisions.find?).any fun revision =>
      revision.boundaryCondition == some a.bcId &&
        (a.simJobId.bind w.jobs.find?).any fun job =>
          job.bcIds == [a.bcId] &&
            compatibleImplementation revision.solverImplementationId revision.solverImplementationId
              a.solverImplementationId job.solverImplementationId

structure AcceptedResult (F : Type) where
  result : ResultRow
  revisionId : String
  attemptId : String
  attempt : ResultAttempt F

def acceptedResult (w : World F) (t : RepairTables) (resultId : String) : Option (AcceptedResult F) :=
  match w.results.find? resultId, t.results.find? resultId with
  | some result, some current =>
    match result.simulationPresetRevisionId, current.currentResultAttemptId with
    | some revisionId, some attemptId =>
      match w.resultAttempts.find? attemptId with
      | some a =>
        if current.fidelity == some "urans_precalc" && !hasPrecalcContinuationWarning current.qualityWarnings &&
            repairable w resultId result a
              (a.accepted || t.acceptedInterpretation resultId attemptId current) then
          some ⟨result, revisionId, attemptId, a⟩
        else none
      | none => none
    | _, _ => none
  | _, _ => none

def acceptSubmission (attemptId : String) (jobId : Option String) (r : Submission F) : Submission F :=
  if r.resultAttemptId = some attemptId ∨ jobId.isSome ∧ r.simJobId = jobId then
    { r with state := .accepted, outcome := some .accepted, resultAttemptId := some attemptId, error := none }
  else r

omit [Binary64 F] in
theorem keepsKeys_acceptSubmission (attemptId : String) (jobId : Option String) :
    Submission.KeepsKeys (acceptSubmission (F := F) attemptId jobId) := by
  intro r
  rw [acceptSubmission]
  split
  · exact ⟨rfl, rfl, .inl rfl⟩
  · exact ⟨rfl, rfl, .inl rfl⟩

def Obligation.acceptResult (o : Obligation) (attemptId : String) : Obligation :=
  { o with
    state := .satisfied
    sourceResultAttemptId := some attemptId
    lastOutcome := some .accepted
    lastError := none
    nextSubmitAt := none }

/-- `satisfyPrecalcObligationFromAcceptedResult`, on the obligations and their submissions. -/
def satisfyPrecalcObligationFromAcceptedResult (w : World F) (t : RepairTables) (resultId : String)
    (obligations : Table String (Ledger F)) : Table String (Ledger F) :=
  match acceptedResult w t resultId with
  | none => obligations
  | some accepted =>
    match obligations.rows.find? fun row =>
        row.2.obligation.ofCell accepted.result.airfoilId accepted.revisionId accepted.result.aoaDeg with
    | none => obligations
    | some (id, _) =>
      obligations.modify id fun l =>
        (l.mapSubmissions (acceptSubmission accepted.attemptId accepted.attempt.simJobId)
          (keepsKeys_acceptSubmission _ _)).setObligation (l.obligation.acceptResult accepted.attemptId)

/-! ## A better mesh recovery -/

def Submission.deterministicMesh (r : Submission F) : Bool :=
  decide (r.state = .failed) && decide (r.outcome = some .deterministicFailure) && !r.consumesSolverAttempt

def meshReopenable (w : World F) (version : ℕ) (id : String) (l : Ledger F) : Bool :=
  decide (l.obligation.state = .blocked) && !l.obligation.exhausted &&
    decide (l.obligation.lastOutcome = some .deterministicFailure) &&
    (l.submissions.any fun r => r.deterministicMesh && decide (r.meshRecoveryVersion < version)) &&
    !(l.submissions.any fun r => r.deterministicMesh && decide (version ≤ r.meshRecoveryVersion)) &&
    !listedByLiveJob w id && !acceptedEvidence w l.obligation && w.liveOwner id

def Obligation.reopenForMesh (o : Obligation) : Obligation :=
  { o with
    state := .pending
    submitFailureCount := 0
    nextSubmitAt := none
    lastOutcome := some (.other "mesh_recovery_upgrade_pending") }

def maxSafeInteger : ℕ := 2 ^ 53 - 1

/-- `requeueDeterministicMeshObligationsForRecoveryVersion`; `ORDER BY obligation.id LIMIT 500`. -/
def requeueDeterministicMeshObligations (w : World F) (version : ℕ) (scope : String → Bool)
    (obligations : Table String (Ledger F)) : Table String (Ledger F) :=
  if version = 0 ∨ maxSafeInteger < version then obligations
  else
    let candidates := (((obligations.rows.filter fun row => scope row.1 && meshReopenable w version row.1 row.2).map
      Prod.fst).mergeSort fun a b => decide (a ≤ b)).take 500
    obligations.map fun id l =>
      if candidates.contains id && meshReopenable w version id l then l.setObligation l.obligation.reopenForMesh else l

end XFoilFoam.Precalc
