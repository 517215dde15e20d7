import XFoilFoam.Precalc.Recovery
import Mathlib.Data.List.MinMax

/-! The saved trajectories that a preliminary obligation can resume: the SQL formulas of `precalc-obligations.ts` over
the submission history.  `restartablePrecalcCheckpoint` is the gate of composition and submission,
`precalcContinuationsForObligation` the selection that the scheduler composes from. -/
namespace XFoilFoam.Precalc
open Polar (uransBudgetStopMarker uransContinuationRequiredMarker)
open Binary64 (lit)
set_option autoImplicit false

variable {F : Type} [Binary64 F]

/-! ## Evidence -/

def legacyUnknownSolverImplementationId : String := "2f8bc764-09ae-4ff3-8fd2-000000000000"
def openCfd2406SolverImplementationId : String := "2f8bc764-09ae-4ff3-8fd2-240600000001"
def openCfd2606SolverImplementationId : String := "2f8bc764-09ae-4ff3-8fd2-260600000001"

def maxPrecalcNoProgressSegments : ℕ := 2

def autoPrecalcContinuationBudgetS : ℕ := 8 * 60 * 60

def legacySlowSheddingHorizonFragment : String :=
  "period acquisition exhausted the physical slow-shedding horizon"
def legacySameCaseNoProgressFragment : String :=
  "same-case chunk produced no measurable simulated-time or force-history advance"
def legacyFlatSignalFragment : String := "apparently flat signal spans"
def legacySlowSheddingObservationFragment : String := "below the physical slow-shedding observation horizon"

namespace ResultAttempt

def warnings (a : ResultAttempt F) : List String := a.qualityWarnings.getD []

def loweredError (a : ResultAttempt F) : String := lowerCase (a.error.getD "")

def isPrecalc (a : ResultAttempt F) : Bool := (a.evidencePayload.get "fidelity").isStr "urans_precalc"

def rejected (a : ResultAttempt F) : Bool := a.classification.any fun c => decide (c.1 = .rejected)

def rejectedFor (a : ResultAttempt F) (reason : String) : Bool :=
  a.classification.any fun c => decide (c.1 = .rejected) && c.2.contains reason

def positiveField (value : JsValue F) : Bool :=
  match value with
  | .num x => Binary64.lt (lit 0) x
  | _ => false

def positiveMeasuredProgress (a : ResultAttempt F) : Bool :=
  positiveField (((a.evidencePayload.get "frame_track").get "window").get "t_end") ||
    positiveField ((a.evidencePayload.get "force_history").get "window_end")

/-- `btrim(...) = 'transient'`. -/
def transientSubdir (a : ResultAttempt F) : Bool :=
  match a.evidencePayload.get "continuation_transient_subdir" with
  | .str s => ((s.toList.dropWhile (· == ' ')).reverse.dropWhile (· == ' ')).reverse == "transient".toList
  | _ => false

/-- `queuedRestartablePrecalcCheckpointSql`. -/
def queuedRestartable (a : ResultAttempt F) : Bool :=
  a.resultId.isSome && decide (a.status = .failed) && decide (a.source = .queued) &&
    a.solverImplementationId == some openCfd2606SolverImplementationId && a.isPrecalc &&
    decide (failureDispositionOf a.evidencePayload = some (.typed .hardSolver)) && a.transientSubdir &&
    includes a.loweredError "hardsolvererror: urans evidence rejected:" && a.positiveMeasuredProgress &&
    (((a.warnings.any fun w => includes w uransBudgetStopMarker) && a.rejected) ||
      (includes a.loweredError legacySlowSheddingHorizonFragment && a.rejectedFor "non-stationary" &&
        (a.warnings.any fun w => includes (lowerCase w) legacySlowSheddingHorizonFragment) &&
        a.warnings.any fun w => includes (lowerCase w) "not stationary") ||
      (includes a.loweredError legacySameCaseNoProgressFragment &&
        includes a.loweredError legacyFlatSignalFragment &&
        includes a.loweredError legacySlowSheddingObservationFragment &&
        a.rejectedFor "incomplete-urans-integration" &&
        a.warnings.any fun w => includes (lowerCase w) legacySameCaseNoProgressFragment &&
          includes (lowerCase w) legacyFlatSignalFragment &&
          includes (lowerCase w) legacySlowSheddingObservationFragment))

/-- `restartablePrecalcEvidenceSql`. -/
def restartableEvidence (a : ResultAttempt F) : Bool :=
  (a.resultId.isSome && (decide (a.status = .done) || decide (a.status = .failed)) &&
      decide (a.source = .solved) && a.isPrecalc && hasPrecalcContinuationWarning a.qualityWarnings &&
      a.rejected) ||
    a.queuedRestartable

end ResultAttempt

/-! ## Implementations and generations -/

/-- `normalizedPrecalcSolverImplementationSql`. -/
def normalizedImplementation (id : String) : String :=
  if id = legacyUnknownSolverImplementationId then openCfd2406SolverImplementationId else id

/-- `compatiblePrecalcCheckpointImplementationSql`; the checkpoint's revision is the target's own. -/
def compatibleImplementation (target revision : String) (attempt job : Option String) : Bool :=
  normalizedImplementation revision == normalizedImplementation target &&
    attempt.any (fun id => normalizedImplementation id == normalizedImplementation target) &&
    job.any fun id => normalizedImplementation id == normalizedImplementation target

namespace World
variable (w : World F)

def ownerResult (a : ResultAttempt F) : Option ResultRow :=
  (a.resultId.bind w.results.find?).filter fun r =>
    r.airfoilId == a.airfoilId && r.bcId == a.bcId &&
      r.simulationPresetRevisionId == a.simulationPresetRevisionId && decide (r.aoaDeg = a.aoaDeg)

/-- `owner_result.status IN ('done', 'stale', 'failed')`. -/
def terminalResult (a : ResultAttempt F) : Bool :=
  (w.ownerResult a).any fun r =>
    decide (r.status = .done) || decide (r.status = .stale) || decide (r.status = .failed)

/-- `exactValidSolverManifestSql` and `exactVerifiedRestartableEvidenceArchiveSql`. -/
def exactGeneration (id : String) (a : ResultAttempt F) : Bool :=
  (w.ownerResult a).isSome && a.resultId.any fun resultId =>
    w.manifests.contains (resultId, id) && w.archives.contains (resultId, id)

/-- `notOperatorAbandonedArchiveAttemptSql`. -/
def notAbandoned (id : String) (a : ResultAttempt F) : Bool :=
  !a.resultId.any fun resultId => w.abandoned.contains (resultId, id)

def isExactRestartablePrecalcAttempt (resultId attemptId : String) : Bool :=
  (w.resultAttempts.find? attemptId).any fun a =>
    a.resultId == some resultId && w.terminalResult a && a.engineJobId.isSome && a.engineCaseSlug.isSome &&
      a.restartableEvidence && w.notAbandoned attemptId a && w.exactGeneration attemptId a

def jobImplementation (jobId : Option String) : Option String :=
  (jobId.bind w.jobs.find?).bind SimJob.solverImplementationId

def isExactPrecalcContinuationForTarget (resultId attemptId airfoilId revisionId : String) (aoaDeg : ℚ)
    (boundaryConditionId solverImplementationId : String) : Bool :=
  ((w.resultAttempts.find? attemptId).any fun a =>
    (w.ownerResult a).isSome && a.resultId == some resultId &&
      ((a.simJobId.bind w.jobs.find?).any fun job =>
        job.solverImplementationId == some solverImplementationId && job.bcIds == [boundaryConditionId]) &&
      a.airfoilId == airfoilId && a.simulationPresetRevisionId == some revisionId && decide (a.aoaDeg = aoaDeg) &&
      a.bcId == boundaryConditionId &&
      ((w.revisions.find? revisionId).any fun r => r.boundaryCondition == some a.bcId) &&
      a.solverImplementationId == some solverImplementationId) &&
    w.isExactRestartablePrecalcAttempt resultId attemptId

/-! ## Later submissions -/

def stagingText (error : String) : Bool :=
  includes error "continuation failed:" &&
    ["nothing to restart from", "not restartable", "not found", "missing field", "mesh is missing",
      "no force coefficient history", "immutable evidence restore failed"].any fun part => includes error part

/-- `legacyPrecalcInfrastructureInterruptionSql`, relative to the attempt of a checkpoint. -/
def legacyInterruption (checkpointId : String) (checkpoint : ResultAttempt F) (row : Submission F) : Bool :=
  row.resultAttemptId.isNone && row.consumesSolverAttempt &&
    (row.simJobId.bind fun jobId => (w.jobs.find? jobId).map fun job => (jobId, job)).any fun (jobId, job) =>
      (decide (job.status = .failed) || decide (job.status = .cancelled)) &&
        (job.requestPayload.get "uransFidelity").isStr "precalc" &&
        ((job.requestPayload.get "continueFromResultAttemptId").isStr checkpointId ||
          (checkpoint.resultId.isSome && w.requests.rows.any fun request =>
            request.2.simJobId == some jobId && request.2.continueFromResultId == checkpoint.resultId &&
              request.2.continueFromResultAttemptId == some checkpointId)) &&
        stagingText (lowerCase ((row.error.or job.error).getD ""))

/-- A later submission that is no interruption.  A null outcome leaves the comparison of
`typedPrecalcInfrastructureInterruptionSql` unknown, and an unknown row does not stand in the way. -/
def supersedes (checkpointId : String) (checkpoint : ResultAttempt F) (row : Submission F) : Bool :=
  !(decide (row.state = .cancelled) && !row.consumesSolverAttempt &&
      (row.outcome == some .infrastructureRetryWait || row.outcome.isNone)) &&
    !w.legacyInterruption checkpointId checkpoint row

end World

/-! ## Checkpoints of an obligation -/

/-- What the three formulas ask of a submission row and the attempt it stored. -/
def checkpointOf (w : World F) (l : Ledger F) (row : Submission F) (id : String) (a : ResultAttempt F) : Bool :=
  row.resultAttemptId == some id && a.simJobId.isSome && a.simJobId == row.simJobId &&
    a.airfoilId == l.obligation.airfoilId && decide (a.aoaDeg = l.obligation.aoaDeg) &&
    a.simulationPresetRevisionId == some l.obligation.revisionId && a.engineJobId.isSome &&
    a.engineCaseSlug.isSome && a.restartableEvidence && w.notAbandoned id a &&
    !l.submissions.any fun newer =>
      decide (row.attemptNumber < newer.attemptNumber) && w.supersedes id a newer

structure Checkpoint (F : Type) where
  row : Submission F
  id : String
  attempt : ResultAttempt F

def storedAttempts (w : World F) (l : Ledger F) : List (Checkpoint F) :=
  l.submissions.filterMap fun row =>
    row.resultAttemptId.bind fun id => (w.resultAttempts.find? id).map fun a => ⟨row, id, a⟩

/-- `ORDER BY attempt_number DESC LIMIT 1`. -/
def newest (checkpoints : List (Checkpoint F)) : Option (Checkpoint F) :=
  checkpoints.argmax fun c => c.row.attemptNumber

/-- What a continuation job asks of `restartablePrecalcCheckpointSql`. -/
structure ContinuationTarget where
  solverImplementationId : Option String
  boundaryConditionId : String
  resultId : String
  resultAttemptId : String

/-- One row of `restartablePrecalcCheckpointSql`; without a target it is the form of the repair. -/
def restartableCheckpoint (w : World F) (l : Ledger F) (target : Option ContinuationTarget) (c : Checkpoint F) :
    Bool :=
  checkpointOf w l c.row c.id c.attempt &&
    (w.revisions.find? l.obligation.revisionId).any fun revision =>
      revision.boundaryCondition == some c.attempt.bcId &&
        compatibleImplementation
          ((target.bind ContinuationTarget.solverImplementationId).getD revision.solverImplementationId)
          revision.solverImplementationId c.attempt.solverImplementationId
          (w.jobImplementation c.row.simJobId) &&
        target.all (fun t =>
          t.boundaryConditionId != "" && c.attempt.bcId == t.boundaryConditionId && t.resultAttemptId != "" &&
            c.id == t.resultAttemptId && t.resultId != "" && c.attempt.resultId == some t.resultId) &&
        w.exactGeneration c.id c.attempt

/-- `restartablePrecalcCheckpointSql`. -/
def restartablePrecalcCheckpoint (w : World F) (l : Ledger F) (target : Option ContinuationTarget) : Bool :=
  (storedAttempts w l).any (restartableCheckpoint w l target)

def ownImplementation (w : World F) (l : Ledger F) (c : Checkpoint F) : Bool :=
  (w.revisions.find? l.obligation.revisionId).any fun revision =>
    compatibleImplementation revision.solverImplementationId revision.solverImplementationId
      c.attempt.solverImplementationId (w.jobImplementation c.row.simJobId)

/-- One row of `precalcCheckpointCandidatesForObligations`. -/
def candidateCheckpoint (w : World F) (l : Ledger F) (c : Checkpoint F) : Bool :=
  checkpointOf w l c.row c.id c.attempt && w.terminalResult c.attempt && c.attempt.rejected &&
    (decide (c.attempt.status = .done) || decide (c.attempt.status = .failed)) && c.attempt.isPrecalc &&
    ((w.revisions.find? l.obligation.revisionId).any fun revision =>
      revision.boundaryCondition == some c.attempt.bcId) &&
    ownImplementation w l c &&
    (c.row.simJobId.bind w.jobs.find?).any fun job => job.bcIds == [c.attempt.bcId]

/-- `PrecalcContinuationAddress`. -/
structure ContinuationAddress where
  obligationId : String
  aoaDeg : ℚ
  resultId : String
  resultAttemptId : String
  engineJobId : String
  engineCaseSlug : String
  budgetOverrideS : ℕ
  deriving DecidableEq

/-- The largest budget of an open exact request, and the automatic one at least. -/
def continuationBudget (w : World F) (o : Obligation) (resultId attemptId : String) : ℕ :=
  (w.requests.rows.filterMap fun request =>
    if (request.2.state = "pending" ∨ request.2.state = "running") ∧ request.2.fidelity = "precalc" ∧
        request.2.airfoilId = o.airfoilId ∧ request.2.revisionId = o.revisionId ∧
        request.2.aoaDeg = some o.aoaDeg ∧ request.2.continueFromResultId = some resultId ∧
        request.2.continueFromResultAttemptId = some attemptId then
      request.2.budgetOverrideS
    else none).foldl max autoPrecalcContinuationBudgetS

def offersContinuation (o : Obligation) : Bool :=
  decide (o.state = .pending) &&
    !(o.lastOutcome.any fun outcome =>
      [.recovery .rerunStatisticalMeanContract false, .recovery .rerunConservativeNumerics false,
        .recovery .rerunFresh false, .continuationFreshRetryPending].contains outcome) &&
    decide (o.continuationNoProgressCount < maxPrecalcNoProgressSegments)

/-- `precalcCheckpointCandidatesForObligations` on one obligation. -/
def precalcCheckpointCandidate (w : World F) (id : String) (l : Ledger F) : Option ContinuationAddress :=
  if offersContinuation l.obligation then
    (newest ((storedAttempts w l).filter (candidateCheckpoint w l))).bind fun c =>
      match c.attempt.resultId, c.attempt.engineJobId, c.attempt.engineCaseSlug with
      | some resultId, some engineJobId, some engineCaseSlug =>
        some ⟨id, l.obligation.aoaDeg, resultId, c.id, engineJobId, engineCaseSlug,
          continuationBudget w l.obligation resultId c.id⟩
      | _, _, _ => none
  else none

/-- `precalcContinuationsForObligations` on one obligation. -/
def precalcContinuation (w : World F) (id : String) (l : Ledger F) : Option ContinuationAddress :=
  (precalcCheckpointCandidate w id l).filter fun address =>
    w.isExactRestartablePrecalcAttempt address.resultId address.resultAttemptId

/-- `precalcContinuationsForObligations`, up to the order of the angles. -/
def precalcContinuationsForObligations (w : World F) (obligations : Table String (Ledger F)) (ids : List String) :
    List ContinuationAddress :=
  obligations.rows.filterMap fun row => if ids.contains row.1 then precalcContinuation w row.1 row.2 else none

end XFoilFoam.Precalc
