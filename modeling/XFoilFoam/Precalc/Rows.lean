import XFoilFoam.Foundations.JsValue
import XFoilFoam.Foundations.Table
import XFoilFoam.Polar.Evidence
import XFoilFoam.Sweeper.IngestLease

/-! The rows behind a preliminary URANS obligation: the obligation itself, its immutable submission rows, the jobs that
run it and the stored evidence that is judged.  The constraints of `schema.ts` stand as fields, so that a row the
database would refuse cannot be built.  Identifiers are their texts. -/
namespace XFoilFoam.Precalc
open Polar (FailureDisposition)
open Sweeper (SimJobStatus)
set_option autoImplicit false

/-! ## Enumerations -/

inductive ObligationState where
  | pending
  | running
  | satisfied
  | blocked
  | cancelled
  deriving DecidableEq

inductive SubmissionState where
  | submitted
  | accepted
  | rejected
  | failed
  | cancelled
  deriving DecidableEq

inductive ResultStatus where
  | pending
  | queued
  | running
  | done
  | failed
  | stale
  deriving DecidableEq

inductive DataSource where
  | queued
  | solved
  deriving DecidableEq

inductive Regime where
  | rans
  | urans
  deriving DecidableEq

/-- `result_classification_state`. -/
inductive ClassificationState where
  | accepted
  | needsUrans
  | supersededByUrans
  | rejected
  deriving DecidableEq

/-- `PrecalcRecoveryAction`. -/
inductive RecoveryAction where
  | retryInfrastructure
  | recoverDeterministicSetup
  | repairMedia
  | continueExactCase
  | rerunStatisticalMeanContract
  | rerunConservativeNumerics
  | rerunFresh
  deriving DecidableEq

/-- What `last_outcome` and `outcome` hold; `other` is the text of an operation that is not modelled here. -/
inductive Outcome where
  | composed
  | submitted
  | accepted
  | ownerless
  | continuationFreshRetryPending
  | continuationPermanentFailure
  | continuationNoProgressExhausted
  | infrastructureRetryWait
  | deterministicFailure
  | cancelled
  | cancelledExhausted
  | recovery (action : RecoveryAction) (exhausted : Bool)
  | continuationRecoveryPending
  | other (text : String)
  deriving DecidableEq

/-- `jsonb ->> 'failure_disposition'`. -/
inductive Disposition where
  | typed (disposition : FailureDisposition)
  | other
  deriving DecidableEq

/-! ## Obligations and their submissions -/

/-- A row of `sim_precalc_obligations`. -/
structure Obligation where
  airfoilId : String
  revisionId : String
  aoaDeg : ℚ
  sourceResultAttemptId : Option String
  state : ObligationState
  attemptCount : ℕ
  remediationAttemptsGranted : ℕ
  submitFailureCount : ℕ
  nextSubmitAt : Option ℕ
  continuationSegmentCount : ℕ
  continuationNoProgressCount : ℕ
  latestSimJobId : Option String
  backgroundOwner : Bool
  lastOutcome : Option Outcome
  lastError : Option String
  attempts_le : attemptCount ≤ 2 + remediationAttemptsGranted
  noProgress_le : continuationNoProgressCount ≤ continuationSegmentCount
  deriving DecidableEq

namespace Obligation

theorem noAttempts_le : 0 ≤ 2 + 0 := Nat.zero_le _

theorem noSegments_le : 0 ≤ 0 := Nat.zero_le _

def maxAttempts (o : Obligation) : ℕ := 2 + o.remediationAttemptsGranted

def exhausted (o : Obligation) : Bool := decide (o.maxAttempts ≤ o.attemptCount)

/-- `latestSimJobId == null || latestSimJobId === jobId`. -/
def leasedTo (o : Obligation) (jobId : String) : Bool :=
  o.latestSimJobId.all fun latest => latest == jobId

/-- `["satisfied", "blocked", "cancelled"].includes(state)`. -/
def closed (o : Obligation) : Bool :=
  match o.state with
  | .satisfied | .blocked | .cancelled => true
  | _ => false

end Obligation

/-- A row of `sim_precalc_obligation_attempts`. -/
structure Submission (F : Type) where
  simJobId : Option String
  attemptNumber : ℕ
  solverAttemptNumber : Option ℕ
  consumesSolverAttempt : Bool
  meshRecoveryVersion : ℕ
  continuationSegmentNumber : Option ℕ
  progressPeriodsRetained : Option F
  progressSimulatedTimeS : Option F
  progressDriftFrac : Option F
  progressStationary : Option Bool
  continuationProgressed : Option Bool
  state : SubmissionState
  outcome : Option Outcome
  resultAttemptId : Option String
  error : Option String
  deriving DecidableEq

namespace Submission
variable {F : Type}

def submitted (jobId : String) (attemptNumber : ℕ) (solverAttemptNumber : Option ℕ) (consumes : Bool) :
    Submission F where
  simJobId := some jobId
  attemptNumber := attemptNumber
  solverAttemptNumber := solverAttemptNumber
  consumesSolverAttempt := consumes
  meshRecoveryVersion := 0
  continuationSegmentNumber := none
  progressPeriodsRetained := none
  progressSimulatedTimeS := none
  progressDriftFrac := none
  progressStationary := none
  continuationProgressed := none
  state := .submitted
  outcome := none
  resultAttemptId := none
  error := none

/-- The three unique indexes; a null is never equal to another. -/
def Apart (r s : Submission F) : Prop :=
  (r.simJobId = none ∨ r.simJobId ≠ s.simJobId) ∧ r.attemptNumber ≠ s.attemptNumber ∧
    (r.solverAttemptNumber = none ∨ r.solverAttemptNumber ≠ s.solverAttemptNumber)

instance (r s : Submission F) : Decidable (r.Apart s) := by
  unfold Apart
  infer_instance

/-- An update that leaves the indexed columns as they are, or clears the ordinal. -/
def KeepsKeys (f : Submission F → Submission F) : Prop :=
  ∀ r, (f r).simJobId = r.simJobId ∧ (f r).attemptNumber = r.attemptNumber ∧
    ((f r).solverAttemptNumber = r.solverAttemptNumber ∨ (f r).solverAttemptNumber = none)

theorem Apart.map {f : Submission F → Submission F} (hf : KeepsKeys f) {r s : Submission F} (h : r.Apart s) :
    (f r).Apart (f s) := by
  obtain ⟨hjob, hnumber, hsolver⟩ := h
  obtain ⟨hrj, hrn, hrs⟩ := hf r
  obtain ⟨hsj, hsn, hss⟩ := hf s
  refine ⟨by rw [hrj, hsj]; exact hjob, by rw [hrn, hsn]; exact hnumber, ?_⟩
  rcases hrs with hrs | hrs
  · rcases hss with hss | hss
    · rw [hrs, hss]
      exact hsolver
    · rw [hrs, hss]
      exact (eq_or_ne r.solverAttemptNumber none)
  · exact .inl hrs

end Submission

/-- An obligation with its submission rows in the order of their insertion. -/
structure Ledger (F : Type) where
  obligation : Obligation
  submissions : List (Submission F)
  apart : submissions.Pairwise Submission.Apart

namespace Ledger
variable {F : Type}

theorem apart_nil : ([] : List (Submission F)).Pairwise Submission.Apart := .nil

def setObligation (l : Ledger F) (o : Obligation) : Ledger F := { l with obligation := o }

@[simp] theorem setObligation_obligation (l : Ledger F) (o : Obligation) : (l.setObligation o).obligation = o := rfl

@[simp] theorem setObligation_submissions (l : Ledger F) (o : Obligation) :
    (l.setObligation o).submissions = l.submissions := rfl

/-- An insertion, refused where a unique index has the key. -/
def insert? (l : Ledger F) (r : Submission F) : Option (Ledger F) :=
  if h : ∀ s ∈ l.submissions, s.Apart r then
    some ⟨l.obligation, l.submissions ++ [r], List.pairwise_append.mpr
      ⟨l.apart, List.pairwise_singleton _ _, fun s hs r' hr' => by
        rw [List.mem_singleton.mp hr']
        exact h s hs⟩⟩
  else none

theorem insert?_eq_some {l l' : Ledger F} {r : Submission F} (h : l.insert? r = some l') :
    l'.obligation = l.obligation ∧ l'.submissions = l.submissions ++ [r] := by
  unfold insert? at h
  split at h
  · cases h
    exact ⟨rfl, rfl⟩
  · cases h

theorem insert?_eq_none_of_submissions {l l' : Ledger F} {r : Submission F} (h : l.insert? r = none)
    (hrows : l'.submissions = l.submissions) : l'.insert? r = none := by
  unfold insert? at h ⊢
  rw [dif_neg]
  rw [hrows]
  intro hfree
  rw [dif_pos hfree] at h
  cases h

def mapSubmissions (l : Ledger F) (f : Submission F → Submission F) (hf : Submission.KeepsKeys f) : Ledger F where
  obligation := l.obligation
  submissions := l.submissions.map f
  apart := List.pairwise_map.mpr (l.apart.imp fun h => h.map hf)

def submissionOf (l : Ledger F) (jobId : String) : Option (Submission F) :=
  l.submissions.find? fun r => r.simJobId == some jobId

/-- `nextPrecalcSubmissionSequence`. -/
def nextSubmissionSequence (l : Ledger F) : ℕ :=
  (l.submissions.map Submission.attemptNumber).foldl max 0 + 1

theorem le_foldl_max (ns : List ℕ) (init : ℕ) : init ≤ ns.foldl max init ∧ ∀ n ∈ ns, n ≤ ns.foldl max init := by
  induction ns generalizing init with
  | nil => exact ⟨le_rfl, fun n hn => absurd hn List.not_mem_nil⟩
  | cons m ns ih =>
    obtain ⟨hinit, hmem⟩ := ih (max init m)
    refine ⟨(le_max_left init m).trans hinit, fun n hn => ?_⟩
    obtain rfl | hn := List.mem_cons.mp hn
    · exact (le_max_right init n).trans hinit
    · exact hmem n hn

theorem lt_nextSubmissionSequence (l : Ledger F) {r : Submission F} (hr : r ∈ l.submissions) :
    r.attemptNumber < l.nextSubmissionSequence :=
  Nat.lt_succ_of_le ((le_foldl_max (l.submissions.map Submission.attemptNumber) 0).2 _ (List.mem_map_of_mem hr))

end Ledger

/-! ## Jobs and stored evidence -/

/-- The columns of `sim_jobs` that are read. -/
structure SimJob (F : Type) where
  airfoilId : String
  simulationPresetRevisionId : Option String
  requestPayload : JsValue F
  bcIds : List String
  solverImplementationId : Option String
  engineJobId : Option String
  submittedAt : Option ℕ
  status : SimJobStatus
  parentJobId : Option String
  wave : ℕ
  campaignId : Option String
  ingestLeaseExpiresAt : Option ℕ
  error : Option String

/-- `["pending", "submitted", "running", "ingesting"].includes(status)`. -/
def liveStatus : SimJobStatus → Bool
  | .pending | .submitted | .running | .ingesting => true
  | _ => false

/-- A row of `result_attempts` with its classification, of which there is at most one. -/
structure ResultAttempt (F : Type) where
  resultId : Option String
  simJobId : Option String
  airfoilId : String
  bcId : String
  simulationPresetRevisionId : Option String
  aoaDeg : ℚ
  engineJobId : Option String
  engineCaseSlug : Option String
  solverImplementationId : Option String
  status : ResultStatus
  source : DataSource
  regime : Option Regime
  error : Option String
  qualityWarnings : Option (List String)
  evidencePayload : JsValue F
  classification : Option (ClassificationState × List String)

/-- The columns of `results` that are read. -/
structure ResultRow where
  airfoilId : String
  bcId : String
  simulationPresetRevisionId : Option String
  aoaDeg : ℚ
  status : ResultStatus

/-- `simulation_preset_revisions`, with the boundary condition of its snapshot when that is the text of a UUID, and with
the fallback of its preset. -/
structure Revision where
  solverImplementationId : String
  snapshotBoundaryConditionId : Option String
  legacyBoundaryConditionId : Option String

/-- `revisionBoundaryConditionSql`. -/
def Revision.boundaryCondition (r : Revision) : Option String :=
  r.snapshotBoundaryConditionId.or r.legacyBoundaryConditionId

/-- The columns of `sim_urans_requests` that are read. -/
structure UransRequest where
  state : String
  fidelity : String
  airfoilId : String
  revisionId : String
  aoaDeg : Option ℚ
  continueFromResultId : Option String
  continueFromResultAttemptId : Option String
  budgetOverrideS : Option ℕ
  simJobId : Option String

/-- What the operations on obligations read and do not write.  The pairs of `manifests` own exactly one manifest row,
a valid one; those of `archives` one verified restart archive; those of `abandoned` an abandoned item of a cancelled
backfill run. -/
structure World (F : Type) where
  jobs : Table String (SimJob F)
  resultAttempts : Table String (ResultAttempt F)
  results : Table String ResultRow
  revisions : Table String Revision
  requests : Table String UransRequest
  manifests : List (String × String)
  archives : List (String × String)
  abandoned : List (String × String)
  /-- `liveOwnerSql`. -/
  liveOwner : String → Bool
  /-- A blocked background request covers the obligation. -/
  repairOwner : String → Bool

end XFoilFoam.Precalc
