import XFoilFoam.Progressive.Rows

/-! Budgets: how many attempts a unit has used, how many seconds it may use, and whether another
attempt may still be claimed. -/
namespace XFoilFoam.Progressive
set_option autoImplicit false

/-! ## What the tables outside the ledger say -/

inductive JobStatus
  | pending | submitted | running | ingesting | done | failed | cancelled
deriving DecidableEq, Repr

inductive EngineState
  | queued | running | completed | failed | cancelled
deriving DecidableEq, Repr

inductive GenerationStatus
  | active | complete | attention | cancelled
deriving DecidableEq, Repr

inductive CampaignStatus
  | active | paused | attention | completed | cancelled | archived
deriving DecidableEq, Repr

inductive Fidelity
  | uransPrecalc | uransFull
deriving DecidableEq, Repr

structure SimJob where
  status : JobStatus
  engineState : Option EngineState
  engineJobId : Option String
  ingested : Bool
  updatedAt : ℤ
  /-- an active scheduling promise covers a remote dispatch of the job -/
  promiseActive : Bool

structure ResultAttempt where
  simJobId : Option Uuid
  /-- the attempt, or the result it belongs to, is classified accepted -/
  accepted : Bool
  /-- done, valid for the polar, classified accepted, of the fidelity its stage needs, not excluded -/
  acceptedForStage : Bool
  infrastructure : Bool
  /-- named by the latest verified fit as a contributor -/
  contributor : Bool
  fidelity : Option Fidelity
  hasEngineCase : Bool
  stoppedByWallClock : Bool
  hasForceHistory : Bool
  createdAt : ℤ

structure Generation where
  campaignId : Uuid
  status : GenerationStatus
  epochCurrent : Bool
  planCurrent : Bool
  benchmarkOnly : Bool
  createdAt : ℤ

structure Catalog where
  now : ℤ
  generation : Uuid → Generation
  campaignStatus : Uuid → CampaignStatus
  effectiveStage : WorkKey → Option Stage
  fitRunning : WorkKey → Bool
  job : Uuid → SimJob
  result : Uuid → ResultAttempt

namespace Catalog

def openCampaign (cat : Catalog) (work : WorkKey) : Bool :=
  cat.campaignStatus (cat.generation work.generationId).campaignId ∈
    [CampaignStatus.active, .attention, .paused]

def currentScope (cat : Catalog) (work : WorkKey) : Bool :=
  (cat.generation work.generationId).epochCurrent &&
    (cat.generation work.generationId).status = .active &&
    (cat.generation work.generationId).planCurrent && cat.openCampaign work

def inEffectiveStage (cat : Catalog) (work : WorkKey) : Bool :=
  cat.effectiveStage work = some work.stage

end Catalog

def policyVersion : String := "progressive-compute-v2"
def fastAnchorActiveSeconds : ℚ := 900
def fastBudgetExtensionSeconds : ℚ := 900
def preciseInitialActiveSeconds : ℚ := 43200
def preciseBudgetExtensionSeconds : ℚ := preciseInitialActiveSeconds

/-! ## Seconds -/

def extensionCounts : ExtensionState → Bool
  | .pending | .claimed _ | .consumed _ => true
  | .exhausted _ => false

def effectiveBudgetSeconds (u : CfdUnit) : ℚ :=
  u.activeBudgetSeconds +
    match u.budgetExtension with
    | some e => if extensionCounts e.state then e.extensionSeconds else 0
    | none => 0

def extensionPending (u : CfdUnit) : Bool :=
  match u.budgetExtension with
  | some e => e.state = .pending
  | none => false

/-! ## Attempts -/

def stopBasis (stops : Table Uuid StopProof) (a : Attempt) : Option OwnershipBasis :=
  a.simJobId.bind fun job => (stops.find? job).bind StopProof.ownershipBasis

/-- No second was measured, no receipt stored, and the engine proved the job never started. -/
def leftNoTrace (stops : Table Uuid StopProof) (a : Attempt) : Bool :=
  a.activeSeconds = 0 && stopBasis stops a = some .neverStartedCancellationFence && a.evidence = []

def neverStartedAttemptCount (stops : Table Uuid StopProof) (u : CfdUnit) : ℕ :=
  u.history.count fun a => a.outcome = .cancelled && leftNoTrace stops a

def ordinaryAttemptCount (stops : Table Uuid StopProof) (u : CfdUnit) : ℤ :=
  u.attempts - (if u.publicationClaim.isSome then 1 else 0) - neverStartedAttemptCount stops u

theorem ordinary_le_attempts (stops : Table Uuid StopProof) (u : CfdUnit) :
    ordinaryAttemptCount stops u ≤ u.attempts := by
  unfold ordinaryAttemptCount
  split <;> omega

/-- No attempt that did start has claimed the plan; the attempt under settlement may count as not
started. -/
def planUnclaimed (stops : Table Uuid StopProof) (u : CfdUnit) (plan : PlanOrdinal)
    (settling : Option Uuid) : Bool :=
  u.history.rows.all fun r => r.2.recoveryClaim ≠ some plan ||
    ((r.2.outcome = .cancelled || settling = some r.1) && leftNoTrace stops r.2)

def preciseVerificationAvailable (stops : Table Uuid StopProof) (u : CfdUnit)
    (settling : Option Uuid) : Bool :=
  u.verificationPlan.isSome && planUnclaimed stops u .second settling

def materialDomainRecoveryAvailable (stops : Table Uuid StopProof) (u : CfdUnit)
    (settling : Option Uuid) : Bool :=
  (u.diagnosisPlan.any fun plan => plan.1 = .materialDomain) && planUnclaimed stops u .first settling

def stoppedAtEngine (cat : Catalog) (stops : Table Uuid StopProof) (job : Uuid) : Bool :=
  (stops.find? job).any fun proof => some proof.engineJobId = (cat.job job).engineJobId

def releasedByReset (cat : Catalog) (job : Uuid) : Bool :=
  (cat.job job).status = .cancelled && (cat.job job).engineState = some .cancelled &&
    (cat.job job).engineJobId = none

def noAcceptedHistoryAndSettled (cat : Catalog) (stops : Table Uuid StopProof) (u : CfdUnit) : Bool :=
  u.history.rows.all fun r =>
    (r.2.evidence.all fun e => !(cat.result e.resultAttemptId).accepted) &&
    match r.2.simJobId with
    | none => true
    | some job =>
      r.2.outcome ≠ .running &&
        (stoppedAtEngine cat stops job ||
          r.2.error = some .staleHzReset && releasedByReset cat job) &&
        !(cat.job job).promiseActive

def boundedRecoveryReasons : List Reason :=
  [.noMeasuredEvidence, .staleHzReset, .obsolete, .unstartedExhausted]

def boundedNoEvidenceRecoveryAvailable (cat : Catalog) (stops : Table Uuid StopProof)
    (u : CfdUnit) : Bool :=
  u.attempts = 3 && u.activeSeconds < u.activeBudgetSeconds &&
    (u.error.any fun reason => reason ∈ boundedRecoveryReasons) &&
    noAcceptedHistoryAndSettled cat stops u

def completionRetryReasons : Stage → List Reason
  | .baseline => []
  | .fast => [.noMeasuredEvidence, .fastUninformative]
  | .precise => [.noMeasuredEvidence, .preciseUnresolved]

def completionRetryAvailable (u : CfdUnit) : Bool :=
  u.attempts = 2 && u.activeSeconds < u.activeBudgetSeconds &&
    u.error.any fun reason => reason ∈ completionRetryReasons u.work.stage

def publicationRecoveryAvailable (u : CfdUnit) : Bool :=
  u.publicationRecovery.any fun recovery =>
    recovery.attemptsBefore = u.attempts && recovery.activeSeconds ≤ u.activeSeconds &&
      u.publicationClaim = none

def extensible (u : CfdUnit) : Bool :=
  u.work.stage = .fast && u.purpose = .initial || u.work.stage = .precise && u.purpose = .precise

/-- Routes to one attempt more for a unit whose ordinary attempts are used up, other than those that
read the error text. -/
def standingRoute (stops : Table Uuid StopProof) (u : CfdUnit) : Bool :=
  publicationRecoveryAvailable u || materialDomainRecoveryAvailable stops u none ||
    ordinaryAttemptCount stops u = 2 && u.work.stage = .precise &&
      u.policyVersion = policyVersion && preciseVerificationAvailable stops u none ||
    ordinaryAttemptCount stops u = 2 && extensible u && extensionPending u

/-- The condition under which `claimProgressiveCfdUnit` takes a unit for one attempt more. -/
def attemptAvailable (cat : Catalog) (stops : Table Uuid StopProof) (u : CfdUnit) : Bool :=
  u.attempts < 4 &&
      (ordinaryAttemptCount stops u < 2 || boundedNoEvidenceRecoveryAvailable cat stops u ||
        completionRetryAvailable u || standingRoute stops u) ||
    u.work.stage = .precise && u.purpose = .precise && u.attempts < 5 && extensionPending u

theorem attemptAvailable_of_few (cat : Catalog) (stops : Table Uuid StopProof) {u : CfdUnit}
    (h : u.attempts < 2) : attemptAvailable cat stops u = true := by
  have hle := ordinary_le_attempts stops u
  have hordinary : ordinaryAttemptCount stops u < 2 := by omega
  have hfour : u.attempts < 4 := by omega
  simp [attemptAvailable, hordinary, hfour]

def claimable (cat : Catalog) (stops : Table Uuid StopProof) (u : CfdUnit) : Bool :=
  attemptAvailable cat stops u && u.activeSeconds < effectiveBudgetSeconds u

end XFoilFoam.Progressive
