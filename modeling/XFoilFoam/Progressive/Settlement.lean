import XFoilFoam.Progressive.Progress

/-! Settlement of a stopped execution: the stop proof, the extension a wall-clock stop may earn, and
what becomes of each unit of the job. -/
namespace XFoilFoam.Progressive
set_option autoImplicit false

/-! ## Stop proofs -/

structure StopScope where
  simJobId : Uuid
  ownershipMatches : Bool
  hasResultAttempts : Bool

def attemptsOf (l : Ledger) (job : Uuid) : List Attempt :=
  l.units.rows.filterMap fun r => (r.2.attemptOf job).map Prod.snd

def measuredRuntime (l : Ledger) (job : Uuid) : Bool :=
  (attemptsOf l job).any fun a => a.runtime.any fun progress => 0 < progress.activeSeconds

def checkStop (scope : StopScope) (proof : StopProof) (l : Ledger) : Except String Unit :=
  if !scope.ownershipMatches || (attemptsOf l scope.simJobId).isEmpty then
    .error "Execution-stop proof differs from its immutable progressive unit scope"
  else if proof.ownershipBasis = some .neverStartedCancellationFence &&
      (scope.hasResultAttempts || measuredRuntime l scope.simJobId) then
    .error "Never-started execution proof conflicts with stored solver attempts"
  else .ok ()

def acknowledgeProgressiveCfdExecutionStop (scope : StopScope) (proof : StopProof) (l : Ledger) :
    Except String Ledger :=
  match checkStop scope proof l with
  | .error e => .error e
  | .ok _ =>
    match l.stops.insert? scope.simJobId proof with
    | some stops => .ok { l with stops := stops }
    | none =>
      if (l.stops.find? scope.simJobId).any fun kept => kept.engineJobId ≠ proof.engineJobId then
        .error "Execution-stop acknowledgement conflicts with its original ownership"
      else .ok l

/-! ## Budget extensions -/

def continuable (cat : Catalog) (u : CfdUnit) (a : Attempt) (e : EvidenceReceipt) : Bool :=
  let raw := cat.result e.resultAttemptId
  raw.simJobId.isSome && raw.simJobId = a.simJobId &&
    (u.work.stage = .fast && u.purpose = .initial && raw.fidelity = some .uransPrecalc ||
      u.work.stage = .precise && u.purpose = .precise && raw.fidelity = some .uransFull) &&
    raw.hasEngineCase && raw.stoppedByWallClock && raw.hasForceHistory

def newestFirst (cat : Catalog) (e f : EvidenceReceipt) : Prop :=
  (cat.result f.resultAttemptId).createdAt < (cat.result e.resultAttemptId).createdAt ∨
    (cat.result f.resultAttemptId).createdAt = (cat.result e.resultAttemptId).createdAt ∧
      f.resultAttemptId ≤ e.resultAttemptId

instance (cat : Catalog) : DecidableRel (newestFirst cat) := fun _ _ => inferInstanceAs (Decidable (_ ∨ _))

def extensionSecondsFor (stage : Stage) : ℚ :=
  if stage = .precise then preciseBudgetExtensionSeconds else fastBudgetExtensionSeconds

theorem extensionSecondsFor_bounded (stage : Stage) :
    0 < extensionSecondsFor stage ∧ extensionSecondsFor stage ≤ 43200 := by
  cases stage <;> simp [extensionSecondsFor, fastBudgetExtensionSeconds,
    preciseBudgetExtensionSeconds, preciseInitialActiveSeconds] <;> norm_num

/-- The extension row inserted for a unit whose latest attempt the wall clock stopped. -/
def admitProgressiveCfdBudgetExtension (cat : Catalog) (u : CfdUnit) (token : Uuid) (a : Attempt) :
    Option BudgetExtension :=
  if (cat.generation u.work.generationId).status = .active &&
      (a.outcome = .running || a.outcome = .failed) && 0 < a.activeSeconds && u.attempts = 2 &&
      u.activeBudgetSeconds ≤ u.activeSeconds && u.budgetExtension.isNone then
    ((a.evidence.filter (continuable cat u a)).insertionSort (newestFirst cat)).head?.map fun e =>
      ⟨token, e.resultAttemptId, extensionSecondsFor u.work.stage, .pending,
        extensionSecondsFor_bounded u.work.stage⟩
  else none

/-! ## One unit of the job -/

structure SettleInput extends StopScope where
  recoverNeverStarted : Bool
  recoverStoredEvidence : Option (List Uuid)
  storageRecoveryAuthorized : Bool
  receiptsIntact : Bool

def expireLease (cat : Catalog) (job : Uuid) (u : CfdUnit) : CfdUnit :=
  match u.attemptOf job, u.state with
  | some (token, a), .leased lease =>
    if a.outcome = .running && lease.token = token && lease.expires ≤ cat.now then
      { u with state := .blocked none, error := some .stopAfterExpiry }
    else u
  | _, _ => u

inductive SettleKind
  | complete | retry | gap | cancelled
deriving DecidableEq, Repr

inductive SettleVerdict
  | skip
  | waiting
  | refused
  | write (kind : SettleKind) (row : CfdUnit) (reopenWork : Bool)

structure Settling where
  cat : Catalog
  input : SettleInput
  basis : Option OwnershipBasis
  works : Table WorkKey WorkState
  stops : Table Uuid StopProof
  token : Uuid
  attempt : Attempt

namespace Settling

def receipts (s : Settling) : List EvidenceReceipt :=
  match s.input.recoverStoredEvidence with
  | none => s.attempt.evidence
  | some ids => s.attempt.evidence.filter fun e => e.resultAttemptId ∈ ids

def historical (s : Settling) : Bool :=
  s.input.recoverStoredEvidence.any fun ids =>
    s.attempt.evidence.any fun e => e.resultAttemptId ∈ ids

def neverStarted (s : Settling) : Bool :=
  s.basis = some .neverStartedCancellationFence && s.receipts = [] && s.attempt.activeSeconds = 0

def recoverableStage (s : Settling) (u : CfdUnit) : Bool :=
  s.cat.inEffectiveStage u.work &&
    (s.works.find? u.work = some .pending || s.works.find? u.work = some .gap)

def expiredLease (s : Settling) (u : CfdUnit) : Bool :=
  match u.state with
  | .leased lease => lease.token = s.token && lease.expires ≤ s.cat.now
  | _ => false

def recovering (s : Settling) (u : CfdUnit) : Bool :=
  s.input.recoverNeverStarted && (s.cat.job s.input.simJobId).status = .cancelled &&
    s.attempt.outcome = .failed && u.state = .gap && s.cat.currentScope u.work &&
    s.recoverableStage u && u.latest s.token s.attempt && s.neverStarted

def recoveringStoredEvidence (s : Settling) (u : CfdUnit) : Bool :=
  s.historical && (s.cat.job s.input.simJobId).ingested && s.cat.currentScope u.work &&
    s.recoverableStage u && u.latest s.token s.attempt &&
    (u.state = .gap || u.state = .blocked none || s.expiredLease u) &&
    (s.attempt.outcome = .complete || s.attempt.outcome = .failed || s.attempt.outcome = .cancelled)

def staleTerminal (s : Settling) (u : CfdUnit) : Bool :=
  u.latest s.token s.attempt && s.attempt.outcome ≠ .running &&
    (s.expiredLease u || u.state = .blocked none)

def numericalRecovery (s : Settling) (u : CfdUnit) : Bool :=
  (u.diagnosisPlan.any fun plan => plan.2.parentAttemptToken = s.token) ||
    u.verificationPlan.any fun plan => plan.parentAttemptToken = s.token

def preciseVerification (s : Settling) (u : CfdUnit) : Bool :=
  u.verificationPlan.any fun plan => plan.parentAttemptToken = s.token

def unusedPreciseVerification (s : Settling) (u : CfdUnit) : Bool :=
  u.policyVersion = policyVersion && preciseVerificationAvailable s.stops u (some s.token)

def accepted (s : Settling) : Bool :=
  s.receipts.any fun e => (s.cat.result e.resultAttemptId).acceptedForStage

def informative (s : Settling) : Bool :=
  s.receipts.any fun e => (s.cat.result e.resultAttemptId).contributor

def infrastructureOnly (s : Settling) : Bool :=
  s.receipts ≠ [] && s.receipts.all fun e => (s.cat.result e.resultAttemptId).infrastructure

def complete (s : Settling) (u : CfdUnit) : Bool :=
  !s.numericalRecovery u && (s.accepted || u.work.stage = .fast && s.informative)

def awaitsFit (s : Settling) (u : CfdUnit) : Bool :=
  (!s.complete u || s.recoveringStoredEvidence u) && !s.numericalRecovery u &&
    u.work.stage = .fast && s.receipts ≠ [] && s.cat.fitRunning u.work

def admitted (s : Settling) (u : CfdUnit) : Option BudgetExtension :=
  if !s.complete u && u.work.stage ≠ .baseline && u.latest s.token s.attempt && u.attempts = 2 then
    admitProgressiveCfdBudgetExtension s.cat u s.token s.attempt
  else none

/-- The budget the decision compares with: an admitted extension counts with the stage-2 length. -/
def effectiveBudget (s : Settling) (u : CfdUnit) : ℚ :=
  effectiveBudgetSeconds u + if (s.admitted u).isSome then fastBudgetExtensionSeconds else 0

def exhausted (s : Settling) (u : CfdUnit) : Bool := s.effectiveBudget u ≤ u.activeSeconds

def ordinaryAttempts (s : Settling) (u : CfdUnit) : ℤ :=
  ordinaryAttemptCount s.stops u - if s.neverStarted then 1 else 0

def budgetExtensionRetry (s : Settling) (u : CfdUnit) : Bool :=
  !s.complete u && ((s.admitted u).isSome || extensionPending u) && u.work.stage ≠ .baseline &&
    s.ordinaryAttempts u = 2 && u.activeSeconds < s.effectiveBudget u

def ordinaryRetry (s : Settling) (u : CfdUnit) : Bool :=
  !s.complete u && !s.exhausted u &&
    (!s.neverStarted ||
      neverStartedAttemptCount s.stops u < 1 && u.history.rows.length = u.attempts) &&
    (s.ordinaryAttempts u < 2 ||
      s.ordinaryAttempts u = 2 && u.work.stage = .precise &&
        (s.preciseVerification u || s.neverStarted && s.unusedPreciseVerification u)) &&
    (s.numericalRecovery u || s.neverStarted || s.infrastructureOnly)

def retry (s : Settling) (u : CfdUnit) : Bool := s.budgetExtensionRetry u || s.ordinaryRetry u

def reason (s : Settling) (u : CfdUnit) : Option Reason :=
  if s.complete u then none
  else if s.budgetExtensionRetry u then some .continuation
  else if s.retry u then
    if s.numericalRecovery u then
      if s.preciseVerification u then some .preciseVerification else some .ransDiagnosis
    else if s.neverStarted then some .neverStarted
    else some .infrastructure
  else if s.exhausted u then some .budgetExhausted
  else if s.neverStarted then some .unstartedExhausted
  else if s.receipts = [] then some .noMeasuredEvidence
  else if u.work.stage = .precise then some .preciseUnresolved
  else some .fastUninformative

def outcome (s : Settling) (u : CfdUnit) : Outcome :=
  if s.complete u then .complete else if s.neverStarted then .cancelled else .failed

def kind (s : Settling) (u : CfdUnit) : SettleKind :=
  if s.complete u then .complete else if s.retry u then .retry else .gap

def settledExtension (s : Settling) (u : CfdUnit) : Option BudgetExtension :=
  match s.admitted u with
  | some e => some e
  | none => u.budgetExtension.map fun e =>
    if e.state = .claimed s.token then
      { e with state := if s.complete u then .consumed s.token else .exhausted s.token }
    else e

def settledRow (s : Settling) (u : CfdUnit) : CfdUnit :=
  { u.setAttempt s.token fun a => { a with outcome := s.outcome u, error := s.reason u } with
    state := match s.kind u with
      | .complete => .complete
      | .retry => .pending
      | _ => .gap
    error := s.reason u
    budgetExtension := s.settledExtension u }

def obsoleteRow (s : Settling) (u : CfdUnit) : CfdUnit :=
  { u.setAttempt s.token fun a => { a with outcome := .cancelled, error := some .obsolete } with
    state := .cancelled, error := some .obsolete }

def ownsUnit (u : CfdUnit) : Bool :=
  match u.state with
  | .leased _ | .blocked _ => true
  | _ => false

def verdict (s : Settling) (u : CfdUnit) : SettleVerdict :=
  if s.input.recoverStoredEvidence.isSome && !s.historical then .skip
  else if s.staleTerminal u then
    .write .gap { u with state := .gap, error := some .staleLease } false
  else if s.attempt.outcome ≠ .running && !s.recovering u && !s.recoveringStoredEvidence u then .skip
  else if !s.cat.currentScope u.work || u.state = .cancelled then
    .write .cancelled (s.obsoleteRow u) false
  else if !s.recovering u && !s.recoveringStoredEvidence u && !ownsUnit u then .refused
  else if s.awaitsFit u then .waiting
  else .write (s.kind u) (s.settledRow u) ((s.recovering u || s.budgetExtensionRetry u) && s.retry u)

end Settling

/-! ## The whole job -/

def settlingOf (cat : Catalog) (input : SettleInput) (l : Ledger) (u : CfdUnit) : Option Settling :=
  (u.attemptOf input.simJobId).map fun attempt =>
    ⟨cat, input, (l.stops.find? input.simJobId).bind StopProof.ownershipBasis, l.works, l.stops,
      attempt.1, attempt.2⟩

def verdictOf (cat : Catalog) (input : SettleInput) (l : Ledger) (u : CfdUnit) : SettleVerdict :=
  match settlingOf cat input l u with
  | some s => s.verdict u
  | none => .skip

structure SettleCounts where
  complete : ℕ
  retry : ℕ
  gaps : ℕ
  cancelled : ℕ
  waiting : ℕ
deriving DecidableEq, Repr

def SettleVerdict.isKind (kind : SettleKind) : SettleVerdict → Bool
  | .write k _ _ => k = kind
  | _ => false

def SettleVerdict.isWaiting : SettleVerdict → Bool
  | .waiting => true
  | _ => false

def SettleVerdict.isRefused : SettleVerdict → Bool
  | .refused => true
  | _ => false

def SettleVerdict.rowOr (u : CfdUnit) : SettleVerdict → CfdUnit
  | .write _ row _ => row
  | _ => u

def SettleVerdict.reopens : SettleVerdict → Bool
  | .write _ _ reopen => reopen
  | _ => false

def runningUnits (l : Ledger) (job : Uuid) : List CfdUnit :=
  l.units.rows.filterMap fun r =>
    if (r.2.attemptOf job).any fun attempt => attempt.2.outcome = .running then some r.2 else none

/-- Results are still being read in, and the execution still owns a current unit. -/
def awaitsIngestion (cat : Catalog) (job : Uuid) (l : Ledger) : Bool :=
  !(cat.job job).ingested && (runningUnits l job).any (fun u => cat.currentScope u.work) &&
    !((cat.job job).status = .ingesting &&
      (runningUnits l job).any (fun u => u.state = .blocked none) &&
      (runningUnits l job).all (fun u => u.state = .blocked none))

def settleRow (cat : Catalog) (input : SettleInput) (l : Ledger) (u : CfdUnit) : CfdUnit :=
  (verdictOf cat input l u).rowOr u

def settleUnits (cat : Catalog) (input : SettleInput) (l : Ledger) : Ledger :=
  { l.mapUnits (fun _ => settleRow cat input l) with
    works := l.works.map fun work state =>
      if state = .gap && l.units.rows.any (fun r =>
        r.2.work = work && (verdictOf cat input l r.2).reopens) then .pending else state }

def settleCounts (cat : Catalog) (input : SettleInput) (l : Ledger) : SettleCounts :=
  let count (p : SettleVerdict → Bool) := l.units.rows.countP fun r => p (verdictOf cat input l r.2)
  ⟨count (SettleVerdict.isKind .complete), count (SettleVerdict.isKind .retry),
    count (SettleVerdict.isKind .gap), count (SettleVerdict.isKind .cancelled),
    count SettleVerdict.isWaiting⟩

def settleProgressiveCfdExecution (cat : Catalog) (input : SettleInput) (l : Ledger) :
    Except String (Ledger × SettleCounts) :=
  if input.recoverStoredEvidence.isSome && !input.storageRecoveryAuthorized then
    .error "Historical progressive execution ownership changed or is still active"
  else
    match l.stops.find? input.simJobId with
    | none => .error "Progressive CFD execution has no persisted stop acknowledgement"
    | some proof =>
      match checkStop input.toStopScope proof l with
      | .error e => .error e
      | .ok _ =>
        let expired := l.mapUnits fun _ => expireLease cat input.simJobId
        if (cat.job input.simJobId).status ∉ [JobStatus.done, .failed, .cancelled, .ingesting] then
          .ok (expired, ⟨0, 0, 0, 0, 1⟩)
        else if (input.recoverStoredEvidence.getD []).dedup.length > 2048 then
          .error "Progressive stored-evidence recovery exceeds its bounded case scope"
        else if awaitsIngestion cat input.simJobId expired then .ok (expired, ⟨0, 0, 0, 0, 1⟩)
        else if !input.receiptsIntact then
          .error "Progressive CFD settlement has changed or unbounded receipt evidence"
        else if expired.units.rows.any fun r => (verdictOf cat input expired r.2).isRefused then
          .error "Progressive CFD settlement has no exclusive current unit ownership"
        else .ok (settleUnits cat input expired, settleCounts cat input expired)

end XFoilFoam.Progressive
