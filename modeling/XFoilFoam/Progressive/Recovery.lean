import XFoilFoam.Progressive.Settlement

/-! The passes that look after units no execution reports on: expired unbound leases, gaps of inactive
remote deliveries, terminal gaps without evidence, executions that disappeared, cancelled generations. -/
namespace XFoilFoam.Progressive
set_option autoImplicit false

/-! ## Unbound leases -/

/-- The expired lease of a unit whose running attempt was never bound to a job. -/
def expiredUnbound (cat : Catalog) (u : CfdUnit) : Option Uuid :=
  match u.state with
  | .leased lease =>
    if lease.expires ≤ cat.now && (u.history.find? lease.token).any fun a =>
        a.outcome = .running && a.simJobId = none then some lease.token
    else none
  | _ => none

def unboundRetry (stops : Table Uuid StopProof) (u : CfdUnit) : Bool :=
  ordinaryAttemptCount stops u < 2 && u.activeSeconds < u.activeBudgetSeconds

def unboundReason (stops : Table Uuid StopProof) (u : CfdUnit) : Reason :=
  if unboundRetry stops u then .unboundExpired else .unboundExhausted

def releaseUnbound (stops : Table Uuid StopProof) (token : Uuid) (u : CfdUnit) : CfdUnit :=
  { u.setAttempt token fun a =>
      { a with outcome := .expired, error := some (unboundReason stops u) } with
    state := if unboundRetry stops u then .pending else .gap
    error := some (unboundReason stops u) }

def unboundScope (cat : Catalog) (l : Ledger) (campaign : Uuid) (u : CfdUnit) : Bool :=
  (cat.generation u.work.generationId).campaignId = campaign && cat.currentScope u.work &&
    cat.inEffectiveStage u.work && l.works.find? u.work = some .pending

def recoverUnboundRow (cat : Catalog) (campaign : Uuid) (picked : Uuid → Bool) (l : Ledger) (id : Uuid)
    (u : CfdUnit) : CfdUnit :=
  match expiredUnbound cat u with
  | some token =>
    if picked id && unboundScope cat l campaign u then releaseUnbound l.stops token u else u
  | none => u

/-- Works through the rows its query picked, a bounded number not locked elsewhere, of one campaign. -/
def recoverUnboundProgressiveCfdLeases (cat : Catalog) (campaign : Uuid) (picked : Uuid → Bool)
    (l : Ledger) : Ledger :=
  l.mapUnits (recoverUnboundRow cat campaign picked l)

/-! ## Inactive remote deliveries -/

def recoverableScope (cat : Catalog) (l : Ledger) (u : CfdUnit) : Bool :=
  cat.currentScope u.work && cat.inEffectiveStage u.work &&
    (l.works.find? u.work = some .pending || l.works.find? u.work = some .gap)

def inactiveGap (cat : Catalog) (l : Ledger) (u : CfdUnit) : Bool :=
  recoverableScope cat l u && u.state = .gap && u.error = some .inactiveRemote && u.attempts < 3 &&
    u.activeSeconds < u.activeBudgetSeconds

def reopenInactive (u : CfdUnit) : CfdUnit :=
  { u with state := .pending, retryAfter := none, error := some .inactiveRetry }

def recoverInactiveRow (cat : Catalog) (picked : Uuid → Bool) (l : Ledger) (id : Uuid) (u : CfdUnit) :
    CfdUnit :=
  if picked id && inactiveGap cat l u then reopenInactive u else u

def recoverInactiveProgressiveRemoteGaps (cat : Catalog) (picked : Uuid → Bool) (l : Ledger) : Ledger :=
  l.mapUnits (recoverInactiveRow cat picked l)

/-! ## Terminal gaps without evidence -/

/-- What the pass over terminal gaps reads besides the ledger. -/
structure TerminalFacts where
  /-- the final remote report still holds a physical case for the unit -/
  retainedRemoteCase : Uuid → Bool
  remoteOverloaded : Bool
  pickedStranded : Uuid → Bool
  picked : Uuid → Bool

def terminalGapReasons : List Reason :=
  [.noMeasuredEvidence, .fastUninformative, .preciseUnresolved, .staleHzReset, .obsolete,
    .unstartedExhausted]

def strandedJob (cat : Catalog) (stops : Table Uuid StopProof) (job : Uuid) : Bool :=
  stoppedAtEngine cat stops job &&
    (cat.job job).status ∈ [JobStatus.ingesting, .done, .failed, .cancelled] &&
    (cat.job job).engineState ∈ [some EngineState.completed, some .failed, some .cancelled] &&
    (cat.job job).updatedAt ≤ cat.now - 900

def strandedAttempt (cat : Catalog) (facts : TerminalFacts) (l : Ledger) (id : Uuid) (u : CfdUnit) :
    Option Uuid :=
  match u.state with
  | .leased _ =>
    if facts.pickedStranded id && recoverableScope cat l u && !facts.retainedRemoteCase id then
      (u.history.rows.find? fun r => r.2.outcome = .running && r.2.evidence = [] && u.latest r.1 r.2 &&
        r.2.simJobId.any fun job => strandedJob cat l.stops job).map Prod.fst
    else none
  | _ => none

def releaseStrandedRow (cat : Catalog) (facts : TerminalFacts) (l : Ledger) (id : Uuid) (u : CfdUnit) :
    CfdUnit :=
  match strandedAttempt cat facts l id u with
  | some token =>
    { u.setAttempt token fun a => { a with outcome := .failed, error := some .noMeasuredEvidence } with
      state := .gap, error := some .noMeasuredEvidence }
  | none => u

def releaseStranded (cat : Catalog) (facts : TerminalFacts) (l : Ledger) : Ledger :=
  l.mapUnits (releaseStrandedRow cat facts l)

/-- The pass's own version of the claim condition: no material-domain plan, no precise extension. -/
def terminalAttemptAvailable (stops : Table Uuid StopProof) (u : CfdUnit) : Bool :=
  ordinaryAttemptCount stops u < 2 || completionRetryAvailable u || publicationRecoveryAvailable u ||
    ordinaryAttemptCount stops u = 2 && u.work.stage = .precise && u.policyVersion = policyVersion &&
      preciseVerificationAvailable stops u none ||
    ordinaryAttemptCount stops u = 2 && u.work.stage = .fast && u.purpose = .initial &&
      extensionPending u

def requeueEligible (stops : Table Uuid StopProof) (u : CfdUnit) : Bool :=
  u.activeSeconds < effectiveBudgetSeconds u && (u.attempts = 3 || terminalAttemptAvailable stops u)

def claimEligible (stops : Table Uuid StopProof) (u : CfdUnit) : Bool :=
  terminalAttemptAvailable stops u && u.activeSeconds < effectiveBudgetSeconds u

def terminalAttempt (cat : Catalog) (stops : Table Uuid StopProof) (u : CfdUnit)
    (r : Uuid × Attempt) : Bool :=
  u.latest r.1 r.2 && r.2.evidence = [] && (r.2.error.any fun reason => reason ∈ terminalGapReasons) &&
    (u.state = .pending || r.2.error = u.error) &&
    r.2.simJobId.any fun job =>
      (r.2.outcome = .failed ||
        r.2.outcome = .cancelled && r.2.activeSeconds = 0 && stoppedAtEngine cat stops job &&
          (stopBasis stops r.2).isSome) &&
      (stoppedAtEngine cat stops job ||
        r.2.error = some .staleHzReset && r.2.outcome = .failed && releasedByReset cat job)

def terminalGap (cat : Catalog) (facts : TerminalFacts) (l : Ledger) (id : Uuid) (u : CfdUnit) : Bool :=
  facts.picked id && recoverableScope cat l u &&
    (u.work.stage ≠ .precise || fastTargetSettled l u.work.generationId u.work.targetId) &&
    (u.state = .gap && (u.error.any fun reason => reason ∈ terminalGapReasons) ||
      u.state = .pending && u.error = some .terminalRetry) &&
    (u.attempts < 3 || boundedNoEvidenceRecoveryAvailable cat l.stops u) &&
    (u.retryAfter.all fun time => time ≤ cat.now) &&
    (!(u.error.any fun reason => reason = .obsolete || reason = .unstartedExhausted) ||
      !facts.remoteOverloaded) &&
    u.history.rows.any (terminalAttempt cat l.stops u) && noAcceptedHistoryAndSettled cat l.stops u &&
    (u.state = .gap && requeueEligible l.stops u || u.state = .pending && !claimEligible l.stops u)

def reopenTerminal (cat : Catalog) (u : CfdUnit) : CfdUnit :=
  { u with
    state := .pending
    retryAfter := if u.error.any fun reason => reason = .obsolete || reason = .unstartedExhausted then
      some (cat.now + 300) else none
    error := if u.attempts ≥ 2 then u.error else some .terminalRetry }

def closeTerminal (u : CfdUnit) : CfdUnit :=
  { u with state := .gap, retryAfter := none, error := some .noMeasuredEvidence }

def settleTerminalGap (cat : Catalog) (facts : TerminalFacts) (l : Ledger) (id : Uuid) (u : CfdUnit) :
    CfdUnit :=
  if terminalGap cat facts l id u then
    if u.state = .gap && requeueEligible l.stops u then reopenTerminal cat u
    else if u.state = .pending && !claimEligible l.stops u then closeTerminal u
    else u
  else u

def recoverTerminalProgressiveNoEvidenceGaps (cat : Catalog) (facts : TerminalFacts) (l : Ledger) :
    Ledger :=
  let released := releaseStranded cat facts l
  { released.mapUnits (settleTerminalGap cat facts released) with
    works := released.works.map fun work state =>
      if state = .gap && released.units.rows.any (fun r => r.2.work = work &&
        terminalGap cat facts released r.1 r.2 && r.2.state = .gap && requeueEligible released.stops r.2)
      then .pending else state }

/-! ## Executions that ended without a settlement -/

def dropAttempt (job : Uuid) (attemptError unitError : Reason) (u : CfdUnit) : CfdUnit :=
  match u.attemptOf job with
  | some (token, a) =>
    if a.outcome = .running then
      { u.setAttempt token fun a => { a with outcome := .cancelled, error := some attemptError } with
        state := .gap, error := some unitError }
    else u
  | none => u

def releaseMissingCancelledExecution (cat : Catalog) (job : Uuid) (hasResultAttempts : Bool)
    (l : Ledger) : Ledger :=
  if (cat.job job).status ≠ .cancelled ∨ (cat.job job).engineState ≠ some .cancelled then l
  else if hasResultAttempts || (attemptsOf l job).any fun a => a.evidence ≠ [] then l
  else l.mapUnits fun _ => dropAttempt job .disappeared .disappeared

/-- Whether the unit is still held by the execution whose promise became inactive. -/
def heldByInactive (u : CfdUnit) (token : Uuid) : Bool :=
  match u.state with
  | .leased lease => lease.token = token
  | .blocked _ => effectiveBudgetSeconds u ≤ u.activeSeconds
  | _ => false

def settleInactiveUndeliveredExecution (scope : StopScope) (promiseInactive : Bool) (l : Ledger) :
    Except String Ledger :=
  match l.stops.find? scope.simJobId with
  | none => .ok l
  | some proof =>
    if !promiseInactive then .ok l
    else
      match checkStop scope proof l with
      | .error e => .error e
      | .ok _ =>
        if l.units.rows.any fun r => (r.2.attemptOf scope.simJobId).any fun attempt =>
            attempt.2.outcome = .running && !heldByInactive r.2 attempt.1 then
          .error "Inactive remote execution no longer owns its pending units"
        else .ok (l.mapUnits fun _ => dropAttempt scope.simJobId .promiseInactive .inactiveRemote)

def cancelUnbound (a : Attempt) : Attempt :=
  if a.outcome = .running && a.simJobId = none then
    { a with outcome := .cancelled, error := some .campaignStopped }
  else a

/-- Unbound attempts of a cancelled generation end; its open units are cancelled. -/
def cancelUnit (u : CfdUnit) : CfdUnit :=
  { u with
    history := u.history.map fun _ a => cancelUnbound a
    state := match u.state with
      | .pending | .leased _ | .blocked _ => .cancelled
      | state => state
    error := match u.state with
      | .pending | .leased _ | .blocked _ => some .campaignStopped
      | _ => u.error }

def cancelObsoleteRow (cat : Catalog) (campaign : Option Uuid) (u : CfdUnit) : CfdUnit :=
  if (cat.generation u.work.generationId).status = .cancelled &&
      (campaign.all fun c => (cat.generation u.work.generationId).campaignId = c) then
    cancelUnit u
  else u

def cancelObsoleteProgressiveCfdUnits (cat : Catalog) (campaign : Option Uuid) (l : Ledger) : Ledger :=
  l.mapUnits fun _ => cancelObsoleteRow cat campaign

end XFoilFoam.Progressive
