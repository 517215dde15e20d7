import XFoilFoam.Foundations.Runs
import XFoilFoam.Progressive.Recovery

/-! The operations on the ledger as one step relation. -/
namespace XFoilFoam.Progressive
set_option autoImplicit false

/-! ## Binding a batch to a job -/

def lockProgressiveCfdExecution (cat : Catalog) (l : Ledger) (lease : CfdLease) : Option Attempt :=
  (l.units.find? lease.id).bind fun u =>
    (heldLease cat lease u).bind fun _ =>
      (u.history.find? lease.token).filter fun a =>
        a.outcome = .running && cat.currentScope u.work && cat.inEffectiveStage u.work &&
          l.works.find? u.work = some .pending

def bindRow (leases : List CfdLease) (job id : Uuid) (u : CfdUnit) : CfdUnit :=
  match leases.find? fun lease => lease.id = id with
  | some lease => u.setAttempt lease.token fun a => { a with simJobId := some job }
  | none => u

def composeProgressiveCfdJob (cat : Catalog) (input : ComposeInput) (leases : List CfdLease) (job : Uuid)
    (l : Ledger) : Except String Ledger :=
  match composeBatchChecks input leases with
  | .error e => .error e
  | .ok _ =>
    if !input.sweeperEnabled then .error "CFD admission is paused"
    else
      let attempts := leases.map (lockProgressiveCfdExecution cat l)
      if attempts.any Option.isNone then .error "Obsolete or expired CFD execution lease"
      else if attempts.any fun a => a.any fun a => a.simJobId.isSome then
        if (attempts.filterMap fun a => a.bind Attempt.simJobId).dedup.length ≠ 1 ||
            attempts.any fun a => a.any fun a => a.simJobId.isNone then
          .error "CFD batch contains competing execution ownership"
        else .ok l
      else if !(attemptsOf l job).isEmpty then .error "duplicate key value violates unique constraint"
      else if let some error := input.requestError then .error error
      else .ok (l.mapUnits (bindRow leases job))

/-! ## Plans and publication recoveries -/

inductive PlanInsert
  | diagnosis (reason : DiagnosisReason) (plan : RecoveryPlan)
  | verification (plan : RecoveryPlan)

def recordPlan (insert : PlanInsert) (u : CfdUnit) : CfdUnit :=
  match insert with
  | .diagnosis reason plan => { u with diagnosisPlan := u.diagnosisPlan.or (some (reason, plan)) }
  | .verification plan => { u with verificationPlan := u.verificationPlan.or (some plan) }

def lostPublication (cat : Catalog) (l : Ledger) (job : Uuid) (u : CfdUnit) : Bool :=
  ((u.attemptOf job).any fun attempt => attempt.2.outcome = .cancelled &&
      u.history.rows.all fun r => r.2.startedAt ≤ attempt.2.startedAt && r.2.outcome ≠ .running) &&
    u.state = .gap && u.activeSeconds < u.activeBudgetSeconds && 1 ≤ u.attempts && u.attempts ≤ 2 &&
    cat.currentScope u.work && cat.inEffectiveStage u.work && u.work.stage = .fast &&
    l.works.find? u.work = some .pending && (latestPlan u).isNone && u.publicationRecovery.isNone

def recoverPublicationRow (cat : Catalog) (job : Uuid) (l : Ledger) (u : CfdUnit) : CfdUnit :=
  if lostPublication cat l job u then
    { u with
      publicationRecovery := some ⟨u.attempts, u.activeSeconds⟩
      state := .pending
      error := some .lostPublication }
  else u

def recoverPublication (cat : Catalog) (job : Uuid) (l : Ledger) : Ledger :=
  l.mapUnits fun _ => recoverPublicationRow cat job l

/-! ## Steps -/

inductive Op
  | insertUnit (id : Uuid) (scope : UnitScope)
  | claimUnit (cat : ClaimCatalog) (input : ClaimInput) (token : Uuid)
  | claimBatch (cat : ClaimCatalog) (input : ClaimInput) (maximum : Option ℤ) (tokens : ℕ → Uuid)
  | compose (cat : Catalog) (input : ComposeInput) (leases : List CfdLease) (job : Uuid)
  | heartbeat (cat : Catalog) (lease : CfdLease) (attemptActiveSeconds : ℚ) (leaseSeconds : ℤ)
  | runtime (cat : Catalog) (scope : JobScope) (progress : RuntimeObservation)
  | evidence (cat : Catalog) (scope : JobScope) (policy : JobScopePolicy) (rows : List EvidenceRow)
  | acknowledgeStop (scope : StopScope) (proof : StopProof)
  | settle (cat : Catalog) (input : SettleInput)
  | recoverUnbound (cat : Catalog) (campaign : Uuid) (picked : Uuid → Bool)
  | recoverInactive (cat : Catalog) (picked : Uuid → Bool)
  | recoverTerminal (cat : Catalog) (facts : TerminalFacts)
  | releaseMissing (cat : Catalog) (job : Uuid) (hasResultAttempts : Bool)
  | settleInactive (scope : StopScope) (promiseInactive : Bool)
  | cancelObsolete (cat : Catalog) (campaign : Option Uuid)
  | recordPlan (id : Uuid) (insert : PlanInsert)
  | recoverPublication (cat : Catalog) (job : Uuid)

/-- The ledger an operation commits; an operation that throws commits none. -/
def exec (l : Ledger) : Op → Option Ledger
  | .insertUnit id scope => l.insertUnit? id scope
  | .claimUnit cat input token =>
    match claimProgressiveCfdUnit cat input token l with
    | .ok (some (l', _)) => some l'
    | .ok none => some l
    | .error _ => none
  | .claimBatch cat input maximum tokens =>
    (claimProgressiveCfdBatch cat input maximum tokens l).toOption.map Prod.fst
  | .compose cat input leases job => (composeProgressiveCfdJob cat input leases job l).toOption
  | .heartbeat cat lease seconds leaseSeconds =>
    (heartbeatProgressiveCfdUnit cat lease seconds leaseSeconds l).toOption.map Prod.fst
  | .runtime cat scope progress => (recordProgressiveCfdRuntimeProgress cat scope progress l).toOption
  | .evidence cat scope policy rows =>
    (recordProgressiveCfdEvidence cat scope policy rows l).toOption.map Prod.fst
  | .acknowledgeStop scope proof => (acknowledgeProgressiveCfdExecutionStop scope proof l).toOption
  | .settle cat input => (settleProgressiveCfdExecution cat input l).toOption.map Prod.fst
  | .recoverUnbound cat campaign picked =>
    some (recoverUnboundProgressiveCfdLeases cat campaign picked l)
  | .recoverInactive cat picked => some (recoverInactiveProgressiveRemoteGaps cat picked l)
  | .recoverTerminal cat facts => some (recoverTerminalProgressiveNoEvidenceGaps cat facts l)
  | .releaseMissing cat job hasResultAttempts =>
    some (releaseMissingCancelledExecution cat job hasResultAttempts l)
  | .settleInactive scope promiseInactive =>
    (settleInactiveUndeliveredExecution scope promiseInactive l).toOption
  | .cancelObsolete cat campaign => some (cancelObsoleteProgressiveCfdUnits cat campaign l)
  | .recordPlan id insert => some (l.modifyUnit id (Progressive.recordPlan insert))
  | .recoverPublication cat job => some (Progressive.recoverPublication cat job l)

def Initial (l : Ledger) : Prop := l.units.rows = [] ∧ l.stops.rows = []

def StepWhen (P : Ledger → Op → Prop) (l l' : Ledger) : Prop := ∃ op, P l op ∧ exec l op = some l'

def Step : Ledger → Ledger → Prop := StepWhen fun _ _ => True

def runWhile (p : Ledger → Op → Bool) (l : Ledger) : List Op → Option Ledger
  | [] => some l
  | op :: ops => if p l op then (exec l op).bind fun l' => runWhile p l' ops else none

theorem reachable_of_runWhile {p : Ledger → Op → Bool} {P : Ledger → Op → Prop} {init : Ledger → Prop}
    {l l' : Ledger} {ops : List Op} (hP : ∀ l op, p l op = true → P l op)
    (hl : Reachable init (StepWhen P) l) (h : runWhile p l ops = some l') :
    Reachable init (StepWhen P) l' := by
  induction ops generalizing l with
  | nil =>
    cases h
    exact hl
  | cons op ops ih =>
    simp only [runWhile] at h
    split at h
    · rename_i hp
      obtain ⟨l₁, hop, hrest⟩ := Option.bind_eq_some_iff.1 h
      exact ih (hl.next ⟨op, hP l op hp, hop⟩) hrest
    · cases h

/-! ## A small ledger, on which runs are evaluated -/

def sampleWork : WorkKey := ⟨1, 1, .fast⟩

def sampleUnit : UnitScope :=
  ⟨sampleWork, 0, 0, .initial, ⟨"recipe", .simpleFoam, none, false⟩, policyVersion,
    fastAnchorActiveSeconds⟩

def sampleLedger : Ledger := ⟨⟨[(sampleWork, .pending)], by decide⟩, .empty, .empty, by decide⟩

def sampleCatalog (now : ℤ) : Catalog :=
  { now := now
    generation := fun _ => ⟨1, .active, true, true, false, 0⟩
    campaignStatus := fun _ => .active
    effectiveStage := fun work => some work.stage
    fitRunning := fun _ => false
    job := fun job => ⟨.done, some .completed, some (toString job), true, now, false⟩
    result := fun id => ⟨some id, false, false, false, false, some .uransPrecalc, true, true, true, 0⟩ }

def sampleClaims (now : ℤ) : ClaimCatalog :=
  { toCatalog := sampleCatalog now, admissionLock := true, sweeperEnabled := true, campaigns := [1],
    highAllowed := fun _ => true, mach := fun _ => some 0, revision := fun _ _ => 1,
    admitted := fun _ _ => true, cohortInitialized := fun _ => true,
    initialCoverageComplete := fun _ => true, previousExecutionStopped := fun _ _ => true,
    solverRegistered := fun _ => true, dispatched := fun _ => false, dispatchedTo := fun _ _ => false,
    stoppedLocalParent := fun _ => false, localStepPolicy := fun _ => none,
    localStepRecipe := fun recipe _ => recipe, locked := fun _ => false }

def sampleInput : ClaimInput := ⟨"sweeper", 120, true, none, true, some 2, none, none, none⟩

def sampleLease (token : Uuid) (remaining : ℚ) : CfdLease :=
  { id := 1, work := sampleWork, revisionId := 1, alpha := 0, token := token, owner := "sweeper",
    recipe := sampleUnit.recipe, remainingActiveSeconds := remaining, recoveryPlan := none,
    recoveryParentJobId := none, localStepPolicyId := none, budgetExtension := none }

def sampleCompose : ComposeInput := ⟨4, 1, some 2, some 2, some 1, true, none⟩

def sampleScope (job : Uuid) : JobScope := ⟨job, toString job, true, fun _ => some 900, fun _ => false, none⟩

def settleJob : SettleInput := ⟨⟨7, true, true⟩, false, none, false, true⟩

def preciseWork : WorkKey := ⟨1, 1, .precise⟩

def preciseUnit : UnitScope :=
  { sampleUnit with
    work := preciseWork
    purpose := .precise
    activeBudgetSeconds := preciseInitialActiveSeconds }

def twoStageLedger : Ledger :=
  ⟨⟨[(sampleWork, .pending), (preciseWork, .pending)], by decide⟩, .empty, .empty, by decide⟩

def fullFidelity (now : ℤ) : Catalog :=
  { sampleCatalog now with
    result := fun id => { (sampleCatalog now).result id with fidelity := some .uransFull } }

def sampleReceipt (job : Uuid) (seconds : ℚ) : EvidenceRow := ⟨job, 0, true, some seconds, "s", none⟩

end XFoilFoam.Progressive
