import Mathlib.Data.List.Lex
import XFoilFoam.Foundations.JsValue
import XFoilFoam.Foundations.KeyOrder
import XFoilFoam.Progressive.Budget

/-! Claiming units: which unit is offered next, the lease it gets, and the batch of leases that is
composed into one job. -/
namespace XFoilFoam.Progressive
set_option autoImplicit false

structure ClaimCatalog extends Catalog where
  admissionLock : Bool
  sweeperEnabled : Bool
  /-- campaigns that are not locked, by priority, age and id -/
  campaigns : List Uuid
  highAllowed : Uuid → Bool
  mach : Uuid → Option ℚ
  revision : Uuid → Uuid → Uuid
  admitted : Uuid → Uuid → Bool
  cohortInitialized : WorkKey → Bool
  initialCoverageComplete : WorkKey → Bool
  previousExecutionStopped : Uuid → Uuid → Bool
  solverRegistered : Uuid → Bool
  dispatched : Uuid → Bool
  dispatchedTo : Uuid → Uuid → Bool
  stoppedLocalParent : Uuid → Bool
  localStepPolicy : Uuid → Option (Uuid × ℚ)
  localStepRecipe : Recipe → ℚ → Recipe
  locked : Uuid → Bool

structure SameTarget where
  generationId : Uuid
  targetId : Uuid
  recipe : Recipe
  remainingActiveSeconds : ℚ
  recoveryParentJobId : Option Uuid

structure ClaimInput where
  owner : String
  leaseSeconds : ℤ
  requireSweeperEnabled : Bool
  allowedSolverFamilies : Option (List SolverFamily)
  allowPhysicalTime : Bool
  solverBudgetVersion : Option ℕ
  localTimeStepVersion : Option ℕ
  remoteSolverId : Option Uuid
  sameTarget : Option SameTarget

structure CfdLease where
  id : Uuid
  work : WorkKey
  revisionId : Uuid
  alpha : ℚ
  token : Uuid
  owner : String
  recipe : Recipe
  remainingActiveSeconds : ℚ
  recoveryPlan : Option PlanOrdinal
  recoveryParentJobId : Option Uuid
  localStepPolicyId : Option Uuid
  budgetExtension : Option BudgetExtension

/-! ## The row a claim would see -/

def latestPlan (u : CfdUnit) : Option (PlanOrdinal × RecoveryPlan) :=
  match u.verificationPlan with
  | some plan => some (.second, plan)
  | none => u.diagnosisPlan.map fun plan => (.first, plan.2)

def recoveryParent (u : CfdUnit) : Option Uuid := (latestPlan u).map fun plan => plan.2.parentJobId

def eligibleLocalStep (u : CfdUnit) : Bool :=
  u.work.stage = .fast && u.recipe.localPseudoTime && u.recipe.solver = .rhoCentralFoam &&
    (latestPlan u).isNone

def currentLocalStepPolicy (cat : ClaimCatalog) (u : CfdUnit) : Option (Uuid × ℚ) :=
  if eligibleLocalStep u then cat.localStepPolicy u.work.generationId else none

def effectiveRecipe (cat : ClaimCatalog) (u : CfdUnit) : Recipe :=
  match latestPlan u with
  | some plan => plan.2.recipe
  | none =>
    match currentLocalStepPolicy cat u with
    | some policy => cat.localStepRecipe u.recipe policy.2
    | none => u.recipe

def targetFilter (cat : ClaimCatalog) (input : ClaimInput) (u : CfdUnit) : Bool :=
  match input.sameTarget with
  | none => true
  | some same =>
    u.work.generationId = same.generationId && u.work.targetId = same.targetId &&
      effectiveRecipe cat u = same.recipe && recoveryParent u = same.recoveryParentJobId &&
      (input.solverBudgetVersion = some 2 ||
        u.activeBudgetSeconds - u.activeSeconds = same.remainingActiveSeconds)

def familyFilter (cat : ClaimCatalog) (input : ClaimInput) (u : CfdUnit) : Bool :=
  let recipe := effectiveRecipe cat u
  (input.allowedSolverFamilies.all fun families => recipe.solver ∈ families) &&
    (input.localTimeStepVersion = some 1 || recipe.localTimeStepSmoothing = none) &&
    (input.allowPhysicalTime || recipe.solver = .simpleFoam || recipe.solver = .rhoSimpleFoam ||
      recipe.solver = .rhoCentralFoam && recipe.localPseudoTime)

def recoveryOwner (cat : ClaimCatalog) (input : ClaimInput) (u : CfdUnit) : Bool :=
  match input.remoteSolverId with
  | some solver =>
    cat.solverRegistered solver &&
      ((recoveryParent u).all fun parent =>
        cat.dispatchedTo parent solver || cat.stoppedLocalParent parent)
  | none => (recoveryParent u).all fun parent => !cat.dispatched parent

def fastTargetSettled (l : Ledger) (generationId targetId : Uuid) : Bool :=
  let fast := l.units.rows.filter fun r => r.2.work = ⟨generationId, targetId, .fast⟩
  !fast.isEmpty && fast.all fun r => r.2.state = .complete || r.2.state = .gap

def openRow (cat : ClaimCatalog) (input : ClaimInput) (l : Ledger) (u : CfdUnit) : Bool :=
  (cat.generation u.work.generationId).epochCurrent &&
    (cat.generation u.work.generationId).planCurrent &&
    (cat.generation u.work.generationId).status = .active &&
    targetFilter cat input u && familyFilter cat input u && recoveryOwner cat input u &&
    cat.previousExecutionStopped u.work.generationId u.work.targetId &&
    cat.inEffectiveStage u.work && u.work.stage ≠ .baseline &&
    l.works.find? u.work = some .pending &&
    (!(cat.generation u.work.generationId).benchmarkOnly || u.work.stage = .fast) &&
    cat.admitted u.work.generationId u.work.targetId &&
    u.state = .pending && u.activeSeconds < effectiveBudgetSeconds u &&
    (u.retryAfter.all fun time => time ≤ cat.now)

def eligible (cat : ClaimCatalog) (input : ClaimInput) (l : Ledger) (u : CfdUnit) : Bool :=
  openRow cat input l u && attemptAvailable cat.toCatalog l.stops u

/-! ## The order of the offers -/

def nullsFirst (value : Option ℤ) : List ℚ :=
  match value with
  | none => [0, 0]
  | some v => [1, v]

def unitOrder (u : CfdUnit) : List ℚ :=
  (if u.purpose = .initial then 0 else 1) :: nullsFirst u.retryAfter ++
    [(u.ordinal : ℚ), (u.work.targetId : ℚ)]

def generationOrder (cat : ClaimCatalog) (u : CfdUnit) : List ℚ :=
  [((cat.generation u.work.generationId).createdAt : ℚ), (u.work.generationId : ℚ)]

/-- Subsonic targets come before the others, those without a Mach number last. -/
def machOrder (cat : ClaimCatalog) (u : CfdUnit) : List ℚ :=
  match cat.mach u.work.targetId with
  | some mach => if mach < 1 then [0, 0] else [1, mach]
  | none => [2, 0]

/-- While a stage-2 unit can be claimed: extensions first within a generation. -/
def mixedKey (cat : ClaimCatalog) (r : Uuid × CfdUnit) : List ℚ :=
  machOrder cat r.2 ++ generationOrder cat r.2 ++
    [if extensionPending r.2 then 0 else 1, if r.2.work.stage = .precise then 0 else 1] ++ unitOrder r.2

def preciseKey (cat : ClaimCatalog) (r : Uuid × CfdUnit) : List ℚ :=
  machOrder cat r.2 ++ generationOrder cat r.2 ++ unitOrder r.2

def subsonic (cat : ClaimCatalog) (u : CfdUnit) : Bool :=
  (cat.mach u.work.targetId).any fun mach => mach < 1

def preciseRow (cat : ClaimCatalog) (input : ClaimInput) (l : Ledger) (campaign : Uuid)
    (r : Uuid × CfdUnit) : Bool :=
  (cat.generation r.2.work.generationId).campaignId = campaign && openRow cat input l r.2 &&
    r.2.work.stage = .precise && fastTargetSettled l r.2.work.generationId r.2.work.targetId &&
    (r.2.attempts < 2 || attemptAvailable cat.toCatalog l.stops r.2) && !cat.locked r.1

def mixedRow (cat : ClaimCatalog) (input : ClaimInput) (l : Ledger) (campaign : Uuid)
    (r : Uuid × CfdUnit) : Bool :=
  (cat.generation r.2.work.generationId).campaignId = campaign && eligible cat input l r.2 &&
    (r.2.work.stage = .precise || cat.cohortInitialized r.2.work) &&
    (r.2.work.stage ≠ .precise || fastTargetSettled l r.2.work.generationId r.2.work.targetId) &&
    (r.2.purpose ≠ .adaptive || cat.initialCoverageComplete r.2.work) && !cat.locked r.1

def offersWork (cat : ClaimCatalog) (input : ClaimInput) (l : Ledger) (campaign : Uuid) : Bool :=
  l.units.rows.any fun r =>
    (cat.generation r.2.work.generationId).campaignId = campaign && eligible cat input l r.2

def selectCampaign (cat : ClaimCatalog) (input : ClaimInput) (l : Ledger) : Option Uuid :=
  cat.campaigns.find? fun campaign =>
    (cat.campaignStatus campaign = .active || cat.campaignStatus campaign = .attention) &&
      offersWork cat input l campaign

def allStage3 (cat : ClaimCatalog) (input : ClaimInput) (l : Ledger) (campaign : Uuid) : Bool :=
  !l.units.rows.any fun r => (cat.generation r.2.work.generationId).campaignId = campaign &&
    eligible cat input l r.2 && r.2.work.stage = .fast

/-- The rows a claim chooses from, in the order of its query; it takes the first. -/
def candidates (cat : ClaimCatalog) (input : ClaimInput) (l : Ledger) : List (Uuid × CfdUnit) :=
  match selectCampaign cat input l with
  | none => []
  | some campaign =>
    if allStage3 cat input l campaign then
      let low := l.units.rows.filter fun r => preciseRow cat input l campaign r && subsonic cat r.2
      let high := l.units.rows.filter fun r =>
        preciseRow cat input l campaign r && !subsonic cat r.2
      if !low.isEmpty then KeyOrder.sortBy (preciseKey cat) low
      else if cat.highAllowed campaign then KeyOrder.sortBy (preciseKey cat) high
      else []
    else KeyOrder.sortBy (mixedKey cat) (l.units.rows.filter (mixedRow cat input l campaign))

/-! ## The lease -/

def newAttempt (cat : ClaimCatalog) (input : ClaimInput) (u : CfdUnit) : Attempt :=
  { owner := input.owner, startedAt := cat.now, outcome := .running, activeSeconds := 0, error := none,
    simJobId := none, recoveryClaim := (latestPlan u).map Prod.fst, evidence := [], runtime := none }

def claimExtension (token : Uuid) (e : BudgetExtension) : BudgetExtension :=
  if e.state = .pending then { e with state := .claimed token } else e

/-- The unit row after the lease: one attempt more, and whatever the attempt claims with it. -/
def leaseRow (cat : ClaimCatalog) (input : ClaimInput) (token : Uuid) (u : CfdUnit) : CfdUnit :=
  { u with
    state := .leased ⟨token, input.owner, cat.now + input.leaseSeconds⟩
    attempts := u.attempts + 1
    error := if u.retryAfter.isSome then none else u.error
    retryAfter := none
    history := (u.history.insert? token (newAttempt cat input u)).getD u.history
    budgetExtension := u.budgetExtension.map (claimExtension token)
    publicationClaim :=
      if publicationRecoveryAvailable u then some token else u.publicationClaim }

def remainingActiveSeconds (u : CfdUnit) : ℚ :=
  let remaining := effectiveBudgetSeconds u - u.activeSeconds
  match u.budgetExtension with
  | some e => if e.state = .pending then min remaining e.extensionSeconds else remaining
  | none => remaining

def leaseOf (cat : ClaimCatalog) (input : ClaimInput) (token id : Uuid) (u : CfdUnit) : CfdLease :=
  { id := id, work := u.work, revisionId := cat.revision u.work.generationId u.work.targetId,
    alpha := u.aoaDeg, token := token, owner := input.owner, recipe := effectiveRecipe cat u,
    remainingActiveSeconds := remainingActiveSeconds u, recoveryPlan := (latestPlan u).map Prod.fst,
    recoveryParentJobId := recoveryParent u,
    localStepPolicyId := (currentLocalStepPolicy cat u).map Prod.fst,
    budgetExtension := u.budgetExtension.filter fun e => e.state = .pending }

def claimProgressiveCfdUnit (cat : ClaimCatalog) (input : ClaimInput) (token : Uuid) (l : Ledger) :
    Except String (Option (Ledger × CfdLease)) :=
  if input.owner.toList.all jsWhitespace || input.leaseSeconds < 10 || input.leaseSeconds > 3600 then
    .error "Invalid bounded CFD lease request"
  else if input.allowedSolverFamilies = some [] then .ok none
  else if input.requireSweeperEnabled && !cat.sweeperEnabled then .ok none
  else
    match (candidates cat input l).head? with
    | none => .ok none
    | some (id, u) =>
      -- the primary key of the attempts, and the unique index on running ones
      if l.tokenUsed token || u.history.rows.any fun r => r.2.outcome = .running then
        .error "duplicate key value violates unique constraint"
      else .ok (some (l.modifyUnit id (leaseRow cat input token), leaseOf cat input token id u))

/-! ## Batches -/

def maxPreciseCfdBatchUnits : ℕ := 8

def progressiveCfdBatchMaximum (stage : Stage) : ℤ :=
  if stage = .precise then maxPreciseCfdBatchUnits else 64

def sameTargetAs (input : ClaimInput) (first : CfdLease) : ClaimInput :=
  { input with
    sameTarget := some ⟨first.work.generationId, first.work.targetId, first.recipe,
      first.remainingActiveSeconds, first.recoveryParentJobId⟩ }

/-- The rest of a batch: one claim after the other until nothing is offered, the batch is full, or an
extension was claimed. -/
def claimRest (cat : ClaimCatalog) (input : ClaimInput) (tokens : ℕ → Uuid) :
    ℕ → ℕ → Ledger → Except String (Ledger × List CfdLease)
  | 0, _, l => .ok (l, [])
  | n + 1, i, l =>
    match claimProgressiveCfdUnit cat input (tokens i) l with
    | .error e => .error e
    | .ok none => .ok (l, [])
    | .ok (some (l', next)) =>
      if next.budgetExtension.isSome then .ok (l', [next])
      else
        match claimRest cat input tokens n (i + 1) l' with
        | .error e => .error e
        | .ok (l'', rest) => .ok (l'', next :: rest)

def claimProgressiveCfdBatch (cat : ClaimCatalog) (input : ClaimInput) (maximumUnits : Option ℤ)
    (tokens : ℕ → Uuid) (l : Ledger) : Except String (Ledger × List CfdLease) :=
  if !cat.admissionLock then .ok (l, [])
  else
    match claimProgressiveCfdUnit cat { input with sameTarget := none } (tokens 0) l with
    | .error e => .error e
    | .ok none => .ok (l, [])
    | .ok (some (l', first)) =>
      let maximum := maximumUnits.getD (progressiveCfdBatchMaximum first.work.stage)
      if maximum < 1 ∨ maximum > 512 then .error "Invalid bounded CFD batch size"
      else if first.budgetExtension.isSome then .ok (l', [first])
      else
        match claimRest cat (sameTargetAs input first) tokens (maximum.toNat - 1) 1 l' with
        | .error e => .error e
        | .ok (l'', rest) =>
          .ok (l'', KeyOrder.sortBy CfdLease.alpha (first :: rest))

/-! ## What composition checks about a batch -/

structure ComposeInput where
  cpuSlots : ℤ
  meshRecoveryVersion : ℤ
  uransRecoveryVersion : Option ℤ
  solverBudgetVersion : Option ℤ
  localTimeStepVersion : Option ℤ
  /-- read in the transaction -/
  sweeperEnabled : Bool
  /-- why the engine request of a new job could not be built -/
  requestError : Option String

def continuationAlone (leases : List CfdLease) : Bool :=
  match leases with
  | [] => true
  | first :: _ =>
    (leases.all fun lease => lease.budgetExtension.isSome = first.budgetExtension.isSome) &&
      (first.budgetExtension.isNone || leases.length = 1)

def sharesTargetAndRecipe (leases : List CfdLease) : Bool :=
  match leases with
  | [] => true
  | first :: _ =>
    decide (leases.map CfdLease.id).Nodup && decide (leases.map CfdLease.alpha).Nodup &&
      leases.all fun lease =>
        lease.work = first.work && lease.revisionId = first.revisionId &&
          lease.recoveryParentJobId = first.recoveryParentJobId && lease.recipe = first.recipe

def composeBatchChecks (input : ComposeInput) (leases : List CfdLease) : Except String Unit :=
  if leases.isEmpty || leases.length > 512 || input.cpuSlots < 1 || input.meshRecoveryVersion < 0 then
    .error "Invalid CFD batch composition"
  else if !continuationAlone leases ||
      (leases.any fun lease => lease.budgetExtension.isSome) &&
        !input.uransRecoveryVersion.any fun version => 2 ≤ version then
    .error "Progressive continuation must be one exact capable case"
  else if (leases.any fun lease => lease.recipe.localTimeStepSmoothing.isSome) &&
      input.localTimeStepVersion ≠ some 1 then
    .error "Progressive CFD composition requires a known local-time-step capability"
  else if input.solverBudgetVersion ≠ some 2 then
    .error "Progressive CFD composition requires a known solver-budget capability"
  else if leases.any fun lease =>
      lease.remainingActiveSeconds ≤ 0 || 43200 < lease.remainingActiveSeconds then
    .error "CFD batch requires finite positive case allocations"
  else if !sharesTargetAndRecipe leases then
    .error "CFD batch must share one immutable physical target and numerical recipe"
  else .ok ()

end XFoilFoam.Progressive
