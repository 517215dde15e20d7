import XFoilFoam.Progressive.Claim

/-! Measured time: heartbeats of a lease, runtime observations of a job and evidence receipts. Each
moves the seconds of an attempt and of its unit together. -/
namespace XFoilFoam.Progressive
set_option autoImplicit false

/-! ## Heartbeats -/

def heldLease (cat : Catalog) (lease : CfdLease) (u : CfdUnit) : Option Lease :=
  match u.state with
  | .leased held =>
    if u.work = lease.work && u.aoaDeg = lease.alpha && held.token = lease.token &&
        held.owner = lease.owner && cat.now < held.expires then some held
    else none
  | _ => none

def acceptsProgress (cat : Catalog) (work : WorkKey) : Bool :=
  (cat.generation work.generationId).planCurrent &&
    (cat.generation work.generationId).status = .active && cat.inEffectiveStage work &&
    (!(cat.generation work.generationId).benchmarkOnly || work.stage = .fast)

def heartbeatRow (cat : Catalog) (lease : CfdLease) (leaseSeconds : ℤ) (seconds total : ℚ)
    (u : CfdUnit) : CfdUnit :=
  { u.setAttempt lease.token fun a => { a with activeSeconds := seconds } with
    activeSeconds := total
    state :=
      if 0 < effectiveBudgetSeconds u - total then
        .leased ⟨lease.token, lease.owner, cat.now + leaseSeconds⟩
      else .blocked none
    error := if 0 < effectiveBudgetSeconds u - total then none else some .stopRequired }

def heartbeatProgressiveCfdUnit (cat : Catalog) (lease : CfdLease) (attemptActiveSeconds : ℚ)
    (leaseSeconds : ℤ) (l : Ledger) : Except String (Ledger × ℚ) :=
  if attemptActiveSeconds < 0 ∨ leaseSeconds < 10 ∨ leaseSeconds > 3600 then
    .error "Invalid measured CFD progress"
  else if !(cat.generation lease.work.generationId).epochCurrent then
    .error "Obsolete CFD calculation epoch"
  else if cat.campaignStatus (cat.generation lease.work.generationId).campaignId ∈
      [CampaignStatus.cancelled, .archived] then
    .error "Campaign no longer accepts CFD progress"
  else
    match l.units.find? lease.id with
    | none => .error "Obsolete or expired CFD work lease"
    | some u =>
      match heldLease cat lease u, u.history.find? lease.token with
      | some _, some a =>
        if a.outcome ≠ .running ∨ !acceptsProgress cat u.work then
          .error "Obsolete or expired CFD work lease"
        else if attemptActiveSeconds < a.activeSeconds then
          .error "Measured active solver time cannot decrease"
        else
          let total := u.activeSeconds + attemptActiveSeconds - a.activeSeconds
          .ok (l.modifyUnit lease.id (heartbeatRow cat lease leaseSeconds attemptActiveSeconds total),
            max 0 (effectiveBudgetSeconds u - total))
      | _, _ => .error "Obsolete or expired CFD work lease"

/-! ## The units of a job -/

/-- A unit of the job as read once, and kept up to date by the loops below. -/
structure BoundUnit where
  token : Uuid
  unitId : Uuid
  aoaDeg : ℚ
  activeSeconds : ℚ
  unitSeconds : ℚ
  effectiveBudgetSeconds : ℚ
  requestedBudgetSeconds : Option ℚ
  budgetGuardConfirmed : Bool
  runtimeActive : Bool

inductive JobScopePolicy
  | strict | runtime | stoppedFailedStorage | storageRecovery
deriving DecidableEq, Repr

/-- What the request of the job and the source classifications say about its units. -/
structure JobScope where
  simJobId : Uuid
  engineJobId : String
  /-- identity, epoch, campaign and token ownership of the job -/
  ownershipCurrent : Bool
  allocation : ℚ → Option ℚ
  retainedDiagnostic : Uuid → Bool
  evidenceAoas : Option (List ℚ)

def isRuntimeProgressActive (u : CfdUnit) (token : Uuid) (a : Attempt) : Bool :=
  u.latest token a && a.outcome = .running &&
    match u.state with
    | .leased _ | .blocked _ => true
    | _ => false

def isRuntimeProgressObsolete (u : CfdUnit) (token : Uuid) (a : Attempt) : Bool :=
  !isRuntimeProgressActive u token a &&
    (!u.latest token a || a.outcome ≠ .running ||
      match u.state with
      | .complete | .gap | .cancelled => true
      | _ => false)

def isStoppedFailedStorage (u : CfdUnit) (token : Uuid) (a : Attempt) : Bool :=
  u.latest token a &&
    match a.outcome, u.state with
    | .failed, .gap | .failed, .pending => true
    | .running, .blocked expires => expires = none
    | .running, .leased lease => lease.token = token && lease.owner = a.owner
    | _, _ => false

def scopeAdmits (cat : Catalog) (scope : JobScope) (policy : JobScopePolicy) (l : Ledger) (u : CfdUnit)
    (token : Uuid) (a : Attempt) : Bool :=
  match policy with
  | .runtime => isRuntimeProgressActive u token a || isRuntimeProgressObsolete u token a
  | .stoppedFailedStorage =>
    !(scope.evidenceAoas.any fun aoas => u.aoaDeg ∈ aoas) || isStoppedFailedStorage u token a
  | .strict =>
    scope.retainedDiagnostic token ||
      a.outcome = .running &&
        match u.state with
        | .leased lease =>
          scope.evidenceAoas.isNone || u.latest token a && lease.token = token
        | .blocked _ => scope.evidenceAoas.isNone || u.latest token a
        | _ => false
  | .storageRecovery =>
    a.outcome ∈ [Outcome.complete, .failed, .cancelled] && l.works.find? u.work = some .pending &&
      match u.state with
      | .leased lease => lease.token = token && lease.expires ≤ cat.now
      | .blocked expires => expires = none
      | .gap | .complete => true
      | _ => false

def boundUnit (scope : JobScope) (id : Uuid) (u : CfdUnit) (token : Uuid) (a : Attempt) : BoundUnit :=
  { token := token, unitId := id, aoaDeg := u.aoaDeg, activeSeconds := a.activeSeconds,
    unitSeconds := u.activeSeconds, effectiveBudgetSeconds := effectiveBudgetSeconds u,
    requestedBudgetSeconds := scope.allocation u.aoaDeg,
    budgetGuardConfirmed := a.evidence.any EvidenceReceipt.budgetGuardExhausted ||
      a.runtime.any fun progress => progress.engineJobId = scope.engineJobId,
    runtimeActive := isRuntimeProgressActive u token a }

def boundRows (scope : JobScope) (l : Ledger) : List (CfdUnit × Attempt × BoundUnit) :=
  l.units.rows.filterMap fun r =>
    (r.2.attemptOf scope.simJobId).map fun attempt =>
      (r.2, attempt.2, boundUnit scope r.1 r.2 attempt.1 attempt.2)

def lockJobScope (cat : Catalog) (scope : JobScope) (policy : JobScopePolicy) (l : Ledger) :
    Except String (List BoundUnit) :=
  let rows := boundRows scope l
  if !scope.ownershipCurrent then .error "Progressive CFD evidence has no exact engine/job ownership"
  else if rows.isEmpty || rows.any (fun r =>
      !(cat.generation r.1.work.generationId).epochCurrent ||
      !(cat.generation r.1.work.generationId).planCurrent ||
      (cat.generation r.1.work.generationId).status ≠ .active || !cat.inEffectiveStage r.1.work ||
      !scopeAdmits cat scope policy l r.1 r.2.2.token r.2.1) then
    .error "Obsolete or settled progressive CFD execution scope"
  else .ok (rows.map fun r => r.2.2)

/-- The attempt and the unit as the loop leaves them, and the copy it goes on with. -/
def BoundUnit.advance (b : BoundUnit) (observed : ℚ) : BoundUnit :=
  { b with
    activeSeconds := max b.activeSeconds observed
    unitSeconds := b.unitSeconds + max b.activeSeconds observed - b.activeSeconds }

def replaceBound (bound : List BoundUnit) (b : BoundUnit) : List BoundUnit :=
  bound.map fun c => if c.unitId = b.unitId then b else c

/-! ## Runtime observations -/

structure ObservedCase where
  aoaDeg : ℚ
  physicalCaseMatches : Bool
  solverActiveSeconds : ℚ
  limitSeconds : ℚ
  signature : String

structure RuntimeObservation where
  observedAt : ℤ
  cases : List ObservedCase

def allocationMatches (b : BoundUnit) (limit : ℚ) : Bool :=
  0 < limit && limit ≤ 43200 && some limit = b.requestedBudgetSeconds &&
    limit ≤ b.effectiveBudgetSeconds - (b.unitSeconds - b.activeSeconds)

inductive RuntimeVerdict
  | changedOwnership | stale | changedReplay | replayed | regressed | fresh
deriving DecidableEq, Repr

def compareRuntime (engineJobId : String) (observedAt : ℤ) (observed : ObservedCase) :
    Option RuntimeProgress → RuntimeVerdict
  | none => .fresh
  | some previous =>
    if previous.engineJobId ≠ engineJobId ∨ previous.limitSeconds ≠ observed.limitSeconds then
      .changedOwnership
    else if observedAt < previous.observedAt then .stale
    else if previous.observedAt = observedAt then
      if previous.observationSignature ≠ observed.signature then .changedReplay else .replayed
    else if observed.solverActiveSeconds < previous.activeSeconds then .regressed
    else .fresh

def runtimeAttempt (progress : RuntimeProgress) (b' : BoundUnit) (a : Attempt) : Attempt :=
  { a with activeSeconds := b'.activeSeconds, runtime := some progress }

def runtimeRow (cat : Catalog) (progress : RuntimeProgress) (b b' : BoundUnit) (u : CfdUnit) : CfdUnit :=
  { u.setAttempt b.token (runtimeAttempt progress b') with
    activeSeconds := b'.unitSeconds
    state :=
      if b.effectiveBudgetSeconds ≤ b'.unitSeconds then .blocked none
      else
        match u.state with
        | .leased lease => .leased { lease with expires := cat.now + 120 }
        | .blocked _ => .blocked (some (cat.now + 120))
        | state => state
    error := if b.effectiveBudgetSeconds ≤ b'.unitSeconds then some .guardOwnsStop else u.error }

def recordRuntimeCase (cat : Catalog) (scope : JobScope) (observedAt : ℤ) (observed : ObservedCase)
    (seen : List ℚ) (l : Ledger) (bound : List BoundUnit) :
    Except String (Ledger × List BoundUnit) :=
  match bound.find? fun b => b.aoaDeg = observed.aoaDeg with
  | none => .error "Runtime budget observation differs from its immutable physical case allocation"
  | some b =>
    if observed.aoaDeg ∈ seen ∨ !observed.physicalCaseMatches ∨ observed.solverActiveSeconds < 0 ∨
        !allocationMatches b observed.limitSeconds then
      .error "Runtime budget observation differs from its immutable physical case allocation"
    else if !b.runtimeActive then .ok (l, bound)
    else
      let stored := ((l.units.find? b.unitId).bind fun u => u.history.find? b.token).bind Attempt.runtime
      match compareRuntime scope.engineJobId observedAt observed stored with
      | .changedOwnership => .error "Runtime budget observation changed its execution ownership"
      | .changedReplay => .error "Runtime budget replay changed its observation"
      | .regressed => .error "Cumulative runtime solver time regressed"
      | .stale | .replayed => .ok (l, bound)
      | .fresh =>
        let progress : RuntimeProgress :=
          ⟨scope.engineJobId, observedAt, observed.solverActiveSeconds, observed.limitSeconds,
            observed.signature⟩
        let b' := b.advance observed.solverActiveSeconds
        .ok (l.modifyUnit b.unitId (runtimeRow cat progress b b'), replaceBound bound b')

def recordRuntimeCases (cat : Catalog) (scope : JobScope) (observedAt : ℤ) :
    List ObservedCase → List ℚ → Ledger → List BoundUnit → Except String Ledger
  | [], _, l, _ => .ok l
  | observed :: rest, seen, l, bound =>
    match recordRuntimeCase cat scope observedAt observed seen l bound with
    | .error e => .error e
    | .ok (l', bound') => recordRuntimeCases cat scope observedAt rest (observed.aoaDeg :: seen) l' bound'

def recordProgressiveCfdRuntimeProgress (cat : Catalog) (scope : JobScope)
    (progress : RuntimeObservation) (l : Ledger) : Except String Ledger :=
  if progress.cases.length > 512 then .error "Invalid exact-job solver budget observation"
  else
    match lockJobScope cat { scope with evidenceAoas := none } .runtime l with
    | .error e => .error e
    | .ok bound => recordRuntimeCases cat scope progress.observedAt progress.cases [] l bound

/-! ## Evidence receipts -/

structure BudgetGuard where
  wellFormed : Bool
  limitSeconds : ℚ
  exhausted : Bool

structure EvidenceRow where
  resultAttemptId : Uuid
  aoaDeg : ℚ
  physicalScopeMatches : Bool
  /-- cumulative solver seconds of the payload, when it is a finite number -/
  duration : Option ℚ
  signature : String
  solverBudget : Option BudgetGuard

def guardMatches (b : BoundUnit) (duration : ℚ) (guard : BudgetGuard) : Bool :=
  guard.wellFormed && allocationMatches b guard.limitSeconds &&
    guard.exhausted = decide (guard.limitSeconds ≤ duration)

def storedReceipt (l : Ledger) (resultAttemptId : Uuid) : Option (Uuid × EvidenceReceipt) :=
  l.units.rows.findSome? fun r => r.2.history.rows.findSome? fun attempt =>
    (attempt.2.evidence.find? fun e => e.resultAttemptId = resultAttemptId).map fun e => (attempt.1, e)

def evidenceAttempt (receipt : Option EvidenceReceipt) (b' : BoundUnit) (a : Attempt) : Attempt :=
  { a with activeSeconds := b'.activeSeconds, evidence := a.evidence ++ receipt.toList }

def evidenceRow (stoppedFailedStorage : Bool) (receipt : Option EvidenceReceipt) (b b' : BoundUnit)
    (u : CfdUnit) : CfdUnit :=
  let exhausted := !stoppedFailedStorage && b.effectiveBudgetSeconds ≤ b'.unitSeconds
  { u.setAttempt b.token (evidenceAttempt receipt b') with
    activeSeconds := b'.unitSeconds
    state := if exhausted then .blocked none else u.state
    error := if exhausted then some .stopRequired else u.error }

def recordEvidenceRow (policy : JobScopePolicy) (row : EvidenceRow) (l : Ledger)
    (bound : List BoundUnit) : Except String (Ledger × List BoundUnit) :=
  match bound.find? fun b => b.aoaDeg = row.aoaDeg with
  | none => .error "CFD evidence differs from the immutable physical/numerical scope"
  | some b =>
    if !row.physicalScopeMatches then
      .error "CFD evidence differs from the immutable physical/numerical scope"
    else
      match row.duration with
      | none => .error "Progressive CFD evidence lacks measured cumulative solver time"
      | some duration =>
        if duration < 0 then .error "Progressive CFD evidence lacks measured cumulative solver time"
        else if row.solverBudget.any fun guard => !guardMatches b duration guard then
          .error "CFD budget acknowledgement differs from its measured immutable case allocation"
        else
          let receipt : EvidenceReceipt :=
            ⟨row.resultAttemptId, row.signature, duration, row.solverBudget.any BudgetGuard.exhausted⟩
          let stored := storedReceipt l row.resultAttemptId
          if stored.any fun kept => kept ≠ (b.token, receipt) then
            .error "CFD evidence replay changed its immutable receipt"
          else
            let b' := { b.advance duration with
              budgetGuardConfirmed := b.budgetGuardConfirmed || receipt.budgetGuardExhausted }
            .ok (l.modifyUnit b.unitId (evidenceRow (policy = .stoppedFailedStorage)
              (if stored.isNone then some receipt else none) b b'), replaceBound bound b')

def recordEvidenceRows (policy : JobScopePolicy) :
    List EvidenceRow → Ledger → List BoundUnit → Except String (Ledger × List BoundUnit)
  | [], l, bound => .ok (l, bound)
  | row :: rest, l, bound =>
    match recordEvidenceRow policy row l bound with
    | .error e => .error e
    | .ok (l', bound') => recordEvidenceRows policy rest l' bound'

/-- The ledger after the receipts, and whether the engine must be told to stop. -/
def recordProgressiveCfdEvidence (cat : Catalog) (scope : JobScope) (policy : JobScopePolicy)
    (rows : List EvidenceRow) (l : Ledger) : Except String (Ledger × Bool) :=
  if rows.length > 2048 then .error "CFD evidence batch exceeds its bounded case scope"
  else
    match lockJobScope cat scope policy l with
    | .error e => .error e
    | .ok bound =>
      match recordEvidenceRows policy rows l bound with
      | .error e => .error e
      | .ok (l', bound') =>
        .ok (l', policy ≠ .stoppedFailedStorage && bound'.any fun b =>
          b.effectiveBudgetSeconds ≤ b.unitSeconds && !b.budgetGuardConfirmed)

end XFoilFoam.Progressive
