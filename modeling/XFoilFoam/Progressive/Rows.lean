import Mathlib.Data.Rat.Defs
import Mathlib.Algebra.Order.Ring.Rat
import XFoilFoam.Foundations.Table

/-! The progressive CFD ledger: units of work, the attempts made at them, their budget extensions,
recovery plans and stop proofs. Rows that belong to one unit (its attempts with their receipts, its
extension, its plans) are kept with the unit; rows that a job shares are tables of their own. -/
namespace XFoilFoam.Progressive
set_option autoImplicit false

abbrev Uuid := ℕ

inductive Stage
  | baseline | fast | precise
deriving DecidableEq, Repr

inductive Purpose
  | initial | adaptive | precise
deriving DecidableEq, Repr

inductive Outcome
  | running | complete | failed | expired | cancelled
deriving DecidableEq, Repr

inductive WorkState
  | pending | leased | complete | gap
deriving DecidableEq, Repr

inductive OwnershipBasis
  | recordedExecutionNamespace | neverStartedCancellationFence
deriving DecidableEq, Repr

inductive SolverFamily
  | simpleFoam | pimpleFoam | rhoSimpleFoam | rhoPimpleFoam | rhoCentralFoam
deriving DecidableEq, Repr

/-! ## Texts written to the error columns -/

inductive Reason
  | stopAfterExpiry | staleLease | obsolete | continuation | preciseVerification | ransDiagnosis
  | neverStarted | infrastructure | budgetExhausted | unstartedExhausted | noMeasuredEvidence
  | preciseUnresolved | fastUninformative | unboundExpired | unboundExhausted | inactiveRemote
  | inactiveRetry | terminalRetry | staleHzReset | disappeared | promiseInactive | campaignStopped
  | stopRequired | guardOwnsStop | lostPublication
deriving DecidableEq, Repr

def Reason.text : Reason → String
  | stopAfterExpiry => "Physical stop acknowledged after the execution lease expired"
  | staleLease => "Terminal progressive execution released a stale unit lease"
  | obsolete => "obsolete execution physically stopped"
  | continuation => "bounded URANS budget continuation admitted"
  | preciseVerification => "accepted preliminary URANS; bounded precise verification admitted"
  | ransDiagnosis => "stored RANS diagnosis; bounded immutable URANS recovery admitted"
  | neverStarted => "engine proved submission never started; bounded retry admitted"
  | infrastructure => "diagnosed infrastructure failure; bounded retry admitted"
  | budgetExhausted => "active compute budget exhausted"
  | unstartedExhausted => "unstarted submission retry budget exhausted or history incomplete"
  | noMeasuredEvidence => "terminal execution has no measured case evidence"
  | preciseUnresolved => "precise evidence remains unresolved"
  | fastUninformative => "fast pass has no informative accepted evidence"
  | unboundExpired => "unbound claim expired before engine submission"
  | unboundExhausted => "bounded unbound claim retries exhausted"
  | inactiveRemote => "Inactive remote delivery has unresolved evidence"
  | inactiveRetry => "Retrying after inactive remote delivery"
  | terminalRetry => "Retrying after terminal execution without measurable case evidence"
  | staleHzReset => "Stale HZ remote execution released during disposable solver reset"
  | disappeared =>
      "Engine execution disappeared after cancellation without stored solver evidence"
  | promiseInactive =>
      "Scheduling promise became inactive before evidence delivery; retained reports remain unresolved"
  | campaignStopped => "campaign stopped, plan superseded or calculation epoch replaced"
  | stopRequired => "active compute budget exhausted; execution stop acknowledgement required"
  | guardOwnsStop => "active compute budget exhausted; engine guard owns case stop"
  | lostPublication => "One corrective retry for lost publication; prior measured budget retained"

/-! ## Rows -/

structure Recipe where
  json : String
  solver : SolverFamily
  localTimeStepSmoothing : Option ℚ
  localPseudoTime : Bool
deriving DecidableEq, Repr

/-- One generation works at one target in one stage at most once. -/
structure WorkKey where
  generationId : Uuid
  targetId : Uuid
  stage : Stage
deriving DecidableEq, Repr

structure EvidenceReceipt where
  resultAttemptId : Uuid
  evidenceSignature : String
  solverActiveSeconds : ℚ
  budgetGuardExhausted : Bool
deriving DecidableEq, Repr

structure RuntimeProgress where
  engineJobId : String
  observedAt : ℤ
  activeSeconds : ℚ
  limitSeconds : ℚ
  observationSignature : String
deriving DecidableEq, Repr

inductive PlanOrdinal
  | first | second
deriving DecidableEq, Repr

structure Attempt where
  owner : String
  startedAt : ℤ
  outcome : Outcome
  activeSeconds : ℚ
  error : Option Reason
  simJobId : Option Uuid
  recoveryClaim : Option PlanOrdinal
  evidence : List EvidenceReceipt
  runtime : Option RuntimeProgress
deriving DecidableEq, Repr

/-- A claimed extension names the attempt that claimed it, a pending one names none. -/
inductive ExtensionState
  | pending
  | claimed (token : Uuid)
  | consumed (token : Uuid)
  | exhausted (token : Uuid)
deriving DecidableEq, Repr

structure BudgetExtension where
  sourceAttemptToken : Uuid
  sourceResultAttemptId : Uuid
  extensionSeconds : ℚ
  state : ExtensionState
  secondsBounded : 0 < extensionSeconds ∧ extensionSeconds ≤ 43200
deriving DecidableEq, Repr

inductive DiagnosisReason
  | hardSolver | needsUrans | materialDomain
deriving DecidableEq, Repr

structure RecoveryPlan where
  parentAttemptToken : Uuid
  parentJobId : Uuid
  recipe : Recipe
deriving DecidableEq, Repr

structure PublicationRecovery where
  attemptsBefore : ℕ
  activeSeconds : ℚ
deriving DecidableEq, Repr

structure Lease where
  token : Uuid
  owner : String
  expires : ℤ
deriving DecidableEq, Repr

/-- All lease columns are set exactly while the unit is leased; an observation may leave an expiry on a
blocked unit. -/
inductive UnitState
  | pending
  | leased (lease : Lease)
  | blocked (expires : Option ℤ)
  | complete
  | gap
  | cancelled
deriving DecidableEq, Repr

/-- The columns a trigger keeps from ever changing. -/
structure UnitScope where
  work : WorkKey
  aoaDeg : ℚ
  ordinal : ℕ
  purpose : Purpose
  recipe : Recipe
  policyVersion : String
  activeBudgetSeconds : ℚ
deriving DecidableEq, Repr

structure CfdUnit extends UnitScope where
  activeSeconds : ℚ
  state : UnitState
  retryAfter : Option ℤ
  attempts : ℕ
  error : Option Reason
  history : Table Uuid Attempt
  budgetExtension : Option BudgetExtension
  diagnosisPlan : Option (DiagnosisReason × RecoveryPlan)
  verificationPlan : Option RecoveryPlan
  publicationRecovery : Option PublicationRecovery
  publicationClaim : Option Uuid
deriving DecidableEq

def UnitScope.fresh (scope : UnitScope) : CfdUnit :=
  { toUnitScope := scope, activeSeconds := 0, state := .pending, retryAfter := none, attempts := 0,
    error := none, history := .empty, budgetExtension := none, diagnosisPlan := none,
    verificationPlan := none, publicationRecovery := none, publicationClaim := none }

structure StopProof where
  engineJobId : String
  ownershipBasis : Option OwnershipBasis
deriving DecidableEq, Repr

/-- The tables, with the unique index on the angles of one work. -/
structure Ledger where
  works : Table WorkKey WorkState
  units : Table Uuid CfdUnit
  stops : Table Uuid StopProof
  anglesUnique : (units.rows.map fun r => (r.2.work, r.2.aoaDeg)).Nodup
deriving DecidableEq

namespace CfdUnit

def leaseToken (u : CfdUnit) : Option Uuid :=
  match u.state with
  | .leased lease => some lease.token
  | _ => none

/-- The attempt of a unit that a job executes; a unique index allows one for each job. -/
def attemptOf (u : CfdUnit) (job : Uuid) : Option (Uuid × Attempt) :=
  u.history.rows.find? fun r => r.2.simJobId = some job

def latest (u : CfdUnit) (token : Uuid) (a : Attempt) : Bool :=
  u.history.rows.all fun r =>
    r.2.startedAt < a.startedAt || (r.2.startedAt = a.startedAt && decide (r.1 ≤ token))

def setAttempt (u : CfdUnit) (token : Uuid) (f : Attempt → Attempt) : CfdUnit :=
  { u with history := u.history.modify token f }

end CfdUnit

/-! ## Writing unit rows -/

def keepScope (f : Uuid → CfdUnit → CfdUnit) (id : Uuid) (u : CfdUnit) : CfdUnit :=
  { f id u with toUnitScope := u.toUnitScope }

def Ledger.mapUnits (l : Ledger) (f : Uuid → CfdUnit → CfdUnit) : Ledger :=
  { l with
    units := l.units.map (keepScope f)
    anglesUnique := by
      have h := l.anglesUnique
      simp only [Table.map, List.map_map]
      exact h }

def Ledger.modifyUnit (l : Ledger) (id : Uuid) (f : CfdUnit → CfdUnit) : Ledger :=
  l.mapUnits fun id' u => if id' = id then f u else u

def Ledger.insertUnit? (l : Ledger) (id : Uuid) (scope : UnitScope) : Option Ledger :=
  match l.units.insert? id scope.fresh with
  | none => none
  | some units =>
    if h : (units.rows.map fun r => (r.2.work, r.2.aoaDeg)).Nodup then
      some { l with units := units, anglesUnique := h }
    else none

def Ledger.setWork (l : Ledger) (work : WorkKey) (f : WorkState → WorkState) : Ledger :=
  { l with works := l.works.modify work f }

def Ledger.tokenUsed (l : Ledger) (token : Uuid) : Bool :=
  l.units.rows.any fun r => (r.2.history.find? token).isSome

@[simp] theorem Ledger.mapUnits_stops (l : Ledger) (f : Uuid → CfdUnit → CfdUnit) :
    (l.mapUnits f).stops = l.stops := rfl

@[simp] theorem Ledger.find?_mapUnits (l : Ledger) (f : Uuid → CfdUnit → CfdUnit) (id : Uuid) :
    (l.mapUnits f).units.find? id = (l.units.find? id).map (keepScope f id) :=
  Table.find?_map _ _ _

@[simp] theorem Ledger.setWork_units (l : Ledger) (work : WorkKey) (f : WorkState → WorkState) :
    (l.setWork work f).units = l.units := rfl

@[simp] theorem Ledger.setWork_stops (l : Ledger) (work : WorkKey) (f : WorkState → WorkState) :
    (l.setWork work f).stops = l.stops := rfl

theorem Ledger.insertUnit?_units {l l' : Ledger} {id : Uuid} {scope : UnitScope}
    (h : l.insertUnit? id scope = some l') :
    l.units.insert? id scope.fresh = some l'.units ∧ l'.stops = l.stops := by
  unfold Ledger.insertUnit? at h
  cases hins : l.units.insert? id scope.fresh with
  | none => simp [hins] at h
  | some units =>
    simp only [hins] at h
    split at h
    · cases h
      exact ⟨rfl, rfl⟩
    · cases h

end XFoilFoam.Progressive
