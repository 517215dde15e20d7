import XFoilFoam.Ladder.RequestHealing
import Mathlib.Data.List.Sort

/-! The rows of `sim_urans_requests` with the cells they stand for, and the calls that create a request, claim it, give
it back, heal it or reopen it.  The partial unique index over the open rows is a field of the table. -/
namespace XFoilFoam.Ladder
open Sweeper (SimJobStatus)
open Precalc (ObligationState liveStatus)
open Progressive (CampaignStatus)
set_option autoImplicit false

/-! ## Rows -/

def UransRequest.isOpen (r : UransRequest) : Bool := decide (r.state = .pending) || decide (r.state = .running)

/-- A request without an angle is for the whole polar. -/
structure SimUransRequest extends UransRequest where
  airfoilId : String
  revisionId : String
  aoaDeg : Option ℚ
  continueFromResultId : Option String
  continueFromResultAttemptId : Option String
  budgetOverrideS : Option ℤ
  requestedBy : Option String
  submitRetry : Option SubmitRetry
  createdAt : ℕ

/-- What a row is for; no statement changes it. -/
def SimUransRequest.cell (r : SimUransRequest) : String × String × UransFidelity × Option ℚ :=
  (r.airfoilId, r.revisionId, r.fidelity, r.aoaDeg)

/-- `sim_urans_requests_open_cell_uq`, where no angle counts as one more value. -/
def OpenCellUq (t : Table String SimUransRequest) : Prop :=
  ∀ x ∈ t.rows, ∀ y ∈ t.rows, x.2.isOpen = true → y.2.isOpen = true → x.2.cell = y.2.cell → x.1 = y.1

instance (t : Table String SimUransRequest) : Decidable (OpenCellUq t) := by
  unfold OpenCellUq
  infer_instance

structure RequestTable where
  table : Table String SimUransRequest
  openCellUq : OpenCellUq table

/-- A row of `sim_precalc_obligations`. -/
structure ObligationCell where
  airfoilId : String
  revisionId : String
  aoaDeg : ℚ
  state : ObligationState

/-- A row of `sim_urans_verify_queue`. -/
structure QueueCell where
  airfoilId : String
  revisionId : String
  aoaDeg : ℚ
  state : QueueState

/-- `coverage` and `finalCoverage` are `sim_precalc_obligation_requests` and `sim_urans_verify_queue_requests`, request
first. -/
structure RequestBook where
  now : ℕ
  campaigns : Table String CampaignStatus
  requests : RequestTable
  jobs : Table String LadderJob
  obligations : Table String ObligationCell
  coverage : List (String × String)
  queue : Table String QueueCell
  finalCoverage : List (String × String)

inductive RequestError where
  | continuationPair
  | coverageConflict (conflictingRequestIds : List String)
  | terminalConflict (obligations : List (String × ℚ × ObligationState))
  | openCellTaken
  | idTaken
  deriving DecidableEq

def RequestError.message : RequestError → String
  | .continuationPair => "continuation requests require both the stable result id and exact result-attempt id"
  | .coverageConflict _ => "a whole-polar URANS request overlaps one or more open exact-angle requests"
  | .terminalConflict _ =>
    "preliminary work for this immutable setup is already terminal; request a new setup revision or full-fidelity " ++
      "verification"
  | .openCellTaken => "duplicate key value violates unique constraint \"sim_urans_requests_open_cell_uq\""
  | .idTaken => "duplicate key value violates unique constraint \"sim_urans_requests_pkey\""

namespace RequestBook

def rows (b : RequestBook) : List (String × SimUransRequest) := b.requests.table.rows

def find? (b : RequestBook) (requestId : String) : Option SimUransRequest := b.requests.table.find? requestId

/-- The rows that a statement leaves, unless the index refuses them. -/
def putRequests (b : RequestBook) (t : Table String SimUransRequest) : Except RequestError RequestBook :=
  if h : OpenCellUq t then .ok { b with requests := ⟨t, h⟩ } else .error .openCellTaken

def store (b : RequestBook) : RequestStore where
  now := b.now
  campaigns := b.campaigns
  requests := b.requests.table.retype SimUransRequest.toUransRequest
  jobs := b.jobs
  obligations := b.obligations.retype ObligationCell.state
  coverage := b.coverage

def runStatement (b : RequestBook) (statement : RequestStore → RequestStore) : Except RequestError RequestBook :=
  let s := statement b.store
  { b with jobs := s.jobs }.putRequests (b.requests.table.map fun requestId r =>
    match s.requests.find? requestId with
    | some healed => { r with toUransRequest := healed }
    | none => r)

/-! ## Creating -/

structure CreateInput where
  airfoilId : String
  revisionId : String
  aoaDeg : Option ℚ
  fidelity : UransFidelity
  requestedBy : Option String
  continueFromResultId : Option String
  continueFromResultAttemptId : Option String
  budgetOverrideS : Option ℤ

namespace CreateInput

/-- `Boolean(id)`. -/
def given (id : Option String) : Bool := id.any fun text => text != ""

def resumesOther (input : CreateInput) (r : SimUransRequest) : Bool :=
  input.continueFromResultId.isSome &&
    (decide (r.continueFromResultId ≠ input.continueFromResultId) ||
      decide (r.continueFromResultAttemptId ≠ input.continueFromResultAttemptId))

def inserted (input : CreateInput) (now : ℕ) : SimUransRequest where
  airfoilId := input.airfoilId
  revisionId := input.revisionId
  aoaDeg := input.aoaDeg
  fidelity := input.fidelity
  state := .pending
  backgroundOwner := true
  owners := []
  simJobId := none
  requestedBy := input.requestedBy
  continueFromResultId := input.continueFromResultId
  continueFromResultAttemptId := input.continueFromResultAttemptId
  budgetOverrideS := input.budgetOverrideS
  submitRetry := none
  createdAt := now
  updatedAt := now

end CreateInput

def terminalObligations (b : RequestBook) (input : CreateInput) : List (String × ObligationCell) :=
  (b.obligations.rows.filter fun row =>
    decide (row.2.airfoilId = input.airfoilId) && decide (row.2.revisionId = input.revisionId) &&
      input.aoaDeg.all (fun aoaDeg => decide (row.2.aoaDeg = aoaDeg)) &&
      decide (row.2.state ∈ [ObligationState.blocked, .satisfied])).insertionSort fun x y => x.2.aoaDeg ≤ y.2.aoaDeg

def openRequests (b : RequestBook) (airfoilId revisionId : String) (fidelity : UransFidelity) :
    List (String × SimUransRequest) :=
  (b.rows.filter fun row =>
    decide (row.2.airfoilId = airfoilId) && decide (row.2.revisionId = revisionId) &&
      decide (row.2.fidelity = fidelity) && row.2.isOpen).insertionSort fun x y => x.2.createdAt ≤ y.2.createdAt

def wholePolar (row : String × SimUransRequest) : Bool := decide (row.2.aoaDeg = none)

def covering (aoaDeg : Option ℚ) (opened : List (String × SimUransRequest)) :
    Except RequestError (Option (String × SimUransRequest)) :=
  match aoaDeg with
  | none =>
    match opened.find? wholePolar with
    | some row => .ok (some row)
    | none => if opened.isEmpty then .ok none else .error (.coverageConflict (opened.map Prod.fst))
  | some aoaDeg => .ok ((opened.find? wholePolar).or (opened.find? fun row => decide (row.2.aoaDeg = some aoaDeg)))

/-- The row lock on the covering request makes the promotion find it open, so that the loop ends in its first round. -/
def promote (b : RequestBook) (requestId : String) : Except RequestError RequestBook :=
  b.putRequests (b.requests.table.modify requestId fun r =>
    if r.isOpen then { r with backgroundOwner := true, updatedAt := b.now } else r)

def insertRequest (b : RequestBook) (newId : String) (r : SimUransRequest) : Except RequestError RequestBook :=
  match b.requests.table.insert? newId r with
  | none => .error .idTaken
  | some t => b.putRequests t

/-- The request that is returned, and whether this call created it. -/
def createUransRequest (b : RequestBook) (newId : String) (input : CreateInput) :
    Except RequestError (RequestBook × String × Bool) :=
  if CreateInput.given input.continueFromResultId ≠ CreateInput.given input.continueFromResultAttemptId then
    .error .continuationPair
  else
    let terminal := b.terminalObligations input
    if input.fidelity = .precalc ∧ terminal ≠ [] then
      .error (.terminalConflict (terminal.map fun row => (row.1, row.2.aoaDeg, row.2.state)))
    else
      match covering input.aoaDeg (b.openRequests input.airfoilId input.revisionId input.fidelity) with
      | .error e => .error e
      | .ok (some row) =>
        if input.resumesOther row.2 then .ok (b, row.1, false)
        else (b.promote row.1).map fun b' => (b', row.1, false)
      | .ok none => (b.insertRequest newId (input.inserted b.now)).map fun b' => (b', newId, true)

/-! ## Claiming and releasing -/

structure PendingUransRequestScope where
  requestIds : Option (List String)
  fidelity : Option UransFidelity

def submitRetryHolds (b : RequestBook) (r : SimUransRequest) : Bool :=
  r.submitRetry.any fun retry =>
    decide (retry.state = .blocked) || retry.nextAttemptAt.any (fun due => decide (b.now < due))

def claimable (b : RequestBook) (scope : PendingUransRequestScope) (requestId : String) (r : SimUransRequest) : Bool :=
  decide (r.state = .pending) && RequestStore.inRequestScope scope.requestIds requestId &&
    scope.fidelity.all (fun fidelity => decide (r.fidelity = fidelity)) &&
    (decide (r.fidelity = .full) || !b.submitRetryHolds r) &&
    (r.backgroundOwner || ownedBy b.campaigns (campaignStates false) r.owners)

def claimNextPendingUransRequest (b : RequestBook) (scope : PendingUransRequestScope) :
    Except RequestError RequestBook :=
  match (b.rows.filter fun row => b.claimable scope row.1 row.2).argmin fun row => row.2.createdAt with
  | none => .ok b
  | some candidate =>
    b.putRequests (b.requests.table.modify candidate.1 fun r =>
      { r with state := .running, simJobId := none, updatedAt := b.now })

def releaseClaimedUransRequest (b : RequestBook) (requestId : String) : Except RequestError RequestBook :=
  b.putRequests (b.requests.table.modify requestId fun r =>
    if r.state = .running then
      { r with state := b.store.claimReleaseState r.toUransRequest, simJobId := none, updatedAt := b.now }
    else r)

/-! ## Full requests, from the ledgers of their points -/

def ownerLive (b : RequestBook) (r : SimUransRequest) : Bool :=
  r.backgroundOwner || ownedBy b.campaigns (campaignStates true) r.owners

def finalRows (b : RequestBook) (requestId : String) : List QueueCell :=
  b.finalCoverage.filterMap fun row => if row.1 = requestId then b.queue.find? row.2 else none

def hasFinal (b : RequestBook) (requestId : String) (o : ObligationCell) : Bool :=
  (b.finalRows requestId).any fun q =>
    decide (q.airfoilId = o.airfoilId) && decide (q.revisionId = o.revisionId) && decide (q.aoaDeg = o.aoaDeg)

def preliminaryRows (b : RequestBook) (requestId : String) : List ObligationCell :=
  (b.coverage.filterMap fun row => if row.1 = requestId then b.obligations.find? row.2 else none).filter fun o =>
    !b.hasFinal requestId o

def fullUransRequestStateFromCoverage (b : RequestBook) (requestId : String) (r : SimUransRequest) : RequestState :=
  let preliminary := (b.preliminaryRows requestId).map ObligationCell.state
  let final := (b.finalRows requestId).map QueueCell.state
  if !b.ownerLive r then .cancelled
  else if preliminary.any (fun state => decide (state ∈ [ObligationState.pending, .running])) then .pending
  else if final.any (fun state => decide (state ∈ [QueueState.pending, .running])) then .running
  else if preliminary.contains .blocked || final.contains .blocked then .blocked
  else if !preliminary.isEmpty then .pending
  else if !final.isEmpty && final.all (fun state => decide (state ∈ [QueueState.done, .disagreed])) then .done
  else .pending

def activePhysicalJob (b : RequestBook) (requestId : String) (r : SimUransRequest) : Option String :=
  if b.fullUransRequestStateFromCoverage requestId r = .pending then
    r.simJobId.filter fun jobId => (b.jobs.find? jobId).any fun job => liveStatus job.status
  else none

def projectedState (b : RequestBook) (requestId : String) (r : SimUransRequest) : RequestState :=
  if (b.activePhysicalJob requestId r).isSome then .running else b.fullUransRequestStateFromCoverage requestId r

def refreshed (b : RequestBook) (requestId : String) (r : SimUransRequest) : SimUransRequest :=
  if r.state ≠ b.projectedState requestId r ∨ r.simJobId ≠ b.activePhysicalJob requestId r then
    { r with
      state := b.projectedState requestId r
      simJobId := b.activePhysicalJob requestId r
      updatedAt := b.now }
  else r

def refreshFullUransRequestStateInTransaction (b : RequestBook) (requestId : String) :
    Except RequestError RequestBook :=
  b.putRequests (b.requests.table.modify requestId fun r =>
    if r.fidelity = .full ∧ r.state ≠ .cancelled then b.refreshed requestId r else r)

/-! ## Healing -/

def fullRequestIds (b : RequestBook) (requestIds : Option (List String)) : List String :=
  ((b.rows.filter fun row =>
    decide (row.2.fidelity = .full) && decide (row.2.state ≠ .cancelled) &&
      RequestStore.inRequestScope requestIds row.1).map Prod.fst).insertionSort fun x y => x ≤ y

def refreshAll (b : RequestBook) : List String → Except RequestError RequestBook
  | [] => .ok b
  | requestId :: requestIds =>
    match b.refreshFullUransRequestStateInTransaction requestId with
    | .error e => .error e
    | .ok b' => refreshAll b' requestIds

def healStatements (requestIds : Option (List String)) (choice : JoinChoice) : List (RequestStore → RequestStore) :=
  [fun s => s.cancelOwnerlessRequests requestIds, fun s => s.settleTerminalRequests requestIds choice,
    fun s => s.cancelOrphanedCompositions requestIds, fun s => s.returnOrphanedRequests requestIds]

def runStatements (b : RequestBook) : List (RequestStore → RequestStore) → Except RequestError RequestBook
  | [] => .ok b
  | statement :: statements =>
    match b.runStatement statement with
    | .error e => .error e
    | .ok b' => runStatements b' statements

def healOrphanedUransRequests (b : RequestBook) (requestIds : Option (List String)) (choice : JoinChoice) :
    Except RequestError RequestBook :=
  match b.runStatements (healStatements requestIds choice) with
  | .error e => .error e
  | .ok b' => b'.refreshAll (b'.fullRequestIds requestIds)

/-! ## Reopening -/

/-- The obligations that the repair puts back; `chosen` are those that pass its other conditions. -/
def reopenObligations (b : RequestBook) (chosen : List String) : List String :=
  chosen.filter fun id => (b.obligations.find? id).any fun o => decide (o.state = .blocked)

/-- The `WHERE` of the update of the requests.  It does not ask what is open by now. -/
def reopensRequest (b : RequestBook) (reopenedIds : List String) (requestId : String) (r : SimUransRequest) : Bool :=
  decide (r.state = .blocked) && b.ownerLive r &&
    b.coverage.any fun row => decide (row.1 = requestId) && decide (row.2 ∈ reopenedIds)

/-- The end of `requeueRestartablePrecalcContinuations`: obligations, then the requests that cover them. -/
def requeueRestartablePrecalcContinuations (b : RequestBook) (chosen : List String) :
    Except RequestError RequestBook :=
  let reopenedIds := b.reopenObligations chosen
  { b with
    obligations := b.obligations.map fun id o => if id ∈ reopenedIds then { o with state := .pending } else o
      }.putRequests (b.requests.table.map fun requestId r =>
        if b.reopensRequest reopenedIds requestId r then
          { r with state := .pending, simJobId := none, updatedAt := b.now }
        else r)

end RequestBook

end XFoilFoam.Ladder
