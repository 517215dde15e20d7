import XFoilFoam.Precalc.Rows
import XFoilFoam.Progressive.Budget
import Mathlib.Data.List.MinMax

/-! `sim_urans_verify_queue`, the queue of final verifications, and the statements that claim its items, bind them to a
job, submit that job, release a claim and heal what a dead sweeper left behind.  Times are in milliseconds. -/
namespace XFoilFoam.Ladder
open Sweeper (SimJobStatus)
open Precalc (liveStatus)
open Progressive (CampaignStatus)
set_option autoImplicit false

/-! ## Owners -/

inductive UransFidelity where
  | precalc
  | full
  deriving DecidableEq, Repr

inductive RequestState where
  | pending
  | running
  | done
  | blocked
  | cancelled
  deriving DecidableEq, Repr

/-- A row of `sim_urans_verify_queue_campaigns` or of `sim_urans_request_campaigns`. -/
structure Ownership where
  campaignId : String
  active : Bool

/-- A row of `sim_urans_verify_queue_requests` with the request it names. -/
structure OwningRequest where
  fidelity : UransFidelity
  state : RequestState
  backgroundOwner : Bool
  owners : List Ownership

namespace OwningRequest

def openFull (r : OwningRequest) : Bool :=
  decide (r.fidelity = .full) && (decide (r.state = .pending) || decide (r.state = .running))

end OwningRequest

def campaignStates (includePaused : Bool) : List CampaignStatus :=
  if includePaused then [.active, .attention, .paused] else [.active, .attention]

def ownedBy (campaigns : Table String CampaignStatus) (statuses : List CampaignStatus) (owners : List Ownership) :
    Bool :=
  owners.any fun o => o.active && (campaigns.find? o.campaignId).any (fun status => decide (status ∈ statuses))

/-! ## Rows -/

inductive QueueState where
  | pending
  | running
  | done
  | disagreed
  | blocked
  | cancelled
  deriving DecidableEq, Repr

/-- `FINAL_URANS_OUTCOMES`. -/
inductive FinalOutcome where
  | continuationPending
  | continuationRetryWait
  | freshRetryPending
  | infrastructureRetryWait
  | mediaRepairPending
  | accepted
  | disagreed
  | recoveryExhausted
  | deterministicFailure
  | continuationPermanentFailure
  | ownerless
  deriving DecidableEq, Repr

inductive RetryState where
  | retryWait
  | blocked
  deriving DecidableEq, Repr

/-- The row of `sim_ladder_submit_retries` of a verification; there is at most one. -/
structure SubmitRetry where
  state : RetryState
  attemptCount : ℕ
  nextAttemptAt : Option ℕ
  latestSimJobId : Option String

namespace SubmitRetry

def point (r : SubmitRetry) (jobId : String) : SubmitRetry := { r with latestSimJobId := some jobId }

/-- `latest_sim_job_id IS NULL OR latest_sim_job_id = jobId`. -/
def pointsNowhereElse (r : SubmitRetry) (jobId : String) : Bool :=
  decide (r.latestSimJobId = none) || decide (r.latestSimJobId = some jobId)

end SubmitRetry

structure VerifyItem where
  state : QueueState
  simJobId : Option String
  backgroundOwner : Bool
  campaigns : List Ownership
  requests : List OwningRequest
  freshAttemptCount : ℕ
  continuationAttemptCount : ℕ
  nextSubmitAt : Option ℕ
  lastOutcome : Option FinalOutcome
  submitRetry : Option SubmitRetry
  createdAt : ℕ
  updatedAt : ℕ

/-- The columns of `sim_jobs` that are read of a verification's job; `verifyQueueItemId` stands in its payload. -/
structure VerifyJob where
  verifyQueueItemId : String
  status : SimJobStatus
  engineState : Option String
  updatedAt : ℕ

structure VerifyStore where
  now : ℕ
  campaigns : Table String CampaignStatus
  items : Table String VerifyItem
  jobs : Table String VerifyJob

namespace VerifyStore

def linkedFullRequestOwner (s : VerifyStore) (item : VerifyItem) (includePaused : Bool) : Bool :=
  item.requests.any fun r =>
    r.openFull && (r.backgroundOwner || ownedBy s.campaigns (campaignStates includePaused) r.owners)

def verifyQueueLiveOwner (s : VerifyStore) (item : VerifyItem) (includePaused : Bool) : Bool :=
  item.backgroundOwner || ownedBy s.campaigns (campaignStates includePaused) item.campaigns ||
    s.linkedFullRequestOwner item includePaused

def modifyItem (s : VerifyStore) (itemId : String) (f : VerifyItem → VerifyItem) : VerifyStore :=
  { s with items := s.items.modify itemId f }

def modifyJob (s : VerifyStore) (jobId : String) (f : VerifyJob → VerifyJob) : VerifyStore :=
  { s with jobs := s.jobs.modify jobId f }

/-- The job waits and its `engine_state` is this one. -/
def waitsIn (s : VerifyStore) (jobId : String) (engineState : Option String) : Bool :=
  (s.jobs.find? jobId).any fun job => decide (job.status = .pending) && decide (job.engineState = engineState)

end VerifyStore

/-! ## The scope of a pass -/

structure PendingVerifyScope where
  campaignIds : Option (List String)
  verifyIds : Option (List String)
  allowAutomaticRecovery : Option Bool

namespace PendingVerifyScope

def verifyQueueCampaignScope (campaignIds : List String) (item : VerifyItem) : Bool :=
  (item.campaigns.any fun o => o.active && decide (o.campaignId ∈ campaignIds)) ||
    item.requests.any fun r => r.openFull && r.owners.any fun o => o.active && decide (o.campaignId ∈ campaignIds)

def hasVerifyId (scope : PendingVerifyScope) (itemId : String) : Bool :=
  scope.verifyIds.all fun ids => decide (itemId ∈ ids)

def covers (scope : PendingVerifyScope) (itemId : String) (item : VerifyItem) : Bool :=
  scope.campaignIds.all (fun ids => verifyQueueCampaignScope ids item) && scope.hasVerifyId itemId

def verifyRecoveryScope (scope : PendingVerifyScope) (item : VerifyItem) : Bool :=
  decide (scope.allowAutomaticRecovery ≠ some false) ||
    (decide (item.freshAttemptCount = 0) && decide (item.continuationAttemptCount = 0) &&
      item.lastOutcome.all fun o =>
        decide (o ∉ [FinalOutcome.continuationPending, .continuationRetryWait, .freshRetryPending]))

end PendingVerifyScope

namespace VerifyStore

/-! ## Claiming -/

def submitRetryHolds (s : VerifyStore) (item : VerifyItem) : Bool :=
  item.submitRetry.any fun r =>
    decide (r.state = .blocked) || r.nextAttemptAt.any (fun due => decide (s.now < due))

/-- The `WHERE` of the conditional update of `claimNextPendingVerifyItem`. -/
def claimable (s : VerifyStore) (scope : PendingVerifyScope) (itemId : String) (item : VerifyItem) : Bool :=
  decide (item.state = .pending) && item.nextSubmitAt.all (fun due => decide (due ≤ s.now)) &&
    decide (item.lastOutcome ≠ some .mediaRepairPending) && scope.verifyRecoveryScope item &&
    scope.hasVerifyId itemId && !s.submitRetryHolds item && s.verifyQueueLiveOwner item false

/-- The optimistic read: the oldest schedulable item. -/
def claimCandidate (s : VerifyStore) (scope : PendingVerifyScope) : Option String :=
  ((s.items.rows.filter fun r => s.claimable scope r.1 r.2 && scope.covers r.1 r.2).argmin
    fun r => r.2.createdAt).map Prod.fst

def claimed (s : VerifyStore) (itemId : String) : VerifyStore :=
  s.modifyItem itemId fun item => { item with state := .running, simJobId := none, updatedAt := s.now }

/-- The candidate was read in `seen`; the update is conditional on what the row says by now. -/
def claimNextPendingVerifyItem (seen s : VerifyStore) (scope : PendingVerifyScope) : Option (String × VerifyStore) :=
  match seen.claimCandidate scope with
  | none => none
  | some itemId =>
    if (s.items.find? itemId).any (s.claimable scope itemId) then some (itemId, s.claimed itemId) else none

/-! ## Releasing -/

/-- `VERIFY_CLAIM_RELEASE_STATE_SQL`: what a paused campaign owns waits for it. -/
def claimReleaseState (s : VerifyStore) (item : VerifyItem) : QueueState :=
  if s.verifyQueueLiveOwner item true then .pending else .cancelled

def returned (s : VerifyStore) (item : VerifyItem) : VerifyItem :=
  { item with state := s.claimReleaseState item, simJobId := none, updatedAt := s.now }

def releaseClaimedVerifyItem (s : VerifyStore) (itemId : String) : VerifyStore :=
  s.modifyItem itemId fun item => if item.state = .running then s.returned item else item

/-! ## Ends of a claim before a job is composed -/

/-- The item's accepted preliminary attempt or its revision cannot be resolved.  The update names the item and nothing
else. -/
def cancelVerifyItem (s : VerifyStore) (itemId : String) : VerifyStore :=
  s.modifyItem itemId fun item => { item with state := .cancelled, simJobId := none, updatedAt := s.now }

def blockFinalUransVerificationBeforeSubmit (s : VerifyStore) (itemId : String) : VerifyStore :=
  s.modifyItem itemId fun item =>
    if item.state = .running ∧ item.simJobId = none then
      { item with
        state := .blocked
        lastOutcome := some .recoveryExhausted
        nextSubmitAt := none
        updatedAt := s.now }
    else item

/-! ## Binding -/

def composedJob (s : VerifyStore) (itemId : String) : VerifyJob where
  verifyQueueItemId := itemId
  status := .pending
  engineState := none
  updatedAt := s.now

def itemRuns (s : VerifyStore) (itemId : String) : Bool :=
  (s.items.find? itemId).any fun item => decide (item.state = .running)

/-- The binding asks for a running item, not for the claim that made it run. -/
def bindVerifyItem (s : VerifyStore) (itemId jobId : String) : VerifyStore :=
  s.modifyItem itemId fun item =>
    if item.state = .running then
      { item with
        simJobId := some jobId
        submitRetry := item.submitRetry.map fun r => if r.state = .retryWait then r.point jobId else r
        updatedAt := s.now }
    else item

def cancelledJob (s : VerifyStore) (engineState : String) (job : VerifyJob) : VerifyJob :=
  { job with status := .cancelled, engineState := some engineState, updatedAt := s.now }

/-- "ladder owner changed before job binding". -/
def cancelUnboundJob (s : VerifyStore) (jobId : String) : VerifyStore :=
  s.modifyJob jobId fun job => if job.status = .pending then s.cancelledJob "cancelled" job else job

/-! ## Submitting -/

def submitting : String := "submitting"

def retryPointsTo (item : VerifyItem) (jobId : String) : Bool :=
  item.submitRetry.all fun r => decide (r.latestSimJobId = some jobId)

def runsFor (item : VerifyItem) (jobId : String) : Bool :=
  decide (item.state = .running) && decide (item.simJobId = some jobId)

theorem runsFor_iff {item : VerifyItem} {jobId : String} :
    runsFor item jobId = true ↔ item.state = .running ∧ item.simJobId = some jobId := by
  simp [runsFor]

/-- `pendingSubmitWhere` of a job that carries a `verifyQueueItemId`; `others` is what its further conjuncts say. -/
def pendingSubmitWhere (s : VerifyStore) (jobId : String) (others : Bool) : Bool :=
  others && (s.jobs.find? jobId).any fun job => decide (job.status = .pending) &&
    (s.items.find? job.verifyQueueItemId).any fun item =>
      runsFor item jobId && retryPointsTo item jobId && s.verifyQueueLiveOwner item false

def leaseSubmit (s : VerifyStore) (jobId : String) : VerifyStore :=
  s.modifyJob jobId fun job => { job with engineState := some submitting, updatedAt := s.now }

def stopBeforeEngineSubmit (s : VerifyStore) (jobId : String) (ownedState : Option String) : VerifyStore :=
  s.modifyJob jobId fun job =>
    if job.status = .pending ∧ job.engineState = ownedState then s.cancelledJob "cancelled" job else job

def recordAcceptedButStopped (s : VerifyStore) (jobId : String) : VerifyStore :=
  s.modifyJob jobId fun job =>
    if job.status = .pending ∧ job.engineState = some submitting then s.cancelledJob "cancelling" job
    else if job.status = .cancelled then s.cancelledJob "cancelling" job
    else job

/-- The submission boundary, with the retry row of the item cleared. -/
def recordSubmitted (s : VerifyStore) (itemId jobId engineState : String) : VerifyStore :=
  (s.modifyItem itemId fun item =>
      { item with submitRetry := item.submitRetry.filter fun r => !r.pointsNowhereElse jobId }).modifyJob jobId
    fun job => { job with status := .submitted, engineState := some engineState, updatedAt := s.now }

/-- Unlike `releaseClaimedVerifyItem`, this release asks for the binding to the job it gives up. -/
def releaseLadderOwnerAfterTransportFailure (s : VerifyStore) (itemId jobId : String) : VerifyStore :=
  s.modifyItem itemId fun item =>
    let item := if runsFor item jobId && retryPointsTo item jobId then s.returned item else item
    { item with submitRetry := item.submitRetry.map fun r => if r.pointsNowhereElse jobId then r.point jobId else r }

def recordUnexecutedTransientSubmitFailure (s : VerifyStore) (itemId jobId : String) : VerifyStore :=
  if s.waitsIn jobId (some submitting) then
    (s.releaseLadderOwnerAfterTransportFailure itemId jobId).modifyJob jobId (s.cancelledJob "cancelled")
  else s

def answeredServerRetryBackoffMs : ℕ := 30000

/-- One delayed retry after a first server error; anything else blocks. -/
def answeredRetry (s : VerifyStore) (jobId : String) (httpStatus : Option ℕ) (existing : Option SubmitRetry) :
    SubmitRetry :=
  let priorCount := existing.elim 0 SubmitRetry.attemptCount
  if httpStatus.any (fun status => decide (500 ≤ status) && decide (status < 600)) && decide (priorCount < 1) then
    { state := .retryWait
      attemptCount := 1
      nextAttemptAt := some (s.now + answeredServerRetryBackoffMs)
      latestSimJobId := some jobId }
  else
    { state := .blocked
      attemptCount := priorCount
      nextAttemptAt := none
      latestSimJobId := some jobId }

def settleAnsweredLadderFailure (s : VerifyStore) (itemId jobId : String) (httpStatus : Option ℕ) : VerifyStore :=
  s.modifyItem itemId fun item =>
    if runsFor item jobId && item.submitRetry.all (SubmitRetry.pointsNowhereElse · jobId) then
      let retry := s.answeredRetry jobId httpStatus item.submitRetry
      { item with
        state := if retry.state = .retryWait then .pending else .blocked
        simJobId := none
        submitRetry := some retry
        updatedAt := s.now }
    else item

def recordAnsweredSubmitFailure (s : VerifyStore) (itemId jobId : String) (httpStatus : Option ℕ) : VerifyStore :=
  if s.waitsIn jobId (some submitting) then
    (s.settleAnsweredLadderFailure itemId jobId httpStatus).modifyJob jobId fun job =>
      { job with status := .failed, engineState := some "failed", updatedAt := s.now }
  else s

/-! ## Healing -/

/-- `"updatedAt" < now() - interval '5 minutes'`. -/
def stale (s : VerifyStore) (updatedAt : ℕ) : Bool := decide (updatedAt + 5 * 60000 < s.now)

/-- Up to a hundred pending items that nobody owns; `locked` are those that `SKIP LOCKED` passes over. -/
def ownerlessItems (s : VerifyStore) (scope : PendingVerifyScope) (locked : List String) : List String :=
  (((s.items.rows.filter fun r =>
      decide (r.2.state = .pending) && scope.covers r.1 r.2 && !s.verifyQueueLiveOwner r.2 true &&
        decide (r.1 ∉ locked)).mergeSort
    fun a b => decide (a.2.createdAt < b.2.createdAt) ||
      (decide (a.2.createdAt = b.2.createdAt) && decide (a.1 ≤ b.1))).take 100).map Prod.fst

def cancelOwnerlessItems (s : VerifyStore) (scope : PendingVerifyScope) (locked : List String) : VerifyStore :=
  { s with items := s.items.map fun itemId item =>
      if itemId ∈ s.ownerlessItems scope locked ∧ item.state = .pending ∧ s.verifyQueueLiveOwner item true = false then
        { item with state := .cancelled, simJobId := none, updatedAt := s.now }
      else item }

/-- A job that a dead composer left unsubmitted, of an item that is bound to it. -/
def orphanedComposition (s : VerifyStore) (scope : PendingVerifyScope) (jobId : String) (job : VerifyJob) : Bool :=
  decide (job.status = .pending) && s.stale job.updatedAt &&
    (s.items.find? job.verifyQueueItemId).any fun item =>
      runsFor item jobId && scope.covers job.verifyQueueItemId item && s.stale item.updatedAt

def cancelOrphanedCompositions (s : VerifyStore) (scope : PendingVerifyScope) : VerifyStore :=
  { s with jobs := s.jobs.map fun jobId job =>
      if s.orphanedComposition scope jobId job then s.cancelledJob "cancelled" job else job }

def liveBinding (s : VerifyStore) (item : VerifyItem) : Bool :=
  item.simJobId.any fun jobId => (s.jobs.find? jobId).any fun job => liveStatus job.status

def returnOrphanedItems (s : VerifyStore) (scope : PendingVerifyScope) : VerifyStore :=
  { s with items := s.items.map fun itemId item =>
      if item.state = .running ∧ scope.covers itemId item = true ∧ s.liveBinding item = false ∧
          s.stale item.updatedAt = true then s.returned item
      else item }

def healOrphanedVerifyItems (s : VerifyStore) (scope : PendingVerifyScope) (locked : List String) : VerifyStore :=
  ((s.cancelOwnerlessItems scope locked).cancelOrphanedCompositions scope).returnOrphanedItems scope

end VerifyStore

end XFoilFoam.Ladder
