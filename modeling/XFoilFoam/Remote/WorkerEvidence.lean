import XFoilFoam.Remote.Delivery
import XFoilFoam.Sweeper.IngestLease

/-! The job row of a worker: reports are projected onto it (`progressive-worker-reports.ts`) while the results that they
carry are staged under an ingest lease (`progressive-worker-evidence.ts`).  Each update is one step, and a pass may stop
at any time. -/
namespace XFoilFoam.Remote
open ExactNum Relation
open Sweeper (SimJobStatus sqlLe sqlGt)
set_option autoImplicit false

/-! ## The job row -/

structure WorkerJob where
  status : SimJobStatus
  engineJobId : Option String
  engineState : Option String
  leaseToken : Option String
  leaseExpiresAt : Option ℤ
  previousStatus : Option SimJobStatus

/-- The two readings of `clock_timestamp()` in one update. -/
structure Readings where
  status : ℤ
  previous : ℤ

namespace WorkerJob
variable (job : WorkerJob)

def importing (now : ℤ) : Bool :=
  decide (job.status = .ingesting) && job.leaseToken.isSome && sqlGt job.leaseExpiresAt now

/-- `ingestLeaseOwnedWhere`. -/
def owned (token : String) : Bool := decide (job.status = .ingesting) && job.leaseToken == some token

def restoreStatus : Option SimJobStatus := if job.status = .ingesting then job.previousStatus else some job.status

/-- `coalesce(ingest_lease_previous_status, restoreStatus)`, with the lease given up. -/
def restored (restore : SimJobStatus) : WorkerJob :=
  { job with
    status := job.previousStatus.getD restore
    leaseToken := none
    leaseExpiresAt := none
    previousStatus := none }

def settle (executionId foreign : String) (read : Readings) (engineState : String) (terminal : SimJobStatus) :
    Except String WorkerJob :=
  if job.engineJobId.all (· == executionId) then
    .ok { job with
      status := if job.importing read.status then job.status else terminal
      previousStatus := if job.importing read.previous then some terminal else job.previousStatus
      engineState := some engineState }
  else .error foreign

end WorkerJob

/-! ## Projections -/

def stateOf (report : Json) : Json := (report.get "status").get "state"

def unsettledStatuses : List SimJobStatus := [.pending, .submitted, .running]

def projectRunningWorkerReport (executionId : String) (job : WorkerJob) (report : Json) : WorkerJob :=
  if (stateOf report).isStr "running" && job.engineJobId == some executionId &&
      (SimJobStatus.ingesting :: unsettledStatuses).contains job.status &&
      !job.engineState.any ["completed", "failed", "cancelled", "cancelling", "cancel_pending"].contains &&
      job.previousStatus.all unsettledStatuses.contains then
    { job with
      status := if job.status = .ingesting then job.status else .running
      previousStatus := if job.status = .ingesting then some .running else job.previousStatus
      engineState := some "running" }
  else job

def isMeasuredCancelledProgressiveRemoteReport (report : Json) : Bool :=
  (stateOf report).isStr "cancelled" && ((report.get "stopProof").get "execution_stopped").isTrue && !isNeverStarted report

def projectMeasuredCancellation (executionId : String) (read : Readings) (job : WorkerJob) (report : Json) :
    Except String WorkerJob :=
  if isMeasuredCancelledProgressiveRemoteReport report then
    job.settle executionId "Measured cancellation report has a foreign engine identity" read "cancelled" .cancelled
  else .ok job

/-- The state with its status: `completed` is `done`, the others cast to themselves. -/
def terminalStatus (state : Json) : Option (String × SimJobStatus) :=
  [("completed", SimJobStatus.done), ("failed", .failed), ("cancelled", .cancelled)].find? fun entry => state.isStr entry.1

def projectFinalWorkerReport (executionId : String) (read : Readings) (job : WorkerJob) (report : Json) :
    Except String WorkerJob :=
  if isFinalProgressiveRemoteReport report then
    match terminalStatus (stateOf report) with
    | none => .error "invalid input value for enum sim_job_status"
    | some (state, terminal) =>
      job.settle executionId "Final worker report has a foreign engine identity" read state terminal
  else .ok job

def projectStopped (executionId : String) (cancelled final : Readings) (job : WorkerJob) (report : Json) :
    Except String WorkerJob := do
  let job ← projectMeasuredCancellation executionId cancelled job report
  projectFinalWorkerReport executionId final job report

def settledStatus (report : Json) : Option SimJobStatus :=
  if isFinalProgressiveRemoteReport report then (terminalStatus (stateOf report)).map Prod.snd
  else if isMeasuredCancelledProgressiveRemoteReport report then some .cancelled
  else none

/-- The whole transaction of `enqueueProgressiveWorkerReport`: on every path the latest report is projected. -/
def reportProgress (runtime : Runtime) (assigned : Observation → Except String Envelope) (cancelled final : Readings)
    (o : Outbox) (job : WorkerJob) (input : Observation) : Except String (Outbox × WorkerJob) := do
  let (rows, _) ← enqueueProgressiveWorkerReport runtime assigned o.rows input
  match latestReport (rows.map WorkerRow.stored) with
  | none => .ok ({ o with rows }, job)
  | some latest => do
    let job ← projectStopped input.executionId cancelled final
      (projectRunningWorkerReport input.executionId job latest.report) latest.report
    .ok ({ o with rows }, job)

/-- `envelope` is what verifying the ownership and the assignment of the execution gives. -/
def settleProgressiveWorkerFinalReport (runtime : Runtime) (envelope : Except String Envelope) (executionId : String)
    (cancelled final : Readings) (o : Outbox) (job : WorkerJob) : Except String WorkerJob :=
  match latestReport o.reports with
  | none => .ok job
  | some latest => do
    let envelope ← envelope
    let (report, signature) ← validateProgressiveRemoteReport runtime envelope latest.report
    require (signature == latest.contentSignature) "Final worker report content signature changed"
    projectStopped executionId cancelled final job report

/-! ## Staging -/

/-- A row of `progressive_worker_evidence_receipts`. -/
structure EvidenceReceipt where
  sequence : ℤ
  contentSignature : String

structure StagingPass where
  token : String
  report : StoredReport
  restoreStatus : SimJobStatus

structure EvidenceWorld where
  outbox : Outbox
  job : WorkerJob
  receipts : List EvidenceReceipt
  passes : List StagingPass
  issued : List String

def isObject : Json → Bool
  | .obj _ => true
  | _ => false

def stageable (w : EvidenceWorld) (requested : Option ℤ) (row : WorkerRow) : Bool :=
  requested.all (row.stored.sequence == ·) && row.acknowledged && isObject (row.stored.report.get "result") &&
    !(w.outbox.conflicts.any fun conflict => conflict.stored.sequence == row.stored.sequence) &&
    !(w.receipts.any fun receipt => receipt.sequence == row.stored.sequence)

def assertProgressiveWorkerEvidenceJob (runtime : Runtime) (envelope : Except String Envelope) (executionId : String)
    (w : EvidenceWorld) (sequence : ℤ) (result : Json) : Except String Unit := do
  require (w.job.engineJobId.all (· == executionId) && decide (1 ≤ sequence) && decide (sequence ≤ maxSafe))
    "Assigned worker evidence requires its exact owned report and execution"
  let envelope ← envelope
  match w.outbox.reports.find? fun report => report.sequence == sequence with
  | none => .error "Worker evidence report is missing"
  | some stored => do
    let (report, signature) ← validateProgressiveRemoteReport runtime envelope stored.report
    require (signature == stored.contentSignature && !(report.get "result").isNull &&
        sameJson runtime (report.get "result") result)
      "Worker evidence does not match its stored report bytes"

/-- `claimProgressiveWorkerEvidence`; `setup` is what reading the setup of the job gives. -/
def claimProgressiveWorkerEvidence (runtime : Runtime) (envelope : Except String Envelope) (setup : Except String Unit)
    (executionId token : String) (now expiresAt : ℤ) (requested : Option ℤ) (w : EvidenceWorld) :
    Except String EvidenceWorld :=
  if w.job.leaseToken.isNone || sqlLe w.job.leaseExpiresAt now then
    match earliestRow (w.outbox.rows.filter (stageable w requested)) with
    | none => .ok w
    | some row => do
      assertProgressiveWorkerEvidenceJob runtime envelope executionId w row.stored.sequence (row.stored.report.get "result")
      match w.job.restoreStatus.filter fun status => status != .ingesting with
      | none => .error "Worker evidence lease has no recoverable prior job state"
      | some restore => do
        setup
        .ok { w with
          job := { w.job with
            status := .ingesting
            engineJobId := some executionId
            leaseToken := some token
            leaseExpiresAt := some expiresAt
            previousStatus := some restore }
          passes := ⟨token, row.stored, restore⟩ :: w.passes
          issued := token :: w.issued }
  else .ok w

def EvidenceWorld.without (w : EvidenceWorld) (pass : StagingPass) : List StagingPass :=
  w.passes.filter fun other => other.token != pass.token

/-- The closing transaction of `stageClaimedProgressiveWorkerEvidence`; `bound` is what binding the attempts gives. -/
def finishStaging (runtime : Runtime) (envelope : Except String Envelope) (bound : Except String Unit)
    (executionId : String) (now : ℤ) (w : EvidenceWorld) (pass : StagingPass) : Except String EvidenceWorld :=
  if w.job.owned pass.token && sqlGt w.job.leaseExpiresAt now then do
    assertProgressiveWorkerEvidenceJob runtime envelope executionId w pass.report.sequence (pass.report.report.get "result")
    if w.receipts.any fun receipt => receipt.sequence == pass.report.sequence then
      .error "duplicate key value violates unique constraint"
    else do
      bound
      .ok { w with
        receipts := ⟨pass.report.sequence, pass.report.contentSignature⟩ :: w.receipts
        job := w.job.restored pass.restoreStatus
        passes := w.without pass }
  else .error ("ingest lease lost for sim_job " ++ executionId)

/-- The `catch` of `stageClaimedProgressiveWorkerEvidence`. -/
def releaseStaging (w : EvidenceWorld) (pass : StagingPass) : EvidenceWorld :=
  { w with
    job := if w.job.owned pass.token then w.job.restored pass.restoreStatus else w.job
    passes := w.without pass }

/-! ## Steps -/

def Readings.Sharp (read : Readings) (job : WorkerJob) : Prop :=
  sqlGt job.leaseExpiresAt read.status = sqlGt job.leaseExpiresAt read.previous

/-- One transaction, or a pass that ends without one.  Clocks show anything; tokens come from `randomUUID`.  In strict
runs no reading is torn, and other writers leave a job alone that has ended or is being staged. -/
inductive EvidenceStep (runtime : Runtime) (dispatch : Dispatch) (assigned : Observation → Except String Envelope)
    (executionId : String) (strict : Prop) : EvidenceWorld → EvidenceWorld → Prop
  | report {w : EvidenceWorld} {cancelled final : Readings} {input : Observation} {outbox : Outbox} {job : WorkerJob}
    (hsharp : strict → cancelled.Sharp w.job ∧ final.Sharp w.job)
    (h : reportProgress runtime assigned cancelled final w.outbox w.job input = .ok (outbox, job)) :
    EvidenceStep runtime dispatch assigned executionId strict w { w with outbox, job }
  | answered {w : EvidenceWorld} {outbox : Outbox} (h : OutboxStep runtime assigned w.outbox outbox)
    (hreports : outbox.reports = w.outbox.reports) :
    EvidenceStep runtime dispatch assigned executionId strict w { w with outbox }
  | settle {w : EvidenceWorld} {cancelled final : Readings} {job : WorkerJob}
    (hsharp : strict → cancelled.Sharp w.job ∧ final.Sharp w.job)
    (h : settleProgressiveWorkerFinalReport runtime dispatch.envelope executionId cancelled final w.outbox w.job = .ok job) :
    EvidenceStep runtime dispatch assigned executionId strict w { w with job }
  | claim {w w' : EvidenceWorld} {setup : Except String Unit} {token : String} {now expiresAt : ℤ} {requested : Option ℤ}
    (hfresh : token ∉ w.issued)
    (h : claimProgressiveWorkerEvidence runtime dispatch.envelope setup executionId token now expiresAt requested w =
      .ok w') : EvidenceStep runtime dispatch assigned executionId strict w w'
  | renew {w : EvidenceWorld} {token : String} {now : ℤ} (expiresAt : ℤ)
    (h : w.job.owned token = true ∧ sqlGt w.job.leaseExpiresAt now = true) :
    EvidenceStep runtime dispatch assigned executionId strict w
      { w with job := { w.job with leaseExpiresAt := some expiresAt } }
  | finish {w w' : EvidenceWorld} {bound : Except String Unit} {now : ℤ} {pass : StagingPass} (hpass : pass ∈ w.passes)
    (h : finishStaging runtime dispatch.envelope bound executionId now w pass = .ok w') :
    EvidenceStep runtime dispatch assigned executionId strict w w'
  | release {w : EvidenceWorld} {pass : StagingPass} (hpass : pass ∈ w.passes) :
    EvidenceStep runtime dispatch assigned executionId strict w (releaseStaging w pass)
  | crash {w : EvidenceWorld} (pass : StagingPass) :
    EvidenceStep runtime dispatch assigned executionId strict w { w with passes := w.without pass }
  | elsewhere {w : EvidenceWorld} (job : WorkerJob)
    (hlease : job.leaseToken = w.job.leaseToken ∧ job.previousStatus = w.job.previousStatus)
    (hstatus : job.status = w.job.status ∨ job.status ≠ .ingesting) (hstrict : strict → w.job.status ∈ unsettledStatuses) :
    EvidenceStep runtime dispatch assigned executionId strict w { w with job }

structure EvidenceStart (w : EvidenceWorld) : Prop where
  outbox : w.outbox = ⟨[], []⟩
  status : w.job.status ≠ .ingesting
  receipts : w.receipts = []
  passes : w.passes = []

/-! ## The job row, projected -/

def WorkerJob.Restorable (job : WorkerJob) : Prop :=
  job.status = .ingesting → ∃ status, job.previousStatus = some status ∧ status ≠ .ingesting

structure Keeps (job job' : WorkerJob) : Prop where
  token : job'.leaseToken = job.leaseToken
  expires : job'.leaseExpiresAt = job.leaseExpiresAt
  restorable : job.Restorable → job'.Restorable

section Projections
variable {executionId foreign engineState : String} {read cancelled final : Readings} {job job' : WorkerJob}
  {terminal : SimJobStatus} {report : Json}

theorem Keeps.trans {job'' : WorkerJob} (h : Keeps job job') (h' : Keeps job' job'') : Keeps job job'' :=
  ⟨h'.token.trans h.token, h'.expires.trans h.expires, fun hold => h'.restorable (h.restorable hold)⟩

theorem settle_eq (h : job.settle executionId foreign read engineState terminal = .ok job') :
    job' = { job with
      status := if job.importing read.status then job.status else terminal
      previousStatus := if job.importing read.previous then some terminal else job.previousStatus
      engineState := some engineState } := by
  unfold WorkerJob.settle at h
  split at h
  · exact (Except.ok.inj h).symm
  · cases h

theorem keeps_settle (hterminal : terminal ≠ .ingesting)
    (h : job.settle executionId foreign read engineState terminal = .ok job') : Keeps job job' := by
  obtain rfl := settle_eq h
  refine ⟨rfl, rfl, fun hold hingesting => ?_⟩
  dsimp only at hingesting ⊢
  cases himporting : job.importing read.status with
  | false =>
    rw [himporting] at hingesting
    exact absurd hingesting hterminal
  | true =>
    rw [himporting] at hingesting
    split
    · exact ⟨terminal, rfl, hterminal⟩
    · exact hold hingesting

theorem restoreStatus_settle (hsharp : read.Sharp job) (hterminal : terminal ≠ .ingesting)
    (h : job.settle executionId foreign read engineState terminal = .ok job') : job'.restoreStatus = some terminal := by
  obtain rfl := settle_eq h
  have hsame : job.importing read.previous = job.importing read.status := by
    rw [WorkerJob.importing, WorkerJob.importing, hsharp]
  rw [WorkerJob.restoreStatus, hsame]
  cases himporting : job.importing read.status with
  | false => simp [hterminal]
  | true =>
    simp only [WorkerJob.importing, Bool.and_eq_true, decide_eq_true_eq] at himporting
    simp [himporting.1.1]

theorem terminalStatus_ne {state : Json} {entry : String × SimJobStatus} (h : terminalStatus state = some entry) :
    entry.2 ∉ SimJobStatus.ingesting :: unsettledStatuses := by
  have hmem := List.mem_of_find?_eq_some h
  simp only [List.mem_cons, List.not_mem_nil, or_false] at hmem
  obtain rfl | rfl | rfl := hmem <;> decide

theorem keeps_running : Keeps job (projectRunningWorkerReport executionId job report) := by
  unfold projectRunningWorkerReport
  split
  · refine ⟨rfl, rfl, fun _ hingesting => ?_⟩
    by_cases h : job.status = .ingesting
    · exact ⟨.running, by simp [h], by decide⟩
    · simp [h] at hingesting
  · exact ⟨rfl, rfl, id⟩

theorem keeps_cancelled (h : projectMeasuredCancellation executionId read job report = .ok job') : Keeps job job' := by
  unfold projectMeasuredCancellation at h
  split_ifs at h
  · exact keeps_settle (by decide) h
  · cases h
    exact ⟨rfl, rfl, id⟩

theorem keeps_final (h : projectFinalWorkerReport executionId read job report = .ok job') : Keeps job job' := by
  unfold projectFinalWorkerReport at h
  split_ifs at h
  · split at h
    · cases h
    · next hentry => exact keeps_settle (List.ne_of_not_mem_cons (terminalStatus_ne hentry)) h
  · cases h
    exact ⟨rfl, rfl, id⟩

theorem keeps_stopped (h : projectStopped executionId cancelled final job report = .ok job') : Keeps job job' := by
  obtain ⟨between, hcancelled, hfinal⟩ := bind_eq_ok.mp h
  exact (keeps_cancelled hcancelled).trans (keeps_final hfinal)

/-- A report that settles a status leaves it in the job, or in the lease that gives it back. -/
theorem restoreStatus_stopped (hcancelled : cancelled.Sharp job) (hfinal : final.Sharp job)
    (h : projectStopped executionId cancelled final job report = .ok job') (hstatus : settledStatus report = some terminal) :
    job'.restoreStatus = some terminal := by
  obtain ⟨between, hfirst, hsecond⟩ := bind_eq_ok.mp h
  have hsharp : final.Sharp between := by
    rw [Readings.Sharp, (keeps_cancelled hfirst).expires]
    exact hfinal
  unfold settledStatus at hstatus
  unfold projectFinalWorkerReport at hsecond
  split_ifs at hstatus hsecond with hisFinal hmeasured
  · obtain ⟨⟨state, status⟩, hentry, rfl⟩ := Option.map_eq_some_iff.mp hstatus
    rw [hentry] at hsecond
    exact restoreStatus_settle hsharp (List.ne_of_not_mem_cons (terminalStatus_ne hentry)) hsecond
  · cases hstatus
    cases hsecond
    unfold projectMeasuredCancellation at hfirst
    rw [if_pos hmeasured] at hfirst
    exact restoreStatus_settle hcancelled (by decide) hfirst

theorem settledStatus_ne (h : settledStatus report = some terminal) : terminal ∉ unsettledStatuses := by
  unfold settledStatus at h
  split_ifs at h
  · obtain ⟨entry, hentry, rfl⟩ := Option.map_eq_some_iff.mp h
    exact List.not_mem_of_not_mem_cons (terminalStatus_ne hentry)
  · cases h
    decide

end Projections

/-! ## Invariant -/

/-- An acknowledged report that carries a result and was not put aside. -/
def Due (o : Outbox) (sequence : ℤ) (contentSignature : String) : Prop :=
  ∃ row ∈ o.rows, row.stored.sequence = sequence ∧ row.stored.contentSignature = contentSignature ∧
    row.acknowledged = true ∧ isObject (row.stored.report.get "result") = true ∧
      ∀ conflict ∈ o.conflicts, conflict.stored.sequence ≠ sequence

structure StagingOk (runtime : Runtime) (dispatch : Dispatch) (w : EvidenceWorld) : Prop where
  outbox : OutboxOk runtime dispatch w.outbox
  restorable : w.job.Restorable
  issued : ∀ pass ∈ w.passes, pass.token ∈ w.issued
  claimed : ∀ pass ∈ w.passes, Due w.outbox pass.report.sequence pass.report.contentSignature
  receipts : ∀ receipt ∈ w.receipts, Due w.outbox receipt.sequence receipt.contentSignature
  once : (w.receipts.map EvidenceReceipt.sequence).Nodup
  ahead : ∀ pass ∈ w.passes, w.job.leaseToken = some pass.token →
    ∀ receipt ∈ w.receipts, receipt.sequence ≠ pass.report.sequence

section Invariant
variable {runtime : Runtime} {dispatch : Dispatch} {assigned : Observation → Except String Envelope}
  {executionId : String} {strict : Prop} {w w' : EvidenceWorld}

theorem OutboxOk.eq_of_sequence {o : Outbox} (h : OutboxOk runtime dispatch o) {row other : WorkerRow}
    (hrow : row ∈ o.rows) (hother : other ∈ o.rows) (hsame : row.stored.sequence = other.stored.sequence) :
    row = other := by
  have hnodup : (o.rows.map fun row => row.stored.sequence).Nodup := by
    have hsequences := h.rows.sequences
    rw [Outbox.reports, List.map_map] at hsequences
    change (o.rows.map (StoredReport.sequence ∘ WorkerRow.stored)).Nodup
    rw [hsequences]
    exact List.nodup_range.map fun i j hij => by simpa using hij
  exact List.inj_on_of_nodup_map hnodup hrow hother hsame

/-- Nothing that is acknowledged is put aside later. -/
theorem OutboxStep.due {o o' : Outbox} (h : OutboxStep runtime assigned o o') (hok : OutboxOk runtime dispatch o)
    {sequence : ℤ} {contentSignature : String} (hdue : Due o sequence contentSignature) :
    Due o' sequence contentSignature := by
  obtain ⟨row, hrow, rfl, hsigned, hdone, hresult, hapart⟩ := hdue
  refine ⟨row, h.keptIn.2 row hrow hdone, rfl, hsigned, hdone, hresult, fun conflict hconflict hsame => ?_⟩
  have hnew : ∀ other ∈ o.rows, other.acknowledged = false → other.stored.sequence ≠ row.stored.sequence := by
    intro other hother hwaits hseq
    rw [hok.eq_of_sequence hother hrow hseq, hdone] at hwaits
    cases hwaits
  cases h with
  | enqueue _ => exact hapart conflict hconflict hsame
  | acknowledge _ => exact hapart conflict hconflict hsame
  | quarantine key reason =>
    unfold quarantineProgressiveWorkerReportConflict at hconflict
    split at hconflict
    · exact hapart conflict hconflict hsame
    · next other hfind =>
      rcases mem_insertConflict hconflict with hmem | rfl
      · exact hapart conflict hmem hsame
      · have hwaits := List.find?_some hfind
        simp only [Bool.and_eq_true, Bool.not_eq_true'] at hwaits
        exact hnew other (List.mem_of_find?_eq_some hfind) hwaits.2 hsame
  | quarantineAll solverId reason =>
    rcases mem_insertConflicts hconflict with hmem | hmem
    · exact hapart conflict hmem hsame
    · obtain ⟨other, hother, rfl⟩ := List.mem_map.mp hmem
      obtain ⟨hmem, hwaits⟩ := mem_staleBatch hother
      simp only [WorkerRow.pendingFor, Bool.and_eq_true, Bool.not_eq_true'] at hwaits
      exact hnew other hmem hwaits.2 hsame

theorem StagingOk.row (h : StagingOk runtime dispatch w) {job : WorkerJob} (htoken : job.leaseToken = w.job.leaseToken)
    (hrestorable : w.job.Restorable → job.Restorable) : StagingOk runtime dispatch { w with job } :=
  { h with
    restorable := hrestorable h.restorable
    ahead := by rw [htoken]; exact h.ahead }

theorem StagingOk.deliver (hcollates : runtime.Collates)
    (hassigned : ∀ input envelope, assigned input = .ok envelope → dispatch.envelope = .ok envelope)
    (h : StagingOk runtime dispatch w) {outbox : Outbox} (hstep : OutboxStep runtime assigned w.outbox outbox) :
    StagingOk runtime dispatch { w with outbox } :=
  { h with
    outbox := hstep.ok hcollates hassigned h.outbox
    claimed := fun pass hpass => hstep.due h.outbox (h.claimed pass hpass)
    receipts := fun receipt hreceipt => hstep.due h.outbox (h.receipts receipt hreceipt) }

theorem without_subset (pass : StagingPass) : w.without pass ⊆ w.passes := List.filter_subset_self _

theorem StagingOk.crash (h : StagingOk runtime dispatch w) (pass : StagingPass) :
    StagingOk runtime dispatch { w with passes := w.without pass } :=
  { h with
    issued := fun other hother => h.issued other (without_subset pass hother)
    claimed := fun other hother => h.claimed other (without_subset pass hother)
    ahead := fun other hother => h.ahead other (without_subset pass hother) }

theorem restored_status {job : WorkerJob} {token : String} (hrestorable : job.Restorable) (howned : job.owned token = true)
    (restore : SimJobStatus) : (job.restored restore).restoreStatus = job.restoreStatus ∧
      (job.restored restore).Restorable := by
  simp only [WorkerJob.owned, Bool.and_eq_true, decide_eq_true_eq] at howned
  obtain ⟨status, hprevious, hne⟩ := hrestorable howned.1
  refine ⟨?_, fun hingesting => ?_⟩
  · simp [WorkerJob.restoreStatus, WorkerJob.restored, hprevious, hne, howned.1]
  · rw [WorkerJob.restored, hprevious] at hingesting
    exact absurd hingesting hne

theorem StagingOk.restored (h : StagingOk runtime dispatch w) {token : String} (howned : w.job.owned token = true)
    (restore : SimJobStatus) : StagingOk runtime dispatch { w with job := w.job.restored restore } :=
  { h with
    restorable := (restored_status h.restorable howned restore).2
    ahead := fun _ _ htoken => nomatch htoken }

theorem claim_cases {setup : Except String Unit} {token : String} {now expiresAt : ℤ} {requested : Option ℤ}
    (h : claimProgressiveWorkerEvidence runtime dispatch.envelope setup executionId token now expiresAt requested w =
      .ok w') :
    w' = w ∨ ∃ row ∈ w.outbox.rows, stageable w requested row = true ∧ ∃ restore, w.job.restoreStatus = some restore ∧
      restore ≠ .ingesting ∧ w' = { w with
        job := { w.job with
          status := .ingesting
          engineJobId := some executionId
          leaseToken := some token
          leaseExpiresAt := some expiresAt
          previousStatus := some restore }
        passes := ⟨token, row.stored, restore⟩ :: w.passes
        issued := token :: w.issued } := by
  unfold claimProgressiveWorkerEvidence at h
  split at h
  · split at h
    · exact .inl (Except.ok.inj h).symm
    · next row hrow =>
      obtain ⟨⟨⟩, -, h⟩ := bind_eq_ok.mp h
      split at h
      · cases h
      · next restore hrestore =>
        obtain ⟨⟨⟩, -, h⟩ := bind_eq_ok.mp h
        obtain ⟨hmem, hstageable⟩ := List.mem_filter.mp (earliestRow_spec hrow).1
        obtain ⟨hstatus, hne⟩ := Option.filter_eq_some_iff.mp hrestore
        exact .inr ⟨row, hmem, hstageable, restore, hstatus, by simpa using hne, (Except.ok.inj h).symm⟩
  · exact .inl (Except.ok.inj h).symm

theorem finish_cases {bound : Except String Unit} {now : ℤ} {pass : StagingPass}
    (h : finishStaging runtime dispatch.envelope bound executionId now w pass = .ok w') :
    w.job.owned pass.token = true ∧ (∀ receipt ∈ w.receipts, receipt.sequence ≠ pass.report.sequence) ∧
      w' = { w with
        receipts := ⟨pass.report.sequence, pass.report.contentSignature⟩ :: w.receipts
        job := w.job.restored pass.restoreStatus
        passes := w.without pass } := by
  unfold finishStaging at h
  split at h
  · next howned =>
    obtain ⟨⟨⟩, -, h⟩ := bind_eq_ok.mp h
    split at h
    · cases h
    · next hfresh =>
      obtain ⟨⟨⟩, -, h⟩ := bind_eq_ok.mp h
      exact ⟨(Bool.and_eq_true_iff.mp howned).1, by simpa using hfresh, (Except.ok.inj h).symm⟩
  · cases h

theorem report_cases {cancelled final : Readings} {o outbox : Outbox} {job job' : WorkerJob} {input : Observation}
    (h : reportProgress runtime assigned cancelled final o job input = .ok (outbox, job')) :
    OutboxStep runtime assigned o outbox ∧ (latestReport outbox.reports = none ∧ job' = job ∨
      ∃ latest, latestReport outbox.reports = some latest ∧ projectStopped input.executionId cancelled final
        (projectRunningWorkerReport input.executionId job latest.report) latest.report = .ok job') := by
  obtain ⟨⟨rows, receipt⟩, henqueue, h⟩ := bind_eq_ok.mp h
  dsimp only at h
  split at h
  · next hnone =>
    cases h
    exact ⟨.enqueue henqueue, .inl ⟨hnone, rfl⟩⟩
  · next latest hlatest =>
    obtain ⟨projected, hprojected, h⟩ := bind_eq_ok.mp h
    cases h
    exact ⟨.enqueue henqueue, .inr ⟨latest, hlatest, hprojected⟩⟩

theorem settle_cases {o : Outbox} (hok : OutboxOk runtime dispatch o) {cancelled final : Readings} {job job' : WorkerJob}
    (h : settleProgressiveWorkerFinalReport runtime dispatch.envelope executionId cancelled final o job = .ok job') :
    latestReport o.reports = none ∧ job' = job ∨ ∃ latest, latestReport o.reports = some latest ∧
      projectStopped executionId cancelled final job latest.report = .ok job' := by
  unfold settleProgressiveWorkerFinalReport at h
  split at h
  · next hnone => exact .inl ⟨hnone, (Except.ok.inj h).symm⟩
  · next latest hlatest =>
    obtain ⟨envelope, henvelope, h⟩ := bind_eq_ok.mp h
    obtain ⟨⟨report, signature⟩, hvalid, h⟩ := bind_eq_ok.mp h
    have hmem : latest ∈ o.reports := List.mem_of_getLast? (hok.rows.latest ▸ hlatest)
    obtain ⟨envelope', henvelope', hsigned⟩ := hok.signed latest hmem
    rw [henvelope] at henvelope'
    cases henvelope'
    rw [hvalid] at hsigned
    cases hsigned
    obtain ⟨⟨⟩, -, hprojected⟩ := bind_eq_ok.mp h
    exact .inr ⟨latest, hlatest, hprojected⟩

theorem StagingOk.step (hcollates : runtime.Collates)
    (hassigned : ∀ input envelope, assigned input = .ok envelope → dispatch.envelope = .ok envelope)
    (hok : StagingOk runtime dispatch w) (h : EvidenceStep runtime dispatch assigned executionId strict w w') :
    StagingOk runtime dispatch w' := by
  cases h with
  | report _ h =>
    obtain ⟨hstep, ⟨-, rfl⟩ | ⟨latest, -, hprojected⟩⟩ := report_cases h
    · exact hok.deliver hcollates hassigned hstep
    · have hkeeps := keeps_running.trans (keeps_stopped hprojected)
      exact (hok.deliver hcollates hassigned hstep).row hkeeps.token hkeeps.restorable
  | answered h _ => exact hok.deliver hcollates hassigned h
  | settle _ h =>
    obtain ⟨-, rfl⟩ | ⟨latest, -, hprojected⟩ := settle_cases hok.outbox h
    · exact hok
    · exact hok.row (keeps_stopped hprojected).token (keeps_stopped hprojected).restorable
  | @claim _ setup token now expiresAt requested hfresh h =>
    obtain rfl | ⟨row, hrow, hstageable, restore, -, hne, rfl⟩ := claim_cases h
    · exact hok
    simp only [stageable, Bool.and_eq_true, Bool.not_eq_true', List.any_eq_false, beq_iff_eq] at hstageable
    obtain ⟨⟨⟨⟨-, hdone⟩, hresult⟩, hconflicts⟩, hreceipts⟩ := hstageable
    refine ⟨hok.outbox, fun _ => ⟨restore, rfl, hne⟩, ?_, ?_, hok.receipts, hok.once, ?_⟩
    · rintro pass (_ | ⟨_, hpass⟩)
      · exact List.mem_cons_self
      · exact List.mem_cons_of_mem _ (hok.issued pass hpass)
    · rintro pass (_ | ⟨_, hpass⟩)
      · exact ⟨row, hrow, rfl, rfl, hdone, hresult, hconflicts⟩
      · exact hok.claimed pass hpass
    · rintro pass (_ | ⟨_, hpass⟩) htoken
      · exact hreceipts
      · -- the token of an older pass is not the new one
        obtain rfl := Option.some.inj htoken
        exact absurd (hok.issued pass hpass) hfresh
  | renew expiresAt _ => exact hok.row rfl id
  | @finish _ _ _ pass hpass h =>
    obtain ⟨howned, hfresh, rfl⟩ := finish_cases h
    have hbase := (hok.restored howned pass.restoreStatus).crash pass
    refine ⟨hbase.outbox, hbase.restorable, hbase.issued, hbase.claimed, ?_, ?_, fun _ _ htoken => nomatch htoken⟩
    · rintro receipt (_ | ⟨_, hreceipt⟩)
      · exact hok.claimed _ hpass
      · exact hok.receipts receipt hreceipt
    · refine List.nodup_cons.mpr ⟨fun hmem => ?_, hok.once⟩
      obtain ⟨receipt, hreceipt, hsame⟩ := List.mem_map.mp hmem
      exact hfresh receipt hreceipt hsame
  | @release pass _ =>
    unfold releaseStaging
    split
    · next howned => exact (hok.restored howned _).crash pass
    · exact hok.crash pass
  | crash pass => exact hok.crash pass
  | elsewhere job hlease hstatus _ =>
    refine hok.row hlease.1 fun hold hingesting => ?_
    obtain hsame | hother := hstatus
    · rw [hlease.2]
      exact hold (hsame ▸ hingesting)
    · exact absurd hingesting hother

/-- What the latest report settles stands in the job, or in the lease that gives it back. -/
def Settled (w : EvidenceWorld) : Prop :=
  ∀ latest status, latestReport w.outbox.reports = some latest → settledStatus latest.report = some status →
    w.job.restoreStatus = some status

theorem Settled.step (hstrict : strict) (hok : StagingOk runtime dispatch w) (hsettled : Settled w)
    (h : EvidenceStep runtime dispatch assigned executionId strict w w') : Settled w' := by
  intro latest status hlatest hstatus
  cases h with
  | report hsharp h =>
    obtain ⟨hcancelled, hfinal⟩ := hsharp hstrict
    obtain ⟨-, ⟨hnone, -⟩ | ⟨last, hlast, hprojected⟩⟩ := report_cases h
    · cases hnone.symm.trans hlatest
    · cases hlast.symm.trans hlatest
      refine restoreStatus_stopped ?_ ?_ hprojected hstatus
      · rwa [Readings.Sharp, keeps_running.expires]
      · rwa [Readings.Sharp, keeps_running.expires]
  | answered _ hreports => exact hsettled latest status (hreports ▸ hlatest) hstatus
  | settle hsharp h =>
    obtain ⟨hnone, -⟩ | ⟨last, hlast, hprojected⟩ := settle_cases hok.outbox h
    · cases hnone.symm.trans hlatest
    · cases hlast.symm.trans hlatest
      exact restoreStatus_stopped (hsharp hstrict).1 (hsharp hstrict).2 hprojected hstatus
  | claim _ h =>
    obtain rfl | ⟨row, -, -, restore, hrestore, -, rfl⟩ := claim_cases h
    · exact hsettled latest status hlatest hstatus
    · exact hrestore.symm.trans (hsettled latest status hlatest hstatus)
  | renew expiresAt _ => exact hsettled latest status hlatest hstatus
  | finish _ h =>
    obtain ⟨howned, -, rfl⟩ := finish_cases h
    exact (restored_status hok.restorable howned _).1.trans (hsettled latest status hlatest hstatus)
  | @release pass _ =>
    unfold releaseStaging
    dsimp only
    split
    · next howned => exact (restored_status hok.restorable howned _).1.trans (hsettled latest status hlatest hstatus)
    · exact hsettled latest status hlatest hstatus
  | crash pass => exact hsettled latest status hlatest hstatus
  | elsewhere job _ _ hunsettled =>
    -- a job with a settled status is none that others touch
    have hmem := hunsettled hstrict
    have hkept := hsettled latest status hlatest hstatus
    rw [WorkerJob.restoreStatus, if_neg fun heq => absurd (heq ▸ hmem) (by decide)] at hkept
    cases hkept
    exact absurd hmem (settledStatus_ne hstatus)

end Invariant

/-! ## Runs -/

section Runs
variable {runtime : Runtime} {dispatch : Dispatch} {assigned : Observation → Except String Envelope}
  {executionId : String} {strict : Prop} {w : EvidenceWorld}

theorem stagingOk_start (h : EvidenceStart w) : StagingOk runtime dispatch w := by
  obtain ⟨houtbox, hstatus, hreceipts, hpasses⟩ := h
  refine ⟨houtbox ▸ outboxOk_empty, fun hingesting => absurd hingesting hstatus, ?_, ?_, ?_, ?_, ?_⟩ <;>
    simp [hreceipts, hpasses]

/-- However passes, projections, answers of the hub and other writers interleave, and whatever the clocks show: evidence
is staged at most once for a report, only for an acknowledged one that was never put aside, the closing insertion of
an owner meets no receipt, and a claim finds a status that its lease can give back. -/
theorem evidence_staged_once (hcollates : runtime.Collates)
    (hassigned : ∀ input envelope, assigned input = .ok envelope → dispatch.envelope = .ok envelope)
    (h : Reachable EvidenceStart (EvidenceStep runtime dispatch assigned executionId False) w) :
    (w.receipts.map EvidenceReceipt.sequence).Nodup ∧
      (∀ receipt ∈ w.receipts, Due w.outbox receipt.sequence receipt.contentSignature) ∧
      (∀ pass ∈ w.passes, w.job.owned pass.token = true →
        ∀ receipt ∈ w.receipts, receipt.sequence ≠ pass.report.sequence) ∧
      ∃ status, w.job.restoreStatus = some status ∧ status ≠ .ingesting := by
  have hok := h.invariant (fun _ => stagingOk_start) fun _ _ => StagingOk.step hcollates hassigned
  refine ⟨hok.once, hok.receipts, ?_, ?_⟩
  · intro pass hpass howned
    simp only [WorkerJob.owned, Bool.and_eq_true, beq_iff_eq] at howned
    exact hok.ahead pass hpass howned.2
  · unfold WorkerJob.restoreStatus
    split
    · next hingesting => exact hok.restorable hingesting
    · next hother => exact ⟨_, rfl, hother⟩

/-- While the clock readings of no update are torn and other writers leave an ended job alone, the status that the latest
report settles is the job's, or the one that its lease gives back. -/
theorem settled_status_kept (hcollates : runtime.Collates)
    (hassigned : ∀ input envelope, assigned input = .ok envelope → dispatch.envelope = .ok envelope)
    (h : Reachable EvidenceStart (EvidenceStep runtime dispatch assigned executionId True) w) {latest : StoredReport}
    {status : SimJobStatus} (hlatest : latestReport w.outbox.reports = some latest)
    (hstatus : settledStatus latest.report = some status) : w.job.restoreStatus = some status := by
  have hboth : StagingOk runtime dispatch w ∧ Settled w := by
    refine h.invariant (P := fun w => StagingOk runtime dispatch w ∧ Settled w) ?_ ?_
    · refine fun w hstart => ⟨stagingOk_start hstart, fun latest _ hlatest => ?_⟩
      rw [hstart.outbox] at hlatest
      cases hlatest
    · exact fun w w' hold hstep => ⟨hold.1.step hcollates hassigned hstep, hold.2.step trivial hold.1 hstep⟩
  exact hboth.2 latest status hlatest hstatus

end Runs

/-! ## A report staged while the final one comes in -/

def emptyResult : Json := .obj [("job_id", .str exampleExecution), ("state", .str "running"), ("polars", .arr [])]

def exampleWorld : EvidenceWorld := ⟨⟨[], []⟩, ⟨.running, some exampleExecution, none, none, none, none⟩, [], [], []⟩

/-- Without its error an outcome is the next state; a transaction that throws leaves the old one. -/
def orSame (w : EvidenceWorld) (outcome : Except String EvidenceWorld) : EvidenceWorld := outcome.toOption.getD w

def reported (input : Observation) (w : EvidenceWorld) : EvidenceWorld :=
  orSame w ((reportProgress exampleRuntime (fun _ => exampleDispatch.envelope) ⟨0, 0⟩ ⟨0, 0⟩ w.outbox w.job input).map
    fun after => { w with outbox := after.1, job := after.2 })

def answered (w : EvidenceWorld) : EvidenceWorld :=
  orSame w ((acknowledgeProgressiveWorkerReport w.outbox.rows ⟨exampleEnvelope.solverId, 1,
    "22ddd42fd35f72deafcd9da1b2ac6b4696cb455134fc8a5b3dab2d6569a449a6"⟩).map fun rows =>
      { w with outbox := { w.outbox with rows } })

def claimed (w : EvidenceWorld) : EvidenceWorld :=
  if "token" ∈ w.issued then w
  else orSame w (claimProgressiveWorkerEvidence exampleRuntime exampleDispatch.envelope (.ok ()) exampleExecution "token" 0
    10 none w)

def finished (w : EvidenceWorld) : EvidenceWorld :=
  match w.passes with
  | [] => w
  | pass :: _ => orSame w (finishStaging exampleRuntime exampleDispatch.envelope (.ok ()) exampleExecution 5 w pass)

def exampleStaged : EvidenceWorld :=
  finished (reported (exampleObservation cancelledStatus neverStartedProof)
    (claimed (answered (reported { exampleObservation (runningStatus 0) .null with result := emptyResult } exampleWorld))))

abbrev ExampleStep (strict : Prop) : EvidenceWorld → EvidenceWorld → Prop :=
  EvidenceStep exampleRuntime exampleDispatch (fun _ => exampleDispatch.envelope) exampleExecution strict

section Example
variable {strict : Prop} {w : EvidenceWorld}

theorem run_orSame {outcome : Except String EvidenceWorld} (h : ∀ w', outcome = .ok w' → ExampleStep strict w w') :
    ReflTransGen (ExampleStep strict) w (orSame w outcome) := by
  cases outcome with
  | error text => exact .refl
  | ok w' => exact .single (h w' rfl)

theorem run_reported (input : Observation) : ReflTransGen (ExampleStep strict) w (reported input w) := by
  refine run_orSame fun w' h => ?_
  obtain ⟨⟨outbox, job⟩, hreport, rfl⟩ := map_eq_ok.1 h
  exact .report (fun _ => ⟨by rfl, by rfl⟩) hreport

theorem run_answered : ReflTransGen (ExampleStep strict) w (answered w) := by
  refine run_orSame fun w' h => ?_
  obtain ⟨rows, hrows, rfl⟩ := map_eq_ok.1 h
  refine .answered (.acknowledge hrows) ?_
  rw [acknowledge_eq_ok hrows]
  exact acknowledgeRows_stored _ _

theorem run_claimed : ReflTransGen (ExampleStep strict) w (claimed w) := by
  unfold claimed
  split
  · exact .refl
  · next hfresh => exact run_orSame fun w' h => .claim hfresh h

theorem run_finished : ReflTransGen (ExampleStep strict) w (finished w) := by
  unfold finished
  split
  · exact .refl
  · next hpasses => exact run_orSame fun w' h => .finish (hpasses ▸ List.mem_cons_self) h

theorem exampleStaged_run : ReflTransGen (ExampleStep strict) exampleWorld exampleStaged :=
  (run_reported _).trans (run_answered.trans (run_claimed.trans ((run_reported _).trans run_finished)))

theorem exampleWorld_start : EvidenceStart exampleWorld := ⟨rfl, by decide, rfl, rfl⟩

theorem exampleStaged_ends : exampleStaged.receipts.length = 1 ∧
    (latestReport exampleStaged.outbox.reports).bind (fun latest => settledStatus latest.report) = some .cancelled := by
  decide +kernel

theorem evidence_staged_once_example :
    exampleStaged.receipts.length = 1 ∧ (exampleStaged.receipts.map EvidenceReceipt.sequence).Nodup ∧
      ∃ status, exampleStaged.job.restoreStatus = some status ∧ status ≠ .ingesting := by
  obtain ⟨honce, -, -, hrestore⟩ := evidence_staged_once exampleRuntime_collates (fun _ _ h => h)
    ⟨_, exampleWorld_start, exampleStaged_run⟩
  exact ⟨exampleStaged_ends.1, honce, hrestore⟩

theorem settled_status_kept_example : exampleStaged.job.restoreStatus = some .cancelled := by
  obtain ⟨latest, hlatest, hstatus⟩ := Option.bind_eq_some_iff.mp exampleStaged_ends.2
  exact settled_status_kept exampleRuntime_collates (fun _ _ h => h) ⟨_, exampleWorld_start, exampleStaged_run⟩ hlatest
    hstatus

end Example

end XFoilFoam.Remote
