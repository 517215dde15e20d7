import XFoilFoam.Foundations.Decimal

/-! `classifyQueueLifecycle` of `packages/engine-client/src/lifecycle.ts`: what the control plane makes
of a job from the engine's runtime summary and its queue. -/
namespace XFoilFoam.Sweeper
open Decimal
set_option autoImplicit false

/-! ## What is read -/

inductive QueueRuntimeState where
  | notSubmitted
  | workerVisible
  | detachedRunning
  | resultReady
  | missingGrace
  | orphaned
  | corruptStatus
  | corruptResult
  | unknown
  deriving DecidableEq, Repr

/-- A `string | Date`; a `Date` is its time value, NaN when it is invalid. -/
inductive DateInput where
  | text (value : String)
  | date (time : Double)
  deriving DecidableEq

structure QueueLifecycleJob where
  status : String
  engineJobId : Option String
  engineState : Option String
  createdAt : Option DateInput
  submittedAt : Option DateInput
  polledAt : Option DateInput
  pendingAgeSec : Option Double
  deriving DecidableEq

structure QueueLifecycleOptions where
  now : Option Double
  staleMs : Option Double
  missingRequeueMs : Option Double
  recoverImmediately : Option Bool
  deriving DecidableEq

inductive JobState where
  | pending
  | running
  | completed
  | failed
  | cancelled
  deriving DecidableEq, Repr

/-- The fields of `JobRuntimeSummary` that the classification reads. -/
structure JobRuntimeSummary where
  processCount : Double
  runtimeHeartbeatAgeSec : Option Double
  statusError : Option String
  resultReadable : Bool
  resultError : Option String
  hasResult : Bool
  resultState : Option JobState
  deriving DecidableEq

structure EngineTaskSummary where
  jobId : Option String
  deriving DecidableEq, Repr

structure EngineQueueState where
  active : List EngineTaskSummary
  reserved : List EngineTaskSummary
  scheduled : List EngineTaskSummary
  jobIds : List String
  deriving DecidableEq, Repr

structure QueueLifecycleClassification where
  runtimeState : QueueRuntimeState
  stale : Bool
  recoverable : Bool
  needsIngest : Bool
  engineQueueMatch : Bool
  processCount : Double
  resultReady : Bool
  staleReason : Option String
  deriving DecidableEq

/-- The clock of `new Date()` and the time value of `new Date(text)`. -/
structure Dates where
  clock : Double
  parse : String → Double

def truthy (text : Option String) : Bool := (text.getD "") != ""

/-! ## The signals -/

def engineQueueListsJob (queue : Option EngineQueueState) (engineJobId : Option String) : Bool :=
  match queue, engineJobId with
  | some queue, some engineJobId =>
    engineJobId != "" && (queue.jobIds.contains engineJobId ||
      (queue.active ++ queue.reserved ++ queue.scheduled).any (·.jobId == some engineJobId))
  | _, _ => false

def validTime (time : Double) : Option Double := if time.val = .nan then none else some time

def dateOrNull (dates : Dates) : Option DateInput → Option Double
  | none => none
  | some (.date time) => validTime time
  | some (.text value) => if value = "" then none else validTime (dates.parse value)

def ageStart (dates : Dates) (job : QueueLifecycleJob) (fallback : Double) : Double :=
  ((dateOrNull dates job.submittedAt).or (dateOrNull dates job.createdAt)).getD fallback

def QueueLifecycleOptions.nowOr (options : QueueLifecycleOptions) (dates : Dates) : Double :=
  options.now.getD dates.clock

/-- `DEFAULT_STALE_MS` and `DEFAULT_MISSING_REQUEUE_MS` for absent options. -/
def QueueLifecycleOptions.staleAfter (options : QueueLifecycleOptions) : Double :=
  options.staleMs.getD (Binary64.lit (30 * 60 * 1000))

def QueueLifecycleOptions.requeueAfter (options : QueueLifecycleOptions) : Double :=
  options.missingRequeueMs.getD (Binary64.lit (10 * 60 * 1000))

def atLeastZero (x : Double) : Double := Binary64.max (Binary64.lit 0) x

def pendingAgeMs (dates : Dates) (job : QueueLifecycleJob) (options : QueueLifecycleOptions) : Double :=
  match job.pendingAgeSec with
  | none =>
    let now := options.nowOr dates
    atLeastZero (Binary64.sub now (ageStart dates job now))
  | some seconds => atLeastZero (Binary64.mul seconds (Binary64.lit 1000))

/-- `pendingAgeMs > staleMs`. -/
def overdue (dates : Dates) (job : QueueLifecycleJob) (options : QueueLifecycleOptions) : Bool :=
  Binary64.lt options.staleAfter (pendingAgeMs dates job options)

def QueueLifecycleJob.active (job : QueueLifecycleJob) : Bool :=
  ["pending", "submitted", "running", "ingesting"].contains job.status

def processCount (runtime : Option JobRuntimeSummary) : Double :=
  atLeastZero ((runtime.map JobRuntimeSummary.processCount).getD (Binary64.lit 0))

/-- `processCount > 0`. -/
def processesRun (runtime : Option JobRuntimeSummary) : Bool :=
  Binary64.lt (Binary64.lit 0) (processCount runtime)

def heartbeatAlive (runtime : Option JobRuntimeSummary) : Bool :=
  (runtime.bind JobRuntimeSummary.runtimeHeartbeatAgeSec).any fun age =>
    Binary64.isFinite age && Binary64.le age (Binary64.lit 120)

def resultReady (runtime : Option JobRuntimeSummary) : Bool :=
  runtime.any fun summary => summary.hasResult && summary.resultReadable && summary.resultState.isSome

def resultError (runtime : Option JobRuntimeSummary) : Option String :=
  runtime.bind JobRuntimeSummary.resultError

def statusError (runtime : Option JobRuntimeSummary) : Option String :=
  runtime.bind JobRuntimeSummary.statusError

/-- Whether the grace period of a missing job is over, or waived. -/
def graceOver (dates : Dates) (job : QueueLifecycleJob) (options : QueueLifecycleOptions) : Bool :=
  let missingSince :=
    if job.engineState = some "missing" then
      ((dateOrNull dates job.polledAt).or (dateOrNull dates job.submittedAt)).or
        (dateOrNull dates job.createdAt)
    else none
  let missingAgeMs := match missingSince with
    | some since => atLeastZero (Binary64.sub (options.nowOr dates) since)
    | none => Binary64.lit 0
  options.recoverImmediately.getD false || Binary64.le options.requeueAfter missingAgeMs

/-! ## The classification -/

def processPhrase (count : Double) : String :=
  numberText count ++ " OpenFOAM process" ++
    (if Binary64.eq count (Binary64.lit 1) then "" else "es") ++ " still run"

def detachedReason (runtime : Option JobRuntimeSummary) : String :=
  if truthy (statusError runtime) then
    if processesRun runtime then
      "status file is unreadable, but " ++ processPhrase (processCount runtime)
    else "status file is unreadable, but the worker heartbeat is still fresh"
  else if processesRun runtime then
    processPhrase (processCount runtime) ++ " although Celery no longer lists the task"
  else "worker heartbeat is still fresh although Celery no longer lists the task"

def classifyQueueLifecycle (dates : Dates) (job : QueueLifecycleJob)
    (runtime : Option JobRuntimeSummary) (queue : Option EngineQueueState)
    (options : QueueLifecycleOptions) : QueueLifecycleClassification :=
  let engineQueueMatch := engineQueueListsJob queue job.engineJobId
  let active := job.active
  let late := overdue dates job options
  let count := processCount runtime
  let ready := resultReady runtime
  if !truthy job.engineJobId then
    ⟨.notSubmitted, active && late, false, false, engineQueueMatch, count, ready,
      if active && late then some "job has not been submitted to the engine" else none⟩
  else if ready then
    ⟨.resultReady, false, false, active, engineQueueMatch, count, ready,
      if active then some "engine result file is ready for ingestion" else none⟩
  else if truthy (resultError runtime) then
    let lost := active && late && Binary64.eq count (Binary64.lit 0)
    ⟨.corruptResult, lost, lost, false, engineQueueMatch, count, ready,
      some ("engine result file is unreadable: " ++ (resultError runtime).getD "")⟩
  else if engineQueueMatch then
    ⟨.workerVisible, false, false, false, engineQueueMatch, count, ready, none⟩
  else if processesRun runtime || heartbeatAlive runtime then
    ⟨if truthy (statusError runtime) then .corruptStatus else .detachedRunning, false, false, false,
      engineQueueMatch, count, ready, some (detachedReason runtime)⟩
  else if truthy (statusError runtime) then
    ⟨.corruptStatus, active && late, active && late, false, engineQueueMatch, count, ready,
      some ("status file is unreadable and no OpenFOAM process is running: " ++
        (statusError runtime).getD "")⟩
  else if active && late then
    let recoverable := graceOver dates job options
    ⟨if recoverable then .orphaned else .missingGrace, true, recoverable, false, engineQueueMatch,
      count, ready,
      some (if recoverable then
        "engine job is absent from Celery, has no OpenFOAM process, and no readable result file"
      else "engine job is absent from Celery; waiting through missing-job grace before recovery")⟩
  else ⟨.unknown, false, false, false, engineQueueMatch, count, ready, none⟩

/-! ## What recovery needs -/

variable {dates : Dates} {job : QueueLifecycleJob} {runtime : Option JobRuntimeSummary}
  {queue : Option EngineQueueState} {options : QueueLifecycleOptions}

/-- Nothing of the job is alive and nothing of it is left to ingest: it may be solved again. -/
structure Abandoned (job : QueueLifecycleJob) (runtime : Option JobRuntimeSummary)
    (queue : Option EngineQueueState) : Prop where
  active : job.active = true
  submitted : truthy job.engineJobId = true
  noResult : resultReady runtime = false
  unlisted : engineQueueListsJob queue job.engineJobId = false
  noProcess : processesRun runtime = false
  noHeartbeat : heartbeatAlive runtime = false

structure ResultLost (dates : Dates) (job : QueueLifecycleJob) (runtime : Option JobRuntimeSummary)
    (options : QueueLifecycleOptions) : Prop where
  active : job.active = true
  submitted : truthy job.engineJobId = true
  noResult : resultReady runtime = false
  unreadable : truthy (resultError runtime) = true
  late : overdue dates job options = true
  noProcess : Binary64.eq (processCount runtime) (Binary64.lit 0) = true

theorem recoverable_cases
    (h : (classifyQueueLifecycle dates job runtime queue options).recoverable = true) :
    ResultLost dates job runtime options ∨ Abandoned job runtime queue := by
  simp only [classifyQueueLifecycle] at h
  split at h
  · cases h
  next hid =>
  have hsubmitted : truthy job.engineJobId = true := by simpa using hid
  split at h
  · cases h
  next hresult =>
  have hnone : resultReady runtime = false := by simpa using hresult
  split at h
  · next herror =>
    simp only [Bool.and_eq_true] at h
    exact .inl ⟨h.1.1, hsubmitted, hnone, herror, h.1.2, h.2⟩
  split at h
  · cases h
  next hlisted =>
  split at h
  · cases h
  next halive =>
  simp only [Bool.or_eq_true, not_or, Bool.not_eq_true] at halive
  have habandoned : job.active = true → Abandoned job runtime queue := fun hactive =>
    ⟨hactive, hsubmitted, hnone, by simpa using hlisted, halive.1, halive.2⟩
  right
  split at h
  · simp only [Bool.and_eq_true] at h
    exact habandoned h.1
  split at h
  · next hlate =>
    simp only [Bool.and_eq_true] at hlate
    exact habandoned hlate.1
  · cases h

theorem ResultLost.recoverable (h : ResultLost dates job runtime options) :
    (classifyQueueLifecycle dates job runtime queue options).recoverable = true := by
  unfold classifyQueueLifecycle
  simp [h.active, h.submitted, h.noResult, h.unreadable, h.late, h.noProcess]

theorem resultReady_of_needsIngest
    (h : (classifyQueueLifecycle dates job runtime queue options).needsIngest = true) :
    resultReady runtime = true := by
  simp only [classifyQueueLifecycle] at h
  grind

theorem processesRun_of_zero (h : Binary64.eq (processCount runtime) (Binary64.lit 0) = true) :
    processesRun runtime = false := by
  have hval := Double.val_of_eq h Double.lit_zero
  have hlt := Double.lt_iff Double.lit_zero hval
  simpa [processesRun] using hlt

theorem ResultLost.abandoned (h : ResultLost dates job runtime options)
    (hlisted : engineQueueListsJob queue job.engineJobId = false)
    (hheartbeat : heartbeatAlive runtime = false) : Abandoned job runtime queue :=
  ⟨h.active, h.submitted, h.noResult, hlisted, processesRun_of_zero h.noProcess, hheartbeat⟩

theorem not_ingested_and_recovered :
    ¬((classifyQueueLifecycle dates job runtime queue options).needsIngest = true ∧
      (classifyQueueLifecycle dates job runtime queue options).recoverable = true) := by
  rintro ⟨hingest, hrecover⟩
  have hready := resultReady_of_needsIngest hingest
  obtain hlost | habandoned := recoverable_cases hrecover
  · exact Bool.false_ne_true (hlost.noResult.symm.trans hready)
  · exact Bool.false_ne_true (habandoned.noResult.symm.trans hready)

/-- Recovery is safe unless a late job with an unreadable result and no process is still listed by the
queue or has a fresh heartbeat. -/
theorem recovery_safe_iff (dates : Dates) (job : QueueLifecycleJob)
    (runtime : Option JobRuntimeSummary) (queue : Option EngineQueueState)
    (options : QueueLifecycleOptions) :
    (((classifyQueueLifecycle dates job runtime queue options).recoverable = true →
        Abandoned job runtime queue) ∧
      ¬((classifyQueueLifecycle dates job runtime queue options).needsIngest = true ∧
        (classifyQueueLifecycle dates job runtime queue options).recoverable = true)) ↔
    ¬(ResultLost dates job runtime options ∧
      (engineQueueListsJob queue job.engineJobId = true ∨ heartbeatAlive runtime = true)) := by
  constructor
  · rintro ⟨hsafe, -⟩ ⟨hlost, hsignal⟩
    have habandoned := hsafe hlost.recoverable
    obtain hlisted | hheartbeat := hsignal
    · exact Bool.false_ne_true (habandoned.unlisted.symm.trans hlisted)
    · exact Bool.false_ne_true (habandoned.noHeartbeat.symm.trans hheartbeat)
  · intro hquiet
    refine ⟨fun hrecover => ?_, not_ingested_and_recovered⟩
    obtain hlost | habandoned := recoverable_cases hrecover
    · simp only [not_and, not_or, Bool.not_eq_true] at hquiet
      exact hlost.abandoned (hquiet hlost).1 (hquiet hlost).2
    · exact habandoned

def lateJob : QueueLifecycleJob :=
  ⟨"running", some "j1", none, none, none, none, some (Binary64.lit 3600)⟩

def unreadableResult : JobRuntimeSummary :=
  ⟨Binary64.lit 0, some (Binary64.lit 5), none, false, some "Unterminated string", false, none⟩

def listingQueue : EngineQueueState := ⟨[⟨some "j1"⟩], [], [], ["j1"]⟩

def defaultOptions : QueueLifecycleOptions := ⟨none, none, none, none⟩

/-- The queue lists the job and its worker beats, and still it is requeued. -/
theorem listed_job_recoverable :
    let classified := classifyQueueLifecycle ⟨Binary64.lit 0, fun _ => Binary64.lit 0⟩ lateJob
      (some unreadableResult) (some listingQueue) defaultOptions
    classified.recoverable = true ∧ classified.engineQueueMatch = true ∧
      heartbeatAlive (some unreadableResult) = true ∧
      ¬Abandoned lateJob (some unreadableResult) (some listingQueue) := by
  refine ⟨by decide +kernel, by decide +kernel, by decide +kernel, fun h => ?_⟩
  have hlisted : engineQueueListsJob (some listingQueue) lateJob.engineJobId = true := by decide +kernel
  exact Bool.false_ne_true (h.unlisted.symm.trans hlisted)

end XFoilFoam.Sweeper
