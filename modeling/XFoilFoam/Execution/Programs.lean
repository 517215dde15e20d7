import XFoilFoam.Foundations.RelyGuarantee
import XFoilFoam.Submission.Registration

/-! One job directory and the programs that meet in it: `run_polar` of `tasks.py`, `execution_stop.py`, and the guard of
`retention.py`. -/
namespace XFoilFoam.Execution
open Submission (JobState)
set_option autoImplicit false

/-! ## Files, lock and processes -/

structure NamespaceIdentity where
  bootId : String
  pidNamespace : String
  uid : ℕ
  deriving DecidableEq

inductive Actor where
  | delivery (n : ℕ)
  | canceller (n : ℕ)
  | inspector (n : ℕ)
  | retention (n : ℕ)
  deriving DecidableEq

/-- The fields of `JobStatus` that decide anything here. -/
structure JobStatus where
  state : JobState
  engine : Option String := none
  startedAt : Option ℕ := none

def terminal : JobState → Bool
  | .completed | .failed | .cancelled => true
  | _ => false

def live : JobState → Bool
  | .pending | .running => true
  | _ => false

/-- `lock` is the file that `.execute.lock` names. -/
structure JobDir where
  request : Option String := none
  cancelled : Bool := false
  result : Option JobState := none
  status : Option JobStatus := none
  owner : Option NamespaceIdentity := none
  notStarted : Bool := false
  lock : Option ℕ := none

def JobDir.isEmpty (d : JobDir) : Bool :=
  d.request.isNone && !d.cancelled && d.result.isNone && d.status.isNone && d.owner.isNone && !d.notStarted && d.lock.isNone

inductive Fence where
  | cancelMarker
  | terminalResult
  deriving DecidableEq

inductive Basis where
  | recordedExecutionNamespace
  | neverStartedCancellationFence
  deriving DecidableEq

structure StopProof where
  executionStopped : Bool := false
  producerStopped : Bool := false
  namespaceVerified : Bool := false
  remaining : Option ℕ := none
  error : Option String := none
  fence : Option Fence := none
  ownershipBasis : Option Basis := none

/-- The volume and the processes; the last four fields record what was done.  `receipts` are those of a registration, which
lie outside the directory as the one of its cancellation does. -/
structure World where
  made : Bool := false
  dir : JobDir := {}
  receipts : Bool := false
  cancelReceipt : Bool := false
  nextFile : ℕ := 0
  held : ℕ → Option Actor := fun _ => none
  processes : NamespaceIdentity → ℕ := fun _ => 0
  inside : Actor → Bool := fun _ => false
  entered : List Actor := []
  refused : List (Actor × Actor) := []
  proofs : List StopProof := []

inductive Raised where
  | jobCancelled
  | retentionRefused (reason : String)
  | osError (reason : String)
  | valueError (reason : String)
  | runtimeError (reason : String)
  | other (kind : String)

inductive Outcome where
  | state (state : JobState)
  | duplicateSkipped
  | marked
  | proof (proof : StopProof)
  | stripped
  | deleted

abbrev Act (α : Type) := Task World Raised α

/-- A write makes the directory. -/
def World.mapDir (w : World) (f : JobDir → JobDir) : World := { w with made := true, dir := f w.dir }

/-! ## `JobStore` -/

def readResult : Act (Option JobState) := .read fun w => w.dir.result

def writeResult (state : JobState) : Act Unit := .modify fun w => w.mapDir fun d => { d with result := some state }

def readStatus : Act (Option JobStatus) := .read fun w => w.dir.status

/-- What `write_status` takes over from the status before. -/
def mergeStatus (previous : Option JobStatus) (status : JobStatus) (now : ℕ) : JobStatus :=
  let engine := status.engine <|> previous.bind fun previous => previous.engine
  let startedAt := status.startedAt <|> previous.bind fun previous => previous.startedAt
  { status with
    engine := engine
    startedAt := if status.state = .running then startedAt <|> some now else startedAt }

def writeStatus (status : JobStatus) (now : ℕ) : Act Unit := do
  let previous ← readStatus
  .modify fun w => w.mapDir fun d => { d with status := some (mergeStatus previous status now) }

def isCancelled : Act Bool := do
  let marked ← .read fun w => w.dir.cancelled
  if marked then .done true else .read fun w => w.cancelReceipt

def terminalizeCancelledResult : Act Bool := do
  let result ← readResult
  match result with
  | none => .done false
  | some state => if terminal state then .done false else do
    writeResult .cancelled
    .done true

/-! ## The execution lock -/

/-- `open` of the lock file, in a directory that is there. -/
def World.open_ (w : World) : Option ℕ × World :=
  if !w.made then (none, w)
  else
    match w.dir.lock with
    | some file => (some file, w)
    | none => (some w.nextFile, { w with dir := { w.dir with lock := some w.nextFile }, nextFile := w.nextFile + 1 })

/-- `flock` with `LOCK_EX | LOCK_NB`. -/
def World.flock (w : World) (i : Actor) (file : ℕ) : Bool × World :=
  match w.held file with
  | none => (true, { w with held := Function.update w.held file (some i) })
  | some holder => (false, { w with refused := w.refused ++ [(i, holder)] })

def openLock : Act (Option ℕ) := .update World.open_

def tryLock (i : Actor) (file : ℕ) : Act Bool := .update fun w => w.flock i file

def unlock (file : ℕ) : Act Unit := .modify fun w => { w with held := Function.update w.held file none }

/-! ## `run_polar` -/

def recordExecutionOwner (identity : NamespaceIdentity) : Act Unit := do
  let owner ← .read fun w => w.dir.owner
  if owner.isSome ∧ owner ≠ some identity then
    .raised (.runtimeError "Job execution belongs to a different process namespace; submit a fresh job")
  else do
    .modify fun w => w.mapDir fun d => { d with owner := some identity }
    .modify fun w => w.mapDir fun d => { d with notStarted := false }

/-- `execute_job`; what it does inside is `work`. -/
def executeJob (i : Actor) (work : Act JobState) : Act JobState := do
  .modify fun w => { w with inside := Function.update w.inside i true, entered := w.entered ++ [i] }
  work.ensure (.modify fun w => { w with inside := Function.update w.inside i false })

/-- The handlers of `run_polar` around `execute_job`. -/
def afterFailure (engine : String) (now : ℕ) : Raised → Act Outcome
  | .jobCancelled => do
    let terminalized ← terminalizeCancelledResult
    let result ← readResult
    match result with
    | some state =>
      if !terminalized then .done (.state state)
      else do
        let status ← readStatus
        writeStatus { status.getD { state := .cancelled } with state := .cancelled, engine := some engine } now
        writeResult state
        .done (.state .cancelled)
    | none => do
      let status ← readStatus
      writeStatus { status.getD { state := .cancelled } with state := .cancelled, engine := some engine } now
      writeResult .cancelled
      .done (.state .cancelled)
  | e => do
    writeStatus { state := .failed, engine := some engine } now
    writeResult .failed
    .raised e

def runOwned (i : Actor) (identity : NamespaceIdentity) (engine : String) (work : Act JobState) (now : ℕ) :
    Act Outcome := do
  recordExecutionOwner identity
  let status ← readStatus
  let _ ← (match status with
    | some status => writeStatus { status with state := .running, engine := some engine } now
    | none => .done () : Act Unit)
  ((executeJob i work).bind fun state => .done (.state state)).handle (afterFailure engine now)

def cancelBeforeExecution (now : ℕ) : Act Outcome := do
  let _ ← terminalizeCancelledResult
  let status ← readStatus
  writeStatus { status.getD { state := .cancelled } with state := .cancelled } now
  .done (.state .cancelled)

def runLocked (i : Actor) (identity : NamespaceIdentity) (engine : String) (work : Act JobState) (now : ℕ) :
    Act Outcome := do
  let existing ← readResult
  match existing.filter terminal with
  | some state => .done (.state state)
  | none => do
    let cancelled ← isCancelled
    if cancelled then cancelBeforeExecution now else runOwned i identity engine work now

def takeLock (i : Actor) (identity : NamespaceIdentity) (engine : String) (work : Act JobState) (now : ℕ) :
    Act Outcome := do
  .modify fun w => { w with made := true }
  let file ← openLock
  match file with
  | none => .raised (.osError ".execute.lock")
  | some file => do
    let taken ← tryLock i file
    if taken then (runLocked i identity engine work now).ensure (unlock file)
    else do
      let existing ← readResult
      match existing with
      | some state => .done (.state state)
      | none => .done .duplicateSkipped

/-- The message of a delivery: the execution identity it names, and its request as JSON. -/
structure Message where
  executionId : Option String
  request : String

def runPolar (jobId : String) (i : Actor) (message : Message) (identity : NamespaceIdentity) (engine : String)
    (work : Act JobState) (now : ℕ) : Act Outcome :=
  match message.executionId with
  | none => takeLock i identity engine work now
  | some executionId =>
    if executionId ≠ jobId then .raised (.valueError "Stable execution message has the wrong job identity")
    else do
      let registered ← .read fun w => w.dir.request
      match registered with
      | none => do
        let cancelled ← isCancelled
        if cancelled then .done (.state .cancelled)
        else .raised (.runtimeError "Stable execution registration is unavailable; refusing to recreate retired work")
      | some registered =>
        if registered ≠ message.request then
          .raised (.valueError "Stable execution message differs from its immutable registration")
        else takeLock i identity engine work now

/-! ## `execution_stop_proof` -/

def inspectProcesses (identity : NamespaceIdentity) (fence : Fence) (basis : Basis) : Act StopProof := .update fun w =>
  let remaining := w.processes identity
  let proof : StopProof :=
    { executionStopped := remaining = 0
      producerStopped := true
      namespaceVerified := true
      remaining := some remaining
      error := if remaining = 0 then none else some "Job child processes remain alive"
      fence := some fence
      ownershipBasis := some basis }
  (proof, { w with proofs := w.proofs ++ [proof] })

def inspectLocked (identity : NamespaceIdentity) (fence : Fence) : Act StopProof := do
  let owner ← .read fun w => w.dir.owner
  match owner with
  | some owner =>
    if owner ≠ identity then
      .done { fence := some fence, error := some "Reaper cannot verify the execution process namespace" }
    else inspectProcesses identity fence .recordedExecutionNamespace
  | none => do
    let prepared ← .read fun w => w.dir.notStarted
    if !prepared then .raised (.osError ".execution-not-started.json")
    else do
      let status ← readStatus
      let pending := status.any fun status =>
        status.engine.isNone && status.startedAt.isNone && (status.state = .pending || status.state = .cancelled)
      if fence ≠ .cancelMarker ∨ pending = false then
        .done { fence := some fence, error := some "Job has no exact never-started cancellation fence" }
      else inspectProcesses identity fence .neverStartedCancellationFence

def Raised.text : Raised → String
  | .jobCancelled => "cancelled"
  | .retentionRefused reason | .osError reason | .valueError reason | .runtimeError reason | .other reason => reason

def inspectFenced (i : Actor) (identity : NamespaceIdentity) (fence : Fence) : Act StopProof :=
  (do
    let file ← openLock
    match file with
    | none => .raised (.osError ".execute.lock")
    | some file => do
      let taken ← tryLock i file
      if taken then (inspectLocked identity fence).ensure (unlock file)
      else .done { fence := some fence, error := some "Job producer still owns its execution lock" } : Act StopProof).handle
    fun e => .done { fence := some fence, error := some e.text }

def executionStopProof (i : Actor) (identity : NamespaceIdentity) : Act StopProof := do
  let cancelled ← isCancelled
  if cancelled then inspectFenced i identity .cancelMarker
  else do
    let result ← readResult
    if result.any terminal then inspectFenced i identity .terminalResult
    else .done { error := some "Job has no durable terminal execution fence" }

/-! ## Cancellation and retention -/

def markCancelled : Act Unit := .modify fun w => w.mapDir fun d => { d with cancelled := true }

/-- `fence_stable_submission`, where the engine identities agree. -/
def fenceStableSubmission (now : ℕ) : Act Unit := do
  let request ← .read fun w => w.dir.request
  let status ← readStatus
  let _ ← (match request, status with
    | none, none => do
      let retired ← .read fun w => w.receipts || w.cancelReceipt
      if retired then .raised (.other "execution_retired")
      else do
        let empty ← .read fun w => w.dir.isEmpty
        if !empty then .raised (.other "submission_metadata_unavailable")
        else do
          .modify fun w => w.mapDir fun d => { d with notStarted := true }
          writeStatus { state := .cancelled } now
    | none, some _ => do
      let cancelled ← isCancelled
      if cancelled then .done () else .raised (.other "submission_metadata_unavailable")
    | some _, _ => .done () : Act Unit)
  markCancelled
  .modify fun w => { w with cancelReceipt := true }

/-- `cancel_job`: the marker, behind the fence where the identity is a stable one; status and result when the reaper has
answered, without the lock. -/
def cancel (stable : Bool) (now : ℕ) : Act Outcome := do
  let _ ← (if stable then fenceStableSubmission now else .done () : Act Unit)
  let made ← .read fun w => w.made
  if !made then .raised (.other "Job not found")
  else do
    markCancelled
    let status ← readStatus
    writeStatus { status.getD { state := .cancelled } with state := .cancelled } now
    let _ ← terminalizeCancelledResult
    .done .marked

def jobRetentionGuard (i : Actor) (body : Act Outcome) : Act Outcome := do
  let file ← openLock
  match file with
  | none => .raised (.retentionRefused "cannot open execution lock")
  | some file => do
    let taken ← tryLock i file
    if !taken then .raised (.retentionRefused ".execute.lock is held; job is executing")
    else
      (do
        let status ← readStatus
        if status.any fun status => live status.state then
          .raised (.retentionRefused "status.json state is pending or running; job may still be executing")
        else do
          let result ← readResult
          if result.any live then
            .raised (.retentionRefused "result.json state is pending or running; job may still be executing")
          else body : Act Outcome).ensure (unlock file)

inductive JobFile where
  | request
  | cancelled
  | result
  | status
  | owner
  | notStarted
  | lock

def JobDir.without (d : JobDir) : JobFile → JobDir
  | .request => { d with request := none }
  | .cancelled => { d with cancelled := false }
  | .result => { d with result := none }
  | .status => { d with status := none }
  | .owner => { d with owner := none }
  | .notStarted => { d with notStarted := false }
  | .lock => { d with lock := none }

/-- `shutil.rmtree`: the files in some order, then the directory. -/
def removeTree (order : List JobFile) : Act Outcome := do
  Task.each (fun file => .modify fun w => { w with dir := w.dir.without file }) order
  let removed ← (.update fun w => if w.dir.isEmpty then (true, { w with made := false }) else (false, w) : Act Bool)
  if removed then .done .deleted else .raised (.osError "Directory not empty")

/-- `strip_job_dir`, whose removals touch none of the files here. -/
def stripJobDir (i : Actor) : Act Outcome := do
  let made ← .read fun w => w.made
  if made then jobRetentionGuard i (.done .stripped) else .raised (.osError "FileNotFoundError")

def deleteJobDir (i : Actor) (order : List JobFile) : Act Outcome := do
  let made ← .read fun w => w.made
  if made then jobRetentionGuard i (removeTree order) else .raised (.osError "FileNotFoundError")

/-! ## The actors -/

/-- What `execute_job` may do: read, start processes in its namespace, write statuses, publish partial results and, at last,
a terminal one, which a terminal one alone may replace. -/
inductive Does (identity : NamespaceIdentity) : Bool → Bool → (World → World) → Prop where
  | reads (published : Bool) : Does identity published published id
  | starts (published : Bool) : Does identity published published fun w =>
    { w with processes := Function.update w.processes identity (w.processes identity + 1) }
  | writesStatus (published : Bool) (f : Option JobStatus → JobStatus) : Does identity published published fun w =>
    w.mapDir fun d => { d with status := some (f d.status) }
  | publishesPartial : Does identity false false fun w => w.mapDir fun d => { d with result := some .running }
  | publishes (published : Bool) {state : JobState} (ended : terminal state) : Does identity published true fun w =>
    w.mapDir fun d => { d with result := some state }

inductive Work (identity : NamespaceIdentity) : Bool → Act JobState → Prop where
  | returns (published : Bool) (state : JobState) : Work identity published (.done state)
  | raises (published : Bool) (e : Raised) : Work identity published (.raised e)
  | acts {published published' : Bool} {effect : World → World} {next : World → Act JobState}
    (does : Does identity published published' effect) (rest : ∀ w, Work identity published' (next w)) :
    Work identity published (.act effect next)

inductive Call where
  | deliver (message : Message) (identity : NamespaceIdentity) (engine : String) (work : Act JobState) (now : ℕ)
  | cancel (stable : Bool) (now : ℕ)
  | inspect (identity : NamespaceIdentity)
  | strip
  | delete (order : List JobFile)

def program (jobId : String) (i : Actor) : Call → Act Outcome
  | .deliver message identity engine work now => runPolar jobId i message identity engine work now
  | .cancel stable now => cancel stable now
  | .inspect identity => (executionStopProof i identity).bind fun proof => .done (.proof proof)
  | .strip => stripJobDir i
  | .delete order => deleteJobDir i order

inductive Makes : Actor → Call → Prop where
  | deliver (n : ℕ) {message identity engine work now} (works : Work identity false work) :
    Makes (.delivery n) (.deliver message identity engine work now)
  | cancel (n : ℕ) (stable : Bool) (now : ℕ) : Makes (.canceller n) (.cancel stable now)
  | inspect (n : ℕ) (identity : NamespaceIdentity) : Makes (.inspector n) (.inspect identity)
  | strip (n : ℕ) : Makes (.retention n) .strip
  | delete (n : ℕ) (order : List JobFile) : Makes (.retention n) (.delete order)

def dies (i : Actor) (w : World) : World :=
  { w with
    held := fun file => if w.held file = some i then none else w.held file
    inside := Function.update w.inside i false }

/-- Living processes fork and end; where there are none, none appears. -/
inductive Around (w : World) : World → Prop where
  | processes {identity : NamespaceIdentity} (alive : w.processes identity ≠ 0) (n : ℕ) :
    Around w { w with processes := Function.update w.processes identity n }

/-- The job with the calls that `may` lets start. -/
def company (jobId : String) (may : Actor → Call → Prop) : Company Actor Call World Raised Outcome where
  program := program jobId
  starts i c := Makes i c ∧ may i c
  dies := dies
  around := Around

end XFoilFoam.Execution
