import XFoilFoam.Foundations.Task

/-! `src/airfoilfoam/submission.py`: registration and cancellation of one stable execution identity, one file write after another. -/
namespace XFoilFoam.Submission
set_option autoImplicit false

/-! ## Files -/

inductive JobState where
  | pending
  | running
  | completed
  | failed
  | cancelled
  deriving DecidableEq

/-- The fields of `JobStatus` that a registration sets or hands on. -/
structure JobStatus (Engine : Type) where
  state : JobState
  totalCases : ℕ := 0
  message : Option String := none
  taskId : Option String := none
  queuedAt : Option ℕ := none
  requestedEngine : Option Engine := none
  requestedExecutionPool : Option String := none

/-- A JSON file: missing, unreadable, or a value. -/
inductive Stored (α : Type) where
  | missing
  | unreadable
  | value (a : α)

def Stored.get {α : Type} : Stored α → Option α
  | value a => some a
  | _ => none

def Stored.present {α : Type} : Stored α → Bool
  | missing => false
  | _ => true

inductive ReceiptKind where
  | dispatching
  | uncertain
  | accepted
  | cancelled
  deriving DecidableEq

/-- What a receipt records besides its version, identity and state. -/
inductive Details (Engine : Type) where
  | requestSha256 (digest : String)
  | errorKind (kind : String)
  | nothing
  | requestedEngine (engine : Engine)
  deriving DecidableEq

/-- The job directory; `artifacts` are files that neither call writes, `temporaries` those a crash left behind. -/
structure JobDir (Engine : Type) where
  made : Bool := false
  request : Option String := none
  cancelled : Bool := false
  notStarted : Bool := false
  status : Stored (JobStatus Engine) := .missing
  temporaries : ℕ := 0
  artifacts : Bool := false

structure SubmissionDir (Engine : Type) where
  made : Bool := false
  receipts : ReceiptKind → Option (Details Engine) := fun _ => none
  temporaries : ℕ := 0

inductive Event (Request Engine : Type) where
  | enqueued (request : Request)
  | registered (request : Request) (status : JobStatus Engine)
  | fenced (engine : Engine)

structure Volume (Request Engine : Type) where
  job : JobDir Engine := {}
  submission : SubmissionDir Engine := {}
  log : List (Event Request Engine) := []

structure SubmissionError where
  code : String
  message : String
  statusCode : ℕ := 409

inductive Failure where
  | submission (error : SubmissionError)
  | other (kind : String)

/-- What the code takes from the request model, the hash and the engine registry. -/
structure Codec (Request Json Engine : Type) where
  jobId : String
  modelDump : Request → Json
  modelDumpJson : Request → String
  indented : Request → String
  validateJson : String → Option Request
  sha256 : String → String
  expectedEngine : Request → Option Engine
  expectedExecutionPool : Request → Option String
  caseCount : Request → ℕ
  defaultEngine : Engine
  queueName : Engine → Option String

/-- Everything but the request may change in a job directory, and the request may go. -/
def Disturbs {Engine : Type} (j j' : JobDir Engine) : Prop := j'.request = j.request ∨ j'.request = none

/-- How a broker answers, and what a worker that starts at once does to the job directory. -/
structure Broker (Engine : Type) where
  effect : JobDir Engine → JobDir Engine
  disturbs : ∀ j, Disturbs j (effect j)
  errorKind : Option String

section Calls
variable {Request Json Engine : Type}

abbrev Act (Request Engine α : Type) := Task (Volume Request Engine) Failure α

namespace Volume
variable (v : Volume Request Engine)

def mapJob (f : JobDir Engine → JobDir Engine) : Volume Request Engine := { v with job := f v.job }

def mapSubmission (f : SubmissionDir Engine → SubmissionDir Engine) : Volume Request Engine :=
  { v with submission := f v.submission }

def record (event : Event Request Engine) : Volume Request Engine := { v with log := v.log ++ [event] }

end Volume

def refuse {α : Type} (code message : String) (statusCode : ℕ) : Act Request Engine α :=
  .raised (.submission { code := code, message := message, statusCode := statusCode })

/-! ## `JobStore` -/

/-- `_write_json_atomic` below the job directory: a temporary file, then the rename. -/
def writeJob (f : JobDir Engine → JobDir Engine) : Act Request Engine Unit := do
  .modify fun v => v.mapJob fun j => { j with made := true, temporaries := j.temporaries + 1 }
  .modify fun v => v.mapJob fun j => f { j with temporaries := j.temporaries - 1 }

def writeSubmission (f : SubmissionDir Engine → SubmissionDir Engine) : Act Request Engine Unit := do
  .modify fun v => v.mapSubmission fun d => { d with made := true, temporaries := d.temporaries + 1 }
  .modify fun v => v.mapSubmission fun d => f { d with temporaries := d.temporaries - 1 }

def readStatus : Act Request Engine (Option (JobStatus Engine)) := .read fun v => v.job.status.get

/-- `write_status`: what the new status leaves open is taken from the previous one. -/
def mergeStatus (previous : Option (JobStatus Engine)) (status : JobStatus Engine) : JobStatus Engine :=
  match previous with
  | none => status
  | some previous =>
    { status with
      taskId := status.taskId <|> previous.taskId
      requestedEngine := status.requestedEngine <|> previous.requestedEngine
      requestedExecutionPool := status.requestedExecutionPool <|> previous.requestedExecutionPool
      queuedAt := status.queuedAt <|> previous.queuedAt }

def writeStatus (status : JobStatus Engine) : Act Request Engine Unit := do
  let previous ← readStatus
  writeJob fun j => { j with status := .value (mergeStatus previous status) }

def isCancelled : Act Request Engine Bool := do
  let marked ← .read fun v => v.job.cancelled
  if marked then .done true else .read fun v => (v.submission.receipts .cancelled).isSome

def markCancelled : Act Request Engine Unit :=
  .modify fun v => v.mapJob fun j => { j with made := true, cancelled := true }

namespace Codec
variable (codec : Codec Request Json Engine)

def readRequest : Act Request Engine (Option Request) := .read fun v => v.job.request.bind codec.validateJson

def create (request : Request) (now : ℕ) : Act Request Engine Unit := do
  .modify fun v => v.mapJob fun j => { j with made := true }
  .modify fun v => v.mapJob fun j => { j with cancelled := false }
  writeJob fun j => { j with request := some (codec.indented request) }
  writeJob fun j => { j with notStarted := true }
  let engine := (codec.expectedEngine request).getD codec.defaultEngine
  match codec.expectedExecutionPool request <|> codec.queueName engine with
  | none => .raised (.other "UnsupportedEngineIdentity")
  | some pool =>
    writeStatus
      { state := .pending
        totalCases := codec.caseCount request
        queuedAt := some now
        requestedEngine := some engine
        requestedExecutionPool := some pool }

end Codec

/-! ## Receipts -/

variable [DecidableEq Json] [DecidableEq Engine]

/-- `_receipt`: a receipt is written once; one that says something else is an error. -/
def receipt (kind : ReceiptKind) (details : Details Engine) : Act Request Engine Unit := do
  let previous ← .read fun v => v.submission.receipts kind
  match previous with
  | some previous =>
    if previous = details then .done ()
    else refuse "submission_metadata_unavailable" "Existing submission receipt is unreadable or conflicts" 503
  | none => writeSubmission fun d => { d with receipts := Function.update d.receipts kind (some details) }

/-- `any(path.name != ".submission.lock" for path in submission_dir.iterdir())`. -/
def registered : Act Request Engine Bool :=
  .read fun v => decide (0 < v.submission.temporaries) || (v.submission.receipts .dispatching).isSome ||
    (v.submission.receipts .uncertain).isSome || (v.submission.receipts .accepted).isSome ||
    (v.submission.receipts .cancelled).isSome

/-- `job_dir.exists() and any(job_dir.iterdir())`. -/
def occupied : Act Request Engine Bool :=
  .read fun v => v.job.made && (v.job.request.isSome || v.job.cancelled || v.job.notStarted || v.job.status.present ||
    decide (0 < v.job.temporaries) || v.job.artifacts)

/-! ## `register_stable_submission` -/

def lock : Act Request Engine Unit := .modify fun v => v.mapSubmission fun d => { d with made := true }

def metadataUnavailable {α : Type} (message : String) : Act Request Engine α :=
  refuse "submission_metadata_unavailable" message 503

namespace Codec
variable (codec : Codec Request Json Engine)

def signature (request : Request) : String := codec.sha256 (codec.modelDumpJson request)

def replay (request : Request) : Act Request Engine (JobStatus Engine) := do
  let previous ← codec.readRequest
  match previous with
  | none => metadataUnavailable "Existing execution request is unreadable"
  | some previous =>
    if codec.modelDump previous ≠ codec.modelDump request then
      refuse "execution_identity_conflict" "Execution identity belongs to a different immutable request" 409
    else
      let status ← readStatus
      match status with
      | none => metadataUnavailable "Existing execution status is unreadable"
      | some status =>
        let dispatching ← .read fun v => (v.submission.receipts .dispatching).isSome
        if dispatching then
          receipt .dispatching (.requestSha256 (codec.signature request))
          .done status
        else
          refuse "submission_confirmation_unavailable"
            "Execution registration was interrupted before dispatch confirmation" 503

/-- `enqueue`: the message leaves, whatever the broker answers. -/
def enqueue (request : Request) (broker : Broker Engine) : Act Request Engine (Option String) :=
  .update fun v => (broker.errorKind, (v.record (.enqueued request)).mapJob broker.effect)

/-- The first registration of an identity, from the request file to the broker's answer. -/
def dispatch (request : Request) (broker : Broker Engine) (now : ℕ) : Act Request Engine (JobStatus Engine) := do
  codec.create request now
  let status ← readStatus
  match status with
  | none => metadataUnavailable "Execution registration has no readable status"
  | some status =>
    writeStatus { status with taskId := some codec.jobId }
    receipt .dispatching (.requestSha256 (codec.signature request))
    let failed ← enqueue request broker
    match failed with
    | some kind =>
      receipt .uncertain (.errorKind kind)
      refuse "submission_confirmation_unavailable"
        "Broker dispatch confirmation is unavailable; execution ownership is retained" 503
    | none =>
      receipt .accepted .nothing
      let status ← readStatus
      match status with
      | none => metadataUnavailable "Accepted execution status is unreadable"
      | some status => .done status

def register (request : Request) (broker : Broker Engine) (preflight : Option Failure) (now : ℕ) :
    Act Request Engine (JobStatus Engine) := do
  lock
  let cancelled ← isCancelled
  if cancelled then
    refuse "execution_cancelled" "Execution identity has a durable cancellation fence" 409
  else
    let present ← .read fun v => v.job.request.isSome
    if present then codec.replay request
    else
      let retired ← registered
      if retired then
        refuse "execution_retired"
          "Execution registration survives removal of its job artifacts; the identity cannot be reused" 410
      else
        let dirty ← occupied
        if dirty then metadataUnavailable "Execution scope contains artifacts without its request"
        else
          match preflight with
          | some failure => .raised failure
          | none => codec.dispatch request broker now

/-! ## `fence_stable_submission` -/

def knownEngine (request : Option Request) (status : Option (JobStatus Engine)) : Option Engine :=
  match request with
  | some request => some ((codec.expectedEngine request).getD codec.defaultEngine)
  | none => status.bind fun status => status.requestedEngine

omit [DecidableEq Json] in
def cancel (engine : Engine) : Act Request Engine Engine := do
  markCancelled
  receipt .cancelled (.requestedEngine engine)
  .done engine

def cancelUnregistered (expectedEngine : Option Engine) : Act Request Engine Engine :=
  match expectedEngine with
  | none =>
    refuse "unregistered_execution_route_required" "Unregistered cancellation requires its exact engine route" 422
  | some engine => do
    let retired ← registered
    if retired then
      refuse "execution_retired"
        "Execution registration survives removal of its job artifacts; no new execution owner can be inferred" 410
    else
      let dirty ← occupied
      if dirty then metadataUnavailable "Execution artifacts exist without a readable registration"
      else
        writeJob fun j => { j with notStarted := true }
        writeStatus
          { state := .cancelled
            requestedEngine := some engine
            message := some "cancelled before registration" }
        cancel engine

def fence (expectedEngine : Option Engine) : Act Request Engine Engine := do
  lock
  let request ← codec.readRequest
  let status ← readStatus
  let known := codec.knownEngine request status
  if known.isSome ∧ expectedEngine.isSome ∧ known ≠ expectedEngine then
    refuse "execution_identity_conflict" "Cancellation engine does not match the registered execution" 409
  else if request.isNone ∧ status.isNone then cancelUnregistered expectedEngine
  else
    let cancelled ← isCancelled
    if request.isNone ∧ ¬ cancelled then
      metadataUnavailable "Execution request is unavailable for cancellation routing"
    else
      match known with
      | none => metadataUnavailable "Execution engine route is unavailable"
      | some engine => cancel engine

end Codec

end Calls

end XFoilFoam.Submission
