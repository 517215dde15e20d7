import XFoilFoam.Precalc.Submissions

/-! The end of a job: `settlePrecalcObligationsForJobInTransaction` of `precalc-obligations.ts`.  `judge` reads the stored
evidence of one obligation; `settleLedger` turns the judgement into the rows of that obligation alone, so that the loop
of the source is one bulk update. -/
namespace XFoilFoam.Precalc
open Polar (FailureDisposition)
open Binary64 (lit)
set_option autoImplicit false

variable {F : Type} [Binary64 F]

/-! ## Options -/

inductive ContinuationFailureKind where
  | transient
  | permanent
  deriving DecidableEq

inductive Cancellation where
  | transient
  | explicit
  deriving DecidableEq

/-- `PrecalcTerminalSettlementOptions`. -/
structure SettlementOptions where
  terminalError : Option String
  terminalFailureDisposition : Option FailureDisposition
  terminalContinuationFailureKind : Option ContinuationFailureKind
  cancellation : Option Cancellation

/-! ## Judgement -/

def evidenceOf (w : World F) (jobId : String) (o : Obligation) : List (String × ResultAttempt F) :=
  w.resultAttempts.rows.filter fun row =>
    row.2.simJobId == some jobId && row.2.airfoilId == o.airfoilId &&
      row.2.simulationPresetRevisionId == some o.revisionId && decide (row.2.aoaDeg = o.aoaDeg) &&
      (w.revisions.find? o.revisionId).isSome

def acceptedTargetCellCompatible (w : World F) (o : Obligation) (a : ResultAttempt F) : Bool :=
  (w.revisions.find? o.revisionId).any fun revision =>
    revision.boundaryCondition == some a.bcId &&
      (a.simJobId.bind w.jobs.find?).any fun job =>
        job.airfoilId == a.airfoilId && job.simulationPresetRevisionId == some o.revisionId &&
          job.bcIds == [a.bcId] &&
          compatibleImplementation revision.solverImplementationId revision.solverImplementationId
            a.solverImplementationId job.solverImplementationId

structure Judgement (F : Type) where
  accepted : Option String
  judged : Option (String × ResultAttempt F)
  error : Option String
  failureDisposition : Option Disposition
  failureKind : Option ContinuationFailureKind
  cancellation : Option Cancellation
  /-- The attempt that an exact same-case continuation resumed, with its payload. -/
  source : Option (String × JsValue F)
  live : Bool
  /-- The failure kind applies to exact continuations only. -/
  kindOfSource : source = none → failureKind = none

def acceptable (w : World F) (o : Obligation) (a : ResultAttempt F) : Bool :=
  (a.classification.any fun c => decide (c.1 = .accepted)) && acceptedTargetCellCompatible w o a &&
    !hasPrecalcContinuationWarning a.qualityWarnings && !a.queuedRestartable

def failureFallback (a : ResultAttempt F) : Bool :=
  decide (a.status = .failed) &&
    match failureDispositionOf a.evidencePayload with
    | some disposition => decide (disposition ≠ .typed .none)
    | none => isDeterministicMeshBlockerError a.error

def judge (w : World F) (jobId : String) (job : SimJob F) (opts : SettlementOptions) (id : String) (o : Obligation)
    (source : Option (String × JsValue F)) : Judgement F :=
  let evidence := evidenceOf w jobId o
  let precalcEvidence := evidence.filter fun row => row.2.isPrecalc || decide (row.2.regime = some .urans)
  let exactPrecalcJob := (job.requestPayload.get "uransFidelity").isStr "precalc" &&
    (precalcObligationIds job.requestPayload).contains id
  let fallback := if exactPrecalcJob then evidence.find? fun row => failureFallback row.2 else none
  let accepted := precalcEvidence.find? fun row => acceptable w o row.2
  let judged := (((accepted.or (precalcEvidence.find? fun row => row.2.classification.isSome)).or
    precalcEvidence.head?).or fallback)
  { accepted := accepted.map Prod.fst
    judged := judged
    error := (judged.bind fun row => row.2.error).or opts.terminalError
    failureDisposition := (judged.bind fun row => failureDispositionOf row.2.evidencePayload).or
      (opts.terminalFailureDisposition.map .typed)
    failureKind := if source.isSome then opts.terminalContinuationFailureKind else none
    cancellation := opts.cancellation
    source := source
    live := w.liveOwner id
    kindOfSource := by
      rintro rfl
      rfl }

namespace Judgement
variable (j : Judgement F)

def continuationPermanent : Bool := decide (j.failureKind = some .permanent)

def deterministic : Bool :=
  j.failureKind.isNone &&
    match j.failureDisposition with
    | some disposition =>
      decide (disposition = .typed .deterministicMesh) || decide (disposition = .typed .materialDomain)
    | none => isDeterministicMeshBlockerError j.error

def restartable : Bool :=
  j.judged.any fun row =>
    row.2.engineJobId.any (fun id => id != "") && row.2.engineCaseSlug.any (fun slug => slug != "") &&
      (hasPrecalcContinuationWarning row.2.qualityWarnings || row.2.queuedRestartable)

def transientFailure : Bool :=
  j.error.any (fun text => text != "") && !j.deterministic &&
    j.judged.all fun row => decide (row.2.status = .failed)

def infrastructure : Bool :=
  decide (j.failureKind = some .transient) || decide (j.failureDisposition = some (.typed .infrastructure)) ||
    (decide (j.cancellation = some .transient) && j.judged.isNone)

/-- `physicalContinuationSegment`. -/
def physicalSegment : Bool :=
  j.source.isSome && j.judged.isSome && j.failureKind.isNone && !j.infrastructure && !j.deterministic

def classified : Bool := j.judged.any fun row => row.2.classification.isSome

def progress : ContinuationProgress F :=
  precalcContinuationProgressFromEvidence ((j.judged.map fun row => row.2.evidencePayload).getD .undefined)

def releasing : Bool := j.accepted.isNone && (j.continuationPermanent || j.infrastructure || j.deterministic)

end Judgement

/-! ## Progress of the segment -/

structure Segment where
  number : Option ℕ
  progressed : Option Bool
  count : ℕ
  noProgress : ℕ
  noProgress_le : noProgress ≤ count

def previousProgress (j : Judgement F) (l : Ledger F) (submission : Option (Submission F)) :
    Option (ContinuationProgress F) :=
  j.source.bind fun source =>
    ((l.submissions.filter fun row => row.resultAttemptId == some source.1 &&
        submission.all fun s => decide (row.attemptNumber < s.attemptNumber)).argmax Submission.attemptNumber).map
      fun prior =>
        let fallback := precalcContinuationProgressFromEvidence source.2
        { fallback with
          periodsRetained := prior.progressPeriodsRetained.or fallback.periodsRetained
          simulatedTimeS := prior.progressSimulatedTimeS.or fallback.simulatedTimeS
          driftFrac := prior.progressDriftFrac.or fallback.driftFrac
          stationary := prior.progressStationary.or fallback.stationary }

def segmentOf (j : Judgement F) (l : Ledger F) (submission : Option (Submission F)) : Segment :=
  let o := l.obligation
  if j.physicalSegment then
    let progressed := precalcContinuationMadeProgress (previousProgress j l submission) j.progress
    { number := some (o.continuationSegmentCount + 1)
      progressed := some progressed
      count := o.continuationSegmentCount + 1
      noProgress := if progressed then 0 else o.continuationNoProgressCount + 1
      noProgress_le := by
        split
        · exact Nat.zero_le _
        · exact Nat.succ_le_succ o.noProgress_le }
  else
    { number := none
      progressed := none
      count := o.continuationSegmentCount
      noProgress := o.continuationNoProgressCount
      noProgress_le := o.noProgress_le }

/-- `continuationNoProgressExhausted`. -/
def noProgressExhausted (j : Judgement F) (segment : Segment) : Bool :=
  j.physicalSegment && j.accepted.isNone && j.restartable &&
    decide (maxPrecalcNoProgressSegments ≤ segment.noProgress)

def arrayLength (value : JsValue F) : Option F :=
  if value.isArray then some (lit value.elements.length) else none

def policyInput (j : Judgement F) (segment : Segment) : PolicyInput F where
  status := match j.judged with
    | some row => some row.2.status
    | none => if j.cancellation.isSome then none else some .failed
  failureDisposition := j.failureDisposition
  classificationReasons := (j.judged.bind fun row => row.2.classification).elim [] Prod.snd
  qualityWarnings := (j.judged.bind fun row => row.2.qualityWarnings).getD []
  error := j.error
  hasRestartableEvidence := j.restartable
  forceSampleCount := j.judged.bind fun row =>
    arrayLength ((row.2.evidencePayload.get "force_history").get "t")
  fieldFrameCount := j.judged.bind fun row =>
    arrayLength ((row.2.evidencePayload.get "frame_track").get "frames")
  statisticalMeanScore := none
  numericalNoiseScore := none
  observationProgress := j.progress.periodsRetained.map fun x => Binary64.div x (lit frameTrackMinPeriodsPrecalc)
  continuationProgressed := segment.progressed

def recoveryPlan (j : Judgement F) (segment : Segment) : RecoveryPlan F := planPrecalcRecovery (policyInput j segment)

/-! ## States -/

structure Verdict where
  state : ObligationState
  attemptState : SubmissionState
  outcome : Outcome
  deriving DecidableEq

def retryOr (attemptsLeft : Bool) : ObligationState := if attemptsLeft then .pending else .blocked

/-- The cascade that selects the state; `attemptsLeft` counts a released ordinal as left. -/
def verdict (j : Judgement F) (segment : Segment) (attemptsLeft : Bool) : Verdict :=
  let plan := recoveryPlan j segment
  let graded : SubmissionState := if j.classified then .rejected else .failed
  if j.accepted.isSome then ⟨.satisfied, .accepted, .accepted⟩
  else if !j.live then ⟨.cancelled, .cancelled, .ownerless⟩
  else if j.continuationPermanent then
    ⟨retryOr attemptsLeft, .failed,
      if attemptsLeft then .continuationFreshRetryPending else .continuationPermanentFailure⟩
  else if noProgressExhausted j segment then
    ⟨.blocked, if j.infrastructure then .cancelled else graded, .continuationNoProgressExhausted⟩
  else if j.infrastructure then ⟨.pending, .cancelled, .infrastructureRetryWait⟩
  else if j.deterministic then ⟨.blocked, .failed, .deterministicFailure⟩
  else if j.cancellation = some .explicit then
    ⟨retryOr attemptsLeft, .cancelled, if attemptsLeft then .cancelled else .cancelledExhausted⟩
  else if plan.action = .repairMedia then ⟨.blocked, graded, .recovery plan.action false⟩
  else
    let retry := (decide (plan.action = .continueExactCase) && j.restartable) ||
      (plan.consumesSolverAttempt && attemptsLeft)
    ⟨retryOr retry, if j.transientFailure then .failed else graded, .recovery plan.action (!retry)⟩

/-! ## Rows -/

def recoveredOrdinal (o : Obligation) (sameCase : Bool) : Option ℕ :=
  if sameCase then none else some (min o.maxAttempts (o.attemptCount + 1))

def Obligation.recover (o : Obligation) (jobId : String) (sameCase : Bool) : Obligation :=
  { o with
    attemptCount := max o.attemptCount ((recoveredOrdinal o sameCase).getD o.attemptCount)
    latestSimJobId := some jobId
    attempts_le := by
      refine max_le o.attempts_le ?_
      rw [recoveredOrdinal]
      split
      · exact o.attempts_le
      · exact min_le_left _ _ }

def lostSubmission (l : Ledger F) (jobId : String) (crossed : Bool) : Bool :=
  (l.submissionOf jobId).isNone && l.obligation.leasedTo jobId && crossed

def recoverSubmission (l : Ledger F) (jobId : String) (crossed sameCase : Bool) : Ledger F :=
  if lostSubmission l jobId crossed then
    match l.insert? (.submitted jobId l.nextSubmissionSequence (recoveredOrdinal l.obligation sameCase)
        (!sameCase)) with
    | none => l
    | some l' => l'.setObligation (l.obligation.recover jobId sameCase)
  else l

def finishSubmission (j : Judgement F) (segment : Segment) (v : Verdict) (meshVersion : ℕ) (r : Submission F) :
    Submission F :=
  let released := r.consumesSolverAttempt && j.releasing
  { r with
    state := v.attemptState
    outcome := some v.outcome
    meshRecoveryVersion := if r.meshRecoveryVersion = 0 then meshVersion else r.meshRecoveryVersion
    continuationSegmentNumber := segment.number
    progressPeriodsRetained := j.progress.periodsRetained
    progressSimulatedTimeS := j.progress.simulatedTimeS
    progressDriftFrac := j.progress.driftFrac
    progressStationary := j.progress.stationary
    continuationProgressed := segment.progressed
    resultAttemptId := j.judged.map Prod.fst
    error := j.error
    consumesSolverAttempt := r.consumesSolverAttempt && !released
    solverAttemptNumber := if released then none else r.solverAttemptNumber }

def finishOwn (jobId : String) (f : Submission F → Submission F) (r : Submission F) : Submission F :=
  if r.simJobId = some jobId then f r else r

theorem keepsKeys_finishOwn (jobId : String) (j : Judgement F) (segment : Segment) (v : Verdict) (meshVersion : ℕ) :
    Submission.KeepsKeys (finishOwn jobId (finishSubmission j segment v meshVersion)) := by
  intro r
  rw [finishOwn]
  split
  · refine ⟨rfl, rfl, ?_⟩
    by_cases h : (r.consumesSolverAttempt && j.releasing) = true
    · exact .inr (if_pos h)
    · exact .inl (if_neg h)
  · exact ⟨rfl, rfl, .inl rfl⟩

/-- `Date.now() + INFRASTRUCTURE_RETRY_BACKOFF_MS`. -/
def retryAt (now : ℕ) (v : Verdict) : Option ℕ :=
  if v.state = .pending ∧ v.outcome = .infrastructureRetryWait then some (now + 30000) else none

def Obligation.satisfy (o : Obligation) (attemptId : String) (segment : Segment) : Obligation :=
  { o with
    state := .satisfied
    sourceResultAttemptId := some attemptId
    lastOutcome := some .accepted
    lastError := none
    continuationSegmentCount := segment.count
    continuationNoProgressCount := 0
    nextSubmitAt := none
    noProgress_le := Nat.zero_le _ }

def Obligation.settle (o : Obligation) (jobId : String) (v : Verdict) (segment : Segment) (attemptCount : ℕ)
    (h : attemptCount ≤ o.maxAttempts) (error : Option String) (now : ℕ) : Obligation :=
  { o with
    state := v.state
    attemptCount := attemptCount
    continuationSegmentCount := segment.count
    continuationNoProgressCount := segment.noProgress
    latestSimJobId := some jobId
    lastOutcome := some v.outcome
    lastError := error
    nextSubmitAt := retryAt now v
    attempts_le := h
    noProgress_le := segment.noProgress_le }

def keptAttempts (j : Judgement F) (l : Ledger F) (jobId : String) : ℕ :=
  if (l.submissionOf jobId).any fun r => r.consumesSolverAttempt && j.releasing then l.obligation.attemptCount - 1
  else l.obligation.attemptCount

omit [Binary64 F] in
theorem keptAttempts_le (j : Judgement F) (l : Ledger F) (jobId : String) :
    keptAttempts j l jobId ≤ l.obligation.attemptCount := by
  rw [keptAttempts]
  split
  · exact Nat.sub_le _ _
  · exact le_rfl

/-- One settlement, as it reaches every obligation: the job, what it acknowledged and the clock. -/
structure Settling where
  jobId : String
  /-- `engineJobId || submittedAt`. -/
  crossed : Bool
  meshVersion : ℕ
  now : ℕ

namespace Settling
variable (t : Settling) (j : Judgement F) (l : Ledger F)

def recovered : Ledger F := recoverSubmission l t.jobId t.crossed j.source.isSome

def segment : Segment := segmentOf j (t.recovered j l) ((t.recovered j l).submissionOf t.jobId)

def kept : ℕ := keptAttempts j (t.recovered j l) t.jobId

def verdict : Verdict :=
  Precalc.verdict j (t.segment j l) (decide (t.kept j l < (t.recovered j l).obligation.maxAttempts))

def finished : Ledger F :=
  (t.recovered j l).mapSubmissions
    (finishOwn t.jobId (finishSubmission j (t.segment j l) (t.verdict j l) t.meshVersion))
    (keepsKeys_finishOwn t.jobId j (t.segment j l) (t.verdict j l) t.meshVersion)

def writes : Bool := l.obligation.leasedTo t.jobId && !l.obligation.closed

def settledObligation : Obligation :=
  (t.recovered j l).obligation.settle t.jobId (t.verdict j l) (t.segment j l) (t.kept j l)
    ((keptAttempts_le j (t.recovered j l) t.jobId).trans (t.recovered j l).obligation.attempts_le) j.error t.now

end Settling

def settleLedger (t : Settling) (j : Judgement F) (l : Ledger F) : Ledger F :=
  match j.accepted with
  | some attemptId =>
    (t.finished j l).setObligation ((t.recovered j l).obligation.satisfy attemptId (t.segment j l))
  | none =>
    if t.writes l then (t.finished j l).setObligation (t.settledObligation j l) else t.finished j l

/-! ## What a turn leaves as it is -/

section Frame
variable (t : Settling) (j : Judgement F) (l : Ledger F)

omit [Binary64 F] in
theorem recoverSubmission_frame (jobId : String) (crossed sameCase : Bool) :
    (recoverSubmission l jobId crossed sameCase).obligation.state = l.obligation.state ∧
      (recoverSubmission l jobId crossed sameCase).obligation.maxAttempts = l.obligation.maxAttempts := by
  unfold recoverSubmission
  split
  · split <;> exact ⟨rfl, rfl⟩
  · exact ⟨rfl, rfl⟩

omit [Binary64 F] in
@[simp] theorem recovered_state : (t.recovered j l).obligation.state = l.obligation.state :=
  (recoverSubmission_frame l t.jobId t.crossed j.source.isSome).1

omit [Binary64 F] in
@[simp] theorem recovered_maxAttempts : (t.recovered j l).obligation.maxAttempts = l.obligation.maxAttempts :=
  (recoverSubmission_frame l t.jobId t.crossed j.source.isSome).2

@[simp] theorem finished_obligation : (t.finished j l).obligation = (t.recovered j l).obligation := rfl

@[simp] theorem settledObligation_state : (t.settledObligation j l).state = (t.verdict j l).state := rfl

@[simp] theorem settledObligation_attemptCount : (t.settledObligation j l).attemptCount = t.kept j l := rfl

@[simp] theorem settledObligation_maxAttempts :
    (t.settledObligation j l).maxAttempts = l.obligation.maxAttempts := recovered_maxAttempts t j l

theorem settleLedger_accepted {attemptId : String} (h : j.accepted = some attemptId) :
    settleLedger t j l =
      (t.finished j l).setObligation ((t.recovered j l).obligation.satisfy attemptId (t.segment j l)) := by
  rw [settleLedger, h]

theorem settleLedger_written (haccepted : j.accepted = none) (hwrites : t.writes l = true) :
    settleLedger t j l = (t.finished j l).setObligation (t.settledObligation j l) := by
  rw [settleLedger, haccepted]
  exact if_pos hwrites

theorem settleLedger_left (haccepted : j.accepted = none) (hwrites : t.writes l = false) :
    settleLedger t j l = t.finished j l := by
  rw [settleLedger, haccepted]
  exact if_neg (by rw [hwrites]; exact Bool.false_ne_true)

end Frame

/-! ## The settlement -/

/-- The exact continuation that a job ran, when its payload pins one and the source still owns it. -/
def continuationSource (w : World F) (job : SimJob F) (listed : List (String × Ledger F)) :
    Option (String × JsValue F) :=
  match continuationPair job.requestPayload (precalcObligationIds job.requestPayload).length, listed,
      job.bcIds.filter (fun id => id != ""), job.solverImplementationId, job.simulationPresetRevisionId with
  | some (resultId, attemptId), [(_, l)], [boundaryConditionId], some implementation, some revisionId =>
    if w.isExactPrecalcContinuationForTarget resultId attemptId job.airfoilId revisionId l.obligation.aoaDeg
        boundaryConditionId implementation then
      some (attemptId, ((w.resultAttempts.find? attemptId).map ResultAttempt.evidencePayload).getD .undefined)
    else none
  | _, _, _, _, _ => none

def listedObligations (obligations : Table String (Ledger F)) (ids : List String) : List (String × Ledger F) :=
  obligations.rows.filter fun row => ids.contains row.1

def ofJobCell (job : SimJob F) (o : Obligation) : Bool :=
  o.airfoilId == job.airfoilId && some o.revisionId == job.simulationPresetRevisionId

def settlingOf (jobId : String) (job : SimJob F) (now : ℕ) : Settling where
  jobId := jobId
  crossed := job.engineJobId.any (fun id => id != "") || job.submittedAt.isSome
  meshVersion := acknowledgedMeshRecoveryVersion job.requestPayload
  now := now

/-- `settlePrecalcObligationsForJobInTransaction`, on the obligations and their submissions. -/
def settlePrecalcObligationsForJob (w : World F) (jobId : String) (job : SimJob F) (opts : SettlementOptions)
    (now : ℕ) (obligations : Table String (Ledger F)) : Table String (Ledger F) :=
  let ids := precalcObligationIds job.requestPayload
  let source := continuationSource w job (listedObligations obligations ids)
  obligations.map fun id l =>
    if ids.contains id && ofJobCell job l.obligation then
      settleLedger (settlingOf jobId job now) (judge w jobId job opts id l.obligation source) l
    else l

def judgementOf (w : World F) (jobId : String) (job : SimJob F) (opts : SettlementOptions)
    (obligations : Table String (Ledger F)) (id : String) (l : Ledger F) : Judgement F :=
  judge w jobId job opts id l.obligation
    (continuationSource w job (listedObligations obligations (precalcObligationIds job.requestPayload)))

theorem find?_settle (w : World F) (jobId : String) (job : SimJob F) (opts : SettlementOptions) (now : ℕ)
    {obligations : Table String (Ledger F)} {id : String} {l : Ledger F} (hfind : obligations.find? id = some l) :
    (settlePrecalcObligationsForJob w jobId job opts now obligations).find? id =
      some (if (precalcObligationIds job.requestPayload).contains id && ofJobCell job l.obligation then
        settleLedger (settlingOf jobId job now) (judgementOf w jobId job opts obligations id l) l else l) := by
  rw [settlePrecalcObligationsForJob, Table.find?_map, hfind]
  rfl

/-! ## A small store -/

def quietWorld : World ExactNum where
  jobs := .empty
  resultAttempts := .empty
  results := .empty
  revisions := .empty
  requests := .empty
  manifests := []
  archives := []
  abandoned := []
  liveOwner _ := true
  repairOwner _ := false

def solveJob (ids : List String) : SimJob ExactNum where
  airfoilId := "airfoil"
  simulationPresetRevisionId := some "revision"
  requestPayload := .obj [("precalcObligationIds", .arr (ids.map .str)), ("uransFidelity", .str "precalc")]
  bcIds := ["condition"]
  solverImplementationId := some "solver"
  engineJobId := some "engine"
  submittedAt := none
  status := .failed
  parentJobId := none
  wave := 2
  campaignId := none
  ingestLeaseExpiresAt := none
  error := none

def freshObligation : Obligation where
  airfoilId := "airfoil"
  revisionId := "revision"
  aoaDeg := 4
  sourceResultAttemptId := none
  state := .pending
  attemptCount := 0
  remediationAttemptsGranted := 0
  submitFailureCount := 0
  nextSubmitAt := none
  continuationSegmentCount := 0
  continuationNoProgressCount := 0
  latestSimJobId := none
  backgroundOwner := true
  lastOutcome := none
  lastError := none
  attempts_le := Obligation.noAttempts_le
  noProgress_le := Obligation.noSegments_le

theorem oneAttempt_le : 1 ≤ 2 + freshObligation.remediationAttemptsGranted := by decide

def noOptions : SettlementOptions := ⟨none, none, none, none⟩

def savedAttempt (jobId : String) : ResultAttempt ExactNum where
  resultId := some "result"
  simJobId := some jobId
  airfoilId := "airfoil"
  bcId := "condition"
  simulationPresetRevisionId := some "revision"
  aoaDeg := 4
  engineJobId := some "engine"
  engineCaseSlug := some "case"
  solverImplementationId := some "solver"
  status := .done
  source := .solved
  regime := some .urans
  error := none
  qualityWarnings := some ["stopped by the wall-clock budget guard"]
  evidencePayload := .obj [("fidelity", .str "urans_precalc")]
  classification := some (.rejected, [])

theorem nodup_first : ([("first", solveJob ["obligation"])].map Prod.fst).Nodup := List.nodup_singleton _

def savedWorld : World ExactNum :=
  { quietWorld with
    jobs := ⟨[("first", solveJob ["obligation"])], nodup_first⟩
    resultAttempts := ⟨[("saved", savedAttempt "first"), ("resumed", savedAttempt "second")], by decide⟩
    results := ⟨[("result", ⟨"airfoil", "condition", some "revision", 4, .done⟩)], List.nodup_singleton _⟩
    revisions := ⟨[("revision", ⟨"solver", some "condition", none⟩)], List.nodup_singleton _⟩
    manifests := [("result", "saved")]
    archives := [("result", "saved")] }

def resumeJob : SimJob ExactNum :=
  { solveJob ["obligation"] with
    requestPayload := .obj [("precalcObligationIds", .arr [.str "obligation"]), ("uransFidelity", .str "precalc"),
      ("continueFromResultId", .str "result"), ("continueFromResultAttemptId", .str "saved")] }

end XFoilFoam.Precalc
