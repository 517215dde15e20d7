import XFoilFoam.Precalc.Requeue
import XFoilFoam.Precalc.Settlement

/-! The three formulas over one history: the continuations that are offered, the gate of the composition, and the repair.
What is offered passes the gate; what the repair reopens need not be offered. -/
namespace XFoilFoam.Precalc
set_option autoImplicit false

variable {F : Type} [Binary64 F]

/-! ## What is offered -/

section Offered
variable {w : World F} {id : String} {l : Ledger F}

theorem candidateCheckpoint_spec {c : Checkpoint F} (h : candidateCheckpoint w l c = true) :
    checkpointOf w l c.row c.id c.attempt = true ∧ w.terminalResult c.attempt = true ∧
      ownBoundary w l c = true ∧ ownImplementation w l c = true := by
  simp only [candidateCheckpoint, Bool.and_eq_true] at h
  obtain ⟨⟨⟨⟨⟨⟨⟨hcheckpoint, hterminal⟩, -⟩, -⟩, -⟩, hboundary⟩, himplementation⟩, -⟩ := h
  exact ⟨hcheckpoint, hterminal, hboundary, himplementation⟩

theorem checkpointOf_address {c : Checkpoint F} (h : checkpointOf w l c.row c.id c.attempt = true) :
    ∃ resultId engineJobId engineCaseSlug, c.attempt.resultId = some resultId ∧
      c.attempt.engineJobId = some engineJobId ∧ c.attempt.engineCaseSlug = some engineCaseSlug := by
  simp only [checkpointOf, Bool.and_eq_true] at h
  obtain ⟨⟨⟨⟨⟨-, hengine⟩, hslug⟩, hevidence⟩, -⟩, -⟩ := h
  obtain ⟨engineJobId, hengine⟩ := Option.isSome_iff_exists.mp hengine
  obtain ⟨engineCaseSlug, hslug⟩ := Option.isSome_iff_exists.mp hslug
  have hresult : c.attempt.resultId.isSome = true := by
    simp only [ResultAttempt.restartableEvidence, ResultAttempt.queuedRestartable, Bool.or_eq_true,
      Bool.and_eq_true] at hevidence
    obtain hsolved | hqueued := hevidence
    · exact hsolved.1.1.1.1.1
    · exact hqueued.1.1.1.1.1.1.1.1.1
  obtain ⟨resultId, hresult⟩ := Option.isSome_iff_exists.mp hresult
  exact ⟨resultId, engineJobId, engineCaseSlug, hresult, hengine, hslug⟩

theorem exact_iff_generation {c : Checkpoint F} (hstored : c ∈ storedAttempts w l)
    (hcandidate : candidateCheckpoint w l c = true) {resultId : String} (hresult : c.attempt.resultId = some resultId) :
    w.isExactRestartablePrecalcAttempt resultId c.id = w.exactGeneration c.id c.attempt := by
  obtain ⟨-, -, hattempt⟩ := mem_storedAttempts.mp hstored
  obtain ⟨hcheckpoint, hterminal, -, -⟩ := candidateCheckpoint_spec hcandidate
  simp only [checkpointOf, Bool.and_eq_true] at hcheckpoint
  obtain ⟨⟨⟨⟨⟨-, hengine⟩, hslug⟩, hevidence⟩, habandoned⟩, -⟩ := hcheckpoint
  rw [World.isExactRestartablePrecalcAttempt, hattempt, Option.any_some, hresult, hterminal, hengine, hslug,
    hevidence, habandoned]
  simp

theorem precalcContinuation_eq_some {address : ContinuationAddress} (h : precalcContinuation w id l = some address) :
    offersContinuation l.obligation = true ∧ address.obligationId = id ∧
      ∃ c, newest ((storedAttempts w l).filter (candidateCheckpoint w l)) = some c ∧
        c.attempt.resultId = some address.resultId ∧ c.id = address.resultAttemptId ∧
        w.exactGeneration c.id c.attempt = true := by
  rw [precalcContinuation, Option.filter_eq_some_iff] at h
  obtain ⟨hcandidate, hexact⟩ := h
  unfold precalcCheckpointCandidate at hcandidate
  split at hcandidate
  · rename_i hoffers
    rw [Option.bind_eq_some_iff] at hcandidate
    obtain ⟨c, hnewest, hcandidate⟩ := hcandidate
    have hmem := List.argmax_mem hnewest
    rw [List.mem_filter] at hmem
    split at hcandidate
    · rename_i resultId engineJobId engineCaseSlug hresult _ _
      cases hcandidate
      refine ⟨hoffers, rfl, c, hnewest, hresult, rfl, ?_⟩
      rw [← exact_iff_generation hmem.1 hmem.2 hresult]
      exact hexact
    · cases hcandidate
  · cases hcandidate

theorem precalcContinuation_isSome_iff (hoffers : offersContinuation l.obligation = true) :
    (precalcContinuation w id l).isSome = true ↔
      (newest ((storedAttempts w l).filter (candidateCheckpoint w l))).any
        (fun c => w.exactGeneration c.id c.attempt) = true := by
  constructor
  · intro h
    obtain ⟨address, haddress⟩ := Option.isSome_iff_exists.mp h
    obtain ⟨-, -, c, hnewest, -, -, hgeneration⟩ := precalcContinuation_eq_some haddress
    rw [hnewest]
    exact hgeneration
  · intro h
    obtain ⟨c, hnewest, hgeneration⟩ := (Option.any_eq_true _ _).mp h
    have hmem := List.argmax_mem hnewest
    rw [List.mem_filter] at hmem
    obtain ⟨resultId, engineJobId, engineCaseSlug, hresult, hengine, hslug⟩ :=
      checkpointOf_address (candidateCheckpoint_spec hmem.2).1
    have hexact : w.isExactRestartablePrecalcAttempt resultId c.id = true :=
      (exact_iff_generation hmem.1 hmem.2 hresult).trans hgeneration
    rw [precalcContinuation, precalcCheckpointCandidate, if_pos hoffers, hnewest, Option.bind_some, hresult, hengine,
      hslug, Option.filter_some, if_pos hexact]
    rfl

theorem gate_of_offered {address : ContinuationAddress} (h : precalcContinuation w id l = some address) :
    ∃ revision boundary, w.revisions.find? l.obligation.revisionId = some revision ∧
      revision.boundaryCondition = some boundary ∧
      ∀ spec : Composition F, spec.pair = some (address.resultId, address.resultAttemptId) →
        spec.job.solverImplementationId = some revision.solverImplementationId →
          spec.boundaryConditionIds = [boundary] →
            ∃ target, spec.target = some target ∧ restartablePrecalcCheckpoint w l (some target) = true := by
  obtain ⟨-, -, c, hnewest, hresult, hid, hgeneration⟩ := precalcContinuation_eq_some h
  have hmem := List.argmax_mem hnewest
  rw [List.mem_filter] at hmem
  obtain ⟨hcheckpoint, -, hboundary, himplementation⟩ := candidateCheckpoint_spec hmem.2
  obtain ⟨revision, hrevision, hboundary⟩ := (Option.any_eq_true _ _).mp hboundary
  rw [ownImplementation, hrevision, Option.any_some] at himplementation
  rw [beq_iff_eq] at hboundary
  refine ⟨revision, c.attempt.bcId, hrevision, hboundary, fun spec hpair hsolver hboundaries => ?_⟩
  have hnonempty : c.attempt.bcId ≠ "" := by
    have hin : c.attempt.bcId ∈ spec.boundaryConditionIds := by
      rw [hboundaries]
      exact List.mem_singleton_self _
    simpa using (List.mem_filter.mp hin).2
  obtain ⟨hresultNe, hattemptNe⟩ := continuationPair_ne hpair
  have htarget : spec.target = some ⟨some revision.solverImplementationId, c.attempt.bcId, address.resultId,
      address.resultAttemptId⟩ := by
    rw [Composition.target, hpair, hsolver, hboundaries]
    rfl
  refine ⟨_, htarget, List.any_eq_true.mpr ⟨c, hmem.1, ?_⟩⟩
  rw [restartableCheckpoint, hcheckpoint, hrevision, Option.any_some, hgeneration]
  simp [hboundary, himplementation, hnonempty, hresultNe, hattemptNe, hid, hresult]

end Offered

/-! ## What is reopened -/

section Reopened
variable {w : World F} {id : String} {l l' : Ledger F} {c : Checkpoint F}

def withoutInterruptions (w : World F) (c : Checkpoint F) (l : Ledger F) : Ledger F where
  obligation := l.obligation
  submissions := l.submissions.filter fun r => !interrupts w c r
  apart := l.apart.filter _

omit [Binary64 F] in
theorem resultAttemptId_of_interrupts {r : Submission F} (h : interrupts w c r = true) : r.resultAttemptId = none := by
  simp only [interrupts, World.legacyInterruption, Bool.and_eq_true] at h
  simpa using h.2.1.1

omit [Binary64 F] in
theorem storedAttempts_repaired : storedAttempts w (repaired w c l) = storedAttempts w (withoutInterruptions w c l) := by
  simp only [storedAttempts, repaired, Ledger.mapSubmissions, withoutInterruptions]
  induction l.submissions with
  | nil => rfl
  | cons r rows ih =>
    rw [List.map_cons, List.filterMap_cons, ih]
    cases hinterrupts : interrupts w c r with
    | true =>
      rw [List.filter_cons_of_neg (by simp [hinterrupts]), repairRow_resultAttemptId,
        resultAttemptId_of_interrupts hinterrupts]
      rfl
    | false =>
      have hsame : repairRow w c r = r := if_neg (by rw [hinterrupts]; exact Bool.false_ne_true)
      rw [List.filter_cons_of_pos (by simp [hinterrupts]), hsame, List.filterMap_cons]

omit [Binary64 F] in
theorem any_supersedes_withoutInterruptions {n : ℕ} {checkpointId : String} {a : ResultAttempt F} :
    ((repaired w c l).submissions.any fun newer =>
        decide (n < newer.attemptNumber) && w.supersedes checkpointId a newer) =
      (withoutInterruptions w c l).submissions.any fun newer =>
        decide (n < newer.attemptNumber) && w.supersedes checkpointId a newer := by
  simp only [repaired, Ledger.mapSubmissions, withoutInterruptions]
  induction l.submissions with
  | nil => rfl
  | cons r rows ih =>
    rw [List.map_cons, List.any_cons, ih]
    cases hinterrupts : interrupts w c r with
    | true =>
      have hrepaired : repairRow w c r = r.interrupted := if_pos hinterrupts
      rw [List.filter_cons_of_neg (by simp [hinterrupts]), hrepaired, not_supersedes_interrupted, Bool.and_false,
        Bool.false_or]
    | false =>
      have hsame : repairRow w c r = r := if_neg (by rw [hinterrupts]; exact Bool.false_ne_true)
      rw [List.filter_cons_of_pos (by simp [hinterrupts]), hsame, List.any_cons]

theorem candidateCheckpoint_reopened {count : ℕ} {hle : count ≤ l.obligation.maxAttempts} :
    candidateCheckpoint w ((repaired w c l).setObligation (l.obligation.reopen count hle)) =
      candidateCheckpoint w (withoutInterruptions w c l) := by
  funext c'
  have hcheckpoint : checkpointOf w ((repaired w c l).setObligation (l.obligation.reopen count hle)) c'.row c'.id
      c'.attempt = checkpointOf w (withoutInterruptions w c l) c'.row c'.id c'.attempt := by
    rw [checkpointOf, checkpointOf, ← any_supersedes_withoutInterruptions]
    rfl
  rw [candidateCheckpoint, candidateCheckpoint, hcheckpoint]
  rfl

/-- Among the rows other than the interruptions of its verified checkpoint, the newest that the scheduler accepts still
owns its manifest and its archive. -/
def hasExactCandidate (w : World F) (l : Ledger F) : Bool :=
  (verifiedCheckpoint w l).any fun c =>
    (newest ((storedAttempts w (withoutInterruptions w c l)).filter
      (candidateCheckpoint w (withoutInterruptions w c l)))).any fun c' => w.exactGeneration c'.id c'.attempt

theorem offered_of_reopened (hreopenable : reopenable w id l.obligation = true) (hturn : requeueLedger w id l = .ok l')
    (hpending : l'.obligation.state = .pending) :
    (precalcContinuation w id l').isSome = hasExactCandidate w l := by
  have hblocked : l.obligation.state = .blocked ∧
      l.obligation.continuationNoProgressCount < maxPrecalcNoProgressSegments := by
    simp only [reopenable, Bool.and_eq_true, decide_eq_true_eq] at hreopenable
    exact hreopenable.1.1.1.1
  obtain ⟨rfl, -⟩ | ⟨c, hc, ⟨rfl, -⟩ | ⟨-, hle, rfl⟩⟩ := requeueLedger_cases hturn
  · rw [hblocked.1] at hpending
    cases hpending
  · have hstate : l.obligation.state = .pending := hpending
    rw [hblocked.1] at hstate
    cases hstate
  · have hoffers : offersContinuation
        ((repaired w c l).setObligation (l.obligation.reopen (restoredAttempts (repaired w c l)) hle)).obligation =
          true := by
      change (true && true && decide (l.obligation.continuationNoProgressCount < maxPrecalcNoProgressSegments)) = true
      rw [decide_eq_true hblocked.2]
      rfl
    rw [Bool.eq_iff_iff, precalcContinuation_isSome_iff hoffers, candidateCheckpoint_reopened, hasExactCandidate, hc,
      Option.any_some, ← storedAttempts_repaired]
    rfl

end Reopened

/-! ## The three formulas -/

/-- Every continuation that is offered passes the gate of a composition for its one obligation, of the obligation's own
revision, boundary condition and solver implementation. -/
def OffersPassGate (w : World F) (obligations : Table String (Ledger F)) : Prop :=
  ∀ ids, ∀ address ∈ precalcContinuationsForObligations w obligations ids,
    ∃ l revision boundary, obligations.find? address.obligationId = some l ∧
      w.revisions.find? l.obligation.revisionId = some revision ∧ revision.boundaryCondition = some boundary ∧
      ∀ spec : Composition F, spec.obligationIds = [address.obligationId] →
        spec.pair = some (address.resultId, address.resultAttemptId) →
          spec.job.solverImplementationId = some revision.solverImplementationId →
            spec.boundaryConditionIds = [boundary] →
              ∃ target, spec.target = some target ∧ restartablePrecalcCheckpoint w l (some target) = true

/-- What holds of every obligation that a requeue has reopened without an attempt left. -/
def OnReopened (w : World F) (scope : String → Bool) (obligations : Table String (Ledger F))
    (P : Table String (Ledger F) → String → Ledger F → Prop) : Prop :=
  ∀ obligations', requeueRestartablePrecalcContinuations w scope obligations = .ok obligations' →
    ∀ id l l', obligations.find? id = some l → l.obligation.state ≠ .pending →
      obligations'.find? id = some l' → l'.obligation.state = .pending → l'.obligation.exhausted = true →
        P obligations' id l

theorem offersPassGate (w : World F) (obligations : Table String (Ledger F)) : OffersPassGate w obligations := by
  intro ids address haddress
  rw [precalcContinuationsForObligations, List.mem_filterMap] at haddress
  obtain ⟨⟨id, l⟩, hrow, haddress⟩ := haddress
  split at haddress
  · obtain ⟨-, hid, -⟩ := precalcContinuation_eq_some haddress
    obtain ⟨revision, boundary, hrevision, hboundary, hgate⟩ := gate_of_offered haddress
    refine ⟨l, revision, boundary, ?_, hrevision, hboundary, fun spec _ => hgate spec⟩
    rw [hid]
    exact Table.find?_of_mem hrow
  · cases haddress

def sharedWorld : World ExactNum :=
  { savedWorld with
    jobs := ⟨[("first", { solveJob ["obligation"] with bcIds := ["condition", "other"] })], List.nodup_singleton _⟩ }

def blockedLedger : Ledger ExactNum where
  obligation := { freshObligation with
    state := .blocked
    attemptCount := 2
    latestSimJobId := some "first"
    attempts_le := by decide }
  submissions :=
    [{ Submission.submitted "earlier" 1 (some 1) true with state := .failed },
      { Submission.submitted "first" 2 (some 2) true with state := .rejected, resultAttemptId := some "saved" }]
  apart := by decide

def blockedTable : Table String (Ledger ExactNum) := ⟨[("obligation", blockedLedger)], List.nodup_singleton _⟩

def requeueReport (w : World ExactNum) :
    Option (List (ObligationState × Bool) × List ContinuationAddress) :=
  match requeueRestartablePrecalcContinuations w (fun _ => true) blockedTable with
  | .ok obligations =>
    some (obligations.rows.map fun row => (row.2.obligation.state, row.2.obligation.exhausted),
      precalcContinuationsForObligations w obligations ["obligation"])
  | .error _ => none

end XFoilFoam.Precalc
