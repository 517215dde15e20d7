import XFoilFoam.Precalc.Checkpoints
import Mathlib.Data.String.Basic

/-! The bounded repair of restartable obligations: `requeueRestartablePrecalcContinuations` of `precalc-obligations.ts`.
Interrupted continuations are turned into infrastructure work, and a blocked obligation with a saved trajectory is
reopened on the ordinals that remain. -/
namespace XFoilFoam.Precalc
set_option autoImplicit false

variable {F : Type} [Binary64 F]

/-! ## Candidates -/

def listedByLiveJob (w : World F) (id : String) : Bool :=
  w.jobs.rows.any fun job => liveStatus job.2.status && (precalcObligationIds job.2.requestPayload).contains id

def acceptedEvidence (w : World F) (o : Obligation) : Bool :=
  w.resultAttempts.rows.any fun row =>
    (row.2.classification.any fun c => decide (c.1 = .accepted)) && row.2.airfoilId == o.airfoilId &&
      row.2.simulationPresetRevisionId == some o.revisionId && decide (row.2.aoaDeg = o.aoaDeg) &&
      (decide (row.2.regime = some .urans) || row.2.isPrecalc)

def reopenable (w : World F) (id : String) (o : Obligation) : Bool :=
  decide (o.state = .blocked) && decide (o.continuationNoProgressCount < maxPrecalcNoProgressSegments) &&
    decide (o.lastOutcome ≠ some .continuationNoProgressExhausted) && !listedByLiveJob w id &&
    !acceptedEvidence w o && (w.liveOwner id || w.repairOwner id)

def requeueCheckpoint (w : World F) (l : Ledger F) : Option (Checkpoint F) :=
  newest ((storedAttempts w l).filter fun c => checkpointOf w l c.row c.id c.attempt && ownImplementation w l c)

/-- `ORDER BY obligation.id LIMIT 500`. -/
def requeueCandidates (w : World F) (scope : String → Bool) (obligations : Table String (Ledger F)) :
    List (String × Ledger F) :=
  ((obligations.rows.filter fun row =>
    scope row.1 && reopenable w row.1 row.2.obligation && (requeueCheckpoint w row.2).isSome).mergeSort
      fun a b => decide (a.1 ≤ b.1)).take 500

def verifiedCheckpoint (w : World F) (l : Ledger F) : Option (Checkpoint F) :=
  (requeueCheckpoint w l).filter fun c =>
    c.attempt.resultId.any fun resultId => resultId != "" && w.isExactRestartablePrecalcAttempt resultId c.id

/-! ## Repair -/

def Submission.interrupted (r : Submission F) : Submission F :=
  { r with
    state := .cancelled
    outcome := some .infrastructureRetryWait
    solverAttemptNumber := none
    consumesSolverAttempt := false }

def interrupts (w : World F) (c : Checkpoint F) (r : Submission F) : Bool :=
  decide (c.row.attemptNumber < r.attemptNumber) && w.legacyInterruption c.id c.attempt r

def repairRow (w : World F) (c : Checkpoint F) (r : Submission F) : Submission F :=
  if interrupts w c r then r.interrupted else r

omit [Binary64 F] in
theorem keepsKeys_repairRow (w : World F) (c : Checkpoint F) : Submission.KeepsKeys (repairRow w c) := by
  intro r
  rw [repairRow]
  split
  · exact ⟨rfl, rfl, .inr rfl⟩
  · exact ⟨rfl, rfl, .inl rfl⟩

def repaired (w : World F) (c : Checkpoint F) (l : Ledger F) : Ledger F :=
  l.mapSubmissions (repairRow w c) (keepsKeys_repairRow w c)

/-- `COALESCE(MAX(solver_attempt_number), 0)` over the consuming rows. -/
def restoredAttempts (l : Ledger F) : ℕ :=
  ((l.submissions.filter Submission.consumesSolverAttempt).filterMap Submission.solverAttemptNumber).foldl max 0

def Obligation.reopen (o : Obligation) (attemptCount : ℕ) (h : attemptCount ≤ o.maxAttempts) : Obligation :=
  { o with
    state := .pending
    attemptCount := attemptCount
    submitFailureCount := 0
    nextSubmitAt := none
    lastOutcome := some .continuationRecoveryPending
    lastError := none
    attempts_le := h }

def reopens (w : World F) (id : String) (l : Ledger F) : Bool :=
  reopenable w id l.obligation && restartablePrecalcCheckpoint w l none

def requeueLedger (w : World F) (id : String) (l : Ledger F) : Except String (Ledger F) :=
  match verifiedCheckpoint w l with
  | none => .ok l
  | some c =>
    let l' := repaired w c l
    if reopens w id l' then
      if h : restoredAttempts l' ≤ l'.obligation.maxAttempts then
        .ok (l'.setObligation (l'.obligation.reopen (restoredAttempts l') h))
      else .error "new row violates check constraint"
    else .ok l'

/-- `requeueRestartablePrecalcContinuations`, on the obligations and their submissions. -/
def requeueRestartablePrecalcContinuations (w : World F) (scope : String → Bool)
    (obligations : Table String (Ledger F)) : Except String (Table String (Ledger F)) :=
  let candidates := requeueCandidates w scope obligations
  match candidates.mapM fun row => requeueLedger w row.1 row.2 with
  | .error text => .error text
  | .ok _ =>
    .ok (obligations.map fun id l =>
      if (candidates.map Prod.fst).contains id then
        match requeueLedger w id l with
        | .ok l' => l'
        | .error _ => l
      else l)

/-! ## What a repair does -/

section Effect
variable {w : World F} {id : String} {l l' : Ledger F}

theorem requeueLedger_cases (h : requeueLedger w id l = .ok l') :
    l' = l ∧ verifiedCheckpoint w l = none ∨
      ∃ c, verifiedCheckpoint w l = some c ∧
        (l' = repaired w c l ∧ reopens w id (repaired w c l) = false ∨
          reopens w id (repaired w c l) = true ∧
            ∃ hle : restoredAttempts (repaired w c l) ≤ l.obligation.maxAttempts,
              l' = (repaired w c l).setObligation
                (l.obligation.reopen (restoredAttempts (repaired w c l)) hle)) := by
  unfold requeueLedger at h
  cases hc : verifiedCheckpoint w l with
  | none =>
    rw [hc] at h
    cases h
    exact .inl ⟨rfl, rfl⟩
  | some c =>
    rw [hc] at h
    refine .inr ⟨c, rfl, ?_⟩
    cases hreopens : reopens w id (repaired w c l) with
    | false =>
      simp only [hreopens, Bool.false_eq_true, if_false] at h
      cases h
      exact .inl ⟨rfl, rfl⟩
    | true =>
      simp only [hreopens, if_true] at h
      split at h
      · rename_i hle
        cases h
        exact .inr ⟨rfl, hle, rfl⟩
      · cases h

theorem requeue_cases {scope : String → Bool} {obligations obligations' : Table String (Ledger F)}
    (h : requeueRestartablePrecalcContinuations w scope obligations = .ok obligations')
    (hfind : obligations'.find? id = some l') :
    ∃ l, obligations.find? id = some l ∧
      (l' = l ∨ reopenable w id l.obligation = true ∧ requeueLedger w id l = .ok l') := by
  unfold requeueRestartablePrecalcContinuations at h
  simp only at h
  split at h
  · cases h
  · cases h
    rw [Table.find?_map, Option.map_eq_some_iff] at hfind
    obtain ⟨l, hl, hl'⟩ := hfind
    refine ⟨l, hl, ?_⟩
    split at hl'
    · rename_i hcandidate
      split at hl'
      · rename_i hturn
        refine .inr ⟨?_, hturn.trans (congrArg Except.ok hl')⟩
        obtain ⟨⟨id', l₀⟩, hmem, rfl⟩ := List.mem_map.mp (List.contains_iff_mem.mp hcandidate)
        have hrow := List.mem_mergeSort.mp (List.mem_of_mem_take hmem)
        rw [List.mem_filter, Bool.and_eq_true, Bool.and_eq_true] at hrow
        have hsame := Table.find?_of_mem hrow.1
        rw [hl] at hsame
        cases hsame
        exact hrow.2.1.2
      · exact .inl hl'.symm
    · exact .inl hl'.symm

theorem requeue_isSome {scope : String → Bool} {obligations obligations' : Table String (Ledger F)}
    (h : requeueRestartablePrecalcContinuations w scope obligations = .ok obligations') :
    (obligations'.find? id).isSome = (obligations.find? id).isSome := by
  unfold requeueRestartablePrecalcContinuations at h
  simp only at h
  split at h
  · cases h
  · cases h
    rw [Table.find?_map, Option.isSome_map]

/-! ## The checkpoint behind a repair -/

theorem verifiedCheckpoint_spec {c : Checkpoint F} (h : verifiedCheckpoint w l = some c) :
    c ∈ storedAttempts w l ∧ checkpointOf w l c.row c.id c.attempt = true ∧ ownImplementation w l c = true ∧
      ∃ resultId, c.attempt.resultId = some resultId ∧ w.isExactRestartablePrecalcAttempt resultId c.id = true := by
  rw [verifiedCheckpoint, Option.filter_eq_some_iff] at h
  obtain ⟨hnewest, hverified⟩ := h
  have hmem := List.argmax_mem hnewest
  rw [List.mem_filter, Bool.and_eq_true] at hmem
  obtain ⟨resultId, hresult, hexact⟩ := (Option.any_eq_true _ _).mp hverified
  rw [Bool.and_eq_true] at hexact
  exact ⟨hmem.1, hmem.2.1, hmem.2.2, resultId, hresult, hexact.2⟩

omit [Binary64 F] in
theorem mem_storedAttempts {c : Checkpoint F} :
    c ∈ storedAttempts w l ↔
      c.row ∈ l.submissions ∧ c.row.resultAttemptId = some c.id ∧ w.resultAttempts.find? c.id = some c.attempt := by
  rw [storedAttempts, List.mem_filterMap]
  constructor
  · rintro ⟨row, hrow, hc⟩
    rw [Option.bind_eq_some_iff] at hc
    obtain ⟨id, hid, hc⟩ := hc
    rw [Option.map_eq_some_iff] at hc
    obtain ⟨a, ha, rfl⟩ := hc
    exact ⟨hrow, hid, ha⟩
  · rintro ⟨hrow, hid, ha⟩
    refine ⟨c.row, hrow, ?_⟩
    rw [hid, Option.bind_some, ha]
    rfl

omit [Binary64 F] in
theorem repairRow_self (c : Checkpoint F) : repairRow w c c.row = c.row := by
  rw [repairRow, interrupts, decide_eq_false (lt_irrefl _), Bool.false_and]
  rfl

omit [Binary64 F] in
@[simp] theorem repairRow_resultAttemptId (c : Checkpoint F) (r : Submission F) :
    (repairRow w c r).resultAttemptId = r.resultAttemptId := by
  rw [repairRow]
  split <;> rfl

omit [Binary64 F] in
@[simp] theorem repairRow_attemptNumber (c : Checkpoint F) (r : Submission F) :
    (repairRow w c r).attemptNumber = r.attemptNumber := (keepsKeys_repairRow w c r).2.1

omit [Binary64 F] in
@[simp] theorem repairRow_simJobId (c : Checkpoint F) (r : Submission F) :
    (repairRow w c r).simJobId = r.simJobId := (keepsKeys_repairRow w c r).1

omit [Binary64 F] in
theorem not_supersedes_interrupted (id : String) (a : ResultAttempt F) (r : Submission F) :
    w.supersedes id a r.interrupted = false := by
  simp [World.supersedes, Submission.interrupted]

omit [Binary64 F] in
theorem interrupts_of_not_supersedes {c : Checkpoint F} {r : Submission F}
    (hnewer : c.row.attemptNumber < r.attemptNumber) (hconsumes : r.consumesSolverAttempt = true)
    (h : w.supersedes c.id c.attempt r = false) : interrupts w c r = true := by
  rw [World.supersedes, hconsumes] at h
  rw [interrupts, decide_eq_true hnewer, Bool.true_and]
  simpa using h

omit [Binary64 F] in
theorem any_supersedes_repaired (c : Checkpoint F) {n : ℕ} {id : String} {a : ResultAttempt F}
    (h : (l.submissions.any fun newer => decide (n < newer.attemptNumber) && w.supersedes id a newer) = false) :
    ((repaired w c l).submissions.any fun newer =>
      decide (n < newer.attemptNumber) && w.supersedes id a newer) = false := by
  rw [List.any_eq_false] at h ⊢
  intro row hrow
  obtain ⟨r, hr, rfl⟩ := List.mem_map.mp hrow
  rw [repairRow]
  split
  · rw [not_supersedes_interrupted, Bool.and_false]
    exact Bool.false_ne_true
  · exact h r hr

theorem checkpointOf_repaired (c : Checkpoint F) {row : Submission F} {id : String} {a : ResultAttempt F}
    (h : checkpointOf w l row id a = true) : checkpointOf w (repaired w c l) row id a = true := by
  simp only [checkpointOf, Bool.and_eq_true, Bool.not_eq_true'] at h ⊢
  obtain ⟨hfields, hnewer⟩ := h
  exact ⟨hfields, any_supersedes_repaired c hnewer⟩

omit [Binary64 F] in
/-- The boundary condition of the obligation's revision is that of the checkpoint. -/
def ownBoundary (w : World F) (l : Ledger F) (c : Checkpoint F) : Bool :=
  (w.revisions.find? l.obligation.revisionId).any fun revision => revision.boundaryCondition == some c.attempt.bcId

theorem reopens_of_ownBoundary {c : Checkpoint F} (hc : verifiedCheckpoint w l = some c)
    (hreopenable : reopenable w id l.obligation = true) (hboundary : ownBoundary w l c = true) :
    reopens w id (repaired w c l) = true := by
  obtain ⟨hstored, hcheckpoint, himplementation, resultId, hresult, hexact⟩ := verifiedCheckpoint_spec hc
  obtain ⟨hrow, hid, hattempt⟩ := mem_storedAttempts.mp hstored
  have hstored' : c ∈ storedAttempts w (repaired w c l) := by
    refine mem_storedAttempts.mpr ⟨?_, hid, hattempt⟩
    exact List.mem_map.mpr ⟨c.row, hrow, repairRow_self c⟩
  have hgeneration : w.exactGeneration c.id c.attempt = true := by
    rw [World.isExactRestartablePrecalcAttempt, hattempt, Option.any_some, Bool.and_eq_true] at hexact
    exact hexact.2
  obtain ⟨revision, hrevision, hown⟩ := (Option.any_eq_true _ _).mp himplementation
  rw [ownBoundary, hrevision, Option.any_some] at hboundary
  have hrestartable : restartableCheckpoint w (repaired w c l) none c = true := by
    rw [restartableCheckpoint, checkpointOf_repaired c hcheckpoint, Bool.true_and]
    change (w.revisions.find? l.obligation.revisionId).any _ = true
    rw [hrevision, Option.any_some, hboundary, hgeneration]
    simp only [Option.bind_none, Option.getD_none, Option.all_none, Bool.and_true, Bool.true_and]
    exact hown
  have hgate : restartablePrecalcCheckpoint w (repaired w c l) none = true :=
    List.any_eq_true.mpr ⟨c, hstored', hrestartable⟩
  rw [reopens, hgate, Bool.and_true]
  exact hreopenable

end Effect

end XFoilFoam.Precalc
