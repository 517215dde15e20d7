import XFoilFoam.Remote.Revalidation
import XFoilFoam.Remote.Store

/-! The outbox of a worker, `progressive-worker-reports.ts`: reports of one execution are enqueued as they are
observed, read for publication one after another, and acknowledged or put aside once the hub has answered.  Every
operation is one transaction under the lock of the job row. -/
namespace XFoilFoam.Remote
open ExactNum
set_option autoImplicit false

/-! ## Rows -/

/-- A row of `progressive_worker_reports` for this execution. -/
structure WorkerRow where
  stored : StoredReport
  acknowledged : Bool

/-- A row of `progressive_worker_report_conflicts`. -/
structure ConflictRow where
  stored : StoredReport
  reason : String

structure Outbox where
  rows : List WorkerRow
  conflicts : List ConflictRow

def Outbox.reports (o : Outbox) : List StoredReport := o.rows.map WorkerRow.stored

/-! ## Enqueueing -/

/-- `current.replaceAll("\u0000", "")`. -/
def withoutNul (s : String) : String := String.ofList (s.toList.filter fun c => c != Char.ofNat 0)

mutual
/-- `normalize` of `normalizeProgressiveRemoteReportJson`, at the path of the value. -/
def normalizeJson (path : String) : Json → Except String Json
  | .str s => .ok (.str (withoutNul s))
  | .arr xs => (normalizeItems path 0 xs).map .arr
  | .obj fields => (normalizeFields path [] fields).map .obj
  | .undefined => .ok .undefined
  | .null => .ok .null
  | .bool b => .ok (.bool b)
  | .num x => .ok (.num x)
def normalizeItems (path : String) (index : ℕ) : List Json → Except String (List Json)
  | [] => .ok []
  | x :: xs => do
    let y ← normalizeJson (path ++ "[" ++ toString index ++ "]") x
    let ys ← normalizeItems path (index + 1) xs
    .ok (y :: ys)
/-- The loop over `Object.entries`, with the fields already set. -/
def normalizeFields (path : String) (result : List (String × Json)) :
    List (String × Json) → Except String (List (String × Json))
  | [] => .ok result
  | (key, x) :: fields =>
    if result.any fun field => field.1 == withoutNul key then
      .error ("Progressive report normalization would merge object keys at " ++ path)
    else do
      let y ← normalizeJson (path ++ "." ++ withoutNul key) x
      normalizeFields path (result ++ [(withoutNul key, y)]) fields
end

/-- What is observed of an execution, with the identities it is enqueued under. -/
structure Observation where
  executionId : String
  solverId : String
  promiseId : String
  assignmentSignature : String
  status : Json
  result : Json
  stopProof : Json

/-- `{ ...input, version: 1 }`. -/
def Observation.json (o : Observation) : Json :=
  .obj [("executionId", .str o.executionId), ("solverId", .str o.solverId), ("promiseId", .str o.promiseId),
    ("assignmentSignature", .str o.assignmentSignature), ("status", o.status), ("result", o.result),
    ("stopProof", o.stopProof), ("version", .num (.fin 1))]

/-- `{ ...content, sequence }`. -/
def withSequence (content : Json) (sequence : ℤ) : Json :=
  match content with
  | .obj fields => .obj (fields ++ [("sequence", .num (.fin sequence))])
  | v => v

/-- The latest report, if the content is validated to its signature under its sequence. -/
def replayOf (runtime : Runtime) (envelope : Envelope) (content : Json) :
    Option StoredReport → Except String (Option StoredReport)
  | none => .ok none
  | some latest => do
    let (_, signature) ← validateProgressiveRemoteReport runtime envelope (withSequence content latest.sequence)
    .ok (if signature = latest.contentSignature then some latest else none)

/-- `enqueueProgressiveWorkerReport`; `assigned` is what locking the owned job row and verifying its assignment
give for the identities of the observation. -/
def enqueueProgressiveWorkerReport (runtime : Runtime) (assigned : Observation → Except String Envelope)
    (rows : List WorkerRow) (input : Observation) : Except String (List WorkerRow × Receipt) := do
  let envelope ← assigned input
  let content ← normalizeJson "$" input.json
  let latest := latestReport (rows.map WorkerRow.stored)
  let replay ← replayOf runtime envelope content latest
  match replay with
  | some latest => .ok (rows, ⟨latest.sequence, latest.contentSignature, true⟩)
  | none => do
    let (report, signature) ← validateProgressiveRemoteReport runtime envelope
      (withSequence content ((latest.map StoredReport.sequence).getD 0 + 1))
    validateProgressiveRemoteReportOrder runtime report (latest.map StoredReport.report)
    match latest.filter fun latest => isFinalProgressiveRemoteReport latest.report with
    | some latest => .ok (rows, ⟨latest.sequence, latest.contentSignature, true⟩)
    | none =>
      .ok (rows ++ [⟨⟨sequenceOf report, signature, report⟩, false⟩], ⟨sequenceOf report, signature, false⟩)

/-! ## Publication -/

/-- `report.report->>'solverId' = … AND report.acknowledged_at IS NULL`. -/
def WorkerRow.pendingFor (solverId : String) (row : WorkerRow) : Bool :=
  (row.stored.report.get "solverId").isStr solverId && !row.acknowledged

/-- `… ORDER BY report.sequence LIMIT 1`. -/
def earliestRow (rows : List WorkerRow) : Option WorkerRow :=
  rows.foldl (fun best row =>
    match best with
    | none => some row
    | some b => if row.stored.sequence < b.stored.sequence then some row else some b) none

def readPendingProgressiveWorkerReport (rows : List WorkerRow) (solverId : String) : Option StoredReport :=
  (earliestRow (rows.filter (WorkerRow.pendingFor solverId))).map WorkerRow.stored

/-! ## Answers of the hub -/

structure DeliveryKey where
  solverId : String
  sequence : ℤ
  contentSignature : String

def WorkerRow.named (key : DeliveryKey) (row : WorkerRow) : Bool :=
  row.stored.sequence == key.sequence && row.stored.contentSignature == key.contentSignature &&
    (row.stored.report.get "solverId").isStr key.solverId

/-- `NOT EXISTS (… previous.sequence < report.sequence AND previous.acknowledged_at IS NULL)`. -/
def isNextDelivery (rows : List WorkerRow) (row : WorkerRow) : Bool :=
  rows.all fun previous => !decide (previous.stored.sequence < row.stored.sequence) || previous.acknowledged

/-- `SET acknowledged_at = coalesce(acknowledged_at, clock_timestamp())` on the chosen rows. -/
def acknowledgeRows (chosen : WorkerRow → Bool) (rows : List WorkerRow) : List WorkerRow :=
  rows.map fun row => if chosen row then { row with acknowledged := true } else row

def acknowledgeProgressiveWorkerReport (rows : List WorkerRow) (key : DeliveryKey) : Except String (List WorkerRow) :=
  let chosen := fun row : WorkerRow => row.named key && isNextDelivery rows row
  if key.sequence < 1 ∨ maxSafe < key.sequence then
    .error "Worker report acknowledgement has an invalid sequence"
  else if rows.any chosen then .ok (acknowledgeRows chosen rows)
  else .error "Worker report acknowledgement does not match the next durable delivery"

/-- `INSERT … ON CONFLICT (sim_job_id, sequence) DO NOTHING`. -/
def insertConflict (conflicts : List ConflictRow) (row : ConflictRow) : List ConflictRow :=
  if conflicts.any fun conflict => conflict.stored.sequence == row.stored.sequence then conflicts
  else conflicts ++ [row]

/-- `quarantineProgressiveWorkerReportConflict`: what was put aside stays so where the update finds no row. -/
def quarantineProgressiveWorkerReportConflict (o : Outbox) (key : DeliveryKey) (reason : String) : Outbox × Bool :=
  match o.rows.find? fun row => row.named key && !row.acknowledged with
  | none => (o, false)
  | some row =>
    let chosen := fun row : WorkerRow => row.named key && !row.acknowledged && isNextDelivery o.rows row
    (⟨acknowledgeRows chosen o.rows, insertConflict o.conflicts ⟨row.stored, reason⟩⟩, o.rows.any chosen)

def staleReportQuarantineBatchSize : ℕ := 128

/-- `… WHERE … acknowledged_at IS NULL ORDER BY sequence LIMIT 128`. -/
def staleBatch (rows : List WorkerRow) (solverId : String) : List WorkerRow :=
  ((rows.filter (WorkerRow.pendingFor solverId)).insertionSort fun a b => a.stored.sequence ≤ b.stored.sequence).take
    staleReportQuarantineBatchSize

def quarantineProgressiveWorkerReportConflicts (o : Outbox) (solverId reason : String) : Outbox × ℕ :=
  let pending := staleBatch o.rows solverId
  let chosen := fun row : WorkerRow =>
    row.pendingFor solverId && (pending.map fun row => row.stored.sequence).contains row.stored.sequence
  (⟨acknowledgeRows chosen o.rows,
      (pending.map fun row => (⟨row.stored, reason⟩ : ConflictRow)).foldl insertConflict o.conflicts⟩,
    o.rows.countP chosen)

/-! ## Stored chains -/

section Chain
variable {runtime : Runtime} {dispatch : Dispatch} {rows reports : List StoredReport} {row other : StoredReport}

theorem RowsOk.sequence_getElem (h : RowsOk runtime dispatch rows) {i : ℕ} (hi : i < rows.length) :
    rows[i].sequence = i + 1 := by
  have hget := congrArg (fun l => l[i]?) h.sequences
  simpa [hi] using hget

theorem RowsOk.exists_index (h : RowsOk runtime dispatch rows) (hrow : row ∈ rows) :
    ∃ i, ∃ hi : i < rows.length, rows[i] = row ∧ row.sequence = i + 1 := by
  obtain ⟨i, hi, rfl⟩ := List.mem_iff_getElem.mp hrow
  exact ⟨i, hi, rfl, h.sequence_getElem hi⟩

theorem RowsOk.eq_of_sequence (h : RowsOk runtime dispatch rows) (hrow : row ∈ rows) (hother : other ∈ rows)
    (hsame : row.sequence = other.sequence) : row = other := by
  obtain ⟨i, hi, rfl, hseq⟩ := h.exists_index hrow
  obtain ⟨j, hj, rfl, hseq'⟩ := h.exists_index hother
  have hij : i = j := by omega
  subst hij
  rfl

theorem RowsOk.latest (h : RowsOk runtime dispatch rows) : latestReport rows = rows.getLast? := by
  induction rows using List.reverseRecOn with
  | nil => rfl
  | append_singleton front last =>
    rw [List.getLast?_concat]
    apply latestReport_append
    intro earlier hmem
    obtain ⟨i, hi, hget⟩ := List.mem_iff_getElem.mp hmem
    have hi' : i < (front ++ [last]).length := by
      rw [List.length_append]
      omega
    have hearlier := h.sequence_getElem hi'
    have hlast := h.sequence_getElem (i := front.length) (by simp)
    rw [List.getElem_append_left hi, hget] at hearlier
    rw [List.getElem_concat_length] at hlast
    · omega
    · rfl

theorem RowsOk.of_initial (h : RowsOk runtime dispatch reports) (hinit : rows <+: reports) :
    RowsOk runtime dispatch rows := by
  obtain ⟨rest, rfl⟩ := hinit
  refine ⟨?_, fun row hrow => h.valid row (List.mem_append_left _ hrow), ?_⟩
  · have hsequences := h.sequences
    rw [List.map_append, List.length_append, List.range_add, List.map_append] at hsequences
    exact (List.append_inj hsequences (by simp)).1
  · have hfollows := h.follows
    rw [List.map_append, List.pairwise_append] at hfollows
    exact hfollows.1

theorem RowsOk.extended (h : RowsOk runtime dispatch reports) (hinit : rows <+: reports)
    (hrow : row ∈ reports) (hseq : row.sequence = rows.length + 1) : rows ++ [row] <+: reports := by
  obtain ⟨i, hi, hget, hi'⟩ := h.exists_index hrow
  have hlength : i = rows.length := by omega
  subst hlength
  rw [List.prefix_iff_eq_take] at hinit ⊢
  rw [List.length_append, List.length_singleton, List.take_succ_eq_append_getElem hi, ← hinit, hget]

/-- Every report was admitted right behind those before it, and none of those is final. -/
def Grown (runtime : Runtime) (reports : List StoredReport) : Prop :=
  ∀ front row, front ++ [row] <+: reports →
    validateProgressiveRemoteReportOrder runtime row.report ((latestReport front).map StoredReport.report) = .ok () ∧
      ∀ latest, latestReport front = some latest → isFinalProgressiveRemoteReport latest.report = false

theorem Grown.concat (h : Grown runtime rows)
    (horder : validateProgressiveRemoteReportOrder runtime row.report ((latestReport rows).map StoredReport.report) =
      .ok ())
    (hopen : ∀ latest, latestReport rows = some latest → isFinalProgressiveRemoteReport latest.report = false) :
    Grown runtime (rows ++ [row]) := by
  intro front last hinit
  rcases List.prefix_concat_iff.mp hinit with heq | hinit
  · obtain ⟨rfl, hlast⟩ := List.append_inj' heq rfl
    cases hlast
    exact ⟨horder, hopen⟩
  · exact h front last hinit

end Chain

/-! ## Invariant -/

/-- What the outbox holds at any time: a chain of reports that validate to their signatures, acknowledged from
the front, and nothing put aside that was not enqueued. -/
structure OutboxOk (runtime : Runtime) (dispatch : Dispatch) (o : Outbox) : Prop where
  rows : RowsOk runtime dispatch o.reports
  grown : Grown runtime o.reports
  signed : ∀ row ∈ o.reports, ∃ envelope, dispatch.envelope = .ok envelope ∧
    validateProgressiveRemoteReport runtime envelope row.report = .ok (row.report, row.contentSignature)
  ahead : ∀ earlier ∈ o.rows, ∀ later ∈ o.rows, earlier.stored.sequence < later.stored.sequence →
    later.acknowledged = true → earlier.acknowledged = true
  aside : ∀ conflict ∈ o.conflicts, conflict.stored ∈ o.reports

section Invariant
variable {runtime : Runtime} {dispatch : Dispatch} {assigned : Observation → Except String Envelope} {o : Outbox}

theorem mem_reports {row : WorkerRow} (h : row ∈ o.rows) : row.stored ∈ o.reports := List.mem_map_of_mem h

@[simp] theorem acknowledgeRows_stored (chosen : WorkerRow → Bool) (rows : List WorkerRow) :
    (acknowledgeRows chosen rows).map WorkerRow.stored = rows.map WorkerRow.stored := by
  rw [acknowledgeRows, List.map_map]
  refine List.map_congr_left fun row _ => ?_
  rw [Function.comp_apply]
  split <;> rfl

theorem mem_acknowledgeRows {chosen : WorkerRow → Bool} {rows : List WorkerRow} {row : WorkerRow} :
    row ∈ acknowledgeRows chosen rows ↔
      ∃ before ∈ rows, row.stored = before.stored ∧ row.acknowledged = (before.acknowledged || chosen before) := by
  rw [acknowledgeRows, List.mem_map]
  refine exists_congr fun before => and_congr_right fun _ => ?_
  obtain ⟨stored, acknowledged⟩ := row
  cases hchosen : chosen before with
  | true =>
    rw [if_pos rfl, WorkerRow.mk.injEq, Bool.or_true]
    exact and_congr eq_comm eq_comm
  | false =>
    obtain ⟨stored', acknowledged'⟩ := before
    rw [if_neg Bool.false_ne_true, WorkerRow.mk.injEq, Bool.or_false]
    exact and_congr eq_comm eq_comm

theorem OutboxOk.acknowledge (h : OutboxOk runtime dispatch o) {chosen : WorkerRow → Bool}
    (hchosen : ∀ row ∈ o.rows, chosen row = true → ∀ earlier ∈ o.rows, earlier.stored.sequence < row.stored.sequence →
      earlier.acknowledged = true ∨ chosen earlier = true)
    {conflicts : List ConflictRow} (haside : ∀ conflict ∈ conflicts, conflict.stored ∈ o.reports) :
    OutboxOk runtime dispatch ⟨acknowledgeRows chosen o.rows, conflicts⟩ := by
  have hreports : (⟨acknowledgeRows chosen o.rows, conflicts⟩ : Outbox).reports = o.reports :=
    acknowledgeRows_stored chosen o.rows
  refine ⟨hreports ▸ h.rows, hreports ▸ h.grown, hreports ▸ h.signed, ?_, hreports ▸ haside⟩
  intro earlier hearlier later hlater hbefore hdone
  obtain ⟨e, he, hestored, hedone⟩ := mem_acknowledgeRows.mp hearlier
  obtain ⟨l, hl, hlstored, hldone⟩ := mem_acknowledgeRows.mp hlater
  rw [hestored, hlstored] at hbefore
  rw [hldone, Bool.or_eq_true] at hdone
  rw [hedone, Bool.or_eq_true]
  rcases hdone with hdone | hdone
  · exact .inl (h.ahead e he l hl hbefore hdone)
  · exact hchosen l hl hdone e he hbefore

theorem isNextDelivery_spec {rows : List WorkerRow} {row : WorkerRow} (h : isNextDelivery rows row = true)
    {earlier : WorkerRow} (hearlier : earlier ∈ rows) (hbefore : earlier.stored.sequence < row.stored.sequence) :
    earlier.acknowledged = true := by
  have hall := List.all_eq_true.mp h earlier hearlier
  simpa [hbefore] using hall

/-! ## One operation -/

theorem enqueue_cases {rows rows' : List WorkerRow} {input : Observation} {receipt : Receipt}
    (h : enqueueProgressiveWorkerReport runtime assigned rows input = .ok (rows', receipt)) :
    rows' = rows ∨ ∃ envelope value report signature, assigned input = .ok envelope ∧
      validateProgressiveRemoteReport runtime envelope value = .ok (report, signature) ∧
      validateProgressiveRemoteReportOrder runtime report
        ((latestReport (rows.map WorkerRow.stored)).map StoredReport.report) = .ok () ∧
      (∀ latest, latestReport (rows.map WorkerRow.stored) = some latest →
        isFinalProgressiveRemoteReport latest.report = false) ∧
      rows' = rows ++ [⟨⟨sequenceOf report, signature, report⟩, false⟩] := by
  unfold enqueueProgressiveWorkerReport at h
  obtain ⟨envelope, hassigned, h⟩ := bind_eq_ok.mp h
  obtain ⟨content, -, h⟩ := bind_eq_ok.mp h
  obtain ⟨replay, -, h⟩ := bind_eq_ok.mp h
  cases replay with
  | some latest =>
    cases h
    exact .inl rfl
  | none =>
    obtain ⟨⟨report, signature⟩, hvalid, h⟩ := bind_eq_ok.mp h
    obtain ⟨⟨⟩, horder, h⟩ := bind_eq_ok.mp h
    cases hfinal : (latestReport (rows.map WorkerRow.stored)).filter
        (fun latest => isFinalProgressiveRemoteReport latest.report) with
    | some latest =>
      rw [hfinal] at h
      cases h
      exact .inl rfl
    | none =>
      rw [hfinal] at h
      cases h
      refine .inr ⟨envelope, _, report, signature, hassigned, hvalid, horder, ?_, rfl⟩
      intro latest hlatest
      rw [hlatest, Option.filter_eq_none_iff] at hfinal
      simpa using hfinal latest rfl

theorem OutboxOk.enqueue (hcollates : runtime.Collates)
    (hassigned : ∀ input envelope, assigned input = .ok envelope → dispatch.envelope = .ok envelope)
    (h : OutboxOk runtime dispatch o) {input : Observation} {rows : List WorkerRow} {receipt : Receipt}
    (henqueue : enqueueProgressiveWorkerReport runtime assigned o.rows input = .ok (rows, receipt)) :
    OutboxOk runtime dispatch { o with rows } := by
  obtain rfl | ⟨envelope, value, report, signature, henvelope, hvalid, horder, hopen, rfl⟩ := enqueue_cases henqueue
  · exact h
  have henvelope' := hassigned input envelope henvelope
  have haccepts : Accepts runtime dispatch report := ⟨envelope, henvelope', value, signature, hvalid⟩
  have hrows := rowsOk_append signature h.rows haccepts horder
  have hreports : ({ o with rows := o.rows ++ [⟨⟨sequenceOf report, signature, report⟩, false⟩] } : Outbox).reports =
      o.reports ++ [⟨sequenceOf report, signature, report⟩] := by
    simp [Outbox.reports]
  refine ⟨hreports ▸ hrows, hreports ▸ h.grown.concat horder hopen, ?_, ?_, ?_⟩
  · intro row hrow
    rw [hreports, List.mem_append, List.mem_singleton] at hrow
    obtain hrow | rfl := hrow
    · exact h.signed row hrow
    · exact ⟨envelope, henvelope', revalidated hcollates hvalid⟩
  · intro earlier hearlier later hlater hbefore hdone
    rw [List.mem_append, List.mem_singleton] at hearlier hlater
    obtain hlater | rfl := hlater
    · obtain hearlier | rfl := hearlier
      · exact h.ahead earlier hearlier later hlater hbefore hdone
      · -- the new report counts behind every earlier one
        obtain ⟨i, hi, -, hseq⟩ := h.rows.exists_index (mem_reports hlater)
        have hnew := hrows.sequence_getElem (i := o.reports.length) (by simp)
        rw [List.getElem_concat_length rfl] at hnew
        dsimp only at hbefore hnew
        omega
    · cases hdone
  · intro conflict hconflict
    rw [hreports]
    exact List.mem_append_left _ (h.aside conflict hconflict)

theorem acknowledge_eq_ok {rows rows' : List WorkerRow} {key : DeliveryKey}
    (h : acknowledgeProgressiveWorkerReport rows key = .ok rows') :
    rows' = acknowledgeRows (fun row => row.named key && isNextDelivery rows row) rows := by
  unfold acknowledgeProgressiveWorkerReport at h
  dsimp only at h
  split_ifs at h
  exact (Except.ok.inj h).symm

theorem OutboxOk.acknowledged (h : OutboxOk runtime dispatch o) {key : DeliveryKey} {rows : List WorkerRow}
    (hrows : acknowledgeProgressiveWorkerReport o.rows key = .ok rows) : OutboxOk runtime dispatch { o with rows } := by
  obtain rfl := acknowledge_eq_ok hrows
  refine h.acknowledge ?_ h.aside
  intro row _ hchosen earlier hearlier hbefore
  rw [Bool.and_eq_true] at hchosen
  exact .inl (isNextDelivery_spec hchosen.2 hearlier hbefore)

theorem mem_insertConflict {conflicts : List ConflictRow} {row conflict : ConflictRow}
    (h : conflict ∈ insertConflict conflicts row) : conflict ∈ conflicts ∨ conflict = row := by
  unfold insertConflict at h
  split_ifs at h
  · exact .inl h
  · simpa using h

theorem mem_insertConflicts {conflicts added : List ConflictRow} {conflict : ConflictRow}
    (h : conflict ∈ added.foldl insertConflict conflicts) : conflict ∈ conflicts ∨ conflict ∈ added := by
  induction added generalizing conflicts with
  | nil => exact .inl h
  | cons row added ih =>
    rcases ih h with hmem | hmem
    · rcases mem_insertConflict hmem with hmem | rfl
      · exact .inl hmem
      · exact .inr List.mem_cons_self
    · exact .inr (List.mem_cons_of_mem _ hmem)

theorem OutboxOk.quarantine (h : OutboxOk runtime dispatch o) (key : DeliveryKey) (reason : String) :
    OutboxOk runtime dispatch (quarantineProgressiveWorkerReportConflict o key reason).1 := by
  unfold quarantineProgressiveWorkerReportConflict
  split
  · exact h
  · next row hfind =>
    refine h.acknowledge ?_ ?_
    · intro row _ hchosen earlier hearlier hbefore
      rw [Bool.and_eq_true] at hchosen
      exact .inl (isNextDelivery_spec hchosen.2 hearlier hbefore)
    · intro conflict hconflict
      rcases mem_insertConflict hconflict with hmem | rfl
      · exact h.aside conflict hmem
      · exact mem_reports (List.mem_of_find?_eq_some hfind)

theorem mem_staleBatch {rows : List WorkerRow} {solverId : String} {row : WorkerRow}
    (h : row ∈ staleBatch rows solverId) : row ∈ rows ∧ row.pendingFor solverId = true := by
  have hmem := List.mem_of_mem_take h
  rw [List.mem_insertionSort, List.mem_filter] at hmem
  exact hmem

theorem staleBatch_down {rows : List WorkerRow} {solverId : String} {row earlier : WorkerRow}
    (h : row ∈ staleBatch rows solverId) (hearlier : earlier ∈ rows) (hpending : earlier.pendingFor solverId = true)
    (hbefore : earlier.stored.sequence < row.stored.sequence) : earlier ∈ staleBatch rows solverId := by
  unfold staleBatch at h ⊢
  set sorted := (rows.filter (WorkerRow.pendingFor solverId)).insertionSort
    fun a b => a.stored.sequence ≤ b.stored.sequence with hsorted
  have hmem : earlier ∈ sorted := by
    rw [hsorted, List.mem_insertionSort, List.mem_filter]
    exact ⟨hearlier, hpending⟩
  have hpairs : sorted.Pairwise fun a b => a.stored.sequence ≤ b.stored.sequence := by
    have : Std.Total fun a b : WorkerRow => a.stored.sequence ≤ b.stored.sequence := ⟨fun _ _ => le_total _ _⟩
    have : IsTrans WorkerRow fun a b => a.stored.sequence ≤ b.stored.sequence := ⟨fun _ _ _ => le_trans⟩
    exact List.pairwise_insertionSort _ _
  rw [← List.take_append_drop staleReportQuarantineBatchSize sorted, List.mem_append] at hmem
  rw [← List.take_append_drop staleReportQuarantineBatchSize sorted, List.pairwise_append] at hpairs
  rcases hmem with hmem | hmem
  · exact hmem
  · exact absurd (hpairs.2.2 row h earlier hmem) (by omega)

theorem OutboxOk.solver (h : OutboxOk runtime dispatch o) {envelope : Envelope}
    (henvelope : dispatch.envelope = .ok envelope) {row : StoredReport} (hrow : row ∈ o.reports) :
    (row.report.get "solverId").isStr envelope.solverId = true := by
  obtain ⟨envelope', henvelope', hvalid⟩ := h.signed row hrow
  rw [henvelope] at henvelope'
  cases henvelope'
  obtain ⟨hidentity, -, -, -⟩ := validate_eq_ok hvalid
  simp only [validateIdentity, require_eq_ok, Bool.and_eq_true] at hidentity
  exact hidentity.1.1.1.1.2

theorem OutboxOk.quarantineAll (h : OutboxOk runtime dispatch o) (solverId reason : String) :
    OutboxOk runtime dispatch (quarantineProgressiveWorkerReportConflicts o solverId reason).1 := by
  refine h.acknowledge ?_ ?_
  · intro row hrow hchosen earlier hearlier hbefore
    simp only [Bool.and_eq_true, List.contains_iff_mem, List.mem_map] at hchosen ⊢
    obtain ⟨hpending, taken, htaken, hseq⟩ := hchosen
    by_cases hdone : earlier.acknowledged = true
    · exact .inl hdone
    right
    -- both reports name one solver, so the earlier one waits for it too
    obtain ⟨envelope, henvelope, -⟩ := h.signed row.stored (mem_reports hrow)
    have hsolver := h.solver henvelope (mem_reports hrow)
    have hsolver' := h.solver henvelope (mem_reports hearlier)
    have hwaits : earlier.pendingFor solverId = true := by
      simp only [WorkerRow.pendingFor, Bool.and_eq_true] at hpending ⊢
      refine ⟨?_, by simpa using hdone⟩
      cases hget : row.stored.report.get "solverId" with
      | str s =>
        cases hget' : earlier.stored.report.get "solverId" with
        | str s' => simp_all [JsValue.isStr]
        | _ => simp [hget', JsValue.isStr] at hsolver'
      | _ => simp [hget, JsValue.isStr] at hsolver
    exact ⟨hwaits, earlier, staleBatch_down htaken hearlier hwaits (by omega), rfl⟩
  · intro conflict hconflict
    rcases mem_insertConflicts hconflict with hmem | hmem
    · exact h.aside conflict hmem
    · obtain ⟨row, hrow, rfl⟩ := List.mem_map.mp hmem
      exact mem_reports (mem_staleBatch hrow).1

end Invariant

/-! ## Runs -/

inductive OutboxStep (runtime : Runtime) (assigned : Observation → Except String Envelope) : Outbox → Outbox → Prop
  | enqueue {o : Outbox} {input : Observation} {rows : List WorkerRow} {receipt : Receipt}
    (h : enqueueProgressiveWorkerReport runtime assigned o.rows input = .ok (rows, receipt)) :
    OutboxStep runtime assigned o { o with rows }
  | acknowledge {o : Outbox} {key : DeliveryKey} {rows : List WorkerRow}
    (h : acknowledgeProgressiveWorkerReport o.rows key = .ok rows) : OutboxStep runtime assigned o { o with rows }
  | quarantine (o : Outbox) (key : DeliveryKey) (reason : String) :
    OutboxStep runtime assigned o (quarantineProgressiveWorkerReportConflict o key reason).1
  | quarantineAll (o : Outbox) (solverId reason : String) :
    OutboxStep runtime assigned o (quarantineProgressiveWorkerReportConflicts o solverId reason).1

def Outbox.KeptIn (o o' : Outbox) : Prop :=
  o.reports <+: o'.reports ∧ ∀ row ∈ o.rows, row.acknowledged = true → row ∈ o'.rows

section Runs
variable {runtime : Runtime} {dispatch : Dispatch} {assigned : Observation → Except String Envelope} {o o' : Outbox}

theorem keptIn_acknowledgeRows (chosen : WorkerRow → Bool) (conflicts : List ConflictRow) :
    o.KeptIn ⟨acknowledgeRows chosen o.rows, conflicts⟩ := by
  constructor
  · rw [Outbox.reports, Outbox.reports, acknowledgeRows_stored]
  · intro row hrow hdone
    exact mem_acknowledgeRows.mpr ⟨row, hrow, rfl, by rw [hdone, Bool.true_or]⟩

theorem OutboxStep.keptIn (h : OutboxStep runtime assigned o o') : o.KeptIn o' := by
  cases h with
  | enqueue h =>
    obtain rfl | ⟨-, -, report, signature, -, -, -, -, rfl⟩ := enqueue_cases h
    · exact ⟨List.prefix_refl _, fun _ hrow _ => hrow⟩
    · constructor
      · simp [Outbox.reports]
      · exact fun row hrow _ => List.mem_append_left _ hrow
  | acknowledge h =>
    obtain rfl := acknowledge_eq_ok h
    exact keptIn_acknowledgeRows _ _
  | quarantine key reason =>
    unfold quarantineProgressiveWorkerReportConflict
    split
    · exact ⟨List.prefix_refl _, fun _ hrow _ => hrow⟩
    · exact keptIn_acknowledgeRows _ _
  | quarantineAll solverId reason => exact keptIn_acknowledgeRows _ _

theorem Outbox.KeptIn.trans {o'' : Outbox} (h : o.KeptIn o') (h' : o'.KeptIn o'') : o.KeptIn o'' :=
  ⟨h.1.trans h'.1, fun row hrow hdone => h'.2 row (h.2 row hrow hdone) hdone⟩

theorem run_keptIn (h : Relation.ReflTransGen (OutboxStep runtime assigned) o o') : o.KeptIn o' := by
  induction h with
  | refl => exact ⟨List.prefix_refl _, fun _ hrow _ => hrow⟩
  | tail _ hstep ih => exact ih.trans hstep.keptIn

theorem OutboxStep.ok (hcollates : runtime.Collates)
    (hassigned : ∀ input envelope, assigned input = .ok envelope → dispatch.envelope = .ok envelope)
    (h : OutboxStep runtime assigned o o') (hok : OutboxOk runtime dispatch o) : OutboxOk runtime dispatch o' := by
  cases h with
  | enqueue h => exact hok.enqueue hcollates hassigned h
  | acknowledge h => exact hok.acknowledged h
  | quarantine key reason => exact hok.quarantine key reason
  | quarantineAll solverId reason => exact hok.quarantineAll solverId reason

theorem outboxOk_empty : OutboxOk runtime dispatch ⟨[], []⟩ := by
  refine ⟨⟨rfl, ?_, List.Pairwise.nil⟩, ?_, ?_, ?_, ?_⟩
  · intro row hrow
    cases hrow
  · intro front row hinit
    have hlength := hinit.length_le
    simp [Outbox.reports] at hlength
  · intro row hrow
    cases hrow
  · intro row hrow
    cases hrow
  · intro conflict hconflict
    cases hconflict

theorem exists_replicate {flags : List Bool} (h : flags.Pairwise fun earlier later => later = true → earlier = true) :
    ∃ k ≤ flags.length, flags = List.replicate k true ++ List.replicate (flags.length - k) false := by
  induction flags with
  | nil => exact ⟨0, le_rfl, rfl⟩
  | cons flag flags ih =>
    rw [List.pairwise_cons] at h
    obtain ⟨k, hk, heq⟩ := ih h.2
    cases flag with
    | true =>
      refine ⟨k + 1, Nat.succ_le_succ hk, ?_⟩
      rw [List.replicate_succ, List.length_cons, Nat.add_sub_add_right, List.cons_append, ← heq]
    | false =>
      have hall : flags = List.replicate flags.length false := by
        refine List.eq_replicate_iff.mpr ⟨rfl, fun later hlater => ?_⟩
        cases later with
        | false => rfl
        | true => exact absurd (h.1 true hlater rfl) Bool.false_ne_true
      refine ⟨0, Nat.zero_le _, ?_⟩
      rw [List.replicate_zero, List.nil_append, List.length_cons, Nat.sub_zero, List.replicate_succ, ← hall]

theorem OutboxOk.acknowledged_front (h : OutboxOk runtime dispatch o) :
    ∃ k ≤ o.rows.length,
      o.rows.map WorkerRow.acknowledged = List.replicate k true ++ List.replicate (o.rows.length - k) false := by
  have hpairs : (o.rows.map WorkerRow.acknowledged).Pairwise fun earlier later => later = true → earlier = true := by
    rw [List.pairwise_map, List.pairwise_iff_getElem]
    intro i j hi hj hij
    have hseq {n : ℕ} (hn : n < o.rows.length) : o.rows[n].stored.sequence = n + 1 := by
      have hreport := h.rows.sequence_getElem (i := n) (by simpa [Outbox.reports] using hn)
      simpa [Outbox.reports] using hreport
    refine h.ahead _ (List.getElem_mem hi) _ (List.getElem_mem hj) ?_
    rw [hseq hi, hseq hj]
    omega
  have hfront := exists_replicate hpairs
  rwa [List.length_map] at hfront

/-- In every state of every run the reports of the outbox count up without a gap, each follows those before it and
validates to its signature, a final one is the last, the acknowledged ones stand in front, and no later state changes
a report or takes an acknowledgement back. -/
theorem outbox_chain (hcollates : runtime.Collates)
    (hassigned : ∀ input envelope, assigned input = .ok envelope → dispatch.envelope = .ok envelope)
    (h : Reachable (fun o => o = ⟨[], []⟩) (OutboxStep runtime assigned) o) :
    o.reports.map StoredReport.sequence = (List.range o.reports.length).map (fun i : ℕ => (i : ℤ) + 1) ∧
      (o.reports.map StoredReport.report).Pairwise (Follows runtime) ∧
      (∀ row ∈ o.reports, ∃ envelope, dispatch.envelope = .ok envelope ∧
        validateProgressiveRemoteReport runtime envelope row.report = .ok (row.report, row.contentSignature)) ∧
      (∀ front row rest, o.reports = front ++ row :: rest → isFinalProgressiveRemoteReport row.report = true →
        rest = []) ∧
      (∃ k ≤ o.rows.length,
        o.rows.map WorkerRow.acknowledged = List.replicate k true ++ List.replicate (o.rows.length - k) false) ∧
      ∀ o', Relation.ReflTransGen (OutboxStep runtime assigned) o o' → o.KeptIn o' := by
  have hok : OutboxOk runtime dispatch o := by
    refine h.invariant (P := OutboxOk runtime dispatch) ?_ ?_
    · rintro s rfl
      exact outboxOk_empty
    · exact fun s s' hs hstep => hstep.ok hcollates hassigned hs
  refine ⟨hok.rows.sequences, hok.rows.follows, hok.signed, ?_, hok.acknowledged_front, fun o' hrun => run_keptIn hrun⟩
  intro front row rest hreports hfinal
  cases rest with
  | nil => rfl
  | cons next rest =>
    have hsplit : front ++ row :: next :: rest = (front ++ [row]) ++ [next] ++ rest := by simp
    have hrows := hok.rows
    rw [hreports, hsplit] at hrows
    have hfront : RowsOk runtime dispatch (front ++ [row]) :=
      hrows.of_initial ((List.prefix_append _ [next]).trans (List.prefix_append _ rest))
    have hinit : (front ++ [row]) ++ [next] <+: o.reports := by
      rw [hreports, hsplit]
      exact List.prefix_append _ _
    have hopen := (hok.grown _ next hinit).2 row (by rw [hfront.latest, List.getLast?_concat])
    rw [hfinal] at hopen
    cases hopen

end Runs

/-! ## Two reports -/

theorem exampleRuntime_collates : exampleRuntime.Collates := by
  refine ⟨⟨exampleRuntime.keyOrder, ?_, ?_⟩, rfl⟩
  · intro a b
    simpa [exampleRuntime] using le_total _ _
  · intro a b c hab hbc
    simp only [exampleRuntime, decide_eq_true_eq] at hab hbc ⊢
    exact hab.trans hbc

def exampleObservation (status stopProof : Json) : Observation :=
  ⟨exampleExecution, exampleEnvelope.solverId, exampleEnvelope.promiseId, exampleEnvelope.contentSignature, status,
    .null, stopProof⟩

def observed (o : Outbox) (input : Observation) : Outbox :=
  match enqueueProgressiveWorkerReport exampleRuntime (fun _ => exampleDispatch.envelope) o.rows input with
  | .ok (rows, _) => { o with rows }
  | .error _ => o

theorem observed_run (o : Outbox) (inputs : List Observation) :
    Relation.ReflTransGen (OutboxStep exampleRuntime fun _ => exampleDispatch.envelope) o (inputs.foldl observed o) := by
  induction inputs generalizing o with
  | nil => exact .refl
  | cons input inputs ih =>
    have hstep : Relation.ReflTransGen (OutboxStep exampleRuntime fun _ => exampleDispatch.envelope) o
        (observed o input) := by
      unfold observed
      split
      · next rows receipt h => exact .single (.enqueue h)
      · exact .refl
    exact hstep.trans (ih _)

def exampleOutbox : Outbox :=
  [exampleObservation (runningStatus 0) .null, exampleObservation cancelledStatus neverStartedProof].foldl observed
    ⟨[], []⟩

theorem outbox_chain_two_reports :
    exampleOutbox.reports.map StoredReport.sequence = [1, 2] ∧
      (exampleOutbox.reports.map StoredReport.report).Pairwise (Follows exampleRuntime) := by
  have hrun : Reachable (fun o => o = ⟨[], []⟩) (OutboxStep exampleRuntime fun _ => exampleDispatch.envelope)
      exampleOutbox :=
    ⟨_, rfl, observed_run _ _⟩
  have hassigned : ∀ (input : Observation) (envelope : Envelope), (fun _ => exampleDispatch.envelope) input = .ok envelope →
      exampleDispatch.envelope = .ok envelope := fun _ _ h => h
  obtain ⟨hsequences, hfollows, -⟩ := outbox_chain exampleRuntime_collates hassigned hrun
  have hlength : exampleOutbox.reports.length = 2 := by decide +kernel
  rw [hlength] at hsequences
  exact ⟨hsequences, hfollows⟩

end XFoilFoam.Remote
