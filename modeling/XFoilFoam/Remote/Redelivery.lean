import XFoilFoam.Remote.Delivery

/-! No run of publications wedges the outbox: whatever crashed, timed out or still holds the lock of the dispatch, the
reports that wait can be delivered from there, one publication after another. -/
namespace XFoilFoam.Remote
open ExactNum Relation
set_option autoImplicit false

/-! ## One post at the hub -/

section Hub
variable {runtime : Runtime} {dispatch : Dispatch} {s : HubState} {id : ℕ} {input : PostInput} {report : Json}
  {signature : String}

def runActions (runtime : Runtime) (dispatch : Dispatch) (s : HubState) (actions : List Action) : HubState :=
  actions.foldl (perform runtime dispatch) s

theorem perform_validate (hpost : s.posts id = .arrived input) (howns : ownsDispatch dispatch s input = true)
    (hvalid : (dispatch.envelope.bind fun envelope => validateProgressiveRemoteReport runtime envelope input.report) =
      .ok (report, signature)) :
    perform runtime dispatch s (.validate id) = s.setPost id (.validated input report signature) := by
  simp only [perform, hpost, howns, if_true, hvalid]

theorem perform_replay (input : PostInput) {outcome : Except String Receipt}
    (hstored : replayExisting s.rows report signature = some outcome) :
    perform runtime dispatch (s.setPost id (.validated input report signature)) (.replay id) =
      (s.setPost id (.validated input report signature)).finish id outcome := by
  simp [perform, HubState.setPost, hstored]

theorem run_replayed (hpost : s.posts id = .arrived input) (howns : ownsDispatch dispatch s input = true)
    (hvalid : (dispatch.envelope.bind fun envelope => validateProgressiveRemoteReport runtime envelope input.report) =
      .ok (report, signature))
    {outcome : Except String Receipt} (hstored : replayExisting s.rows report signature = some outcome) :
    (runActions runtime dispatch s [.validate id, .replay id]).posts id = .ended outcome ∧
      (runActions runtime dispatch s [.validate id, .replay id]).revoked = s.revoked := by
  have hrun : runActions runtime dispatch s [.validate id, .replay id] =
      (s.setPost id (.validated input report signature)).finish id outcome := by
    rw [runActions, List.foldl_cons, List.foldl_cons, List.foldl_nil, perform_validate hpost howns hvalid,
      perform_replay input hstored]
  rw [hrun]
  exact ⟨Function.update_self _ _ _, rfl⟩

theorem run_inserted (hpost : s.posts id = .arrived input) (howns : ownsDispatch dispatch s input = true)
    (hvalid : (dispatch.envelope.bind fun envelope => validateProgressiveRemoteReport runtime envelope input.report) =
      .ok (report, signature))
    (hlock : s.lock = none) (hnew : existingReport s.rows report = none)
    (horder : validateProgressiveRemoteReportOrder runtime report ((latestReport s.rows).map StoredReport.report) =
      .ok ()) :
    (runActions runtime dispatch s
        [.validate id, .replay id, .lock id, .replayLocked id, .order id, .insert id]).posts id =
      .ended (.ok ⟨sequenceOf report, signature, false⟩) ∧
    (runActions runtime dispatch s
        [.validate id, .replay id, .lock id, .replayLocked id, .order id, .insert id]).revoked = s.revoked := by
  have hmissing : replayExisting s.rows report signature = none := by rw [replayExisting, hnew, Option.map_none]
  have howns' : ∀ posts lock, ownsDispatch dispatch ⟨s.rows, lock, s.revoked, posts⟩ input = true := fun _ _ => howns
  rw [runActions, List.foldl_cons, perform_validate hpost howns hvalid]
  simp [perform, HubState.setPost, HubState.finish, hmissing, howns', hlock, horder, hnew]

end Hub

/-! ## One publication -/

/-- The reports that wait. -/
def unacknowledged (rows : List WorkerRow) : ℕ := rows.countP fun row => !row.acknowledged

theorem unacknowledged_le (chosen : WorkerRow → Bool) (rows : List WorkerRow) :
    unacknowledged (acknowledgeRows chosen rows) ≤ unacknowledged rows := by
  rw [unacknowledged, acknowledgeRows, List.countP_map]
  apply List.countP_mono_left
  intro row _ hwaits
  by_cases hchosen : chosen row = true
  · simp [hchosen] at hwaits
  · simpa [hchosen] using hwaits

theorem unacknowledged_lt {chosen : WorkerRow → Bool} {rows : List WorkerRow} {row : WorkerRow} (hrow : row ∈ rows)
    (hwaits : row.acknowledged = false) (hchosen : chosen row = true) :
    unacknowledged (acknowledgeRows chosen rows) < unacknowledged rows := by
  obtain ⟨front, rest, rfl⟩ := List.append_of_mem hrow
  have hfront := unacknowledged_le chosen front
  have hrest := unacknowledged_le chosen rest
  simp only [unacknowledged, acknowledgeRows, List.map_append, List.map_cons, List.countP_append, List.countP_cons,
    hchosen, hwaits, if_true] at hfront hrest ⊢
  simp only [Bool.not_true, Bool.not_false, if_true, Bool.false_eq_true, if_false]
  omega

theorem exists_earliestRow {rows : List WorkerRow} (h : rows ≠ []) : ∃ first, earliestRow rows = some first := by
  cases rows using List.reverseRecOn with
  | nil => exact absurd rfl h
  | append_singleton rows last =>
    rw [earliestRow_concat]
    cases earliestRow rows with
    | none => exact ⟨last, rfl⟩
    | some b =>
      by_cases hless : last.stored.sequence < b.stored.sequence
      · exact ⟨last, if_pos hless⟩
      · exact ⟨b, if_neg hless⟩

section Round
variable {runtime : Runtime} {dispatch : Dispatch} {worker : Worker} {assigned : Observation → Except String Envelope}
  {n : Network}

theorem NetworkOk.exists_pending (hok : NetworkOk runtime dispatch worker n) {envelope : Envelope}
    (henvelope : dispatch.envelope = .ok envelope) (hsolver : envelope.solverId = worker.solverId)
    (hwaits : ∃ row ∈ n.outbox.rows, row.acknowledged = false) :
    ∃ row ∈ n.outbox.rows, row.acknowledged = false ∧
      publishable runtime dispatch.envelope worker n.outbox.rows = some row.stored ∧
      ∀ earlier ∈ n.outbox.rows, earlier.stored.sequence < row.stored.sequence → earlier.acknowledged = true := by
  have hpendingFor {row : WorkerRow} (hrow : row ∈ n.outbox.rows) (hopen : row.acknowledged = false) :
      row.pendingFor worker.solverId = true := by
    rw [WorkerRow.pendingFor, ← hsolver, hok.outbox.solver henvelope (mem_reports hrow), hopen]
    rfl
  obtain ⟨row, hrow, hopen⟩ := hwaits
  have hne : n.outbox.rows.filter (WorkerRow.pendingFor worker.solverId) ≠ [] :=
    List.ne_nil_of_mem (List.mem_filter.mpr ⟨hrow, hpendingFor hrow hopen⟩)
  obtain ⟨first, hfirst⟩ := exists_earliestRow hne
  obtain ⟨hmem, hleast⟩ := earliestRow_spec hfirst
  obtain ⟨hfirstRow, hpending⟩ := List.mem_filter.mp hmem
  refine ⟨first, hfirstRow, ?_, ?_, ?_⟩
  · rw [WorkerRow.pendingFor, Bool.and_eq_true] at hpending
    simpa using hpending.2
  · obtain ⟨envelope', henvelope', hvalid⟩ := hok.outbox.signed first.stored (mem_reports hfirstRow)
    have hchecked : (dispatch.envelope.bind fun envelope =>
        validateProgressiveRemoteReport runtime envelope first.stored.report) =
          .ok (first.stored.report, first.stored.contentSignature) := by
      rw [henvelope']
      exact hvalid
    rw [publishable, readPendingProgressiveWorkerReport, hfirst, Option.map_some, Option.filter_some, hchecked]
    simp
  · intro earlier hearlier hbefore
    by_contra hdone
    have hearlierOpen : earlier.acknowledged = false := by simpa using hdone
    have hle := hleast earlier (List.mem_filter.mpr ⟨hearlier, hpendingFor hearlier hearlierOpen⟩)
    omega

theorem NetworkOk.stored_before (hok : NetworkOk runtime dispatch worker n) (howned : dispatch.ownedBy worker = true)
    {row : WorkerRow} (hrow : row ∈ n.outbox.rows)
    (hdone : ∀ earlier ∈ n.outbox.rows, earlier.stored.sequence < row.stored.sequence → earlier.acknowledged = true) :
    row.stored ∈ n.hub.rows ∨ row.stored.sequence = n.hub.rows.length + 1 := by
  obtain ⟨i, hi, hget, hseq⟩ := hok.outbox.rows.exists_index (mem_reports hrow)
  by_cases hstored : i < n.hub.rows.length
  · left
    obtain ⟨rest, hrest⟩ := hok.linked.delivered
    have hsame : n.hub.rows[i] = row.stored := by
      rw [← hget]
      simp only [← hrest]
      rw [List.getElem_append_left hstored]
    rw [← hsame]
    exact List.getElem_mem hstored
  · right
    cases i with
    | zero => omega
    | succ i =>
      -- the report right before is acknowledged, so the hub has stored it
      have hlength : n.outbox.reports.length = n.outbox.rows.length := by rw [Outbox.reports, List.length_map]
      have hi' : i < n.outbox.rows.length := by omega
      have hbefore := hok.outbox.rows.sequence_getElem (i := i) (by omega)
      have hprevious : n.outbox.rows[i].stored = n.outbox.reports[i] := by simp [Outbox.reports]
      have hacknowledged := hdone _ (List.getElem_mem hi') (by rw [hprevious, hbefore, hseq]; push_cast; omega)
      obtain hkept | ⟨conflict, hconflict, -⟩ := hok.kept _ (List.getElem_mem hi') hacknowledged
      · obtain ⟨j, hj, -, hseq'⟩ := hok.hub.rows.exists_index hkept
        rw [hprevious, hbefore] at hseq'
        omega
      · rw [hok.aside howned] at hconflict
        cases hconflict

theorem safeInteger_le {v : Json} {k : ℤ} (h : safeInteger? v = some k) : k ≤ maxSafe := by
  rw [safeInteger_eq_some h] at h
  simp only [safeInteger?, ExactNum.safeInteger, Option.ite_none_right_eq_some, Option.some.injEq] at h
  obtain ⟨⟨-, -, hle⟩, hnum⟩ := h
  exact hnum ▸ hle

theorem sequenceOf_le (report : Json) : sequenceOf report ≤ maxSafe := by
  rw [sequenceOf]
  cases hn : safeInteger? (report.get "sequence") with
  | none => decide
  | some k => exact safeInteger_le hn

theorem NetworkOk.post_answered (hok : NetworkOk runtime dispatch worker n) (howned : dispatch.ownedBy worker = true)
    (hlive : n.hub.revoked = false) (hlock : n.hub.lock = none) {row : WorkerRow} (hrow : row ∈ n.outbox.rows)
    (hdone : ∀ earlier ∈ n.outbox.rows, earlier.stored.sequence < row.stored.sequence → earlier.acknowledged = true)
    {id : ℕ} (hpost : n.hub.posts id = .arrived ⟨worker.solverId, worker.promiseId, row.stored.report⟩) :
    ∃ actions : List Action, (∀ action ∈ actions, ∀ id input, action ≠ .post id input) ∧ ∃ replayed,
      (runActions runtime dispatch n.hub actions).posts id =
          .ended (.ok ⟨row.stored.sequence, row.stored.contentSignature, replayed⟩) ∧
        (runActions runtime dispatch n.hub actions).revoked = false := by
  have howns : ownsDispatch dispatch n.hub ⟨worker.solverId, worker.promiseId, row.stored.report⟩ = true := by
    simp only [Dispatch.ownedBy, Bool.and_eq_true, beq_iff_eq] at howned
    simp [ownsDispatch, howned.1, howned.2, hlive]
  obtain ⟨envelope, henvelope, hsigned⟩ := hok.outbox.signed row.stored (mem_reports hrow)
  have hvalid : (dispatch.envelope.bind fun envelope =>
      validateProgressiveRemoteReport runtime envelope row.stored.report) =
        .ok (row.stored.report, row.stored.contentSignature) := by
    rw [henvelope]
    exact hsigned
  have hseq : sequenceOf row.stored.report = row.stored.sequence := (hok.outbox.rows.valid _ (mem_reports hrow)).2
  obtain hstored | hnext := hok.stored_before howned hrow hdone
  · refine ⟨[.validate id, .replay id], by simp, true, ?_⟩
    have hexisting : replayExisting n.hub.rows row.stored.report row.stored.contentSignature =
        some (.ok ⟨sequenceOf row.stored.report, row.stored.contentSignature, true⟩) := by
      obtain ⟨found, hfound⟩ : ∃ found, existingReport n.hub.rows row.stored.report = some found := by
        rw [← Option.isSome_iff_exists, existingReport, List.find?_isSome]
        exact ⟨row.stored, hstored, by rw [hseq, beq_self_eq_true]⟩
      obtain ⟨hmem, hfoundSeq⟩ := existingReport_spec hfound
      have hsame : found = row.stored := hok.hub.rows.eq_of_sequence hmem hstored (hfoundSeq.trans hseq)
      rw [replayExisting, hfound, Option.map_some, hsame, if_pos rfl]
    obtain ⟨hended, hrevoked⟩ := run_replayed hpost howns hvalid hexisting
    rw [hseq] at hended
    exact ⟨hended, hrevoked.trans hlive⟩
  · refine ⟨[.validate id, .replay id, .lock id, .replayLocked id, .order id, .insert id], by simp, false, ?_⟩
    have hnew : existingReport n.hub.rows row.stored.report = none := by
      rw [existingReport, List.find?_eq_none]
      intro stored hstored
      obtain ⟨i, hi, -, hi'⟩ := hok.hub.rows.exists_index hstored
      have hdiffer : stored.sequence ≠ sequenceOf row.stored.report := by omega
      simpa using hdiffer
    have horder := (hok.outbox.grown n.hub.rows row.stored
      (hok.outbox.rows.extended hok.linked.delivered (mem_reports hrow) hnext)).1
    obtain ⟨hended, hrevoked⟩ := run_inserted hpost howns hvalid hlock hnew horder
    rw [hseq] at hended
    exact ⟨hended, hrevoked.trans hlive⟩

theorem NetworkOk.acknowledge_ok (hok : NetworkOk runtime dispatch worker n) {envelope : Envelope}
    (henvelope : dispatch.envelope = .ok envelope) (hsolver : envelope.solverId = worker.solverId) {row : WorkerRow}
    (hrow : row ∈ n.outbox.rows) (hopen : row.acknowledged = false)
    (hdone : ∀ earlier ∈ n.outbox.rows, earlier.stored.sequence < row.stored.sequence → earlier.acknowledged = true) :
    ∃ rows, acknowledgeProgressiveWorkerReport n.outbox.rows (worker.key row.stored) = .ok rows ∧
      unacknowledged rows < unacknowledged n.outbox.rows := by
  let chosen (row' : WorkerRow) : Bool := row'.named (worker.key row.stored) && isNextDelivery n.outbox.rows row'
  have hnamed : chosen row = true := by
    have hreads := hok.outbox.solver henvelope (mem_reports hrow)
    rw [hsolver] at hreads
    rw [Bool.and_eq_true (row.named _), isNextDelivery, List.all_eq_true]
    refine ⟨by simp [WorkerRow.named, Worker.key, hreads], fun earlier hearlier => ?_⟩
    by_cases hbefore : earlier.stored.sequence < row.stored.sequence
    · simp [hdone earlier hearlier hbefore]
    · simp [hbefore]
  have hrange : ¬(row.stored.sequence < 1 ∨ maxSafe < row.stored.sequence) := by
    obtain ⟨-, hseq⟩ := hok.outbox.rows.valid _ (mem_reports hrow)
    obtain ⟨i, hi, -, hi'⟩ := hok.outbox.rows.exists_index (mem_reports hrow)
    have hsafe := sequenceOf_le row.stored.report
    omega
  refine ⟨_, ?_, unacknowledged_lt hrow hopen hnamed⟩
  have hvalid : acknowledgeProgressiveWorkerReport n.outbox.rows (worker.key row.stored) =
      if n.outbox.rows.any chosen then .ok (acknowledgeRows chosen n.outbox.rows)
      else .error "Worker report acknowledgement does not match the next durable delivery" := if_neg hrange
  rw [hvalid]
  exact if_pos (List.any_eq_true.mpr ⟨row, hrow, hnamed⟩)

theorem settled_ok {o : Outbox} {pending : StoredReport} {rows : List WorkerRow} (replayed : Bool)
    (h : acknowledgeProgressiveWorkerReport o.rows (worker.key pending) = .ok rows) :
    settled worker o pending (.ok ⟨pending.sequence, pending.contentSignature, replayed⟩) = { o with rows } := by
  simp [settled, h]

theorem act_settle (published : Except String Envelope) {id post attempt : ℕ} {pending : StoredReport}
    {outcome : Except String Receipt} (hwaiting : n.publications id = .waiting pending attempt (some post))
    (hended : n.hub.posts post = .ended outcome) :
    n.act runtime assigned published dispatch worker (.settle id) =
      { n.setPublication id .ended with outbox := settled worker n.outbox pending outcome } := by
  simp only [Network.act, hwaiting, hended]

theorem run_hub (published : Except String Envelope) (n : Network) (actions : List Action)
    (h : ∀ action ∈ actions, ∀ id input, action ≠ .post id input) :
    ReflTransGen (NetworkStep runtime assigned published dispatch worker) n
      { n with hub := runActions runtime dispatch n.hub actions } := by
  induction actions generalizing n with
  | nil => exact .refl
  | cons action actions ih =>
    have hact : n.act runtime assigned published dispatch worker (.hub action) =
        { n with hub := perform runtime dispatch n.hub action } := by
      cases action with
      | post id input => exact absurd rfl (h _ List.mem_cons_self id input)
      | _ => rfl
    have hrest := ih (n.act runtime assigned published dispatch worker (.hub action))
      fun other hother => h other (List.mem_cons_of_mem _ hother)
    refine .head ⟨.hub action, rfl⟩ ?_
    rw [hact] at hrest ⊢
    exact hrest

theorem run_unlocked (runtime : Runtime) (dispatch : Dispatch) (worker : Worker)
    (assigned : Observation → Except String Envelope) (published : Except String Envelope) (n : Network) :
    ∃ n', ReflTransGen (NetworkStep runtime assigned published dispatch worker) n n' ∧
      n'.outbox = n.outbox ∧ n'.hub.revoked = n.hub.revoked ∧ n'.hub.lock = none := by
  cases hlock : n.hub.lock with
  | none => exact ⟨n, .refl, rfl, rfl, hlock⟩
  | some id =>
    refine ⟨_, run_hub published n [.abort id] (by simp), rfl, rfl, ?_⟩
    show (if n.hub.lock = some id then none else n.hub.lock) = none
    rw [if_pos hlock]

theorem NetworkOk.round (hcollates : runtime.Collates)
    (hassigned : ∀ input envelope, assigned input = .ok envelope → dispatch.envelope = .ok envelope)
    (hok : NetworkOk runtime dispatch worker n) {envelope : Envelope} (henvelope : dispatch.envelope = .ok envelope)
    (hsolver : envelope.solverId = worker.solverId) (howned : dispatch.ownedBy worker = true)
    (hlive : n.hub.revoked = false) (hlock : n.hub.lock = none)
    (hwaits : ∃ row ∈ n.outbox.rows, row.acknowledged = false) :
    ∃ n', ReflTransGen (NetworkStep runtime assigned dispatch.envelope dispatch worker) n n' ∧
      n'.hub.revoked = false ∧ unacknowledged n'.outbox.rows < unacknowledged n.outbox.rows := by
  obtain ⟨row, hrow, hopen, hread, hdone⟩ := hok.exists_pending henvelope hsolver hwaits
  obtain ⟨id, hunused⟩ := hok.unused
  obtain ⟨hidle, hfree⟩ := hunused id le_rfl
  let act (n : Network) (action : NetworkAction) : Network :=
    n.act runtime assigned dispatch.envelope dispatch worker action
  -- the first pending report is read and posted
  have hread' : act n (.read id) = n.setPublication id (.waiting row.stored 0 none) := by
    simp only [act, Network.act, hidle, hread]
  let sent := act (act n (.read id)) (.send id id)
  have hsent : sent = { (n.setPublication id (.waiting row.stored 0 none)).setPublication id
        (.waiting row.stored 1 (some id)) with
      hub := n.hub.setPost id (.arrived ⟨worker.solverId, worker.promiseId, row.stored.report⟩) } := by
    simp only [sent, hread']
    simp [act, Network.act, hfree, howned, maxRetries, perform]
  have hsentOk : NetworkOk runtime dispatch worker sent :=
    (hok.act hcollates hassigned (.read id)).act hcollates hassigned (.send id id)
  have hoccupied : sent.hub.posts id = .arrived ⟨worker.solverId, worker.promiseId, row.stored.report⟩ := by
    rw [hsent]
    exact Function.update_self _ _ _
  have houtbox : sent.outbox = n.outbox := by rw [hsent]; rfl
  have hrevoked : sent.hub.revoked = false := by rw [hsent]; exact hlive
  have hunlocked : sent.hub.lock = none := by rw [hsent]; exact hlock
  -- the hub answers it
  obtain ⟨actions, hactions, replayed, hended, hstill⟩ := hsentOk.post_answered howned hrevoked hunlocked
    (by rw [houtbox]; exact hrow) (by rw [houtbox]; exact hdone) hoccupied
  let answered : Network := { sent with hub := runActions runtime dispatch sent.hub actions }
  -- and the answer is recorded
  obtain ⟨rows, hrows, hless⟩ := hok.acknowledge_ok henvelope hsolver hrow hopen hdone
  have hwaiting : answered.publications id = .waiting row.stored 1 (some id) := by
    simp only [answered, hsent]
    exact Function.update_self _ _ _
  have hsettle : act answered (.settle id) =
      { answered.setPublication id .ended with outbox := { n.outbox with rows } } := by
    rw [← settled_ok replayed hrows, ← houtbox]
    exact act_settle dispatch.envelope hwaiting hended
  refine ⟨act answered (.settle id), ?_, by rw [hsettle]; exact hstill, by rw [hsettle]; exact hless⟩
  have hstart : ReflTransGen (NetworkStep runtime assigned dispatch.envelope dispatch worker) n sent :=
    .tail (.single ⟨.read id, rfl⟩) ⟨.send id id, rfl⟩
  exact (hstart.trans (run_hub dispatch.envelope sent actions hactions)).tail ⟨.settle id, rfl⟩

end Round

/-! ## All of them -/

section Runs
variable {runtime : Runtime} {dispatch : Dispatch} {worker : Worker} {assigned : Observation → Except String Envelope}
  {n : Network}

theorem delivered_of_acknowledged (hok : NetworkOk runtime dispatch worker n)
    (howned : dispatch.ownedBy worker = true) (hdone : ∀ row ∈ n.outbox.rows, row.acknowledged = true) :
    n.hub.rows = n.outbox.reports := by
  refine hok.linked.delivered.eq_of_length_le ?_
  by_contra hshort
  have hlt : n.hub.rows.length < n.outbox.rows.length := by
    rw [Outbox.reports, List.length_map] at hshort
    omega
  obtain hstored | ⟨conflict, hconflict, -⟩ := hok.kept _ (List.getElem_mem hlt) (hdone _ (List.getElem_mem hlt))
  · obtain ⟨i, hi, -, hseq⟩ := hok.hub.rows.exists_index hstored
    have hlength : n.hub.rows.length < n.outbox.reports.length := by rwa [Outbox.reports, List.length_map]
    have hseq' := hok.outbox.rows.sequence_getElem hlength
    have hget : n.outbox.reports[n.hub.rows.length] = n.outbox.rows[n.hub.rows.length].stored := by
      simp [Outbox.reports]
    rw [hget] at hseq'
    omega
  · rw [hok.aside howned] at hconflict
    cases hconflict

/-- From every state that any run reaches, while the owner of the dispatch is not revoked, a run delivers all reports:
the hub then holds exactly the reports of the outbox, and each is acknowledged. -/
theorem all_reports_deliverable (hcollates : runtime.Collates)
    (hassigned : ∀ input envelope, assigned input = .ok envelope → dispatch.envelope = .ok envelope)
    {envelope : Envelope} (henvelope : dispatch.envelope = .ok envelope) (hsolver : envelope.solverId = worker.solverId)
    (howned : dispatch.ownedBy worker = true)
    (h : Reachable Network.Started (NetworkStep runtime assigned dispatch.envelope dispatch worker) n)
    (hlive : n.hub.revoked = false) :
    ∃ n', ReflTransGen (NetworkStep runtime assigned dispatch.envelope dispatch worker) n n' ∧
      n'.hub.rows = n'.outbox.reports ∧ ∀ row ∈ n'.outbox.rows, row.acknowledged = true := by
  induction hwaits : unacknowledged n.outbox.rows using Nat.strong_induction_on generalizing n with
  | _ waits ih =>
    by_cases hopen : ∃ row ∈ n.outbox.rows, row.acknowledged = false
    · obtain ⟨n₁, hrun₁, houtbox, hrevoked, hlock⟩ :=
        run_unlocked runtime dispatch worker assigned dispatch.envelope n
      obtain ⟨s₀, hstarted, hrun₀⟩ := h
      have hok := reachable_networkOk hcollates hassigned ⟨s₀, hstarted, hrun₀.trans hrun₁⟩
      obtain ⟨n₂, hrun₂, hlive₂, hless⟩ := hok.round hcollates hassigned henvelope hsolver howned
        (hrevoked.trans hlive) hlock (by rw [houtbox]; exact hopen)
      rw [houtbox, hwaits] at hless
      obtain ⟨n₃, hrun₃, hdelivered⟩ :=
        ih _ hless ⟨s₀, hstarted, (hrun₀.trans hrun₁).trans hrun₂⟩ hlive₂ rfl
      exact ⟨n₃, (hrun₁.trans hrun₂).trans hrun₃, hdelivered⟩
    · have hdone : ∀ row ∈ n.outbox.rows, row.acknowledged = true := by
        intro row hrow
        by_contra hwaiting
        exact hopen ⟨row, hrow, by simpa using hwaiting⟩
      exact ⟨n, .refl, delivered_of_acknowledged (reachable_networkOk hcollates hassigned h) howned hdone, hdone⟩

end Runs

/-- Both reports of the worker are delivered after the answer to the first was lost. -/
theorem all_reports_deliverable_lost_answer :
    exampleNetwork.hub.rows.length = 1 ∧ exampleNetwork.outbox.rows.length = 2 ∧
      ∃ n', ReflTransGen (NetworkStep exampleRuntime (fun _ => exampleDispatch.envelope) exampleDispatch.envelope
          exampleDispatch exampleWorker) exampleNetwork n' ∧
        n'.hub.rows = n'.outbox.reports ∧ ∀ row ∈ n'.outbox.rows, row.acknowledged = true := by
  have hassigned : ∀ (input : Observation) (envelope : Envelope),
      (fun _ => exampleDispatch.envelope) input = .ok envelope → exampleDispatch.envelope = .ok envelope :=
    fun _ _ h => h
  obtain ⟨hstored, hreports, hlive⟩ := exampleNetwork_stored
  refine ⟨hstored, hreports, ?_⟩
  exact all_reports_deliverable exampleRuntime_collates hassigned rfl rfl (by decide) exampleNetwork_reachable hlive

end XFoilFoam.Remote
