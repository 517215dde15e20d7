import XFoilFoam.Remote.Outbox

/-! Reports on their way from the outbox of a worker to the hub: `publishProgressiveWorkerReport`, the route
`/progressive-executions/…/reports` and `storeProgressiveRemoteReport` together.  Any number of publications run at
once, each step of one is a step of the run, and a publication that is never taken further has crashed or timed out,
wherever its request then is. -/
namespace XFoilFoam.Remote
open ExactNum
set_option autoImplicit false

/-! ## State -/

/-- How far one publication has come: the number of its requests so far and the post of the last one. -/
inductive Publication where
  | idle
  | waiting (pending : StoredReport) (attempt : ℕ) (post : Option ℕ)
  | forbidden (pending : StoredReport)
  | ended

structure Worker where
  solverId : String
  promiseId : String

structure Network where
  outbox : Outbox
  publications : ℕ → Publication
  hub : HubState

def Network.setPublication (n : Network) (id : ℕ) (publication : Publication) : Network :=
  { n with publications := Function.update n.publications id publication }

section SetPublication
variable (n : Network) (id : ℕ) (publication : Publication)

@[simp] theorem Network.setPublication_self : (n.setPublication id publication).publications id = publication :=
  Function.update_self _ _ _

@[simp] theorem Network.setPublication_other {other : ℕ} (h : other ≠ id) :
    (n.setPublication id publication).publications other = n.publications other := Function.update_of_ne h _ _

@[simp] theorem Network.setPublication_outbox : (n.setPublication id publication).outbox = n.outbox := rfl

@[simp] theorem Network.setPublication_hub : (n.setPublication id publication).hub = n.hub := rfl

end SetPublication

inductive NetworkAction where
  | observe (input : Observation)
  | read (id : ℕ)
  | send (id post : ℕ)
  | foreign (post : ℕ) (input : PostInput)
  | hub (action : Action)
  | settle (id : ℕ)

/-! ## Steps -/

/-- `MAX_RETRIES` of `fetchProgressiveRemote`. -/
def maxRetries : ℕ := 2

def immutableReportConflictReasons : List String :=
  ["Remote report replay changed immutable content",
    "Final remote execution evidence cannot change after its stop fence",
    "An acknowledged stopped remote execution cannot resume"]

def staleRemoteOwnerReason : String := "remote solver does not own this execution"

def Dispatch.ownedBy (dispatch : Dispatch) (worker : Worker) : Bool :=
  dispatch.solverId == worker.solverId && dispatch.promiseId == worker.promiseId

def Worker.key (worker : Worker) (pending : StoredReport) : DeliveryKey :=
  ⟨worker.solverId, pending.sequence, pending.contentSignature⟩

def publishable (runtime : Runtime) (published : Except String Envelope) (worker : Worker) (rows : List WorkerRow) :
    Option StoredReport :=
  (readPendingProgressiveWorkerReport rows worker.solverId).filter fun pending =>
    match published.bind fun envelope => validateProgressiveRemoteReport runtime envelope pending.report with
    | .ok (_, signature) => signature == pending.contentSignature
    | .error _ => false

/-- What the publication does with the answer of the hub. -/
def settled (worker : Worker) (o : Outbox) (pending : StoredReport) : Except String Receipt → Outbox
  | .ok receipt =>
    if receipt.sequence = pending.sequence ∧ receipt.contentSignature = pending.contentSignature then
      match acknowledgeProgressiveWorkerReport o.rows (worker.key pending) with
      | .ok rows => { o with rows }
      | .error _ => o
    else o
  | .error message =>
    if immutableReportConflictReasons.contains message then
      (quarantineProgressiveWorkerReportConflict o (worker.key pending) message).1
    else o

/-- One step.  `published` is what verifying the stored assignment of the worker gives. -/
def Network.act (runtime : Runtime) (assigned : Observation → Except String Envelope)
    (published : Except String Envelope) (dispatch : Dispatch) (worker : Worker) (n : Network) :
    NetworkAction → Network
  | .observe input =>
    match enqueueProgressiveWorkerReport runtime assigned n.outbox.rows input with
    | .ok (rows, _) => { n with outbox := { n.outbox with rows } }
    | .error _ => n
  | .read id =>
    match n.publications id, publishable runtime published worker n.outbox.rows with
    | .idle, some pending => n.setPublication id (.waiting pending 0 none)
    | _, _ => n
  -- the first request, or the next one after a gateway has answered in place of the hub
  | .send id post =>
    match n.publications id, n.hub.posts post with
    | .waiting pending attempt _, .idle =>
      if maxRetries < attempt then n
      else if dispatch.ownedBy worker then
        { n.setPublication id (.waiting pending (attempt + 1) (some post)) with
          hub := perform runtime dispatch n.hub (.post post ⟨worker.solverId, worker.promiseId, pending.report⟩) }
      else n.setPublication id (.forbidden pending)
    | _, _ => n
  | .foreign post input =>
    if input.solverId = dispatch.solverId then n
    else { n with hub := perform runtime dispatch n.hub (.post post input) }
  | .hub action =>
    match action with
    | .post _ _ => n
    | action => { n with hub := perform runtime dispatch n.hub action }
  | .settle id =>
    match n.publications id with
    | .waiting pending _ (some post) =>
      match n.hub.posts post with
      | .ended outcome => { n.setPublication id .ended with outbox := settled worker n.outbox pending outcome }
      | _ => n
    | .forbidden _ =>
      { n.setPublication id .ended with
        outbox := (quarantineProgressiveWorkerReportConflicts n.outbox worker.solverId staleRemoteOwnerReason).1 }
    | _ => n

def Network.Started (n : Network) : Prop :=
  n.outbox = ⟨[], []⟩ ∧ (∀ id, n.publications id = .idle) ∧ Remote.Started n.hub

def NetworkStep (runtime : Runtime) (assigned : Observation → Except String Envelope)
    (published : Except String Envelope) (dispatch : Dispatch) (worker : Worker) (n n' : Network) : Prop :=
  ∃ action, n' = n.act runtime assigned published dispatch worker action

/-! ## The hub and the outbox -/

/-- What a post at the hub is about: a report of the outbox, under its sequence and signature. -/
def Linked (dispatch : Dispatch) (reports stored : List StoredReport) : Phase → Prop
  | .idle => True
  | .arrived input => input.solverId ≠ dispatch.solverId ∨ ∃ row ∈ reports, row.report = input.report
  | .validated _ report signature => ⟨sequenceOf report, signature, report⟩ ∈ reports
  | .missed _ report signature => ⟨sequenceOf report, signature, report⟩ ∈ reports
  | .locked report signature => ⟨sequenceOf report, signature, report⟩ ∈ reports
  | .missedLocked report signature => ⟨sequenceOf report, signature, report⟩ ∈ reports
  | .ordered report signature => ⟨sequenceOf report, signature, report⟩ ∈ reports
  | .ended (.ok receipt) =>
    ∃ row ∈ stored, row.sequence = receipt.sequence ∧ row.contentSignature = receipt.contentSignature
  | .ended (.error message) => message ∉ immutableReportConflictReasons

/-- The hub has stored a prefix of the reports, and its posts are about them. -/
structure HubLinked (dispatch : Dispatch) (reports : List StoredReport) (s : HubState) : Prop where
  delivered : s.rows <+: reports
  linked : ∀ id, Linked dispatch reports s.rows (s.posts id)

section Hub
variable {runtime : Runtime} {dispatch : Dispatch} {reports reports' stored stored' : List StoredReport}
  {s : HubState} {o : Outbox}

theorem Linked.mono {phase : Phase} (h : Linked dispatch reports stored phase) (hreports : reports ⊆ reports')
    (hstored : stored ⊆ stored') : Linked dispatch reports' stored' phase := by
  cases phase with
  | idle => trivial
  | arrived input => exact h.imp id fun ⟨row, hrow, hreport⟩ => ⟨row, hreports hrow, hreport⟩
  | ended outcome =>
    cases outcome with
    | ok receipt =>
      obtain ⟨row, hrow, hsame⟩ := h
      exact ⟨row, hstored hrow, hsame⟩
    | error message => exact h
  | _ => exact hreports h

theorem HubLinked.mono (h : HubLinked dispatch reports s) (hreports : reports <+: reports') :
    HubLinked dispatch reports' s :=
  ⟨h.delivered.trans hreports, fun id => (h.linked id).mono hreports.subset (List.Subset.refl _)⟩

theorem HubLinked.update {s' : HubState} {id : ℕ} {phase : Phase} (h : HubLinked dispatch reports s)
    (hposts : s'.posts = Function.update s.posts id phase) (hrows : s.rows <+: s'.rows)
    (hdelivered : s'.rows <+: reports) (hphase : Linked dispatch reports s'.rows phase) :
    HubLinked dispatch reports s' := by
  refine ⟨hdelivered, fun other => ?_⟩
  rw [hposts]
  by_cases hother : other = id
  · rw [hother, Function.update_self]
    exact hphase
  · rw [Function.update_of_ne hother]
    exact (h.linked other).mono (List.Subset.refl _) hrows.subset

theorem HubLinked.setPost (h : HubLinked dispatch reports s) (id : ℕ) {phase : Phase}
    (hphase : Linked dispatch reports s.rows phase) : HubLinked dispatch reports (s.setPost id phase) :=
  h.update rfl (List.prefix_refl _) h.delivered hphase

theorem HubLinked.finish (h : HubLinked dispatch reports s) (id : ℕ) {outcome : Except String Receipt}
    (hphase : Linked dispatch reports s.rows (.ended outcome)) : HubLinked dispatch reports (s.finish id outcome) :=
  h.update rfl (List.prefix_refl _) h.delivered hphase

theorem existingReport_spec {rows : List StoredReport} {report : Json} {row : StoredReport}
    (h : existingReport rows report = some row) : row ∈ rows ∧ row.sequence = sequenceOf report := by
  refine ⟨List.mem_of_find?_eq_some h, ?_⟩
  have hfound := List.find?_some h
  exact beq_iff_eq.mp hfound

theorem HubLinked.replay (h : HubLinked dispatch reports s) (hrows : RowsOk runtime dispatch reports) {report : Json}
    {signature : String} (hlinked : ⟨sequenceOf report, signature, report⟩ ∈ reports) {outcome : Except String Receipt}
    (houtcome : replayExisting s.rows report signature = some outcome) :
    Linked dispatch reports s.rows (.ended outcome) := by
  unfold replayExisting at houtcome
  obtain ⟨existing, hexisting, rfl⟩ := Option.map_eq_some_iff.mp houtcome
  obtain ⟨hmem, hseq⟩ := existingReport_spec hexisting
  have hsame : existing = ⟨sequenceOf report, signature, report⟩ :=
    hrows.eq_of_sequence (h.delivered.subset hmem) hlinked hseq
  rw [if_pos (by rw [hsame])]
  exact ⟨existing, hmem, hseq, by rw [hsame]⟩

theorem RowsOk.previousSequence (h : RowsOk runtime dispatch stored) :
    previousSequence ((latestReport stored).map StoredReport.report) = .fin stored.length := by
  rw [h.latest]
  induction stored using List.reverseRecOn with
  | nil => rfl
  | append_singleton front last =>
    obtain ⟨haccepts, hseq⟩ := h.valid last (by simp)
    have hlast := h.sequence_getElem (i := front.length) (by simp)
    rw [List.getElem_concat_length rfl] at hlast
    rw [List.getLast?_concat, Option.map_some, Remote.previousSequence, haccepts.sequence, hseq, hlast]
    simp

theorem HubLinked.order_error (h : HubLinked dispatch reports s) (hrows : RowsOk runtime dispatch reports)
    (hgrown : Grown runtime reports) {report : Json} {signature message : String}
    (hlinked : ⟨sequenceOf report, signature, report⟩ ∈ reports)
    (herror : validateProgressiveRemoteReportOrder runtime report ((latestReport s.rows).map StoredReport.report) =
      .error message) : message = "Remote reports must arrive in their durable publication order" := by
  obtain ⟨haccepts, -⟩ := hrows.valid _ hlinked
  by_cases hnext : sequenceOf report = s.rows.length + 1
  · have horder := (hgrown s.rows _ (hrows.extended h.delivered hlinked hnext)).1
    rw [horder] at herror
    cases herror
  · have hcheck : isNum (report.get "sequence")
        ((previousSequence ((latestReport s.rows).map StoredReport.report)).add (.fin 1)) = false := by
      rw [(hrows.of_initial h.delivered).previousSequence, haccepts.sequence]
      have hdiffer : ((sequenceOf report : ℤ) : ℚ) ≠ (s.rows.length : ℚ) + 1 := by exact_mod_cast hnext
      simp [isNum, ExactNum.add, ExactNum.eq, hdiffer]
    unfold validateProgressiveRemoteReportOrder at herror
    rw [hcheck] at herror
    cases herror
    rfl

theorem HubLinked.perform (h : HubLinked dispatch o.reports s) (hok : OutboxOk runtime dispatch o)
    (hinv : HubInv runtime dispatch s) (action : Action)
    (harrives : ∀ id input, action = .post id input → Linked dispatch o.reports s.rows (.arrived input)) :
    HubLinked dispatch o.reports (perform runtime dispatch s action) := by
  cases action with
  | post id input =>
    simp only [Remote.perform]
    split
    · exact h.setPost id (harrives id input rfl)
    · exact h
  | validate id =>
    simp only [Remote.perform]
    split
    · next input hpost =>
      have hlinked := h.linked id
      rw [hpost] at hlinked
      split
      · next howns =>
        have hown : input.solverId = dispatch.solverId := by
          simp only [ownsDispatch, Bool.and_eq_true, beq_iff_eq] at howns
          exact howns.1.1
        obtain hforeign | ⟨row, hrow, hreport⟩ := hlinked
        · exact absurd hown hforeign
        obtain ⟨envelope, henvelope, hvalid⟩ := hok.signed row hrow
        have hvalidated : (dispatch.envelope.bind fun envelope =>
            validateProgressiveRemoteReport runtime envelope input.report) = .ok (row.report, row.contentSignature) := by
          rw [henvelope, ← hreport]
          exact hvalid
        rw [hvalidated]
        refine h.setPost id ?_
        have hseq := (hok.rows.valid row hrow).2
        show (⟨sequenceOf row.report, row.contentSignature, row.report⟩ : StoredReport) ∈ o.reports
        rw [hseq]
        exact hrow
      · exact h.finish id (by simp [Linked, notOwner, immutableReportConflictReasons])
    · exact h
  | replay id =>
    simp only [Remote.perform]
    split
    · next input report signature hpost =>
      have hlinked := h.linked id
      rw [hpost] at hlinked
      split
      · next outcome houtcome => exact h.finish id (h.replay hok.rows hlinked houtcome)
      · exact h.setPost id hlinked
    · exact h
  | lock id =>
    simp only [Remote.perform]
    split
    · next input report signature hpost =>
      have hlinked := h.linked id
      rw [hpost] at hlinked
      split
      · split
        · exact h.update rfl (List.prefix_refl _) h.delivered hlinked
        · exact h
      · exact h.finish id (by simp [Linked, notOwner, immutableReportConflictReasons])
    · exact h
  | replayLocked id =>
    simp only [Remote.perform]
    split
    · next report signature hpost =>
      have hlinked := h.linked id
      rw [hpost] at hlinked
      split
      · next outcome houtcome => exact h.finish id (h.replay hok.rows hlinked houtcome)
      · exact h.setPost id hlinked
    · exact h
  | order id =>
    simp only [Remote.perform]
    split
    · next report signature hpost =>
      have hlinked := h.linked id
      rw [hpost] at hlinked
      split
      · exact h.setPost id hlinked
      · next message herror =>
        refine h.finish id ?_
        rw [h.order_error hok.rows hok.grown hlinked herror]
        simp [Linked, immutableReportConflictReasons]
    · exact h
  | insert id =>
    simp only [Remote.perform]
    split
    · next report signature hpost =>
      have hlinked := h.linked id
      have hphase := hinv.phases id
      rw [hpost] at hlinked hphase
      obtain ⟨haccepts, -, horder⟩ := hphase
      split
      · exact h.finish id (by simp [Linked, immutableReportConflictReasons])
      · have hrows := rowsOk_append signature hinv.rows haccepts horder
        have hseq := hrows.sequence_getElem (i := s.rows.length) (by simp)
        rw [List.getElem_concat_length rfl] at hseq
        refine h.update rfl (List.prefix_append _ _) (hok.rows.extended h.delivered hlinked hseq) ?_
        exact ⟨_, List.mem_append_right _ (List.mem_singleton_self _), rfl, rfl⟩
    · exact h
  | abort id => exact h.finish id (by simp [Linked, immutableReportConflictReasons])
  | revoke => exact ⟨h.delivered, h.linked⟩

end Hub

/-! ## Invariant -/

/-- What holds at any time.  The rows of the hub are a prefix of the reports of the outbox, and what is acknowledged
is stored there or put aside. -/
structure NetworkOk (runtime : Runtime) (dispatch : Dispatch) (worker : Worker) (n : Network) : Prop where
  outbox : OutboxOk runtime dispatch n.outbox
  hub : HubInv runtime dispatch n.hub
  linked : HubLinked dispatch n.outbox.reports n.hub
  pending : ∀ id pending attempt post, n.publications id = .waiting pending attempt post →
    pending ∈ n.outbox.reports
  forbidden : ∀ id pending, n.publications id = .forbidden pending → dispatch.ownedBy worker = false
  kept : ∀ row ∈ n.outbox.rows, row.acknowledged = true →
    row.stored ∈ n.hub.rows ∨ ∃ conflict ∈ n.outbox.conflicts, conflict.stored = row.stored
  aside : dispatch.ownedBy worker = true → n.outbox.conflicts = []
  unused : ∃ used, ∀ id ≥ used, n.publications id = .idle ∧ n.hub.posts id = .idle

section Invariant
variable {runtime : Runtime} {dispatch : Dispatch} {worker : Worker} {assigned : Observation → Except String Envelope}
  {published : Except String Envelope} {n : Network}

theorem earliestRow_concat (rows : List WorkerRow) (row : WorkerRow) :
    earliestRow (rows ++ [row]) =
      match earliestRow rows with
      | none => some row
      | some b => if row.stored.sequence < b.stored.sequence then some row else some b := by
  rw [earliestRow, List.foldl_append]
  rfl

theorem earliestRow_spec {rows : List WorkerRow} {first : WorkerRow} (h : earliestRow rows = some first) :
    first ∈ rows ∧ ∀ row ∈ rows, first.stored.sequence ≤ row.stored.sequence := by
  induction rows using List.reverseRecOn generalizing first with
  | nil => cases h
  | append_singleton rows last ih =>
    rw [earliestRow_concat] at h
    simp only [List.mem_append, List.mem_singleton]
    cases hfirst : earliestRow rows with
    | none =>
      have hnil : rows = [] := by
        cases rows using List.reverseRecOn with
        | nil => rfl
        | append_singleton rows last =>
          rw [earliestRow_concat] at hfirst
          split at hfirst
          · cases hfirst
          · split at hfirst <;> cases hfirst
      rw [hfirst] at h
      cases h
      simp [hnil]
    | some b =>
      obtain ⟨hmem, hleast⟩ := ih hfirst
      rw [hfirst] at h
      dsimp only at h
      split_ifs at h with hless
      · cases h
        refine ⟨.inr rfl, ?_⟩
        rintro row (hrow | rfl)
        · exact hless.le.trans (hleast row hrow)
        · exact le_rfl
      · cases h
        refine ⟨.inl hmem, ?_⟩
        rintro row (hrow | rfl)
        · exact hleast row hrow
        · exact not_lt.mp hless

theorem publishable_mem {rows : List WorkerRow} {pending : StoredReport}
    (h : publishable runtime published worker rows = some pending) : pending ∈ rows.map WorkerRow.stored := by
  obtain ⟨hread, -⟩ := Option.filter_eq_some_iff.mp h
  obtain ⟨first, hfirst, rfl⟩ := Option.map_eq_some_iff.mp hread
  exact List.mem_map_of_mem (List.mem_of_mem_filter (earliestRow_spec hfirst).1)

theorem NetworkOk.setPublication (h : NetworkOk runtime dispatch worker n) (id : ℕ) {publication : Publication}
    (hpending : ∀ pending attempt post, publication = .waiting pending attempt post → pending ∈ n.outbox.reports)
    (hforbidden : ∀ pending, publication = .forbidden pending → dispatch.ownedBy worker = false) :
    NetworkOk runtime dispatch worker (n.setPublication id publication) := by
  refine ⟨h.outbox, h.hub, h.linked, ?_, ?_, h.kept, h.aside, ?_⟩
  · intro other pending attempt post hother
    by_cases hsame : other = id
    · rw [hsame, Network.setPublication_self] at hother
      exact hpending pending attempt post hother
    · rw [Network.setPublication_other n id publication hsame] at hother
      exact h.pending other pending attempt post hother
  · intro other pending hother
    by_cases hsame : other = id
    · rw [hsame, Network.setPublication_self] at hother
      exact hforbidden pending hother
    · rw [Network.setPublication_other n id publication hsame] at hother
      exact h.forbidden other pending hother
  · obtain ⟨used, hused⟩ := h.unused
    refine ⟨max used (id + 1), fun other hother => ?_⟩
    rw [Network.setPublication_other n id publication (by omega)]
    exact hused other (by omega)

theorem NetworkOk.setEnded (h : NetworkOk runtime dispatch worker n) (id : ℕ) :
    NetworkOk runtime dispatch worker (n.setPublication id .ended) := by
  apply h.setPublication
  · rintro _ _ _ ⟨⟩
  · rintro _ ⟨⟩

theorem perform_posts (runtime : Runtime) (dispatch : Dispatch) (s : HubState) (action : Action) :
    ∃ id, ∀ other, other ≠ id → (perform runtime dispatch s action).posts other = s.posts other := by
  cases action with
  | revoke => exact ⟨0, fun _ _ => rfl⟩
  | post id input =>
    refine ⟨id, fun other hother => ?_⟩
    simp only [perform]
    split <;> simp [HubState.setPost, hother]
  | abort id =>
    refine ⟨id, fun other hother => ?_⟩
    simp [perform, HubState.finish, HubState.setPost, hother]
  | insert id =>
    refine ⟨id, fun other hother => ?_⟩
    simp only [perform]
    repeat' split
    all_goals simp [HubState.finish, HubState.setPost, hother]
  | validate id =>
    refine ⟨id, fun other hother => ?_⟩
    simp only [perform]
    repeat' split
    all_goals simp [HubState.finish, HubState.setPost, hother]
  | lock id =>
    refine ⟨id, fun other hother => ?_⟩
    simp only [perform]
    repeat' split
    all_goals simp [HubState.finish, HubState.setPost, hother]
  | replay id =>
    refine ⟨id, fun other hother => ?_⟩
    simp only [perform]
    repeat' split
    all_goals simp [HubState.finish, HubState.setPost, hother]
  | replayLocked id =>
    refine ⟨id, fun other hother => ?_⟩
    simp only [perform]
    repeat' split
    all_goals simp [HubState.finish, HubState.setPost, hother]
  | order id =>
    refine ⟨id, fun other hother => ?_⟩
    simp only [perform]
    repeat' split
    all_goals simp [HubState.finish, HubState.setPost, hother]

theorem NetworkOk.withHub (h : NetworkOk runtime dispatch worker n) (action : Action)
    (harrives : ∀ id input, action = .post id input →
      Linked dispatch n.outbox.reports n.hub.rows (.arrived input)) :
    NetworkOk runtime dispatch worker { n with hub := perform runtime dispatch n.hub action } := by
  refine ⟨h.outbox, perform_inv h.hub action, h.linked.perform h.outbox h.hub action harrives, h.pending, h.forbidden,
    ?_, h.aside, ?_⟩
  · intro row hrow hdone
    exact (h.kept row hrow hdone).imp (fun hstored => (perform_rows n.hub action).subset hstored) id
  · obtain ⟨used, hused⟩ := h.unused
    obtain ⟨id, hother⟩ := perform_posts runtime dispatch n.hub action
    refine ⟨max used (id + 1), fun other hlarge => ?_⟩
    rw [hother other (by omega)]
    exact hused other (by omega)

theorem NetworkOk.withOutbox (h : NetworkOk runtime dispatch worker n) {o : Outbox} (hok : OutboxOk runtime dispatch o)
    (hreports : n.outbox.reports <+: o.reports)
    (hkept : ∀ row ∈ o.rows, row.acknowledged = true →
      row.stored ∈ n.hub.rows ∨ ∃ conflict ∈ o.conflicts, conflict.stored = row.stored)
    (haside : dispatch.ownedBy worker = true → o.conflicts = []) :
    NetworkOk runtime dispatch worker { n with outbox := o } :=
  ⟨hok, h.hub, h.linked.mono hreports, fun id pending attempt post hpending =>
    hreports.subset (h.pending id pending attempt post hpending), h.forbidden, hkept, haside, h.unused⟩

theorem subset_insertConflicts (conflicts added : List ConflictRow) :
    conflicts ⊆ added.foldl insertConflict conflicts := by
  induction added generalizing conflicts with
  | nil => exact List.Subset.refl _
  | cons row added ih =>
    refine List.Subset.trans ?_ (ih _)
    unfold insertConflict
    split_ifs
    · exact List.Subset.refl _
    · exact List.subset_append_left _ _

theorem exists_insertConflicts (conflicts : List ConflictRow) {added : List ConflictRow} {row : ConflictRow}
    (h : row ∈ added) :
    ∃ conflict ∈ added.foldl insertConflict conflicts, conflict.stored.sequence = row.stored.sequence := by
  induction added generalizing conflicts with
  | nil => cases h
  | cons head added ih =>
    rcases List.mem_cons.mp h with rfl | h
    · by_cases hknown : (conflicts.any fun conflict => conflict.stored.sequence == row.stored.sequence) = true
      · obtain ⟨conflict, hconflict, hsame⟩ := List.any_eq_true.mp hknown
        refine ⟨conflict, subset_insertConflicts (insertConflict conflicts row) added ?_, beq_iff_eq.mp hsame⟩
        have hkept : insertConflict conflicts row = conflicts := if_pos hknown
        rw [hkept]
        exact hconflict
      · refine ⟨row, subset_insertConflicts (insertConflict conflicts row) added ?_, rfl⟩
        have hadded : insertConflict conflicts row = conflicts ++ [row] := if_neg hknown
        rw [hadded]
        exact List.mem_append_right _ (List.mem_singleton_self _)
    · exact ih _ h

theorem NetworkOk.settled (h : NetworkOk runtime dispatch worker n) {id : ℕ} {outcome : Except String Receipt}
    (hended : n.hub.posts id = .ended outcome) (pending : StoredReport) :
    NetworkOk runtime dispatch worker { n with outbox := settled worker n.outbox pending outcome } := by
  have hlinked := h.linked.linked id
  rw [hended] at hlinked
  cases outcome with
  | error message =>
    have hother : immutableReportConflictReasons.contains message = false := by
      rw [← Bool.not_eq_true, List.contains_iff_mem]
      exact hlinked
    rw [Remote.settled, hother]
    exact h
  | ok receipt =>
    rw [Remote.settled]
    split_ifs with hexact
    · cases hrows : acknowledgeProgressiveWorkerReport n.outbox.rows (worker.key pending) with
      | error _ => exact h
      | ok rows =>
        obtain ⟨stored, hstored, hsequence, -⟩ := hlinked
        refine h.withOutbox (h.outbox.acknowledged hrows) ?_ ?_ h.aside
        · rw [acknowledge_eq_ok hrows]
          exact (keptIn_acknowledgeRows _ _).1
        · rw [acknowledge_eq_ok hrows]
          intro row hrow hdone
          obtain ⟨before, hbefore, hsame, hdone'⟩ := mem_acknowledgeRows.mp hrow
          rw [hsame]
          rw [hdone', Bool.or_eq_true] at hdone
          rcases hdone with hdone | hchosen
          · exact h.kept before hbefore hdone
          · simp only [WorkerRow.named, Worker.key, Bool.and_eq_true, beq_iff_eq] at hchosen
            have heq : before.stored = stored :=
              h.outbox.rows.eq_of_sequence (mem_reports hbefore) (h.linked.delivered.subset hstored)
                (by rw [hchosen.1.1.1, hsequence, hexact.1])
            exact .inl (heq ▸ hstored)
    · exact h

theorem NetworkOk.quarantineAll (h : NetworkOk runtime dispatch worker n) (hforeign : dispatch.ownedBy worker = false)
    (solverId reason : String) :
    NetworkOk runtime dispatch worker
      { n with outbox := (quarantineProgressiveWorkerReportConflicts n.outbox solverId reason).1 } := by
  have hok := h.outbox.quarantineAll solverId reason
  refine h.withOutbox hok ?_ ?_ fun howned => ?_
  · exact (keptIn_acknowledgeRows _ _).1
  · intro row hrow hdone
    obtain ⟨before, hbefore, hsame, hdone'⟩ := mem_acknowledgeRows.mp hrow
    rw [hsame]
    rw [hdone', Bool.or_eq_true] at hdone
    rcases hdone with hdone | hchosen
    · refine (h.kept before hbefore hdone).imp id ?_
      rintro ⟨conflict, hconflict, hstored⟩
      exact ⟨conflict, subset_insertConflicts _ _ hconflict, hstored⟩
    · simp only [Bool.and_eq_true, List.contains_iff_mem, List.mem_map] at hchosen
      obtain ⟨-, taken, htaken, hseq⟩ := hchosen
      obtain ⟨conflict, hconflict, hseq'⟩ := exists_insertConflicts n.outbox.conflicts
        (List.mem_map_of_mem (f := fun row : WorkerRow => (⟨row.stored, reason⟩ : ConflictRow)) htaken)
      refine .inr ⟨conflict, hconflict, ?_⟩
      have hreport := hok.aside conflict hconflict
      rw [Outbox.reports, quarantineProgressiveWorkerReportConflicts, acknowledgeRows_stored] at hreport
      exact h.outbox.rows.eq_of_sequence hreport (mem_reports hbefore) (hseq'.trans hseq)
  · rw [howned] at hforeign
    cases hforeign

theorem NetworkOk.act (hcollates : runtime.Collates)
    (hassigned : ∀ input envelope, assigned input = .ok envelope → dispatch.envelope = .ok envelope)
    (h : NetworkOk runtime dispatch worker n) (action : NetworkAction) :
    NetworkOk runtime dispatch worker (n.act runtime assigned published dispatch worker action) := by
  cases action with
  | observe input =>
    simp only [Network.act]
    split
    · next rows receipt henqueue =>
      have hkept := (OutboxStep.enqueue henqueue).keptIn
      refine h.withOutbox (h.outbox.enqueue hcollates hassigned henqueue) hkept.1 ?_ h.aside
      intro row hrow hdone
      obtain rfl | ⟨-, -, report, signature, -, -, -, -, rfl⟩ := enqueue_cases henqueue
      · exact h.kept row hrow hdone
      · rcases List.mem_append.mp hrow with hrow | hrow
        · exact h.kept row hrow hdone
        · rw [List.mem_singleton.mp hrow] at hdone
          cases hdone
    · exact h
  | read id =>
    simp only [Network.act]
    split
    · next pending hidle hpublishable =>
      apply h.setPublication
      · rintro _ _ _ ⟨⟩
        exact publishable_mem hpublishable
      · rintro _ ⟨⟩
    · exact h
  | send id post =>
    simp only [Network.act]
    split
    · next pending attempt last hwaiting hfree =>
      have hpending := h.pending id pending attempt last hwaiting
      split_ifs with hattempts howned
      · exact h
      · have hset : NetworkOk runtime dispatch worker
            (n.setPublication id (.waiting pending (attempt + 1) (some post))) := by
          apply h.setPublication
          · rintro _ _ _ ⟨⟩
            exact hpending
          · rintro _ ⟨⟩
        apply hset.withHub
        rintro _ _ ⟨⟩
        exact .inr ⟨pending, hpending, rfl⟩
      · apply h.setPublication
        · rintro _ _ _ ⟨⟩
        · intro _ _
          simpa using howned
    · exact h
  | foreign post input =>
    simp only [Network.act]
    split_ifs with hforeign
    · exact h
    · apply h.withHub
      rintro _ _ ⟨⟩
      exact .inl hforeign
  | hub action =>
    cases action with
    | post id input => exact h
    | _ => exact h.withHub _ fun _ _ heq => nomatch heq
  | settle id =>
    simp only [Network.act]
    split
    · next pending attempt post hwaiting =>
      split
      · next outcome hended => exact (h.settled hended pending).setEnded id
      · exact h
    · next pending hforbidden =>
      exact (h.quarantineAll (h.forbidden id pending hforbidden) worker.solverId staleRemoteOwnerReason).setEnded id
    · exact h

theorem networkOk_started (h : n.Started) : NetworkOk runtime dispatch worker n := by
  obtain ⟨houtbox, hpublications, hhub⟩ := h
  refine ⟨houtbox ▸ outboxOk_empty, started_inv hhub, ⟨?_, ?_⟩, ?_, ?_, ?_, ?_, 0, ?_⟩
  · rw [hhub.1]
    exact ⟨_, rfl⟩
  · intro id
    rw [hhub.2.2 id]
    trivial
  · intro id pending attempt post hpending
    rw [hpublications id] at hpending
    cases hpending
  · intro id pending hpending
    rw [hpublications id] at hpending
    cases hpending
  · intro row hrow
    rw [houtbox] at hrow
    cases hrow
  · intro _
    rw [houtbox]
  · exact fun id _ => ⟨hpublications id, hhub.2.2 id⟩

theorem reachable_networkOk (hcollates : runtime.Collates)
    (hassigned : ∀ input envelope, assigned input = .ok envelope → dispatch.envelope = .ok envelope)
    (h : Reachable Network.Started (NetworkStep runtime assigned published dispatch worker) n) :
    NetworkOk runtime dispatch worker n := by
  refine h.invariant (fun _ => networkOk_started) ?_
  rintro s s' hs ⟨action, rfl⟩
  exact hs.act hcollates hassigned action

/-- In every state of every run the hub has stored a prefix of the reports of the worker, as they were enqueued and in
their order, however often and however late they were posted.  What the worker has acknowledged is stored at the hub or
put aside as a conflict, and a worker that owns the dispatch never puts a report aside. -/
theorem reports_delivered_in_order (hcollates : runtime.Collates)
    (hassigned : ∀ input envelope, assigned input = .ok envelope → dispatch.envelope = .ok envelope)
    (h : Reachable Network.Started (NetworkStep runtime assigned published dispatch worker) n) :
    n.hub.rows <+: n.outbox.reports ∧
      (∀ row ∈ n.outbox.rows, row.acknowledged = true →
        row.stored ∈ n.hub.rows ∨ ∃ conflict ∈ n.outbox.conflicts, conflict.stored = row.stored) ∧
      (dispatch.ownedBy worker = true → n.outbox.conflicts = [] ∧ ∃ k ≤ n.hub.rows.length,
        n.outbox.rows.map WorkerRow.acknowledged =
          List.replicate k true ++ List.replicate (n.outbox.rows.length - k) false) := by
  have hok := reachable_networkOk hcollates hassigned h
  refine ⟨hok.linked.delivered, hok.kept, fun howned => ⟨hok.aside howned, ?_⟩⟩
  obtain ⟨k, hk, hfront⟩ := hok.outbox.acknowledged_front
  refine ⟨k, ?_, hfront⟩
  cases k with
  | zero => exact Nat.zero_le _
  | succ k =>
    -- the last acknowledged report is stored, and the hub counts as the outbox does
    have hdone : n.outbox.rows[k].acknowledged = true := by
      have hflag := congrArg (fun flags => flags[k]?) hfront
      have hlt : k < n.outbox.rows.length := hk
      rw [List.getElem?_append_left (by simp)] at hflag
      simpa [hlt] using hflag
    obtain hstored | ⟨conflict, hconflict, -⟩ := hok.kept _ (List.getElem_mem hk) hdone
    · obtain ⟨i, hi, -, hseq⟩ := hok.hub.rows.exists_index hstored
      have hlength : k < n.outbox.reports.length := by
        rw [Outbox.reports, List.length_map]
        exact hk
      have hseq' := hok.outbox.rows.sequence_getElem hlength
      have hget : n.outbox.reports[k] = n.outbox.rows[k].stored := by simp [Outbox.reports]
      rw [hget] at hseq'
      omega
    · rw [hok.aside howned] at hconflict
      cases hconflict

end Invariant

/-! ## An answer that is lost -/

def exampleWorker : Worker := ⟨exampleEnvelope.solverId, exampleEnvelope.promiseId⟩

def exampleAct (n : Network) (action : NetworkAction) : Network :=
  n.act exampleRuntime (fun _ => exampleDispatch.envelope) exampleDispatch.envelope exampleDispatch exampleWorker action

def exampleNetwork : Network :=
  [.observe (exampleObservation (runningStatus 0) .null), .read 0, .send 0 0, .hub (.validate 0), .hub (.replay 0),
    .hub (.lock 0), .hub (.replayLocked 0), .hub (.order 0), .hub (.insert 0),
    .observe (exampleObservation cancelledStatus neverStartedProof)].foldl exampleAct ⟨⟨[], []⟩, fun _ => .idle, emptyHub⟩

theorem exampleAct_run (n : Network) (actions : List NetworkAction) :
    Relation.ReflTransGen (NetworkStep exampleRuntime (fun _ => exampleDispatch.envelope) exampleDispatch.envelope
      exampleDispatch exampleWorker) n (actions.foldl exampleAct n) := by
  induction actions generalizing n with
  | nil => exact .refl
  | cons action actions ih => exact .head ⟨action, rfl⟩ (ih _)

theorem exampleNetwork_reachable :
    Reachable Network.Started (NetworkStep exampleRuntime (fun _ => exampleDispatch.envelope) exampleDispatch.envelope
      exampleDispatch exampleWorker) exampleNetwork :=
  ⟨_, ⟨rfl, fun _ => rfl, rfl, rfl, fun _ => rfl⟩, exampleAct_run _ _⟩

theorem exampleNetwork_stored : exampleNetwork.hub.rows.length = 1 ∧ exampleNetwork.outbox.rows.length = 2 ∧
    exampleNetwork.hub.revoked = false := by
  decide +kernel

theorem reports_delivered_in_order_lost_answer :
    exampleNetwork.hub.rows.length = 1 ∧ exampleNetwork.outbox.rows.length = 2 ∧
      exampleNetwork.hub.rows <+: exampleNetwork.outbox.reports ∧ exampleNetwork.outbox.conflicts = [] := by
  have hassigned : ∀ (input : Observation) (envelope : Envelope),
      (fun _ => exampleDispatch.envelope) input = .ok envelope → exampleDispatch.envelope = .ok envelope :=
    fun _ _ h => h
  obtain ⟨hdelivered, -, howned⟩ :=
    reports_delivered_in_order exampleRuntime_collates hassigned exampleNetwork_reachable
  exact ⟨exampleNetwork_stored.1, exampleNetwork_stored.2.1, hdelivered, (howned (by decide)).1⟩

end XFoilFoam.Remote
