import XFoilFoam.Remote.Chain
import XFoilFoam.Foundations.Runs

/-! `storeProgressiveRemoteReport` under concurrent posts for one execution.  Every database statement of
a post is one step, a step sees what is committed, and the row lock on the dispatch is held from the
locking read to the end of the transaction.  A run is any interleaving of the steps of any posts. -/
namespace XFoilFoam.Remote
open ExactNum
set_option autoImplicit false

/-! ## State -/

/-- A row of `progressive_remote_reports` for this execution. -/
structure StoredReport where
  sequence : ℤ
  contentSignature : String
  report : Json

/-- The immutable dispatch of the execution; `envelope` is what verifying its stored assignment gives. -/
structure Dispatch where
  solverId : String
  promiseId : String
  envelope : Except String Envelope

structure PostInput where
  solverId : String
  promiseId : String
  report : Json

structure Receipt where
  sequence : ℤ
  contentSignature : String
  replayed : Bool

inductive Phase where
  | idle
  | arrived (input : PostInput)
  | validated (input : PostInput) (report : Json) (signature : String)
  | missed (input : PostInput) (report : Json) (signature : String)
  | locked (report : Json) (signature : String)
  | missedLocked (report : Json) (signature : String)
  | ordered (report : Json) (signature : String)
  | ended (outcome : Except String Receipt)

structure HubState where
  rows : List StoredReport
  lock : Option ℕ
  revoked : Bool
  posts : ℕ → Phase

def HubState.setPost (s : HubState) (id : ℕ) (phase : Phase) : HubState :=
  { s with posts := Function.update s.posts id phase }

/-! ## Statements -/

def sequenceOf (report : Json) : ℤ := (safeInteger? (report.get "sequence")).getD 0

def ownsDispatch (dispatch : Dispatch) (s : HubState) (input : PostInput) : Bool :=
  input.solverId == dispatch.solverId && input.promiseId == dispatch.promiseId && !s.revoked

def notOwner : String := "Remote report sender does not own the immutable dispatch"

/-- `SELECT content_signature … WHERE sequence = …`. -/
def existingReport (rows : List StoredReport) (report : Json) : Option StoredReport :=
  rows.find? (fun row => row.sequence == sequenceOf report)

/-- `replayExisting`: a stored sequence ends the post, as a replay or as a conflict. -/
def replayExisting (rows : List StoredReport) (report : Json) (signature : String) :
    Option (Except String Receipt) :=
  (existingReport rows report).map (fun existing =>
    if existing.contentSignature = signature then .ok ⟨sequenceOf report, signature, true⟩
    else .error "Remote report replay changed immutable content")

/-- `SELECT … ORDER BY sequence DESC LIMIT 1`. -/
def latestReport (rows : List StoredReport) : Option StoredReport :=
  rows.foldl (fun best row =>
    match best with
    | none => some row
    | some b => if b.sequence < row.sequence then some row else some b) none

inductive Action where
  | post (id : ℕ) (input : PostInput)
  | validate (id : ℕ)
  | replay (id : ℕ)
  | lock (id : ℕ)
  | replayLocked (id : ℕ)
  | order (id : ℕ)
  | insert (id : ℕ)
  | abort (id : ℕ)
  | revoke

/-- The transaction of `id` ends without a write; its lock is released. -/
def HubState.finish (s : HubState) (id : ℕ) (outcome : Except String Receipt) : HubState :=
  { s.setPost id (.ended outcome) with lock := if s.lock = some id then none else s.lock }

/-- One statement.  A statement that is not the next one of its post, or that waits for the lock,
leaves the state as it is. -/
def perform (runtime : Runtime) (dispatch : Dispatch) (s : HubState) : Action → HubState
  | .post id input =>
    match s.posts id with
    | .idle => s.setPost id (.arrived input)
    | _ => s
  | .validate id =>
    match s.posts id with
    | .arrived input =>
      if ownsDispatch dispatch s input then
        match dispatch.envelope.bind
          (fun envelope => validateProgressiveRemoteReport runtime envelope input.report) with
        | .ok (report, signature) => s.setPost id (.validated input report signature)
        | .error message => s.finish id (.error message)
      else s.finish id (.error notOwner)
    | _ => s
  | .replay id =>
    match s.posts id with
    | .validated input report signature =>
      match replayExisting s.rows report signature with
      | some outcome => s.finish id outcome
      | none => s.setPost id (.missed input report signature)
    | _ => s
  | .lock id =>
    match s.posts id with
    | .missed input report signature =>
      if ownsDispatch dispatch s input then
        match s.lock with
        | none => { s.setPost id (.locked report signature) with lock := some id }
        | some _ => s
      else s.finish id (.error notOwner)
    | _ => s
  | .replayLocked id =>
    match s.posts id with
    | .locked report signature =>
      match replayExisting s.rows report signature with
      | some outcome => s.finish id outcome
      | none => s.setPost id (.missedLocked report signature)
    | _ => s
  | .order id =>
    match s.posts id with
    | .missedLocked report signature =>
      match validateProgressiveRemoteReportOrder runtime report
        ((latestReport s.rows).map StoredReport.report) with
      | .ok _ => s.setPost id (.ordered report signature)
      | .error message => s.finish id (.error message)
    | _ => s
  | .insert id =>
    match s.posts id with
    | .ordered report signature =>
      if (existingReport s.rows report).isSome then
        s.finish id (.error "duplicate key value violates unique constraint")
      else
        { s.finish id (.ok ⟨sequenceOf report, signature, false⟩) with
          rows := s.rows ++ [⟨sequenceOf report, signature, report⟩] }
    | _ => s
  | .abort id => s.finish id (.error "transaction aborted")
  | .revoke => { s with revoked := true }

def Started (s : HubState) : Prop := s.rows = [] ∧ s.lock = none ∧ ∀ id, s.posts id = .idle

def HubStep (runtime : Runtime) (dispatch : Dispatch) (s s' : HubState) : Prop :=
  ∃ action, s' = perform runtime dispatch s action

/-! ## Invariant -/

def Accepts (runtime : Runtime) (dispatch : Dispatch) (report : Json) : Prop :=
  ∃ envelope, dispatch.envelope = .ok envelope ∧ Validated runtime envelope report

/-- What a post knows in its phase: its report is valid, and from the locking read on it is the one
holder of the lock, so that what it read is still so. -/
def PhaseOk (runtime : Runtime) (dispatch : Dispatch) (s : HubState) (id : ℕ) : Phase → Prop
  | .validated _ report _ => Accepts runtime dispatch report
  | .missed _ report _ => Accepts runtime dispatch report
  | .locked report _ => Accepts runtime dispatch report ∧ s.lock = some id
  | .missedLocked report _ => Accepts runtime dispatch report ∧ s.lock = some id
  | .ordered report _ => Accepts runtime dispatch report ∧ s.lock = some id ∧
      validateProgressiveRemoteReportOrder runtime report
        ((latestReport s.rows).map StoredReport.report) = .ok ()
  | _ => True

/-- The stored reports: sequences 1, 2, …, n, each the sequence of a valid report, and every report
follows all reports before it. -/
structure RowsOk (runtime : Runtime) (dispatch : Dispatch) (rows : List StoredReport) : Prop where
  sequences : rows.map StoredReport.sequence = (List.range rows.length).map (fun i : ℕ => (i : ℤ) + 1)
  valid : ∀ row ∈ rows, Accepts runtime dispatch row.report ∧ sequenceOf row.report = row.sequence
  follows : (rows.map StoredReport.report).Pairwise (Follows runtime)

structure HubInv (runtime : Runtime) (dispatch : Dispatch) (s : HubState) : Prop where
  rows : RowsOk runtime dispatch s.rows
  phases : ∀ id, PhaseOk runtime dispatch s id (s.posts id)

section
variable {runtime : Runtime} {dispatch : Dispatch} {s : HubState}

theorem phaseOk_frame {s' : HubState} {id : ℕ} {phase : Phase} (h : PhaseOk runtime dispatch s id phase)
    (hsame : s.lock = some id → s'.lock = s.lock ∧ s'.rows = s.rows) :
    PhaseOk runtime dispatch s' id phase := by
  cases phase with
  | locked report signature => exact ⟨h.1, (hsame h.2).1.trans h.2⟩
  | missedLocked report signature => exact ⟨h.1, (hsame h.2).1.trans h.2⟩
  | ordered report signature =>
    obtain ⟨haccepts, hlock, horder⟩ := h
    obtain ⟨hlock', hrows⟩ := hsame hlock
    refine ⟨haccepts, hlock'.trans hlock, ?_⟩
    rw [hrows]
    exact horder
  | _ => exact h

/-- A step that moves one post keeps the invariant if the rows stay good, the moved post knows what
its new phase says, and nothing shared changes while another post holds the lock. -/
theorem hubInv_update {s' : HubState} {id : ℕ} {phase : Phase} (h : HubInv runtime dispatch s)
    (hposts : s'.posts = Function.update s.posts id phase) (hrows : RowsOk runtime dispatch s'.rows)
    (hphase : PhaseOk runtime dispatch s' id phase)
    (hothers : ∀ other, other ≠ id → s.lock = some other → s'.lock = s.lock ∧ s'.rows = s.rows) :
    HubInv runtime dispatch s' := by
  refine ⟨hrows, ?_⟩
  intro other
  rw [hposts]
  by_cases hother : other = id
  · subst hother
    rw [Function.update_self]
    exact hphase
  · rw [Function.update_of_ne hother]
    exact phaseOk_frame (h.phases other) (hothers other hother)

theorem setPost_inv {id : ℕ} {phase : Phase} (h : HubInv runtime dispatch s)
    (hphase : PhaseOk runtime dispatch s id phase) : HubInv runtime dispatch (s.setPost id phase) := by
  refine hubInv_update h rfl h.rows ?_ (fun _ _ _ => ⟨rfl, rfl⟩)
  exact phaseOk_frame hphase (fun _ => ⟨rfl, rfl⟩)

theorem finish_inv (h : HubInv runtime dispatch s) (id : ℕ) (outcome : Except String Receipt) :
    HubInv runtime dispatch (s.finish id outcome) := by
  refine hubInv_update h rfl h.rows trivial ?_
  intro other hother hlock
  refine ⟨?_, rfl⟩
  have hne : s.lock ≠ some id := by
    rw [hlock]
    exact fun heq => hother (Option.some.inj heq)
  simp [HubState.finish, hne]

/-! ## The insert -/

theorem latestReport_concat (rows : List StoredReport) (row : StoredReport) :
    latestReport (rows ++ [row]) =
      match latestReport rows with
      | none => some row
      | some b => if b.sequence < row.sequence then some row else some b := by
  simp [latestReport, List.foldl_append]

theorem latestReport_mem (rows : List StoredReport) (best : StoredReport)
    (h : latestReport rows = some best) : best ∈ rows := by
  induction rows using List.reverseRecOn generalizing best with
  | nil => simp [latestReport] at h
  | append_singleton rows last ih =>
    rw [latestReport_concat] at h
    cases hlatest : latestReport rows with
    | none =>
      simp only [hlatest, Option.some.injEq] at h
      simp [h]
    | some b =>
      simp only [hlatest] at h
      split at h
      · simp [Option.some.inj h]
      · rw [← Option.some.inj h]
        exact List.mem_append_left _ (ih b hlatest)

theorem latestReport_append (rows : List StoredReport) (row : StoredReport)
    (h : ∀ earlier ∈ rows, earlier.sequence < row.sequence) :
    latestReport (rows ++ [row]) = some row := by
  rw [latestReport_concat]
  cases hlatest : latestReport rows with
  | none => rfl
  | some b => simp [h b (latestReport_mem rows b hlatest)]

theorem Accepts.sequence {report : Json} (h : Accepts runtime dispatch report) :
    report.get "sequence" = .num (.fin (sequenceOf report)) := by
  obtain ⟨envelope, -, value, signature, hvalid⟩ := h
  obtain ⟨hidentity, -, -, rfl⟩ := validate_eq_ok hvalid
  simp only [validateIdentity, require_eq_ok, Bool.and_eq_true] at hidentity
  obtain ⟨-, hsequence⟩ := hidentity
  cases hn : safeInteger? (value.get "sequence") with
  | none => simp [hn] at hsequence
  | some n =>
    simp only [sequenceOf, JsValue.get_canonical, safeInteger_canonical, hn, Option.getD_some]
    rw [safeInteger_eq_some hn]
    simp [JsValue.canonical]

theorem Accepts.follows {report previous : Json} (hreport : Accepts runtime dispatch report)
    (hprevious : Accepts runtime dispatch previous)
    (h : validateProgressiveRemoteReportOrder runtime report (some previous) = .ok ()) :
    sequenceOf report = sequenceOf previous + 1 ∧ Follows runtime previous report := by
  have hseq := hreport.sequence
  have hseq' := hprevious.sequence
  obtain ⟨envelope, henvelope, hvalid⟩ := hreport
  obtain ⟨envelope', henvelope', hvalid'⟩ := hprevious
  rw [henvelope] at henvelope'
  cases henvelope'
  obtain ⟨hnext, hfollows⟩ := order_some hvalid hvalid' h
  refine ⟨?_, hfollows⟩
  simp only [hseq, previousSequence, hseq', isNum, ExactNum.add, ExactNum.eq, decide_eq_true_eq,
    ExactNum.fin.injEq] at hnext
  exact_mod_cast hnext

theorem Accepts.first {report : Json} (hreport : Accepts runtime dispatch report)
    (h : validateProgressiveRemoteReportOrder runtime report none = .ok ()) :
    sequenceOf report = 1 := by
  have hseq := hreport.sequence
  unfold validateProgressiveRemoteReportOrder at h
  obtain ⟨⟨⟩, hnext, -⟩ := bind_eq_ok.mp h
  simp only [require_eq_ok, hseq, previousSequence, isNum, ExactNum.add, ExactNum.eq,
    decide_eq_true_eq, ExactNum.fin.injEq, zero_add] at hnext
  exact_mod_cast hnext

theorem rowsOk_append {rows : List StoredReport} {report : Json} (signature : String)
    (h : RowsOk runtime dispatch rows) (hreport : Accepts runtime dispatch report)
    (horder : validateProgressiveRemoteReportOrder runtime report
      ((latestReport rows).map StoredReport.report) = .ok ()) :
    RowsOk runtime dispatch (rows ++ [⟨sequenceOf report, signature, report⟩]) := by
  have hvalid : ∀ row ∈ rows ++ [⟨sequenceOf report, signature, report⟩],
      Accepts runtime dispatch row.report ∧ sequenceOf row.report = row.sequence := by
    intro row hrow
    rcases List.mem_append.mp hrow with hrow | hrow
    · exact h.valid row hrow
    · rw [List.mem_singleton.mp hrow]
      exact ⟨hreport, rfl⟩
  have hnext : sequenceOf report = rows.length + 1 ∧
      ∀ row ∈ rows, Follows runtime row.report report := by
    -- The latest row is the last one, because the sequences count up.
    induction rows using List.reverseRecOn with
    | nil => exact ⟨by simpa using hreport.first horder, by simp⟩
    | append_singleton front last =>
      have hcount := h.sequences
      rw [List.length_append, List.length_singleton, List.range_succ, List.map_append,
        List.map_append] at hcount
      obtain ⟨hfront, hlast⟩ := List.append_inj' hcount rfl
      simp only [List.map_cons, List.map_nil, List.cons.injEq, and_true] at hlast
      have hless : ∀ earlier ∈ front, earlier.sequence < last.sequence := by
        intro earlier hmem
        have hmap : earlier.sequence ∈ front.map StoredReport.sequence := List.mem_map_of_mem hmem
        rw [hfront, List.mem_map] at hmap
        obtain ⟨i, hi, hieq⟩ := hmap
        have := List.mem_range.mp hi
        omega
      rw [latestReport_append front last hless, Option.map_some] at horder
      have hlastValid := h.valid last (by simp)
      obtain ⟨hseq, hfollows⟩ := hreport.follows hlastValid.1 horder
      refine ⟨?_, ?_⟩
      · rw [hseq, hlastValid.2, hlast]
        simp
      · intro row hrow
        rcases List.mem_append.mp hrow with hrow | hrow
        · have hpair := h.follows
          rw [List.map_append, List.pairwise_append] at hpair
          exact (hpair.2.2 row.report (List.mem_map_of_mem hrow) last.report (by simp)).trans hfollows
        · rw [List.mem_singleton.mp hrow]
          exact hfollows
  refine ⟨?_, hvalid, ?_⟩
  · rw [List.map_append, h.sequences, List.length_append, List.length_singleton, List.range_succ,
      List.map_append]
    simp [hnext.1]
  · rw [List.map_append, List.pairwise_append]
    refine ⟨h.follows, by simp, ?_⟩
    intro earlier hearlier later hlater
    obtain ⟨row, hrow, rfl⟩ := List.mem_map.mp hearlier
    simp only [List.map_cons, List.map_nil, List.mem_singleton] at hlater
    subst hlater
    exact hnext.2 row hrow

/-! ## Runs -/

theorem started_inv (h : Started s) : HubInv runtime dispatch s := by
  obtain ⟨hrows, -, hposts⟩ := h
  refine ⟨?_, fun id => ?_⟩
  · rw [hrows]
    exact ⟨rfl, by simp, by simp⟩
  · rw [hposts id]
    trivial

theorem perform_inv (h : HubInv runtime dispatch s) (action : Action) :
    HubInv runtime dispatch (perform runtime dispatch s action) := by
  cases action with
  | post id input =>
    simp only [perform]
    split
    · exact setPost_inv h trivial
    · exact h
  | validate id =>
    simp only [perform]
    split
    · split
      · split
        · next report signature hvalid =>
          obtain ⟨envelope, henvelope, hvalid⟩ := bind_eq_ok.mp hvalid
          exact setPost_inv h ⟨envelope, henvelope, _, signature, hvalid⟩
        · exact finish_inv h id _
      · exact finish_inv h id _
    · exact h
  | replay id =>
    simp only [perform]
    split
    · next input report signature hpost =>
      have hphase := h.phases id
      rw [hpost] at hphase
      split
      · exact finish_inv h id _
      · exact setPost_inv h hphase
    · exact h
  | lock id =>
    simp only [perform]
    split
    · next input report signature hpost =>
      have hphase := h.phases id
      rw [hpost] at hphase
      split
      · split
        · next hlock =>
          refine hubInv_update h rfl h.rows ⟨hphase, rfl⟩ ?_
          intro other _ hother
          rw [hlock] at hother
          cases hother
        · exact h
      · exact finish_inv h id _
    · exact h
  | replayLocked id =>
    simp only [perform]
    split
    · next report signature hpost =>
      have hphase := h.phases id
      rw [hpost] at hphase
      split
      · exact finish_inv h id _
      · exact setPost_inv h hphase
    · exact h
  | order id =>
    simp only [perform]
    split
    · next report signature hpost =>
      have hphase := h.phases id
      rw [hpost] at hphase
      split
      · next horder => exact setPost_inv h ⟨hphase.1, hphase.2, horder⟩
      · exact finish_inv h id _
    · exact h
  | insert id =>
    simp only [perform]
    split
    · next report signature hpost =>
      have hphase := h.phases id
      rw [hpost] at hphase
      obtain ⟨haccepts, hlock, horder⟩ := hphase
      split
      · exact finish_inv h id _
      · refine hubInv_update h rfl (rowsOk_append signature h.rows haccepts horder) trivial ?_
        intro other hother hlock'
        rw [hlock] at hlock'
        exact absurd (Option.some.inj hlock').symm hother
    · exact h
  | abort id => exact finish_inv h id _
  | revoke =>
    refine ⟨h.rows, fun id => ?_⟩
    exact phaseOk_frame (h.phases id) (fun _ => ⟨rfl, rfl⟩)

theorem reachable_hubInv (h : Reachable Started (HubStep runtime dispatch) s) :
    HubInv runtime dispatch s := by
  refine h.invariant (fun _ => started_inv) ?_
  rintro s s' hinv ⟨action, rfl⟩
  exact perform_inv hinv action

theorem perform_rows (s : HubState) (action : Action) :
    s.rows <+: (perform runtime dispatch s action).rows := by
  cases action with
  | insert id =>
    simp only [perform]
    split
    · split
      · exact List.prefix_refl _
      · exact List.prefix_append _ _
    · exact List.prefix_refl _
  | validate id =>
    simp only [perform]
    repeat' split
    all_goals exact List.prefix_refl _
  | lock id =>
    simp only [perform]
    repeat' split
    all_goals exact List.prefix_refl _
  | revoke => exact List.prefix_refl _
  | abort id => exact List.prefix_refl _
  | post id input =>
    simp only [perform]
    split <;> exact List.prefix_refl _
  | _ =>
    simp only [perform]
    repeat' split
    all_goals exact List.prefix_refl _

theorem run_rows {s' : HubState} (h : Relation.ReflTransGen (HubStep runtime dispatch) s s') :
    s.rows <+: s'.rows := by
  induction h with
  | refl => exact List.prefix_refl _
  | tail _ hstep ih =>
    obtain ⟨action, rfl⟩ := hstep
    exact ih.trans (perform_rows _ action)

/-- In every state of every run the stored reports count 1, 2, …, n without a gap, later states keep
them as they are, and any report follows all stored before it: it does not forget completed cases, it
keeps a stop proof in a terminal state without a running solver, and it repeats final evidence. -/
theorem stored_reports_chain (h : Reachable Started (HubStep runtime dispatch) s) :
    s.rows.map StoredReport.sequence = (List.range s.rows.length).map (fun i : ℕ => (i : ℤ) + 1) ∧
      (∀ s', Relation.ReflTransGen (HubStep runtime dispatch) s s' → s.rows <+: s'.rows) ∧
      (∀ row ∈ s.rows, sequenceOf row.report = row.sequence) ∧
      (s.rows.map StoredReport.report).Pairwise (Follows runtime) := by
  have hinv := (reachable_hubInv h).rows
  exact ⟨hinv.sequences, fun s' hrun => run_rows hrun, fun row hrow => (hinv.valid row hrow).2,
    hinv.follows⟩

end

def exampleDispatch : Dispatch :=
  ⟨exampleEnvelope.solverId, exampleEnvelope.promiseId, .ok exampleEnvelope⟩

def examplePost (report : Json) : PostInput :=
  ⟨exampleEnvelope.solverId, exampleEnvelope.promiseId, report⟩

def emptyHub : HubState := ⟨[], none, false, fun _ => .idle⟩

def exampleActions : List Action :=
  [.post 0 (examplePost (exampleReport 1 (runningStatus 0) .null)),
    .post 1 (examplePost (exampleReport 1 (runningStatus 0) .null)),
    .validate 0, .validate 1, .replay 0, .replay 1, .lock 0, .lock 1, .replayLocked 0, .order 0,
    .insert 0, .lock 1, .replayLocked 1,
    .post 2 (examplePost (exampleReport 2 cancelledStatus neverStartedProof)),
    .validate 2, .replay 2, .lock 2, .replayLocked 2, .order 2, .insert 2]

def runHub (actions : List Action) : HubState :=
  actions.foldl (perform exampleRuntime exampleDispatch) emptyHub

theorem runHub_reachable (actions : List Action) :
    Reachable Started (HubStep exampleRuntime exampleDispatch) (runHub actions) := by
  induction actions using List.reverseRecOn with
  | nil => exact Reachable.start ⟨rfl, rfl, fun _ => rfl⟩
  | append_singleton actions action ih =>
    refine ih.next ⟨action, ?_⟩
    simp [runHub, List.foldl_append]

theorem stored_reports_chain_three_posts :
    (runHub exampleActions).rows.map StoredReport.sequence = [1, 2] ∧
      ((runHub exampleActions).rows.map StoredReport.report).Pairwise (Follows exampleRuntime) := by
  obtain ⟨hsequences, -, -, hfollows⟩ := stored_reports_chain (runHub_reachable exampleActions)
  have hlength : (runHub exampleActions).rows.length = 2 := by decide +kernel
  rw [hlength] at hsequences
  exact ⟨hsequences, hfollows⟩

end XFoilFoam.Remote
