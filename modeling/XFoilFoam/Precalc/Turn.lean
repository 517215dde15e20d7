import XFoilFoam.Precalc.Settlement

/-! What one turn of the settlement does to the rows of a ledger: the job's own row, crash recovery, and the row that is
finished. -/
namespace XFoilFoam.Precalc
set_option autoImplicit false

variable {F : Type} [Binary64 F]

/-! ## The job's own row -/

section Own
variable {l : Ledger F} {jobId : String} {f : Submission F → Submission F}

omit [Binary64 F] in
theorem submissionOf_some {r : Submission F} (h : l.submissionOf jobId = some r) :
    r ∈ l.submissions ∧ r.simJobId = some jobId := by
  refine ⟨List.mem_of_find?_eq_some h, ?_⟩
  simpa using List.find?_some h

omit [Binary64 F] in
theorem submissionOf_none (h : l.submissionOf jobId = none) {r : Submission F} (hr : r ∈ l.submissions) :
    r.simJobId ≠ some jobId := by
  have hnot := List.find?_eq_none.mp h r hr
  simpa using hnot

omit [Binary64 F] in
theorem eq_of_submissionOf {r s : Submission F} (hs : l.submissionOf jobId = some s) (hr : r ∈ l.submissions)
    (hjob : r.simJobId = some jobId) : r = s := by
  obtain ⟨hmem, hsjob⟩ := submissionOf_some hs
  have hsame : ∀ a b : Submission F, a.Apart b → a.simJobId = some jobId → b.simJobId ≠ some jobId := by
    intro a b hapart ha hb
    obtain hnone | hne := hapart.1
    · rw [ha] at hnone
      cases hnone
    · exact hne (ha.trans hb.symm)
  by_contra hne
  obtain ⟨i, hi, hri⟩ := List.getElem_of_mem hr
  obtain ⟨k, hk, hsk⟩ := List.getElem_of_mem hmem
  have happart := List.pairwise_iff_getElem.mp l.apart
  rcases Nat.lt_trichotomy i k with hlt | heq | hgt
  · exact hsame _ _ (happart i k hi hk hlt) (by rw [hri]; exact hjob) (by rw [hsk]; exact hsjob)
  · subst heq
    exact hne (hri.symm.trans hsk)
  · exact hsame _ _ (happart k i hk hi hgt) (by rw [hsk]; exact hsjob) (by rw [hri]; exact hjob)

omit [Binary64 F] in
theorem map_finishOwn_of_none (h : l.submissionOf jobId = none) :
    l.submissions.map (finishOwn jobId f) = l.submissions := by
  rw [List.map_congr_left (g := id), List.map_id]
  intro r hr
  exact if_neg (submissionOf_none h hr)

omit [Binary64 F] in
theorem find?_map_finishOwn (hf : ∀ r, (f r).simJobId = r.simJobId) :
    (l.submissions.map (finishOwn jobId f)).find? (fun r => r.simJobId == some jobId) =
      (l.submissionOf jobId).map f := by
  have hkey : (fun r : Submission F => r.simJobId == some jobId) ∘ finishOwn jobId f =
      fun r => r.simJobId == some jobId := by
    funext r
    simp only [Function.comp_apply, finishOwn]
    split
    · rw [hf]
    · rfl
  rw [List.find?_map, hkey]
  change (l.submissionOf jobId).map _ = _
  cases h : l.submissionOf jobId with
  | none => rfl
  | some r => exact congrArg some (if_pos (submissionOf_some h).2)

omit [Binary64 F] in
theorem map_finishOwn_twice_iff {g : Submission F → Submission F} (hf : ∀ r, (f r).simJobId = r.simJobId) :
    (l.submissions.map (finishOwn jobId f)).map (finishOwn jobId g) = l.submissions.map (finishOwn jobId f) ↔
      ∀ r ∈ l.submissionOf jobId, g (f r) = f r := by
  rw [List.map_map, List.map_inj_left]
  constructor
  · intro h r hr
    obtain ⟨hmem, hjob⟩ := submissionOf_some hr
    have hrow := h r hmem
    rw [Function.comp_apply, finishOwn, finishOwn, if_pos hjob, if_pos ((hf r).trans hjob)] at hrow
    exact hrow
  · intro h r hr
    rw [Function.comp_apply]
    by_cases hjob : r.simJobId = some jobId
    · have hown : ∃ s, l.submissionOf jobId = some s := by
        rw [← Option.isSome_iff_exists, Ledger.submissionOf, List.find?_isSome]
        exact ⟨r, hr, by simpa using hjob⟩
      obtain ⟨s, hs⟩ := hown
      have hrs := eq_of_submissionOf hs hr hjob
      rw [finishOwn, finishOwn, if_pos hjob, if_pos ((hf r).trans hjob), hrs]
      exact h s hs
    · rw [finishOwn, finishOwn, if_neg hjob, if_neg hjob]

end Own

/-! ## Crash recovery -/

section Recovery
variable {l : Ledger F} {jobId : String}

def recoveredRow (l : Ledger F) (jobId : String) (sameCase : Bool) : Submission F :=
  .submitted jobId l.nextSubmissionSequence (recoveredOrdinal l.obligation sameCase) (!sameCase)

omit [Binary64 F] in
theorem recoverSubmission_cases (l : Ledger F) (jobId : String) (crossed sameCase : Bool) :
    recoverSubmission l jobId crossed sameCase = l ∧
        (lostSubmission l jobId crossed = true → l.insert? (recoveredRow l jobId sameCase) = none) ∨
      lostSubmission l jobId crossed = true ∧ ∃ l', l.insert? (recoveredRow l jobId sameCase) = some l' ∧
        recoverSubmission l jobId crossed sameCase = l'.setObligation (l.obligation.recover jobId sameCase) := by
  cases hlost : lostSubmission l jobId crossed with
  | false =>
    refine .inl ⟨if_neg (by rw [hlost]; exact Bool.false_ne_true), fun h => ?_⟩
    cases h
  | true =>
    unfold recoverSubmission
    rw [if_pos hlost, ← recoveredRow]
    cases hinsert : l.insert? (recoveredRow l jobId sameCase) with
    | none => exact .inl ⟨rfl, fun _ => rfl⟩
    | some l' => exact .inr ⟨rfl, l', rfl, rfl⟩

omit [Binary64 F] in
theorem submissionOf_insert {l' : Ledger F} {r : Submission F} (h : l.insert? r = some l')
    (hjob : r.simJobId = some jobId) : (l'.submissionOf jobId).isSome = true := by
  rw [Ledger.submissionOf, List.find?_isSome, (Ledger.insert?_eq_some h).2]
  exact ⟨r, List.mem_append_right _ (List.mem_singleton_self r), by simpa using hjob⟩

omit [Binary64 F] in
theorem insert?_recoveredRow (h : l.submissionOf jobId = none) :
    ∃ l', l.insert? (recoveredRow l jobId true) = some l' := by
  have hfree : ∀ s ∈ l.submissions, s.Apart (recoveredRow l jobId true) := by
    intro s hs
    refine ⟨.inr (submissionOf_none h hs), (l.lt_nextSubmissionSequence hs).ne, ?_⟩
    exact eq_or_ne s.solverAttemptNumber none
  exact ⟨_, dif_pos hfree⟩

omit [Binary64 F] in
theorem recoverSubmission_of_isSome (h : (l.submissionOf jobId).isSome = true) (crossed sameCase : Bool) :
    recoverSubmission l jobId crossed sameCase = l := by
  have hlost : lostSubmission l jobId crossed = false := by
    rw [lostSubmission, Option.isNone_eq_false_iff.mpr h]
    rfl
  exact if_neg (by rw [hlost]; exact Bool.false_ne_true)

end Recovery

/-! ## The finished rows -/

namespace Settling

def finish (t : Settling) (j : Judgement F) (l : Ledger F) : Submission F → Submission F :=
  finishSubmission j (t.segment j l) (t.verdict j l) t.meshVersion

end Settling

section Finished
variable (t : Settling) (j : Judgement F) (l : Ledger F)

theorem finish_simJobId (r : Submission F) : (t.finish j l r).simJobId = r.simJobId := rfl

theorem settle_submissions :
    (settleLedger t j l).submissions = (t.recovered j l).submissions.map (finishOwn t.jobId (t.finish j l)) := by
  cases haccepted : j.accepted with
  | some attemptId =>
    rw [settleLedger_accepted t j l haccepted]
    rfl
  | none =>
    cases hwrites : t.writes l with
    | true =>
      rw [settleLedger_written t j l haccepted hwrites]
      rfl
    | false =>
      rw [settleLedger_left t j l haccepted hwrites]
      rfl

theorem settle_submissionOf :
    (settleLedger t j l).submissionOf t.jobId = ((t.recovered j l).submissionOf t.jobId).map (t.finish j l) := by
  rw [Ledger.submissionOf, settle_submissions]
  exact find?_map_finishOwn (finish_simJobId t j l)

omit [Binary64 F] in
theorem recovered_leasedTo {t : Settling} {j : Judgement F} {l : Ledger F}
    (h : l.obligation.leasedTo t.jobId = true) :
    (t.recovered j l).obligation.latestSimJobId = none ∨
      (t.recovered j l).obligation.latestSimJobId = some t.jobId := by
  obtain ⟨hsame, -⟩ | ⟨-, l', -, hentered⟩ := recoverSubmission_cases l t.jobId t.crossed j.source.isSome
  · rw [Settling.recovered, hsame]
    cases hlatest : l.obligation.latestSimJobId with
    | none => exact .inl rfl
    | some latest =>
      rw [Obligation.leasedTo, hlatest, Option.all_some, beq_iff_eq] at h
      exact .inr (congrArg some h)
  · rw [Settling.recovered, hentered]
    exact .inr rfl

theorem settle_lease :
    (settleLedger t j l).obligation.latestSimJobId = (t.recovered j l).obligation.latestSimJobId ∧
        (settleLedger t j l).obligation.attemptCount = (t.recovered j l).obligation.attemptCount ∨
      (j.accepted = none ∧ t.writes l = true) ∧
        (settleLedger t j l).obligation.latestSimJobId = some t.jobId ∧
        (settleLedger t j l).obligation.attemptCount = t.kept j l := by
  cases haccepted : j.accepted with
  | some attemptId =>
    rw [settleLedger_accepted t j l haccepted]
    exact .inl ⟨rfl, rfl⟩
  | none =>
    cases hwrites : t.writes l with
    | true =>
      rw [settleLedger_written t j l haccepted hwrites]
      exact .inr ⟨⟨rfl, rfl⟩, rfl, rfl⟩
    | false =>
      rw [settleLedger_left t j l haccepted hwrites]
      exact .inl ⟨rfl, rfl⟩

omit [Binary64 F] in
theorem writes_leasedTo {t : Settling} {l : Ledger F} (h : t.writes l = true) :
    l.obligation.leasedTo t.jobId = true := by
  rw [Settling.writes, Bool.and_eq_true] at h
  exact h.1

end Finished

end XFoilFoam.Precalc
