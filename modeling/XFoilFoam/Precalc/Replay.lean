import XFoilFoam.Precalc.Turn

/-! Settling the same job twice.  Nothing marks a submission as settled, so the second run derives its counters from the
rows of the first: a physical continuation segment is counted again. -/
namespace XFoilFoam.Precalc
set_option autoImplicit false

variable {F : Type} [Binary64 F]

/-! ## The rows that a second run reads -/

def Settling.later (t : Settling) (now : ℕ) : Settling := { t with now := now }

section Second
variable (t : Settling) (j : Judgement F) (l : Ledger F) (now : ℕ)

omit [Binary64 F] in
theorem recovered_of_none (h : (t.recovered j l).submissionOf t.jobId = none) : t.recovered j l = l := by
  obtain ⟨hsame, -⟩ | ⟨-, l', hinsert, hentered⟩ := recoverSubmission_cases l t.jobId t.crossed j.source.isSome
  · exact hsame
  · have hown : (l'.submissionOf t.jobId).isSome = true := submissionOf_insert hinsert rfl
    rw [Settling.recovered, hentered] at h
    have hnone : l'.submissionOf t.jobId = none := h
    rw [hnone] at hown
    cases hown

theorem settle_obligation_of_none (h : (t.recovered j l).submissionOf t.jobId = none) :
    (settleLedger t j l).obligation.attemptCount = l.obligation.attemptCount ∧
      (settleLedger t j l).obligation.maxAttempts = l.obligation.maxAttempts ∧
      (settleLedger t j l).obligation.leasedTo t.jobId = l.obligation.leasedTo t.jobId := by
  have hsame := recovered_of_none t j l h
  cases haccepted : j.accepted with
  | some attemptId =>
    rw [settleLedger_accepted t j l haccepted, Ledger.setObligation_obligation, hsame]
    exact ⟨rfl, rfl, rfl⟩
  | none =>
    cases hwrites : t.writes l with
    | true =>
      have hleased : l.obligation.leasedTo t.jobId = true := by
        rw [Settling.writes, Bool.and_eq_true] at hwrites
        exact hwrites.1
      rw [settleLedger_written t j l haccepted hwrites, Ledger.setObligation_obligation,
        settledObligation_attemptCount, settledObligation_maxAttempts]
      refine ⟨?_, rfl, ?_⟩
      · rw [Settling.kept, keptAttempts, h, hsame]
        rfl
      · rw [hleased]
        simp [Settling.settledObligation, Obligation.settle, Obligation.leasedTo]
    | false =>
      rw [settleLedger_left t j l haccepted hwrites, finished_obligation, hsame]
      exact ⟨rfl, rfl, rfl⟩

theorem recovered_settle : (t.later now).recovered j (settleLedger t j l) = settleLedger t j l := by
  change recoverSubmission (settleLedger t j l) t.jobId t.crossed j.source.isSome = _
  cases hown : (t.recovered j l).submissionOf t.jobId with
  | some r =>
    have hlost : lostSubmission (settleLedger t j l) t.jobId t.crossed = false := by
      rw [lostSubmission, settle_submissionOf, hown]
      rfl
    exact if_neg (by rw [hlost]; exact Bool.false_ne_true)
  | none =>
    have hsame := recovered_of_none t j l hown
    obtain ⟨hcount, hmax, hleased⟩ := settle_obligation_of_none t j l hown
    have hrows : (settleLedger t j l).submissions = l.submissions := by
      rw [settle_submissions, map_finishOwn_of_none hown, hsame]
    have hlost : lostSubmission (settleLedger t j l) t.jobId t.crossed = lostSubmission l t.jobId t.crossed := by
      rw [lostSubmission, lostSubmission, hleased, Ledger.submissionOf, Ledger.submissionOf, hrows]
    have hrow : recoveredRow (settleLedger t j l) t.jobId j.source.isSome =
        recoveredRow l t.jobId j.source.isSome := by
      rw [recoveredRow, recoveredRow, recoveredOrdinal, recoveredOrdinal, hcount, hmax,
        Ledger.nextSubmissionSequence, Ledger.nextSubmissionSequence, hrows]
    obtain ⟨hagain, -⟩ | ⟨hlostAgain, l', hinsert, -⟩ :=
      recoverSubmission_cases (settleLedger t j l) t.jobId t.crossed j.source.isSome
    · exact hagain
    · -- the first run was refused the same row
      obtain ⟨-, hrefused⟩ | ⟨-, l'', hfirst, hentered⟩ :=
        recoverSubmission_cases l t.jobId t.crossed j.source.isSome
      · have hnone := Ledger.insert?_eq_none_of_submissions (hrefused (hlost.symm.trans hlostAgain)) hrows
        rw [hrow, hnone] at hinsert
        cases hinsert
      · have hsome : (l''.submissionOf t.jobId).isSome = true := submissionOf_insert hfirst rfl
        rw [Settling.recovered, hentered] at hown
        have hnone : l''.submissionOf t.jobId = none := hown
        rw [hnone] at hsome
        cases hsome

theorem kept_settle :
    (t.later now).kept j (settleLedger t j l) = (settleLedger t j l).obligation.attemptCount := by
  rw [Settling.kept, recovered_settle]
  refine if_neg ?_
  change ¬((settleLedger t j l).submissionOf t.jobId).any _ = true
  rw [settle_submissionOf, Option.any_map]
  cases (t.recovered j l).submissionOf t.jobId with
  | none => exact Bool.false_ne_true
  | some r =>
    change ¬((r.consumesSolverAttempt && !(r.consumesSolverAttempt && j.releasing)) && j.releasing) = true
    cases r.consumesSolverAttempt <;> cases j.releasing <;> decide

theorem segment_settle :
    (t.later now).segment j (settleLedger t j l) =
      segmentOf j (settleLedger t j l) ((settleLedger t j l).submissionOf t.jobId) := by
  rw [Settling.segment, recovered_settle]
  rfl

theorem verdict_settle (hmax : (settleLedger t j l).obligation.maxAttempts = l.obligation.maxAttempts) :
    (t.later now).verdict j (settleLedger t j l) =
      verdict j ((t.later now).segment j (settleLedger t j l))
        (decide ((settleLedger t j l).obligation.attemptCount < l.obligation.maxAttempts)) := by
  rw [Settling.verdict, kept_settle, recovered_settle, hmax]

theorem settle_maxAttempts : (settleLedger t j l).obligation.maxAttempts = l.obligation.maxAttempts := by
  cases haccepted : j.accepted with
  | some attemptId =>
    rw [settleLedger_accepted t j l haccepted]
    exact recovered_maxAttempts t j l
  | none =>
    cases hwrites : t.writes l with
    | true =>
      rw [settleLedger_written t j l haccepted hwrites]
      exact settledObligation_maxAttempts t j l
    | false =>
      rw [settleLedger_left t j l haccepted hwrites]
      exact recovered_maxAttempts t j l

end Second

/-! ## Segments, verdicts and rows of two runs -/

section Rules
variable {j : Judgement F}

theorem segmentOf_of_physical (h : j.physicalSegment = true) (l : Ledger F) (submission : Option (Submission F)) :
    (segmentOf j l submission).number = some (l.obligation.continuationSegmentCount + 1) ∧
      (segmentOf j l submission).count = l.obligation.continuationSegmentCount + 1 := by
  rw [segmentOf, if_pos h]
  exact ⟨rfl, rfl⟩

theorem segmentOf_of_not_physical (h : j.physicalSegment = false) (l : Ledger F)
    (submission : Option (Submission F)) :
    (segmentOf j l submission).number = none ∧ (segmentOf j l submission).progressed = none ∧
      (segmentOf j l submission).count = l.obligation.continuationSegmentCount ∧
      (segmentOf j l submission).noProgress = l.obligation.continuationNoProgressCount := by
  rw [segmentOf, if_neg (by rw [h]; exact Bool.false_ne_true)]
  exact ⟨rfl, rfl, rfl, rfl⟩

theorem verdict_of_not_physical (h : j.physicalSegment = false) {s s' : Segment}
    (hprogressed : s.progressed = s'.progressed) (left : Bool) : verdict j s left = verdict j s' left := by
  have hs : ∀ s : Segment, noProgressExhausted j s = false := by
    intro s
    rw [noProgressExhausted, h]
    rfl
  have hplan : recoveryPlan j s = recoveryPlan j s' := by
    rw [recoveryPlan, recoveryPlan, policyInput, policyInput, hprogressed]
  simp only [verdict, hs, hplan]

omit [Binary64 F] in
theorem releasing_of_physical (h : j.physicalSegment = true) : j.releasing = false := by
  simp only [Judgement.physicalSegment, Bool.and_eq_true, Bool.not_eq_true'] at h
  obtain ⟨⟨⟨-, hkind⟩, hinfrastructure⟩, hdeterministic⟩ := h
  have hpermanent : j.continuationPermanent = false := by
    rw [Judgement.continuationPermanent, Option.isNone_iff_eq_none.mp hkind]
    rfl
  rw [Judgement.releasing, hpermanent, hinfrastructure, hdeterministic]
  simp

theorem finishSubmission_again_iff {s s' : Segment} {v v' : Verdict} {mesh : ℕ} (r : Submission F) :
    finishSubmission j s' v' mesh (finishSubmission j s v mesh r) = finishSubmission j s v mesh r ↔
      s'.number = s.number ∧ s'.progressed = s.progressed ∧ v'.attemptState = v.attemptState ∧
        v'.outcome = v.outcome := by
  constructor
  · intro h
    have hstate := congrArg Submission.state h
    have houtcome := congrArg Submission.outcome h
    have hnumber := congrArg Submission.continuationSegmentNumber h
    have hprogressed := congrArg Submission.continuationProgressed h
    exact ⟨hnumber, hprogressed, hstate, Option.some.inj houtcome⟩
  · rintro ⟨hnumber, hprogressed, hstate, houtcome⟩
    have hreleased : ((r.consumesSolverAttempt && !(r.consumesSolverAttempt && j.releasing)) && j.releasing) =
        false := by
      cases r.consumesSolverAttempt <;> cases j.releasing <;> rfl
    simp only [finishSubmission, hnumber, hprogressed, hstate, houtcome, hreleased, Bool.not_false,
      Bool.and_true, Bool.false_eq_true, if_false]
    congr 1
    split_ifs <;> omega

end Rules

/-! ## The measurement that a segment resumed -/

section Previous
variable {l : Ledger F} {jobId : String} {f : Submission F → Submission F}

omit [Binary64 F] in
theorem filter_map_finishOwn {p : Submission F → Bool} (rows : List (Submission F))
    (h : ∀ r ∈ rows, r.simJobId = some jobId → p r = false ∧ p (f r) = false) :
    (rows.map (finishOwn jobId f)).filter p = rows.filter p := by
  induction rows with
  | nil => rfl
  | cons r rows ih =>
    have htail := ih fun s hs => h s (List.mem_cons_of_mem r hs)
    rw [List.map_cons, List.filter_cons, List.filter_cons, htail]
    by_cases hjob : r.simJobId = some jobId
    · obtain ⟨hbefore, hafter⟩ := h r List.mem_cons_self hjob
      rw [finishOwn, if_pos hjob, hbefore, hafter, if_neg Bool.false_ne_true, if_neg Bool.false_ne_true]
    · rw [finishOwn, if_neg hjob]

theorem previousProgress_settle (t : Settling) (j : Judgement F) (l : Ledger F) :
    previousProgress j (settleLedger t j l) ((settleLedger t j l).submissionOf t.jobId) =
      previousProgress j (t.recovered j l) ((t.recovered j l).submissionOf t.jobId) := by
  rw [previousProgress, previousProgress, settle_submissionOf, settle_submissions]
  refine congrArg j.source.bind (funext fun source => ?_)
  cases hown : (t.recovered j l).submissionOf t.jobId with
  | none => rw [map_finishOwn_of_none hown, Option.map_none]
  | some s =>
    rw [Option.map_some, filter_map_finishOwn]
    · rfl
    · intro r hr hjob
      rw [eq_of_submissionOf hown hr hjob]
      have hself : decide (s.attemptNumber < s.attemptNumber) = false := decide_eq_false (lt_irrefl _)
      refine ⟨?_, ?_⟩
      · change (_ && decide (s.attemptNumber < s.attemptNumber)) = false
        rw [hself, Bool.and_false]
      · change (_ && decide (s.attemptNumber < s.attemptNumber)) = false
        rw [hself, Bool.and_false]

end Previous

/-! ## One turn, twice -/

namespace Obligation

def timeless (o : Obligation) : Obligation := { o with nextSubmitAt := o.nextSubmitAt.map fun _ => 0 }

theorem satisfy_again (o : Obligation) (attemptId : String) {s s' : Segment} (h : s'.count = s.count) :
    (o.satisfy attemptId s).satisfy attemptId s' = o.satisfy attemptId s := by
  simp only [satisfy, h]

theorem settle_again {o o' : Obligation} {jobId : String} {v : Verdict} {s s' : Segment} {count : ℕ}
    {error : Option String} {now now' : ℕ} {h : count ≤ o.maxAttempts}
    (ho : o' = o.settle jobId v s count h error now) (hcount : s'.count = s.count)
    (hnone : s'.noProgress = s.noProgress) :
    (o'.settle jobId v s' o'.attemptCount o'.attempts_le error now').timeless = o'.timeless := by
  subst ho
  have hretry : (retryAt now' v).map (fun _ => 0) = (retryAt now v).map fun _ => 0 := by
    unfold retryAt
    split
    · rw [Option.map_some, Option.map_some]
    · rfl
  simp only [timeless, settle, hcount, hnone, hretry]

end Obligation

namespace Ledger

def timeless (l : Ledger F) : Ledger F := l.setObligation l.obligation.timeless

omit [Binary64 F] in
theorem timeless_eq_iff {l m : Ledger F} :
    l.timeless = m.timeless ↔ l.obligation.timeless = m.obligation.timeless ∧ l.submissions = m.submissions := by
  constructor
  · intro h
    have hobligation := congrArg Ledger.obligation h
    have hrows := congrArg Ledger.submissions h
    exact ⟨hobligation, hrows⟩
  · rintro ⟨hobligation, hrows⟩
    obtain ⟨o, rows, hapart⟩ := l
    obtain ⟨o', rows', hapart'⟩ := m
    cases hrows
    simp only [timeless, setObligation, hobligation]

end Ledger

section Twice
variable (t : Settling) (j : Judgement F) (l : Ledger F) (now : ℕ)

def Repeats : Prop :=
  (settleLedger (t.later now) j (settleLedger t j l)).timeless = (settleLedger t j l).timeless

def RowsRepeat : Prop :=
  ∀ r ∈ (t.recovered j l).submissionOf t.jobId,
    (t.later now).finish j (settleLedger t j l) (t.finish j l r) = t.finish j l r

theorem rowsRepeat_iff :
    (settleLedger (t.later now) j (settleLedger t j l)).submissions = (settleLedger t j l).submissions ↔
      RowsRepeat t j l now := by
  rw [settle_submissions (t.later now), recovered_settle, settle_submissions t]
  exact map_finishOwn_twice_iff (finish_simJobId t j l)

theorem rowsRepeat_of {now : ℕ}
    (hnumber : ((t.later now).segment j (settleLedger t j l)).number = (t.segment j l).number)
    (hprogressed : ((t.later now).segment j (settleLedger t j l)).progressed = (t.segment j l).progressed)
    (hverdict : (t.later now).verdict j (settleLedger t j l) = t.verdict j l) : RowsRepeat t j l now := by
  intro r _
  refine (finishSubmission_again_iff r).mpr ⟨hnumber, hprogressed, ?_, ?_⟩
  · rw [hverdict]
  · rw [hverdict]

theorem not_rowsRepeat_of {now : ℕ} (hown : ((t.recovered j l).submissionOf t.jobId).isSome = true)
    (hnumber : ((t.later now).segment j (settleLedger t j l)).number ≠ (t.segment j l).number) :
    ¬RowsRepeat t j l now := by
  intro h
  obtain ⟨r, hr⟩ := Option.isSome_iff_exists.mp hown
  exact hnumber ((finishSubmission_again_iff r).mp (h r hr)).1

variable {t j l}

theorem repeats_accepted {attemptId : String} (haccepted : j.accepted = some attemptId) :
    Repeats t j l now ↔ j.physicalSegment = false := by
  have hfirst := settleLedger_accepted t j l haccepted
  have hsecond := settleLedger_accepted (t.later now) j (settleLedger t j l) haccepted
  have hcount : (settleLedger t j l).obligation.continuationSegmentCount = (t.segment j l).count := by
    rw [hfirst]
    rfl
  constructor
  · intro h
    by_contra hphysical
    rw [Bool.not_eq_false] at hphysical
    have hagain := congrArg Obligation.continuationSegmentCount (Ledger.timeless_eq_iff.mp h).1
    rw [hsecond] at hagain
    change ((t.later now).segment j (settleLedger t j l)).count =
      (settleLedger t j l).obligation.continuationSegmentCount at hagain
    rw [segment_settle, (segmentOf_of_physical hphysical _ _).2] at hagain
    omega
  · intro hphysical
    obtain ⟨hnumber', hprogressed', hcount', -⟩ :=
      segmentOf_of_not_physical hphysical (settleLedger t j l) ((settleLedger t j l).submissionOf t.jobId)
    obtain ⟨hnumber, hprogressed, -, -⟩ :=
      segmentOf_of_not_physical hphysical (t.recovered j l) ((t.recovered j l).submissionOf t.jobId)
    rw [← segment_settle t j l now] at hnumber' hprogressed' hcount'
    have hverdict : (t.later now).verdict j (settleLedger t j l) = t.verdict j l := by
      simp only [Settling.verdict, verdict, haccepted, Option.isSome_some, if_true]
    have hfirst' : (settleLedger t j l).obligation =
        (t.recovered j l).obligation.satisfy attemptId (t.segment j l) := by
      rw [hfirst, Ledger.setObligation_obligation]
    have hsecond' : (settleLedger (t.later now) j (settleLedger t j l)).obligation =
        (settleLedger t j l).obligation.satisfy attemptId ((t.later now).segment j (settleLedger t j l)) := by
      rw [hsecond, recovered_settle, Ledger.setObligation_obligation]
    refine Ledger.timeless_eq_iff.mpr ⟨?_, (rowsRepeat_iff t j l now).mpr
      (rowsRepeat_of t j l (hnumber'.trans hnumber.symm) (hprogressed'.trans hprogressed.symm) hverdict)⟩
    rw [hsecond', hfirst', Obligation.satisfy_again _ _ (hcount'.trans hcount), ← hfirst']

theorem verdict_state (haccepted : j.accepted = none) (s : Segment) (left : Bool) :
    (verdict j s left).state =
      if !j.live then .cancelled
      else if j.continuationPermanent then retryOr left
      else if noProgressExhausted j s then .blocked
      else if j.infrastructure then .pending
      else if j.deterministic then .blocked
      else if j.cancellation = some .explicit then retryOr left
      else if (recoveryPlan j s).action = .repairMedia then .blocked
      else retryOr ((decide ((recoveryPlan j s).action = .continueExactCase) && j.restartable) ||
        ((recoveryPlan j s).consumesSolverAttempt && left)) := by
  simp only [verdict, haccepted, Option.isSome_none, Bool.false_eq_true, if_false, apply_ite Verdict.state]

theorem verdict_closed (haccepted : j.accepted = none) (s : Segment) (left : Bool) :
    (verdict j s left).state = .pending ∨ (verdict j s left).state = .blocked ∨
      (verdict j s left).state = .cancelled := by
  have hretry : ∀ b, retryOr b = .pending ∨ retryOr b = .blocked ∨ retryOr b = .cancelled := by
    intro b
    cases b
    · exact .inr (.inl rfl)
    · exact .inl rfl
  rw [verdict_state haccepted]
  split_ifs
  · exact .inr (.inr rfl)
  · exact hretry _
  · exact .inr (.inl rfl)
  · exact .inl rfl
  · exact .inr (.inl rfl)
  · exact hretry _
  · exact .inr (.inl rfl)
  · exact hretry _

theorem writes_written (haccepted : j.accepted = none) (hwrites : t.writes l = true) :
    (t.later now).writes (settleLedger t j l) = decide ((t.verdict j l).state = .pending) := by
  have hleased : (t.settledObligation j l).leasedTo t.jobId = true := by
    simp [Settling.settledObligation, Obligation.settle, Obligation.leasedTo]
  rw [settleLedger_written t j l haccepted hwrites]
  change ((t.settledObligation j l).leasedTo t.jobId && !(t.settledObligation j l).closed) = _
  rw [hleased, Bool.true_and, Obligation.closed, settledObligation_state]
  obtain hstate | hstate | hstate := verdict_closed (j := j) haccepted (t.segment j l)
    (decide (t.kept j l < (t.recovered j l).obligation.maxAttempts))
  all_goals
    change (t.verdict j l).state = _ at hstate
    rw [hstate]
    rfl

theorem settledObligation_later :
    (t.later now).settledObligation j (settleLedger t j l) =
      (settleLedger t j l).obligation.settle t.jobId ((t.later now).verdict j (settleLedger t j l))
        ((t.later now).segment j (settleLedger t j l)) (settleLedger t j l).obligation.attemptCount
        (settleLedger t j l).obligation.attempts_le j.error now := by
  simp only [Settling.settledObligation, recovered_settle, kept_settle]
  rfl

theorem repeats_written_of_not_physical (haccepted : j.accepted = none) (hwrites : t.writes l = true)
    (hphysical : j.physicalSegment = false) : Repeats t j l now := by
  have hfirst : (settleLedger t j l).obligation = t.settledObligation j l := by
    rw [settleLedger_written t j l haccepted hwrites, Ledger.setObligation_obligation]
  obtain ⟨hnumber', hprogressed', hcount', hnone'⟩ :=
    segmentOf_of_not_physical hphysical (settleLedger t j l) ((settleLedger t j l).submissionOf t.jobId)
  obtain ⟨hnumber, hprogressed, -, -⟩ :=
    segmentOf_of_not_physical hphysical (t.recovered j l) ((t.recovered j l).submissionOf t.jobId)
  rw [← segment_settle t j l now] at hnumber' hprogressed' hcount' hnone'
  have hverdict : (t.later now).verdict j (settleLedger t j l) = t.verdict j l := by
    rw [verdict_settle t j l now (settle_maxAttempts t j l), hfirst, settledObligation_attemptCount,
      Settling.verdict, recovered_maxAttempts]
    exact verdict_of_not_physical hphysical (hprogressed'.trans hprogressed.symm) _
  refine Ledger.timeless_eq_iff.mpr ⟨?_, (rowsRepeat_iff t j l now).mpr
    (rowsRepeat_of t j l (hnumber'.trans hnumber.symm) (hprogressed'.trans hprogressed.symm) hverdict)⟩
  cases hagain : (t.later now).writes (settleLedger t j l) with
  | true =>
    rw [settleLedger_written (t.later now) j _ haccepted hagain, Ledger.setObligation_obligation,
      settledObligation_later, hverdict]
    refine Obligation.settle_again hfirst (hcount'.trans ?_) (hnone'.trans ?_)
    · rw [hfirst]
      rfl
    · rw [hfirst]
      rfl
  | false => rw [settleLedger_left (t.later now) j _ haccepted hagain, finished_obligation, recovered_settle]

theorem number_written (haccepted : j.accepted = none) (hwrites : t.writes l = true)
    (hphysical : j.physicalSegment = true) :
    ((t.later now).segment j (settleLedger t j l)).number = some ((t.segment j l).count + 1) ∧
      ((t.later now).segment j (settleLedger t j l)).count = (t.segment j l).count + 1 ∧
      (t.segment j l).number = some (t.segment j l).count := by
  have hcount : (settleLedger t j l).obligation.continuationSegmentCount = (t.segment j l).count := by
    rw [settleLedger_written t j l haccepted hwrites]
    rfl
  obtain ⟨hnumber', hcount'⟩ :=
    segmentOf_of_physical hphysical (settleLedger t j l) ((settleLedger t j l).submissionOf t.jobId)
  obtain ⟨hnumber, hcountFirst⟩ :=
    segmentOf_of_physical hphysical (t.recovered j l) ((t.recovered j l).submissionOf t.jobId)
  rw [segment_settle, hnumber', hcount', hcount]
  refine ⟨rfl, rfl, ?_⟩
  rw [Settling.segment, hnumber, hcountFirst]

theorem repeats_written_physical (haccepted : j.accepted = none) (hwrites : t.writes l = true)
    (hphysical : j.physicalSegment = true) :
    Repeats t j l now ↔
      (t.recovered j l).submissionOf t.jobId = none ∧ (t.verdict j l).state ≠ .pending := by
  obtain ⟨hnumber', hcount', hnumber⟩ := number_written now haccepted hwrites hphysical
  have hagain := writes_written now haccepted hwrites
  constructor
  · intro h
    obtain ⟨hobligation, hrows⟩ := Ledger.timeless_eq_iff.mp h
    refine ⟨?_, ?_⟩
    · by_contra hown
      have hsome : ((t.recovered j l).submissionOf t.jobId).isSome = true :=
        Option.isSome_iff_ne_none.mpr hown
      refine not_rowsRepeat_of t j l hsome ?_ ((rowsRepeat_iff t j l now).mp hrows)
      rw [hnumber', hnumber]
      simp
    · intro hpending
      rw [hpending, decide_eq_true rfl] at hagain
      have hcount := congrArg Obligation.continuationSegmentCount hobligation
      have hfirst : (settleLedger t j l).obligation = t.settledObligation j l := by
        rw [settleLedger_written t j l haccepted hwrites, Ledger.setObligation_obligation]
      rw [settleLedger_written (t.later now) j _ haccepted hagain, Ledger.setObligation_obligation,
        hfirst] at hcount
      change ((t.later now).segment j (settleLedger t j l)).count = (t.segment j l).count at hcount
      omega
  · rintro ⟨hown, hclosed⟩
    rw [decide_eq_false hclosed] at hagain
    refine Ledger.timeless_eq_iff.mpr ⟨?_, (rowsRepeat_iff t j l now).mpr ?_⟩
    · rw [settleLedger_left (t.later now) j _ haccepted hagain, finished_obligation, recovered_settle]
    · intro r hr
      rw [hown] at hr
      cases hr

theorem writes_left (haccepted : j.accepted = none) (hwrites : t.writes l = false) :
    (t.later now).writes (settleLedger t j l) = false := by
  rw [settleLedger_left t j l haccepted hwrites]
  change ((t.recovered j l).obligation.leasedTo t.jobId && !(t.recovered j l).obligation.closed) = false
  have hclosed : (t.recovered j l).obligation.closed = l.obligation.closed := by
    rw [Obligation.closed, Obligation.closed, recovered_state]
  obtain ⟨hsame, -⟩ | ⟨hlost, -⟩ := recoverSubmission_cases l t.jobId t.crossed j.source.isSome
  · rw [Settling.recovered, hsame]
    exact hwrites
  · -- crash recovery needs the lease, so it is the state that closed the obligation
    rw [lostSubmission, Bool.and_eq_true, Bool.and_eq_true] at hlost
    rw [Settling.writes, hlost.1.2, Bool.true_and] at hwrites
    rw [hclosed, hwrites, Bool.and_false]

theorem segment_left (haccepted : j.accepted = none) (hwrites : t.writes l = false) :
    (t.later now).segment j (settleLedger t j l) = t.segment j l := by
  have hobligation : (settleLedger t j l).obligation = (t.recovered j l).obligation := by
    rw [settleLedger_left t j l haccepted hwrites, finished_obligation]
  rw [segment_settle, Settling.segment, segmentOf, segmentOf]
  simp only [previousProgress_settle, hobligation]

theorem verdict_of_releasing (hreleasing : j.releasing = true)
    (hfresh : ¬(j.live = true ∧ j.continuationPermanent = true)) (s : Segment) (left left' : Bool) :
    verdict j s left = verdict j s left' := by
  have hphysical : j.physicalSegment = false := by
    by_contra hphysical
    rw [Bool.not_eq_false] at hphysical
    rw [releasing_of_physical hphysical] at hreleasing
    cases hreleasing
  have hexhausted : noProgressExhausted j s = false := by
    rw [noProgressExhausted, hphysical]
    rfl
  simp only [Judgement.releasing, Bool.and_eq_true, Bool.or_eq_true] at hreleasing
  cases hlive : j.live with
  | false => simp only [verdict, hlive, Bool.not_false, if_true]
  | true =>
    have hpermanent : j.continuationPermanent = false :=
      Bool.eq_false_of_not_eq_true fun h => hfresh ⟨hlive, h⟩
    have htyped : j.infrastructure = true ∨ j.deterministic = true := by
      rw [hpermanent] at hreleasing
      simpa using hreleasing.2
    obtain hinfrastructure | hdeterministic := htyped
    · simp only [verdict, hpermanent, hexhausted, hinfrastructure, Bool.false_eq_true, if_false, if_true]
    · simp only [verdict, hpermanent, hexhausted, hdeterministic, Bool.false_eq_true, if_false, if_true]

theorem outcome_of_permanent (haccepted : j.accepted = none) (hlive : j.live = true)
    (hpermanent : j.continuationPermanent = true) (s : Segment) :
    (verdict j s false).outcome ≠ (verdict j s true).outcome := by
  simp [verdict, haccepted, hlive, hpermanent]

theorem repeats_left (haccepted : j.accepted = none) (hwrites : t.writes l = false) :
    Repeats t j l now ↔
      ¬(((t.recovered j l).submissionOf t.jobId).any (fun r => r.consumesSolverAttempt && j.releasing) = true ∧
        j.live = true ∧ j.continuationPermanent = true ∧ (t.recovered j l).obligation.exhausted = true) := by
  have hobligation : (settleLedger t j l).obligation = (t.recovered j l).obligation := by
    rw [settleLedger_left t j l haccepted hwrites, finished_obligation]
  have hrows : Repeats t j l now ↔ RowsRepeat t j l now := by
    rw [Repeats, Ledger.timeless_eq_iff, rowsRepeat_iff]
    refine and_iff_right ?_
    rw [settleLedger_left (t.later now) j _ haccepted (writes_left now haccepted hwrites), finished_obligation,
      recovered_settle]
  have hsegment := segment_left now haccepted hwrites
  have hsecond : (t.later now).verdict j (settleLedger t j l) =
      verdict j (t.segment j l) (!(t.recovered j l).obligation.exhausted) := by
    rw [verdict_settle t j l now (settle_maxAttempts t j l), hsegment, hobligation, Obligation.exhausted,
      recovered_maxAttempts, ← decide_not]
    simp only [not_le]
  rw [hrows]
  by_cases hreleased : ((t.recovered j l).submissionOf t.jobId).any
      (fun r => r.consumesSolverAttempt && j.releasing) = true
  · have hfirst : t.verdict j l = verdict j (t.segment j l) true := by
      have hleft : t.kept j l < (t.recovered j l).obligation.maxAttempts := by
        have hle := (t.recovered j l).obligation.attempts_le
        rw [Settling.kept, keptAttempts, if_pos hreleased, Obligation.maxAttempts]
        omega
      rw [Settling.verdict, decide_eq_true hleft]
    obtain ⟨r, hr, hr'⟩ := (Option.any_eq_true _ _).mp hreleased
    rw [Bool.and_eq_true] at hr'
    rw [and_iff_right hreleased]
    by_cases hfresh : j.live = true ∧ j.continuationPermanent = true
    · obtain ⟨hlive, hpermanent⟩ := hfresh
      rw [and_iff_right hlive, and_iff_right hpermanent]
      constructor
      · intro h hexhausted
        obtain ⟨-, -, -, houtcome⟩ := (finishSubmission_again_iff r).mp (h r hr)
        rw [hsecond, hfirst, hexhausted] at houtcome
        exact outcome_of_permanent haccepted hlive hpermanent _ houtcome
      · intro hleft
        rw [Bool.not_eq_true] at hleft
        refine rowsRepeat_of t j l (by rw [hsegment]) (by rw [hsegment]) ?_
        rw [hsecond, hfirst, hleft]
        rfl
    · refine iff_of_true (rowsRepeat_of t j l (by rw [hsegment]) (by rw [hsegment]) ?_) ?_
      · rw [hsecond, hfirst]
        exact verdict_of_releasing hr'.2 hfresh _ _ _
      · rintro ⟨hlive, hpermanent, -⟩
        exact hfresh ⟨hlive, hpermanent⟩
  · refine iff_of_true (rowsRepeat_of t j l (by rw [hsegment]) (by rw [hsegment]) ?_)
      (fun h => hreleased h.1)
    rw [hsecond, Settling.verdict, Settling.kept, keptAttempts, if_neg hreleased, Obligation.exhausted, ← decide_not]
    simp only [not_le]

end Twice

/-! ## When a turn repeats -/

def staysOpen (j : Judgement F) (l : Ledger F) : Bool :=
  let segment := segmentOf j l none
  let plan := recoveryPlan j segment
  j.live && !noProgressExhausted j segment &&
    if j.cancellation = some .explicit then !l.obligation.exhausted
    else decide (plan.action ≠ .repairMedia) &&
      ((decide (plan.action = .continueExactCase) && j.restartable) ||
        (plan.consumesSolverAttempt && !l.obligation.exhausted))

def Readvances (t : Settling) (j : Judgement F) (l : Ledger F) : Prop :=
  j.physicalSegment = true ∧ (j.accepted.isSome = true ∨ t.writes l = true ∧
    ((l.submissionOf t.jobId).isSome = true ∨ t.crossed = true ∨ staysOpen j l = true))

/-- The second run counts the attempt that the first released on the row alone. -/
def ForgetsRelease (t : Settling) (j : Judgement F) (l : Ledger F) : Prop :=
  j.accepted = none ∧ j.live = true ∧ j.continuationPermanent = true ∧ t.writes l = false ∧
    (l.submissionOf t.jobId).any Submission.consumesSolverAttempt = true ∧ l.obligation.exhausted = true

section When
variable {t : Settling} {j : Judgement F} {l : Ledger F} {now : ℕ}

omit [Binary64 F] in
theorem source_of_physical (h : j.physicalSegment = true) : j.source.isSome = true := by
  simp only [Judgement.physicalSegment, Bool.and_eq_true] at h
  exact h.1.1.1.1

omit [Binary64 F] in
theorem entered_iff (hsource : j.source.isSome = true) (hleased : l.obligation.leasedTo t.jobId = true) :
    ((t.recovered j l).submissionOf t.jobId).isSome = true ↔
      (l.submissionOf t.jobId).isSome = true ∨ t.crossed = true := by
  cases hown : (l.submissionOf t.jobId).isSome with
  | true =>
    rw [Settling.recovered, recoverSubmission_of_isSome hown, hown]
    exact iff_of_true rfl (.inl rfl)
  | false =>
    have hnone : l.submissionOf t.jobId = none := by simpa using hown
    obtain ⟨l', hinsert⟩ := insert?_recoveredRow hnone
    have hlost : lostSubmission l t.jobId t.crossed = t.crossed := by
      rw [lostSubmission, hnone, hleased]
      rfl
    rw [Settling.recovered, hsource]
    obtain ⟨hsame, hrefused⟩ | ⟨hcrossed, l'', hinsert', hentered⟩ :=
      recoverSubmission_cases l t.jobId t.crossed true
    · have hcrossed : t.crossed ≠ true := by
        intro hcrossed
        rw [hrefused (hlost.trans hcrossed)] at hinsert
        cases hinsert
      rw [hsame, hown]
      exact iff_of_false Bool.false_ne_true (fun h => h.elim (fun h => Bool.false_ne_true h) hcrossed)
    · rw [hentered]
      have hsome : (l''.submissionOf t.jobId).isSome = true := submissionOf_insert hinsert' rfl
      exact iff_of_true hsome (.inr (hlost.symm.trans hcrossed))

theorem verdict_pending_iff (haccepted : j.accepted = none) (hphysical : j.physicalSegment = true) :
    (verdict j (segmentOf j l none) (!l.obligation.exhausted)).state = .pending ↔ staysOpen j l = true := by
  simp only [Judgement.physicalSegment, Bool.and_eq_true, Bool.not_eq_true'] at hphysical
  obtain ⟨⟨⟨-, hkind⟩, hinfrastructure⟩, hdeterministic⟩ := hphysical
  have hpermanent : j.continuationPermanent = false := by
    rw [Judgement.continuationPermanent, Option.isNone_iff_eq_none.mp hkind]
    rfl
  have hretry : ∀ b, retryOr b = .pending ↔ b = true := by
    intro b
    cases b <;> simp [retryOr]
  rw [verdict_state haccepted, staysOpen]
  simp only [hpermanent, hinfrastructure, hdeterministic, Bool.false_eq_true, if_false]
  cases hlive : j.live with
  | false => simp
  | true =>
    cases hexhausted : noProgressExhausted j (segmentOf j l none) with
    | true => simp
    | false =>
      by_cases hexplicit : j.cancellation = some .explicit
      · simp [hexplicit, hretry]
      · by_cases hmedia : (recoveryPlan j (segmentOf j l none)).action = .repairMedia
        · simp [hexplicit, hmedia]
        · simp [hexplicit, hmedia, hretry]

theorem verdict_of_none (h : (t.recovered j l).submissionOf t.jobId = none) :
    t.verdict j l = verdict j (segmentOf j l none) (!l.obligation.exhausted) := by
  have hsame := recovered_of_none t j l h
  have hown : l.submissionOf t.jobId = none := by
    rw [← hsame]
    exact h
  rw [Settling.verdict, Settling.segment, Settling.kept, keptAttempts, hsame, hown, Obligation.exhausted,
    ← decide_not]
  simp only [Option.any_none, Bool.false_eq_true, if_false, not_le]

omit [Binary64 F] in
theorem releases_iff (hsource : j.source.isSome = true) :
    ((t.recovered j l).submissionOf t.jobId).any Submission.consumesSolverAttempt = true ∧
        (t.recovered j l).obligation.exhausted = true ↔
      (l.submissionOf t.jobId).any Submission.consumesSolverAttempt = true ∧ l.obligation.exhausted = true := by
  cases hown : (l.submissionOf t.jobId).isSome with
  | true => rw [Settling.recovered, recoverSubmission_of_isSome hown]
  | false =>
    have hnone : l.submissionOf t.jobId = none := by simpa using hown
    obtain ⟨hsame, -⟩ | ⟨-, l', hinsert, hentered⟩ := recoverSubmission_cases l t.jobId t.crossed j.source.isSome
    · rw [Settling.recovered, hsame]
    · have hrow : (t.recovered j l).submissionOf t.jobId = some (recoveredRow l t.jobId true) := by
        have hrows : (t.recovered j l).submissions = l.submissions ++ [recoveredRow l t.jobId true] := by
          rw [Settling.recovered, hentered, ← hsource]
          exact (Ledger.insert?_eq_some hinsert).2
        have hlast : [recoveredRow l t.jobId true].find? (fun r => r.simJobId == some t.jobId) =
            some (recoveredRow l t.jobId true) := List.find?_cons_of_pos (by simp [recoveredRow, Submission.submitted])
        rw [Ledger.submissionOf, hrows, List.find?_append, show l.submissions.find? _ = none from hnone, hlast]
        rfl
      rw [hrow, hnone]
      exact iff_of_false (fun h => Bool.false_ne_true h.1) (fun h => Bool.false_ne_true h.1)

theorem repeats_iff : Repeats t j l now ↔ ¬(Readvances t j l ∨ ForgetsRelease t j l) := by
  cases haccepted : j.accepted with
  | some attemptId =>
    rw [repeats_accepted now haccepted, Readvances, ForgetsRelease, haccepted]
    simp
  | none =>
    cases hwrites : t.writes l with
    | true =>
      have hforgets : ¬ForgetsRelease t j l := by
        rintro ⟨-, -, -, hleft, -⟩
        rw [hwrites] at hleft
        cases hleft
      have hleased : l.obligation.leasedTo t.jobId = true := by
        rw [Settling.writes, Bool.and_eq_true] at hwrites
        exact hwrites.1
      rw [or_iff_left hforgets]
      cases hphysical : j.physicalSegment with
      | false =>
        refine iff_of_true (repeats_written_of_not_physical now haccepted hwrites hphysical) ?_
        rintro ⟨h, -⟩
        rw [hphysical] at h
        cases h
      | true =>
        have hentered := entered_iff (source_of_physical hphysical) hleased
        rw [repeats_written_physical now haccepted hwrites hphysical, Readvances, haccepted, and_iff_right hphysical,
          and_iff_right hwrites, ← or_assoc (c := staysOpen j l = true), ← hentered]
        cases hown : (t.recovered j l).submissionOf t.jobId with
        | some r =>
          refine iff_of_false (fun h => ?_) (fun h => h (.inr (.inl rfl)))
          cases h.1
        | none =>
          rw [verdict_of_none hown, ne_eq, verdict_pending_iff haccepted hphysical]
          simp
    | false =>
      have hreadvances : ¬Readvances t j l := by
        rintro ⟨-, h | ⟨h, -⟩⟩
        · rw [haccepted] at h
          cases h
        · rw [hwrites] at h
          cases h
      rw [or_iff_right hreadvances, repeats_left now haccepted hwrites, not_iff_not, ForgetsRelease,
        and_iff_right haccepted, and_iff_right hwrites]
      by_cases hpermanent : j.continuationPermanent = true
      · have hreleasing : j.releasing = true := by
          rw [Judgement.releasing, haccepted, hpermanent]
          rfl
        have hsource : j.source.isSome = true := by
          refine Option.isSome_iff_ne_none.mpr fun hnone => ?_
          rw [Judgement.continuationPermanent, j.kindOfSource hnone] at hpermanent
          cases hpermanent
        have hreleases := releases_iff (t := t) (l := l) hsource
        simp only [hreleasing, Bool.and_true, hpermanent, true_and]
        tauto
      · exact iff_of_false (fun h => hpermanent h.2.2.1) (fun h => hpermanent h.2.1)

end When

/-! ## The settlement, twice -/

section Settlement
variable (w : World F) (jobId : String) (job : SimJob F) (opts : SettlementOptions)

theorem settle_cell (t : Settling) (j : Judgement F) (l : Ledger F) :
    (settleLedger t j l).obligation.airfoilId = l.obligation.airfoilId ∧
      (settleLedger t j l).obligation.revisionId = l.obligation.revisionId ∧
      (settleLedger t j l).obligation.aoaDeg = l.obligation.aoaDeg := by
  have hrecovered : (t.recovered j l).obligation.airfoilId = l.obligation.airfoilId ∧
      (t.recovered j l).obligation.revisionId = l.obligation.revisionId ∧
      (t.recovered j l).obligation.aoaDeg = l.obligation.aoaDeg := by
    obtain ⟨hsame, -⟩ | ⟨-, l', -, hentered⟩ := recoverSubmission_cases l t.jobId t.crossed j.source.isSome
    · rw [Settling.recovered, hsame]
      exact ⟨rfl, rfl, rfl⟩
    · rw [Settling.recovered, hentered]
      exact ⟨rfl, rfl, rfl⟩
  cases haccepted : j.accepted with
  | some attemptId =>
    rw [settleLedger_accepted t j l haccepted]
    exact hrecovered
  | none =>
    cases hwrites : t.writes l with
    | true =>
      rw [settleLedger_written t j l haccepted hwrites]
      exact hrecovered
    | false =>
      rw [settleLedger_left t j l haccepted hwrites]
      exact hrecovered

theorem judge_congr {o o' : Obligation} (hairfoil : o'.airfoilId = o.airfoilId)
    (hrevision : o'.revisionId = o.revisionId) (haoa : o'.aoaDeg = o.aoaDeg) (id : String)
    (source : Option (String × JsValue F)) :
    judge w jobId job opts id o' source = judge w jobId job opts id o source := by
  have hevidence : evidenceOf w jobId o' = evidenceOf w jobId o := by
    simp only [evidenceOf, hairfoil, hrevision, haoa]
  have hacceptable : acceptable w o' = acceptable w o := by
    funext a
    simp only [acceptable, acceptedTargetCellCompatible, hrevision]
  simp only [judge, hevidence, hacceptable]

theorem continuationSource_map {f : String → Ledger F → Ledger F}
    (haoa : ∀ id l, (f id l).obligation.aoaDeg = l.obligation.aoaDeg) (listed : List (String × Ledger F)) :
    continuationSource w job (listed.map fun row => (row.1, f row.1 row.2)) = continuationSource w job listed := by
  unfold continuationSource
  rcases continuationPair job.requestPayload (precalcObligationIds job.requestPayload).length with
    _ | ⟨resultId, attemptId⟩
  · rfl
  · rcases listed with _ | ⟨⟨id, l⟩, _ | ⟨row, rows⟩⟩
    · rfl
    · rcases job.bcIds.filter (fun id => id != "") with _ | ⟨boundary, _ | ⟨other, others⟩⟩
      · rfl
      · rcases job.solverImplementationId with _ | implementation
        · rfl
        · rcases job.simulationPresetRevisionId with _ | revisionId
          · rfl
          · simp only [List.map_cons, List.map_nil, haoa]
      · rfl
    · rfl

def turn (now : ℕ) (obligations : Table String (Ledger F)) (id : String) (l : Ledger F) : Ledger F :=
  if (precalcObligationIds job.requestPayload).contains id && ofJobCell job l.obligation then
    settleLedger (settlingOf jobId job now) (judgementOf w jobId job opts obligations id l) l
  else l

theorem settle_eq_map_turn (now : ℕ) (obligations : Table String (Ledger F)) :
    settlePrecalcObligationsForJob w jobId job opts now obligations =
      obligations.map (turn w jobId job opts now obligations) := rfl

theorem turn_cell (now : ℕ) (obligations : Table String (Ledger F)) (id : String) (l : Ledger F) :
    (turn w jobId job opts now obligations id l).obligation.airfoilId = l.obligation.airfoilId ∧
      (turn w jobId job opts now obligations id l).obligation.revisionId = l.obligation.revisionId ∧
      (turn w jobId job opts now obligations id l).obligation.aoaDeg = l.obligation.aoaDeg := by
  unfold turn
  split
  · exact settle_cell _ _ l
  · exact ⟨rfl, rfl, rfl⟩

theorem judgementOf_settled (now : ℕ) (obligations : Table String (Ledger F)) (id : String) (l : Ledger F) :
    judgementOf w jobId job opts (settlePrecalcObligationsForJob w jobId job opts now obligations) id
        (turn w jobId job opts now obligations id l) =
      judgementOf w jobId job opts obligations id l := by
  obtain ⟨hairfoil, hrevision, haoa⟩ := turn_cell w jobId job opts now obligations id l
  have hlisted : listedObligations (settlePrecalcObligationsForJob w jobId job opts now obligations)
      (precalcObligationIds job.requestPayload) =
        (listedObligations obligations (precalcObligationIds job.requestPayload)).map fun row =>
          (row.1, turn w jobId job opts now obligations row.1 row.2) := by
    rw [settle_eq_map_turn, listedObligations, listedObligations, Table.map, List.filter_map]
    rfl
  rw [judgementOf, judgementOf, hlisted,
    continuationSource_map w job fun id l => (turn_cell w jobId job opts now obligations id l).2.2]
  exact judge_congr w jobId job opts hairfoil hrevision haoa id _

/-- A second settlement with unchanged evidence and ownership leaves all rows as the first left them, the clock apart,
exactly when the job lists no obligation of its cell whose segment would be counted again or whose release would be
forgotten. -/
theorem settlement_idempotent_iff (now now' : ℕ) (obligations : Table String (Ledger F)) :
    ((settlePrecalcObligationsForJob w jobId job opts now'
        (settlePrecalcObligationsForJob w jobId job opts now obligations)).map fun _ l => l.timeless) =
        ((settlePrecalcObligationsForJob w jobId job opts now obligations).map fun _ l => l.timeless) ↔
      ∀ id l, obligations.find? id = some l →
        ((precalcObligationIds job.requestPayload).contains id && ofJobCell job l.obligation) = true →
          ¬(Readvances (settlingOf jobId job now) (judgementOf w jobId job opts obligations id l) l ∨
            ForgetsRelease (settlingOf jobId job now) (judgementOf w jobId job opts obligations id l) l) := by
  rw [settle_eq_map_turn w jobId job opts now' (settlePrecalcObligationsForJob w jobId job opts now obligations),
    settle_eq_map_turn w jobId job opts now obligations, Table.map_map, Table.map_map, Table.map_map,
    Table.map_eq_map_iff, ← settle_eq_map_turn w jobId job opts now obligations]
  refine forall_congr' fun id => forall_congr' fun l => imp_congr_right fun _ => ?_
  obtain ⟨hairfoil, hrevision, -⟩ := turn_cell w jobId job opts now obligations id l
  have hcell : ofJobCell job (turn w jobId job opts now obligations id l).obligation = ofJobCell job l.obligation := by
    rw [ofJobCell, ofJobCell, hairfoil, hrevision]
  by_cases hlisted : ((precalcObligationIds job.requestPayload).contains id && ofJobCell job l.obligation) = true
  · have hfirst : turn w jobId job opts now obligations id l =
        settleLedger (settlingOf jobId job now) (judgementOf w jobId job opts obligations id l) l := if_pos hlisted
    have hsecond : turn w jobId job opts now' (settlePrecalcObligationsForJob w jobId job opts now obligations) id
        (turn w jobId job opts now obligations id l) =
          settleLedger ((settlingOf jobId job now).later now') (judgementOf w jobId job opts obligations id l)
            (turn w jobId job opts now obligations id l) := by
      rw [turn, hcell, if_pos hlisted, judgementOf_settled]
      rfl
    rw [hsecond, hfirst, imp_iff_right hlisted]
    exact repeats_iff
  · have hsecond : turn w jobId job opts now' (settlePrecalcObligationsForJob w jobId job opts now obligations) id
        (turn w jobId job opts now obligations id l) = turn w jobId job opts now obligations id l := by
      rw [turn, hcell, if_neg hlisted]
    exact iff_of_true (congrArg Ledger.timeless hsecond) fun h => absurd h hlisted

end Settlement

def resumedLedger : Ledger ExactNum where
  obligation := { freshObligation with
    state := .running
    attemptCount := 1
    latestSimJobId := some "second"
    attempts_le := oneAttempt_le }
  submissions :=
    [{ Submission.submitted "first" 1 (some 1) true with state := .rejected, resultAttemptId := some "saved" },
      .submitted "second" 2 none false]
  apart := by decide

def resumedTable : Table String (Ledger ExactNum) := ⟨[("obligation", resumedLedger)], List.nodup_singleton _⟩

def continuationCounters (obligations : Table String (Ledger ExactNum)) : Option (ObligationState × ℕ × ℕ) :=
  (obligations.find? "obligation").map fun l =>
    (l.obligation.state, l.obligation.continuationSegmentCount, l.obligation.continuationNoProgressCount)

/-- A replayed settlement counts the one segment twice, and its second count ends the trajectory. -/
theorem replayed_segment_blocks :
    continuationCounters (settlePrecalcObligationsForJob savedWorld "second" resumeJob noOptions 0 resumedTable) =
        some (.pending, 1, 1) ∧
      continuationCounters (settlePrecalcObligationsForJob savedWorld "second" resumeJob noOptions 0
        (settlePrecalcObligationsForJob savedWorld "second" resumeJob noOptions 0 resumedTable)) =
          some (.blocked, 2, 2) := by
  decide +kernel

end XFoilFoam.Precalc
