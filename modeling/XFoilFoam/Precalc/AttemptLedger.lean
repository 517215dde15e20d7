import XFoilFoam.Precalc.Actions
import XFoilFoam.Precalc.Turn

/-! The attempts of an obligation along a run.  The rows that consume an attempt carry the ordinals `1, 2, …` in the
order of their insertion and `attempt_count` is how many they are, as long as no release is written to the row alone. -/
namespace XFoilFoam.Precalc
set_option autoImplicit false

variable {F : Type} [Binary64 F]

/-! ## Ordinals -/

section Ordinals
variable {α : Type}

theorem filter_le_ordinals {key : α → ℕ} {rows : List α} (h : rows.Pairwise fun r s => key r < key s) (n : ℕ) :
    rows.filter (fun r => decide (key r ≤ n)) <+: rows := by
  induction rows with
  | nil => exact List.prefix_rfl
  | cons r rows ih =>
    rw [List.pairwise_cons] at h
    by_cases hr : key r ≤ n
    · rw [List.filter_cons_of_pos (by simpa using hr), List.prefix_cons_inj]
      exact ih h.2
    · have hnone : (r :: rows).filter (fun r => decide (key r ≤ n)) = [] := by
        rw [List.filter_eq_nil_iff]
        intro s hs
        obtain rfl | hs := List.mem_cons.mp hs
        · simpa using hr
        · have hlt := h.1 s hs
          simp only [decide_eq_true_eq]
          omega
      rw [hnone]
      exact List.nil_prefix

theorem ordinals_of_prefix {ns : List (Option ℕ)} {n : ℕ} (h : ns <+: (List.range' 1 n).map some) :
    ns = (List.range' 1 ns.length).map some := by
  have hle : ns.length ≤ n := by simpa using h.length_le
  have htake := List.prefix_iff_eq_take.mp h
  obtain ⟨m, rfl⟩ := Nat.exists_eq_add_of_le hle
  rw [← List.map_take, ← List.range'_append_1, List.take_left' List.length_range'] at htake
  exact htake

theorem foldl_max_range' (n : ℕ) : (List.range' 1 n).foldl max 0 = n := by
  induction n with
  | zero => rfl
  | succ n ih =>
    rw [List.range'_1_concat, List.foldl_append, ih, List.foldl_cons, List.foldl_nil]
    omega

end Ordinals

def consuming (l : Ledger F) : List (Submission F) := l.submissions.filter Submission.consumesSolverAttempt

/-- What holds of the rows of an obligation between two operations; `known` are the jobs there are. -/
structure AttemptInv (known : String → Prop) (l : Ledger F) : Prop where
  ordinals : (consuming l).map Submission.solverAttemptNumber = (List.range' 1 l.obligation.attemptCount).map some
  increasing : l.submissions.Pairwise fun r s => r.attemptNumber < s.attemptNumber
  submitted : ∀ r ∈ l.submissions, ∃ jobId, r.simJobId = some jobId ∧ known jobId
  leased : ∀ jobId, l.obligation.latestSimJobId = some jobId → known jobId
  unleased : l.obligation.latestSimJobId = none → l.submissions = []
  /-- Only the last row can be of the job that holds the lease. -/
  latest : ∀ jobId, l.obligation.latestSimJobId = some jobId → ∀ r ∈ l.submissions.dropLast, r.simJobId ≠ some jobId

namespace AttemptInv
variable {known : String → Prop} {l : Ledger F}

omit [Binary64 F] in
theorem count_eq (h : AttemptInv known l) : (consuming l).length = l.obligation.attemptCount := by
  have hlength := congrArg List.length h.ordinals
  simpa using hlength

omit [Binary64 F] in
theorem distinct (h : AttemptInv known l) :
    (consuming l).Pairwise fun r s => r.solverAttemptNumber ≠ s.solverAttemptNumber := by
  have hnodup : ((consuming l).map Submission.solverAttemptNumber).Nodup := by
    rw [h.ordinals]
    exact List.Nodup.map (Option.some_injective ℕ) (List.nodup_range' ..)
  exact List.pairwise_map.mp hnodup

omit [Binary64 F] in
theorem mono {known' : String → Prop} (h : AttemptInv known l) (hmono : ∀ jobId, known jobId → known' jobId) :
    AttemptInv known' l where
  ordinals := h.ordinals
  increasing := h.increasing
  submitted := by
    intro r hr
    obtain ⟨jobId, hjob, hknown⟩ := h.submitted r hr
    exact ⟨jobId, hjob, hmono jobId hknown⟩
  leased := fun jobId hlease => hmono jobId (h.leased jobId hlease)
  unleased := h.unleased
  latest := h.latest

/-! ### Rows that come in -/

omit [Binary64 F] in
theorem append (h : AttemptInv known l) {l' : Ledger F} {r : Submission F} {jobId : String}
    (hjob : r.simJobId = some jobId) (hknown : known jobId) (hnumber : r.attemptNumber = l.nextSubmissionSequence)
    (hown : l.submissionOf jobId = none) (hrows : l'.submissions = l.submissions ++ [r])
    (hlease : l'.obligation.latestSimJobId = some jobId)
    (hordinal : r.consumesSolverAttempt = true ∧ r.solverAttemptNumber = some (l.obligation.attemptCount + 1) ∧
        l'.obligation.attemptCount = l.obligation.attemptCount + 1 ∨
      r.consumesSolverAttempt = false ∧ l'.obligation.attemptCount = l.obligation.attemptCount) :
    AttemptInv known l' where
  ordinals := by
    have hbefore := h.ordinals
    rw [consuming] at hbefore
    obtain ⟨hconsumes, hsolver, hcount⟩ | ⟨hconsumes, hcount⟩ := hordinal
    · rw [consuming, hrows, List.filter_append, List.map_append, hbefore,
        List.filter_cons_of_pos hconsumes, hcount, List.range'_1_concat, List.map_append]
      simp [hsolver, Nat.add_comm]
    · have hskip : [r].filter Submission.consumesSolverAttempt = [] :=
        List.filter_cons_of_neg (by rw [hconsumes]; exact Bool.false_ne_true)
      rw [consuming, hrows, List.filter_append, hskip, List.append_nil, hbefore, hcount]
  increasing := by
    rw [hrows]
    refine List.pairwise_append.mpr ⟨h.increasing, List.pairwise_singleton _ _, fun s hs r' hr' => ?_⟩
    rw [List.mem_singleton.mp hr', hnumber]
    exact l.lt_nextSubmissionSequence hs
  submitted := by
    intro s hs
    rw [hrows] at hs
    obtain hs | hs := List.mem_append.mp hs
    · exact h.submitted s hs
    · rw [List.mem_singleton.mp hs]
      exact ⟨jobId, hjob, hknown⟩
  leased := by
    intro jobId' hlease'
    rw [hlease] at hlease'
    cases hlease'
    exact hknown
  unleased := by
    intro hnone
    rw [hlease] at hnone
    cases hnone
  latest := by
    intro jobId' hlease' s hs
    rw [hlease] at hlease'
    cases hlease'
    rw [hrows, List.dropLast_concat] at hs
    exact submissionOf_none hown hs

omit [Binary64 F] in
theorem recordSubmission (h : AttemptInv known l) {l' : Ledger F} {id jobId : String} {sameCase : Bool}
    (hknown : known jobId) (hrecord : Precalc.recordSubmission l id jobId sameCase = .ok l') :
    AttemptInv known l' := by
  obtain rfl | ⟨hown, -, -, -, l'', hinsert, hle, rfl⟩ := recordSubmission_cases hrecord
  · exact h
  · refine h.append (r := submissionRow l jobId sameCase) rfl hknown rfl hown (Ledger.insert?_eq_some hinsert).2 rfl ?_
    cases sameCase with
    | false => exact .inl ⟨rfl, rfl, rfl⟩
    | true => exact .inr ⟨rfl, rfl⟩

omit [Binary64 F] in
theorem lease (h : AttemptInv known l) {known' : String → Prop} {jobId : String} (hfresh : ¬known jobId)
    (hmono : ∀ jobId, known jobId → known' jobId) (hnew : known' jobId) : AttemptInv known' (l.lease jobId) where
  ordinals := h.ordinals
  increasing := h.increasing
  submitted := (h.mono hmono).submitted
  leased := by
    intro jobId' hlease
    cases hlease
    exact hnew
  unleased := by
    intro hnone
    cases hnone
  latest := by
    intro jobId' hlease r hr hjob
    cases hlease
    obtain ⟨jobId', hjob', hknown⟩ := h.submitted r (List.dropLast_subset _ hr)
    rw [hjob] at hjob'
    cases hjob'
    exact hfresh hknown

omit [Binary64 F] in
theorem refused (h : AttemptInv known l) (hexhausted : l.obligation.exhausted = true) (jobId : String) :
    l.insert? (recoveredRow l jobId false) = none := by
  rw [Obligation.exhausted, decide_eq_true_eq] at hexhausted
  have hbound := l.obligation.attempts_le
  have hmax : l.obligation.maxAttempts = 2 + l.obligation.remediationAttemptsGranted := rfl
  have hordinal : min l.obligation.maxAttempts (l.obligation.attemptCount + 1) = l.obligation.attemptCount := by omega
  have hmem : some l.obligation.attemptCount ∈ (consuming l).map Submission.solverAttemptNumber := by
    rw [h.ordinals, List.mem_map]
    refine ⟨l.obligation.attemptCount, ?_, rfl⟩
    rw [List.mem_range'_1]
    omega
  obtain ⟨r, hr, hsolver⟩ := List.mem_map.mp hmem
  refine dif_neg fun hfree => ?_
  obtain ⟨-, -, hapart⟩ := hfree r (List.mem_of_mem_filter hr)
  have hrow : (recoveredRow l jobId false).solverAttemptNumber = some l.obligation.attemptCount :=
    congrArg some hordinal
  rw [hsolver, hrow] at hapart
  obtain hnone | hne := hapart
  · cases hnone
  · exact hne rfl

omit [Binary64 F] in
theorem recovered (h : AttemptInv known l) (t : Settling) (j : Judgement F) (hknown : known t.jobId) :
    AttemptInv known (t.recovered j l) := by
  obtain ⟨hsame, -⟩ | ⟨hlost, l', hinsert, hentered⟩ :=
    recoverSubmission_cases l t.jobId t.crossed j.source.isSome
  · rw [Settling.recovered, hsame]
    exact h
  · obtain ⟨hobligation, hrows⟩ := Ledger.insert?_eq_some hinsert
    have hown : l.submissionOf t.jobId = none := by
      rw [lostSubmission, Bool.and_eq_true, Bool.and_eq_true] at hlost
      simpa using hlost.1.1
    rw [Settling.recovered, hentered]
    refine h.append (r := recoveredRow l t.jobId j.source.isSome) rfl hknown rfl hown hrows rfl ?_
    cases hsource : j.source.isSome with
    | true =>
      refine .inr ⟨rfl, ?_⟩
      change max l.obligation.attemptCount l.obligation.attemptCount = l.obligation.attemptCount
      exact max_self _
    | false =>
      have hleft : l.obligation.attemptCount < l.obligation.maxAttempts := by
        by_contra hnot
        rw [hsource, h.refused (decide_eq_true (not_lt.mp hnot))] at hinsert
        cases hinsert
      have hordinal : min l.obligation.maxAttempts (l.obligation.attemptCount + 1) =
          l.obligation.attemptCount + 1 := min_eq_right hleft
      refine .inl ⟨rfl, congrArg some hordinal, ?_⟩
      change max l.obligation.attemptCount (min l.obligation.maxAttempts (l.obligation.attemptCount + 1)) = _
      rw [hordinal]
      exact max_eq_right (Nat.le_succ _)

/-! ### Rows that are rewritten -/

omit [Binary64 F] in
theorem rewrite (h : AttemptInv known l) {l' : Ledger F} {f : Submission F → Submission F}
    (hjob : ∀ r, (f r).simJobId = r.simJobId) (hnumber : ∀ r, (f r).attemptNumber = r.attemptNumber)
    (hrows : l'.submissions = l.submissions.map f)
    (hlease : l'.obligation.latestSimJobId = l.obligation.latestSimJobId ∨
      l.obligation.latestSimJobId = none ∧ ∃ jobId, l'.obligation.latestSimJobId = some jobId ∧ known jobId)
    (hordinals : (consuming l').map Submission.solverAttemptNumber =
      (List.range' 1 l'.obligation.attemptCount).map some) : AttemptInv known l' where
  ordinals := hordinals
  increasing := by
    rw [hrows, List.pairwise_map]
    simpa only [hnumber] using h.increasing
  submitted := by
    intro r hr
    rw [hrows] at hr
    obtain ⟨s, hs, rfl⟩ := List.mem_map.mp hr
    rw [hjob]
    exact h.submitted s hs
  leased := by
    intro jobId hjobId
    obtain hlease | ⟨-, jobId', hlease, hknown⟩ := hlease
    · exact h.leased jobId (hlease.symm.trans hjobId)
    · rw [hlease] at hjobId
      cases hjobId
      exact hknown
  unleased := by
    intro hnone
    obtain hlease | ⟨-, jobId', hlease, -⟩ := hlease
    · rw [hrows, h.unleased (hlease.symm.trans hnone)]
      rfl
    · rw [hlease] at hnone
      cases hnone
  latest := by
    intro jobId hjobId r hr
    rw [hrows, ← List.map_dropLast] at hr
    obtain ⟨s, hs, rfl⟩ := List.mem_map.mp hr
    rw [hjob]
    obtain hlease | ⟨hnone, -⟩ := hlease
    · exact h.latest jobId (hlease.symm.trans hjobId) s hs
    · rw [h.unleased hnone] at hs
      cases hs

omit [Binary64 F] in
theorem eq_concat_of_own (h : AttemptInv known l) {jobId : String} {r : Submission F}
    (hlease : l.obligation.latestSimJobId = some jobId) (hown : l.submissionOf jobId = some r) :
    l.submissions = l.submissions.dropLast ++ [r] := by
  obtain ⟨hmem, hjob⟩ := submissionOf_some hown
  have hne : l.submissions ≠ [] := List.ne_nil_of_mem hmem
  rw [← List.dropLast_append_getLast hne, List.mem_append] at hmem
  obtain hinit | hlast := hmem
  · exact absurd hjob (h.latest jobId hlease r hinit)
  · rw [List.mem_singleton.mp hlast, List.dropLast_append_getLast hne]

end AttemptInv

/-! ## Settlements -/

section Settled
variable {known : String → Prop} {t : Settling} {j : Judgement F} {l : Ledger F}

omit [Binary64 F] in
theorem ordinals_map {f : Submission F → Submission F} (rows : List (Submission F))
    (h : ∀ r ∈ rows, (f r).consumesSolverAttempt = r.consumesSolverAttempt ∧
      (f r).solverAttemptNumber = r.solverAttemptNumber) :
    ((rows.map f).filter Submission.consumesSolverAttempt).map Submission.solverAttemptNumber =
      (rows.filter Submission.consumesSolverAttempt).map Submission.solverAttemptNumber := by
  induction rows with
  | nil => rfl
  | cons r rows ih =>
    have htail := ih fun s hs => h s (List.mem_cons_of_mem r hs)
    obtain ⟨hconsumes, hsolver⟩ := h r List.mem_cons_self
    rw [List.map_cons, List.filter_cons, List.filter_cons, hconsumes]
    split
    · rw [List.map_cons, List.map_cons, htail, hsolver]
    · exact htail

def releases (t : Settling) (j : Judgement F) (l : Ledger F) : Bool :=
  ((t.recovered j l).submissionOf t.jobId).any fun r => r.consumesSolverAttempt && j.releasing

theorem finish_keeps (t : Settling) (j : Judgement F) (l : Ledger F) :
    (∀ r, (finishOwn t.jobId (t.finish j l) r).simJobId = r.simJobId) ∧
      ∀ r, (finishOwn t.jobId (t.finish j l) r).attemptNumber = r.attemptNumber := by
  have hkeys := keepsKeys_finishOwn t.jobId j (t.segment j l) (t.verdict j l) t.meshVersion
  exact ⟨fun r => (hkeys r).1, fun r => (hkeys r).2.1⟩

theorem AttemptInv.settle_kept (h : AttemptInv known l) (hknown : known t.jobId) (hkept : releases t j l = false) :
    AttemptInv known (settleLedger t j l) := by
  have hR := h.recovered t j hknown
  have hkeptCount : t.kept j l = (t.recovered j l).obligation.attemptCount :=
    if_neg (by rw [← releases, hkept]; exact Bool.false_ne_true)
  have hrows : ∀ r ∈ (t.recovered j l).submissions,
      (finishOwn t.jobId (t.finish j l) r).consumesSolverAttempt = r.consumesSolverAttempt ∧
        (finishOwn t.jobId (t.finish j l) r).solverAttemptNumber = r.solverAttemptNumber := by
    intro r hr
    rw [finishOwn]
    split
    · rename_i hjob
      have hown : releases t j l = (r.consumesSolverAttempt && j.releasing) := by
        obtain ⟨s, hs⟩ : ∃ s, (t.recovered j l).submissionOf t.jobId = some s := by
          rw [← Option.isSome_iff_exists, Ledger.submissionOf, List.find?_isSome]
          exact ⟨r, hr, by simpa using hjob⟩
        rw [releases, hs, Option.any_some, eq_of_submissionOf hs hr hjob]
      rw [hkept] at hown
      refine ⟨?_, if_neg (by rw [← hown]; exact Bool.false_ne_true)⟩
      change (r.consumesSolverAttempt && !(r.consumesSolverAttempt && j.releasing)) = _
      rw [← hown, Bool.not_false, Bool.and_true]
    · exact ⟨rfl, rfl⟩
  obtain ⟨hjob, hnumber⟩ := finish_keeps t j l
  have hordinals : (consuming (settleLedger t j l)).map Submission.solverAttemptNumber =
      (List.range' 1 (t.recovered j l).obligation.attemptCount).map some := by
    rw [consuming, settle_submissions, ordinals_map _ hrows]
    exact hR.ordinals
  obtain ⟨hlease, hcount⟩ | ⟨⟨-, hwrites⟩, hlease, hcount⟩ := settle_lease t j l
  · exact hR.rewrite hjob hnumber (settle_submissions t j l) (.inl hlease) (by rw [hcount]; exact hordinals)
  · refine hR.rewrite hjob hnumber (settle_submissions t j l) ?_ (by rw [hcount, hkeptCount]; exact hordinals)
    obtain hnone | hsame := recovered_leasedTo (j := j) (writes_leasedTo hwrites)
    · exact .inr ⟨hnone, t.jobId, hlease, hknown⟩
    · exact .inl (hlease.trans hsame.symm)

theorem AttemptInv.settle_released (h : AttemptInv known l) (hknown : known t.jobId)
    (hreleased : releases t j l = true) (hwrites : t.writes l = true) : AttemptInv known (settleLedger t j l) := by
  have hR := h.recovered t j hknown
  obtain ⟨r, hown, hr⟩ := (Option.any_eq_true _ _).mp hreleased
  rw [Bool.and_eq_true] at hr
  obtain ⟨hconsumes, hreleasing⟩ := hr
  have haccepted : j.accepted = none := by
    rw [Judgement.releasing, Bool.and_eq_true] at hreleasing
    simpa using hreleasing.1
  have hlease : (t.recovered j l).obligation.latestSimJobId = some t.jobId := by
    obtain hnone | hsame := recovered_leasedTo (j := j) (writes_leasedTo hwrites)
    · have hmem := (submissionOf_some hown).1
      rw [hR.unleased hnone] at hmem
      cases hmem
    · exact hsame
  have hconcat := hR.eq_concat_of_own hlease hown
  have hkept : t.kept j l = (t.recovered j l).obligation.attemptCount - 1 := if_pos hreleased
  -- the rows before the job's own are left, and they have the ordinals below
  have hordinals : (consuming (settleLedger t j l)).map Submission.solverAttemptNumber =
      (List.range' 1 (t.kept j l)).map some := by
    have hinit : (((t.recovered j l).submissions.dropLast.map (finishOwn t.jobId (t.finish j l))).filter
        Submission.consumesSolverAttempt).map Submission.solverAttemptNumber =
          ((t.recovered j l).submissions.dropLast.filter Submission.consumesSolverAttempt).map
            Submission.solverAttemptNumber := by
      refine ordinals_map _ fun s hs => ?_
      rw [finishOwn, if_neg (hR.latest t.jobId hlease s hs)]
      exact ⟨rfl, rfl⟩
    have hgone : (finishOwn t.jobId (t.finish j l) r).consumesSolverAttempt = false := by
      rw [finishOwn, if_pos (submissionOf_some hown).2]
      change (r.consumesSolverAttempt && !(r.consumesSolverAttempt && j.releasing)) = false
      rw [hconsumes, hreleasing]
      rfl
    have hafter : consuming (settleLedger t j l) =
        ((t.recovered j l).submissions.dropLast.map (finishOwn t.jobId (t.finish j l))).filter
          Submission.consumesSolverAttempt := by
      rw [consuming, settle_submissions]
      conv_lhs => rw [hconcat]
      rw [List.map_append, List.filter_append, List.map_singleton,
        List.filter_cons_of_neg (by rw [hgone]; exact Bool.false_ne_true), List.filter_nil, List.append_nil]
    have hbefore : ((t.recovered j l).submissions.dropLast.filter Submission.consumesSolverAttempt).map
        Submission.solverAttemptNumber ++ [r.solverAttemptNumber] =
          (List.range' 1 (t.recovered j l).obligation.attemptCount).map some := by
      rw [← hR.ordinals, consuming]
      conv_rhs => rw [hconcat]
      rw [List.filter_append, List.filter_cons_of_pos hconsumes, List.filter_nil, List.map_append,
        List.map_singleton]
    have hlength := congrArg List.length hbefore
    simp only [List.length_append, List.length_singleton, List.length_map, List.length_range'] at hlength
    have hprefix := ordinals_of_prefix ⟨_, hbefore⟩
    rw [List.length_map] at hprefix
    rw [hafter, hinit, hprefix, hkept, ← hlength, Nat.add_sub_cancel]
  obtain ⟨hjob, hnumber⟩ := finish_keeps t j l
  have hwritten := settleLedger_written t j l haccepted hwrites
  refine hR.rewrite hjob hnumber (settle_submissions t j l) (.inl ?_) ?_
  · rw [hwritten, hlease]
    rfl
  · rw [hordinals, hwritten]
    rfl

/-- The settlement releases an ordinal: one that the job's row has, or one that crash recovery gives it. -/
def ReleasesAttempt (t : Settling) (j : Judgement F) (l : Ledger F) : Prop :=
  j.releasing = true ∧ ((l.submissionOf t.jobId).any Submission.consumesSolverAttempt = true ∨
    lostSubmission l t.jobId t.crossed = true ∧ j.source = none ∧ l.obligation.exhausted = false)

omit [Binary64 F] in
theorem AttemptInv.releasesAttempt (h : AttemptInv known l) (hreleases : releases t j l = true) :
    ReleasesAttempt t j l := by
  obtain ⟨r, hown, hr⟩ := (Option.any_eq_true _ _).mp hreleases
  rw [Bool.and_eq_true] at hr
  refine ⟨hr.2, ?_⟩
  obtain ⟨hsame, -⟩ | ⟨hlost, l', hinsert, hentered⟩ :=
    recoverSubmission_cases l t.jobId t.crossed j.source.isSome
  · rw [Settling.recovered, hsame] at hown
    refine .inl ?_
    rw [hown]
    exact hr.1
  · obtain ⟨-, hrows⟩ := Ledger.insert?_eq_some hinsert
    -- the row that recovery entered is the job's
    have hrow : r = recoveredRow l t.jobId j.source.isSome := by
      have hmem : recoveredRow l t.jobId j.source.isSome ∈ (t.recovered j l).submissions := by
        rw [Settling.recovered, hentered]
        exact hrows ▸ List.mem_append_right _ (List.mem_singleton_self _)
      exact (eq_of_submissionOf hown hmem rfl).symm
    have hsource : j.source.isSome = false := by
      have hconsumes := hr.1
      rw [hrow] at hconsumes
      simpa [recoveredRow, Submission.submitted] using hconsumes
    refine .inr ⟨hlost, by simpa using hsource, ?_⟩
    by_contra hexhausted
    rw [Bool.not_eq_false] at hexhausted
    rw [hsource, h.refused hexhausted] at hinsert
    cases hinsert

theorem AttemptInv.settle (h : AttemptInv known l) (hknown : known t.jobId)
    (hwrites : ReleasesAttempt t j l → t.writes l = true) : AttemptInv known (settleLedger t j l) := by
  cases hreleases : releases t j l with
  | false => exact h.settle_kept hknown hreleases
  | true => exact h.settle_released hknown hreleases (hwrites (h.releasesAttempt hreleases))

end Settled

/-! ## Requeues -/

section Requeued
variable {known : String → Prop} {w : World F} {id : String} {l l' : Ledger F} {c : Checkpoint F}

theorem consuming_repaired (hcheckpoint : checkpointOf w l c.row c.id c.attempt = true) :
    consuming (repaired w c l) =
      (consuming l).filter fun r => decide (r.attemptNumber ≤ c.row.attemptNumber) := by
  have hnewer : ∀ r ∈ l.submissions, c.row.attemptNumber < r.attemptNumber →
      w.supersedes c.id c.attempt r = false := by
    simp only [checkpointOf, Bool.and_eq_true, Bool.not_eq_true', List.any_eq_false] at hcheckpoint
    intro r hr hlt
    simpa [hlt] using hcheckpoint.2 r hr
  have hkeep : ∀ r : Submission F, r.attemptNumber ≤ c.row.attemptNumber → repairRow w c r = r := by
    intro r hle
    rw [repairRow, interrupts, decide_eq_false (not_lt.mpr hle)]
    rfl
  have hmap : consuming (repaired w c l) =
      (l.submissions.filter (Submission.consumesSolverAttempt ∘ repairRow w c)).map (repairRow w c) := by
    rw [consuming, ← List.filter_map]
    rfl
  have hfilter : l.submissions.filter (Submission.consumesSolverAttempt ∘ repairRow w c) =
      l.submissions.filter fun r => decide (r.attemptNumber ≤ c.row.attemptNumber) && r.consumesSolverAttempt := by
    refine List.filter_congr fun r hr => ?_
    rw [Function.comp_apply]
    by_cases hle : r.attemptNumber ≤ c.row.attemptNumber
    · rw [hkeep r hle, decide_eq_true hle, Bool.true_and]
    · rw [decide_eq_false hle, Bool.false_and]
      cases hconsumes : r.consumesSolverAttempt with
      | true =>
        rw [repairRow, if_pos (interrupts_of_not_supersedes (not_le.mp hle) hconsumes (hnewer r hr (not_le.mp hle)))]
        rfl
      | false =>
        rw [repairRow]
        split
        · rfl
        · exact hconsumes
  rw [hmap, hfilter, consuming, List.filter_filter]
  refine (List.map_congr_left fun r hr => ?_).trans (List.map_id _)
  rw [List.mem_filter, Bool.and_eq_true, decide_eq_true_eq] at hr
  exact hkeep r hr.2.1

theorem AttemptInv.restored (h : AttemptInv known l) (hcheckpoint : checkpointOf w l c.row c.id c.attempt = true) :
    (consuming (repaired w c l)).map Submission.solverAttemptNumber =
      (List.range' 1 (restoredAttempts (repaired w c l))).map some := by
  have hprefix : (consuming (repaired w c l)).map Submission.solverAttemptNumber <+:
      (List.range' 1 l.obligation.attemptCount).map some := by
    rw [← h.ordinals, consuming_repaired hcheckpoint]
    exact (filter_le_ordinals (h.increasing.filter _) c.row.attemptNumber).map _
  have hordinals := ordinals_of_prefix hprefix
  have hmax : restoredAttempts (repaired w c l) =
      ((consuming (repaired w c l)).map Submission.solverAttemptNumber).length := by
    have hread : (consuming (repaired w c l)).filterMap Submission.solverAttemptNumber =
        ((consuming (repaired w c l)).map Submission.solverAttemptNumber).filterMap id := by
      rw [List.filterMap_map]
      rfl
    rw [restoredAttempts, ← consuming, hread, hordinals, List.filterMap_map]
    simp [foldl_max_range']
  rw [hmax]
  exact hordinals

theorem AttemptInv.requeue (h : AttemptInv known l) (hreopenable : reopenable w id l.obligation = true)
    (hturn : requeueLedger w id l = .ok l')
    (hboundary : ∀ c, verifiedCheckpoint w l = some c → (∃ r ∈ l.submissions, interrupts w c r = true) →
      ownBoundary w l c = true) : AttemptInv known l' := by
  obtain ⟨rfl, -⟩ | ⟨c, hc, ⟨rfl, hleft⟩ | ⟨-, hle, rfl⟩⟩ := requeueLedger_cases hturn
  · exact h
  · -- nothing was repaired
    have hsame : l.submissions.map (repairRow w c) = l.submissions := by
      refine (List.map_congr_left fun r hr => ?_).trans (List.map_id _)
      refine if_neg fun hinterrupts => ?_
      rw [reopens_of_ownBoundary hc hreopenable (hboundary c hc ⟨r, hr, hinterrupts⟩)] at hleft
      cases hleft
    refine h.rewrite (repairRow_simJobId c) (repairRow_attemptNumber c) rfl (.inl rfl) ?_
    rw [consuming, show (repaired w c l).submissions = l.submissions from hsame]
    exact h.ordinals
  · obtain ⟨-, hcheckpoint, -, -⟩ := verifiedCheckpoint_spec hc
    exact h.rewrite (repairRow_simJobId c) (repairRow_attemptNumber c) rfl (.inl rfl) (h.restored hcheckpoint)

end Requeued

/-! ## Runs -/

/-- A release is written to the obligation as well: a settlement that releases an ordinal is of an open obligation under
the job's lease, and a requeue that repairs rows finds a checkpoint of the obligation's own boundary condition. -/
def ReleasesBoth (s : Store F) : Action F → Prop
  | .settle jobId job opts now =>
    ∀ id l, s.obligations.find? id = some l →
      ((precalcObligationIds job.requestPayload).contains id && ofJobCell job l.obligation) = true →
        ReleasesAttempt (settlingOf jobId job now) (judgementOf s.world jobId job opts s.obligations id l) l →
          (settlingOf jobId job now).writes l = true
  | .requeue _ =>
    ∀ id l, s.obligations.find? id = some l → ∀ c, verifiedCheckpoint s.world l = some c →
      (∃ r ∈ l.submissions, interrupts s.world c r = true) → ownBoundary s.world l c = true
  | _ => True

def StoreInv (s : Store F) : Prop :=
  ∀ id l, s.obligations.find? id = some l → AttemptInv (fun jobId => (s.world.jobs.find? jobId).isSome = true) l

omit [Binary64 F] in
theorem attemptInv_enrolled {known : String → Prop} {o : Obligation} (hcount : o.attemptCount = 0)
    (hlease : o.latestSimJobId = none) : AttemptInv (F := F) known ⟨o, [], .nil⟩ where
  ordinals := by
    change [] = (List.range' 1 o.attemptCount).map some
    rw [hcount]
    rfl
  increasing := .nil
  submitted := fun r hr => absurd hr List.not_mem_nil
  leased := by
    intro jobId hjob
    rw [hlease] at hjob
    cases hjob
  unleased := fun _ => rfl
  latest := fun _ _ r hr => absurd hr List.not_mem_nil

theorem StoreInv.perform {s : Store F} (h : StoreInv s) {action : Action F} (hboth : ReleasesBoth s action) :
    StoreInv (perform s action) := by
  intro id l' hfind
  cases action with
  | enroll id₀ o =>
    rw [enroll_world]
    obtain hold | ⟨-, rfl, hcount, hlease⟩ := enroll_cases hfind
    · exact h id l' hold
    · exact attemptInv_enrolled hcount hlease
  | compose a spec =>
    obtain hsame | hok := compose_cases (s := s) a spec
    · rw [hsame] at hfind ⊢
      exact h id l' hfind
    · obtain ⟨-, -, -, jobs, hinsert, hstore⟩ := composePhysicalPrecalcJob_cases hok
      rw [hstore] at hfind ⊢
      rw [Table.find?_map, Option.map_eq_some_iff] at hfind
      obtain ⟨l, hl, hl'⟩ := hfind
      have hmono : ∀ jobId, (s.world.jobs.find? jobId).isSome = true → (jobs.find? jobId).isSome = true := by
        intro jobId hjob
        obtain ⟨job, hjob⟩ := Option.isSome_iff_exists.mp hjob
        exact Option.isSome_of_eq_some ((Table.find?_insert hinsert).mpr (.inl hjob))
      split at hl'
      · rw [← hl']
        refine (h id l hl).lease ?_ hmono
          (Option.isSome_of_eq_some ((Table.find?_insert hinsert).mpr (.inr ⟨rfl, rfl⟩)))
        rw [Table.find?_eq_none (Table.insert?_rows hinsert).1]
        exact Bool.false_ne_true
      · rw [← hl']
        exact (h id l hl).mono hmono
  | record jobId ids =>
    obtain hsame | hok := record_cases (s := s) jobId ids
    · rw [hsame] at hfind ⊢
      exact h id l' hfind
    · obtain ⟨hworld, -, hrows⟩ := recordPrecalcObligationSubmission_cases hok
      rw [hworld]
      obtain ⟨l, hl, rfl | ⟨hknown, sameCase, hrecord⟩⟩ := hrows id l' hfind
      · exact h id _ hl
      · exact (h id l hl).recordSubmission hknown hrecord
  | settle jobId job opts now =>
    rw [settle_world]
    obtain ⟨l, hl, rfl | ⟨hknown, hlisted, rfl⟩⟩ := settle_cases hfind
    · exact h id _ hl
    · exact (h id l hl).settle hknown (hboth id l hl hlisted)
  | requeue scope =>
    rw [requeue_world]
    obtain ⟨l, hl, rfl | ⟨hreopenable, hturn⟩⟩ := requeue_effect hfind
    · exact h id _ hl
    · exact (h id l hl).requeue hreopenable hturn (hboth id l hl)
  | observe world =>
    rw [observe_obligations] at hfind
    exact (h id l' hfind).mono fun jobId hjob => observe_jobs hjob

/-- A step of the system; `P` holds of every action in its state. -/
def StoreStep (P : Store F → Action F → Prop) (s s' : Store F) : Prop := ∃ action, P s action ∧ s' = perform s action

/-- In every run whose releases are written to the obligation as well as to the row, every obligation counts exactly its
consuming rows, within its bound, under ordinals that are all different. -/
theorem attempts_counted {s : Store F} (h : Reachable Started (StoreStep ReleasesBoth) s) {id : String}
    {l : Ledger F} (hfind : s.obligations.find? id = some l) :
    l.obligation.attemptCount = (l.submissions.filter Submission.consumesSolverAttempt).length ∧
      l.obligation.attemptCount ≤ l.obligation.maxAttempts ∧
      (l.submissions.filter Submission.consumesSolverAttempt).Pairwise fun r s =>
        r.solverAttemptNumber ≠ s.solverAttemptNumber := by
  have hinv : StoreInv s := by
    refine h.invariant (P := StoreInv) ?_ ?_
    · intro s hstart id l hfind
      rw [hstart] at hfind
      cases hfind
    · rintro s s' hs ⟨action, hboth, rfl⟩
      exact hs.perform hboth
  have hl := hinv id l hfind
  exact ⟨hl.count_eq.symm, l.obligation.attempts_le, hl.distinct⟩

def submittedStore : Store ExactNum :=
  perform (perform (perform quietStore (.enroll "obligation" freshObligation))
    (.compose openAdmission (freshComposition "first"))) (.record "first" ["obligation"])

def stoppedOptions : SettlementOptions := { noOptions with cancellation := some .transient }

def attemptCounts (s : Store ExactNum) : List (ℕ × ℕ) :=
  s.obligations.rows.map fun row =>
    (row.2.obligation.attemptCount, (row.2.submissions.filter Submission.consumesSolverAttempt).length)

def stopFirst : Action ExactNum := .settle "first" (solveJob ["obligation"]) stoppedOptions 0

theorem stopFirst_reachable :
    Reachable Started (StoreStep ReleasesBoth) (perform submittedStore stopFirst) := by
  have hstart : Reachable Started (StoreStep ReleasesBoth) quietStore := Reachable.start rfl
  have henrolled := hstart.next ⟨.enroll "obligation" freshObligation, trivial, rfl⟩
  have hcomposed := henrolled.next ⟨.compose openAdmission (freshComposition "first"), trivial, rfl⟩
  have hsubmitted := hcomposed.next ⟨.record "first" ["obligation"], trivial, rfl⟩
  refine hsubmitted.next ⟨stopFirst, ?_, rfl⟩
  intro id l hfind _ _
  have hopen : (submittedStore.obligations.rows.all fun row =>
      (settlingOf "first" (solveJob ["obligation"]) 0).writes row.2) = true := by decide +kernel
  exact List.all_eq_true.mp hopen (id, l) (Table.mem_of_find? hfind)

/-- The attempt of a job that was stopped under its lease is released on both rows. -/
theorem stopped_attempt_counted :
    ∃ l, (perform submittedStore stopFirst).obligations.find? "obligation" = some l ∧
      l.obligation.attemptCount = 0 ∧
      l.obligation.attemptCount = (l.submissions.filter Submission.consumesSolverAttempt).length ∧
      l.obligation.attemptCount ≤ l.obligation.maxAttempts ∧
      (l.submissions.filter Submission.consumesSolverAttempt).Pairwise fun r s =>
        r.solverAttemptNumber ≠ s.solverAttemptNumber := by
  have hcount : (((perform submittedStore stopFirst).obligations.find? "obligation").map fun l =>
      l.obligation.attemptCount) = some 0 := by
    decide +kernel
  obtain ⟨l, hfind, hl⟩ := Option.map_eq_some_iff.mp hcount
  exact ⟨l, hfind, hl, attempts_counted stopFirst_reachable hfind⟩

def lateActions : List (Action ExactNum) :=
  [.settle "first" (solveJob ["obligation"]) noOptions 0,
    .observe { quietWorld with jobs := ⟨[("first", solveJob ["obligation"])], nodup_first⟩ },
    .compose openAdmission (freshComposition "second"),
    stopFirst]

/-- A late settlement releases the row of the first job and leaves the obligation, which is leased to the second: it
counts an attempt that no row consumes. -/
theorem late_release_miscounts :
    Reachable Started (StoreStep fun _ _ => True) (lateActions.foldl perform submittedStore) ∧
      attemptCounts (lateActions.foldl perform submittedStore) = [(1, 0)] := by
  have hstep : ∀ (actions : List (Action ExactNum)) (s : Store ExactNum),
      Reachable Started (StoreStep fun _ _ => True) s →
        Reachable Started (StoreStep fun _ _ => True) (actions.foldl perform s) := by
    intro actions
    induction actions with
    | nil => exact fun _ h => h
    | cons action actions ih => exact fun s h => ih _ (h.next ⟨action, trivial, rfl⟩)
  have hsubmitted := hstep [.enroll "obligation" freshObligation, .compose openAdmission (freshComposition "first"),
    .record "first" ["obligation"]] quietStore (Reachable.start rfl)
  exact ⟨hstep lateActions _ hsubmitted, by decide +kernel⟩

end XFoilFoam.Precalc
