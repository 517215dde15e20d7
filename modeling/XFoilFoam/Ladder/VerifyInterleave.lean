import XFoilFoam.Ladder.VerifyQueue
import XFoilFoam.Foundations.Runs
import Mathlib.Data.List.Perm.Subperm

/-! `finalVerifyInterleaveDecision`: how many RANS jobs the scheduler may still admit before a final verification owns the
next slot, reconstructed from the history of submissions. -/
namespace XFoilFoam.Ladder
set_option autoImplicit false

/-! ## Rows -/

inductive JobKind where
  | sweep
  | targeted
  | verify
  deriving DecidableEq

/-- The columns of `sim_jobs` that the decision reads; `verifyQueueItemId` stands in the payload. -/
structure AdmissionJob where
  wave : ℕ
  jobKind : JobKind
  submittedAt : Option ℕ
  campaignId : Option String
  verifyQueueItemId : Option String

def AdmissionJob.isWave1 (job : AdmissionJob) : Bool := decide (job.wave = 1) && decide (job.jobKind ≠ .verify)

structure AdmissionStore where
  queue : VerifyStore
  jobs : Table String AdmissionJob

structure VerifyInterleaveScope extends PendingVerifyScope where
  wave1JobIds : Option (List String)

structure VerifyInterleaveDecision where
  due : Bool
  pendingSince : Option ℕ
  latestVerifySubmittedAt : Option ℕ
  opportunitySince : Option ℕ
  wave1AdmissionsSinceOpportunity : ℕ

def maxWave1AdmissionsBeforeVerify : ℕ := 8

namespace VerifyInterleaveScope

/-- `verifyQueueCampaignScopeSql` where closed requests count as well. -/
def everOfCampaigns (campaignIds : List String) (item : VerifyItem) : Bool :=
  (item.campaigns.any fun o => o.active && decide (o.campaignId ∈ campaignIds)) ||
    item.requests.any fun r =>
      decide (r.fidelity = .full) && r.owners.any fun o => o.active && decide (o.campaignId ∈ campaignIds)

def coversVerifyJob (scope : VerifyInterleaveScope) (s : VerifyStore) (job : AdmissionJob) : Bool :=
  match scope.verifyIds with
  | some ids => job.verifyQueueItemId.any fun itemId => decide (itemId ∈ ids)
  | none =>
    scope.campaignIds.all fun ids => (job.verifyQueueItemId.bind s.items.find?).any (everOfCampaigns ids)

def coversWave1Job (scope : VerifyInterleaveScope) (jobId : String) (job : AdmissionJob) : Bool :=
  match scope.wave1JobIds with
  | some ids => decide (jobId ∈ ids)
  | none => scope.campaignIds.all fun ids => job.campaignId.any fun campaignId => decide (campaignId ∈ ids)

end VerifyInterleaveScope

namespace AdmissionStore

/-! ## The decision -/

/-- `oldest_pending`. -/
def pendingSince (s : AdmissionStore) (scope : VerifyInterleaveScope) : Option ℕ :=
  ((s.queue.items.rows.filter fun row =>
    s.queue.claimable scope.toPendingVerifyScope row.1 row.2 && scope.covers row.1 row.2).map fun row =>
      row.2.createdAt).min?

/-- `latest_verify`. -/
def latestVerifySubmittedAt (s : AdmissionStore) (scope : VerifyInterleaveScope) : Option ℕ :=
  (s.jobs.rows.filterMap fun row =>
    if row.2.jobKind = .verify ∧ scope.coversVerifyJob s.queue row.2 = true then row.2.submittedAt else none).max?

/-- `opportunity`. -/
def opportunitySince (s : AdmissionStore) (scope : VerifyInterleaveScope) : Option ℕ :=
  (s.pendingSince scope).map fun pending => max pending ((s.latestVerifySubmittedAt scope).getD pending)

def admittedAfter (s : AdmissionStore) (scope : VerifyInterleaveScope) (since : ℕ) : List String :=
  (s.jobs.rows.filter fun row =>
    row.2.isWave1 && row.2.submittedAt.any (fun at_ => decide (since < at_)) &&
      scope.coversWave1Job row.1 row.2).map Prod.fst

/-- `bounded_wave1_admissions`. -/
def wave1AdmissionsSinceOpportunity (s : AdmissionStore) (scope : VerifyInterleaveScope) : ℕ :=
  (s.opportunitySince scope).elim 0 fun since =>
    ((s.admittedAfter scope since).take maxWave1AdmissionsBeforeVerify).length

def finalVerifyInterleaveDecision (s : AdmissionStore) (scope : VerifyInterleaveScope) : VerifyInterleaveDecision where
  due := (s.pendingSince scope).isSome &&
    decide (maxWave1AdmissionsBeforeVerify ≤ s.wave1AdmissionsSinceOpportunity scope)
  pendingSince := s.pendingSince scope
  latestVerifySubmittedAt := s.latestVerifySubmittedAt scope
  opportunitySince := s.opportunitySince scope
  wave1AdmissionsSinceOpportunity := s.wave1AdmissionsSinceOpportunity scope

end AdmissionStore

def unscoped (allowAutomaticRecovery : Option Bool) : VerifyInterleaveScope where
  campaignIds := none
  verifyIds := none
  allowAutomaticRecovery := allowAutomaticRecovery
  wave1JobIds := none

namespace AdmissionStore
variable {recovery : Option Bool}

/-! ## Submissions as a history -/

def submission (s : AdmissionStore) (jobId : String) : Option (ℕ × JobKind × ℕ) :=
  (s.jobs.find? jobId).bind fun job => job.submittedAt.map fun at_ => (job.wave, job.jobKind, at_)

theorem submission_eq_some {s : AdmissionStore} {jobId : String} {wave : ℕ} {kind : JobKind} {t : ℕ} :
    s.submission jobId = some (wave, kind, t) ↔
      ∃ job, s.jobs.find? jobId = some job ∧ job.wave = wave ∧ job.jobKind = kind ∧ job.submittedAt = some t := by
  rw [submission, Option.bind_eq_some_iff]
  refine exists_congr fun job => and_congr_right fun _ => ?_
  rw [Option.map_eq_some_iff]
  constructor
  · rintro ⟨at_, hat, heq⟩
    cases heq
    exact ⟨rfl, rfl, hat⟩
  · rintro ⟨rfl, rfl, hat⟩
    exact ⟨t, hat, rfl⟩

theorem mem_admittedAfter {s : AdmissionStore} {since : ℕ} {jobId : String} :
    jobId ∈ s.admittedAfter (unscoped recovery) since ↔
      ∃ kind t, s.submission jobId = some (1, kind, t) ∧ kind ≠ .verify ∧ since < t := by
  simp only [admittedAfter, List.mem_map, List.mem_filter, AdmissionJob.isWave1, Bool.and_eq_true, decide_eq_true_eq,
    Option.any_eq_true, submission_eq_some]
  constructor
  · rintro ⟨⟨id, job⟩, ⟨hrow, ⟨⟨hwave, hkind⟩, t, hsubmitted, hsince⟩, -⟩, rfl⟩
    exact ⟨job.jobKind, t, ⟨job, Table.find?_of_mem hrow, hwave, rfl, hsubmitted⟩, hkind, hsince⟩
  · rintro ⟨kind, t, ⟨job, hjob, hwave, rfl, hsubmitted⟩, hkind, hsince⟩
    exact ⟨(jobId, job), ⟨Table.mem_of_find? hjob, ⟨⟨hwave, hkind⟩, t, hsubmitted, hsince⟩, rfl⟩, rfl⟩

theorem admittedAfter_nodup (s : AdmissionStore) (scope : VerifyInterleaveScope) (since : ℕ) :
    (s.admittedAfter scope since).Nodup :=
  s.jobs.nodup.sublist (List.filter_sublist.map Prod.fst)

def reference (s : AdmissionStore) (recovery : Option Bool) (createdAt : ℕ) : ℕ :=
  max createdAt ((s.latestVerifySubmittedAt (unscoped recovery)).getD createdAt)

theorem mem_verifySubmissions {s : AdmissionStore} {t : ℕ} :
    t ∈ (s.jobs.rows.filterMap fun row =>
        if row.2.jobKind = .verify ∧ (unscoped recovery).coversVerifyJob s.queue row.2 = true then row.2.submittedAt
        else none) ↔
      ∃ jobId wave, s.submission jobId = some (wave, .verify, t) := by
  simp only [List.mem_filterMap, submission_eq_some]
  constructor
  · rintro ⟨⟨jobId, job⟩, hrow, hsubmitted⟩
    split at hsubmitted
    · rename_i hverify
      exact ⟨jobId, job.wave, job, Table.find?_of_mem hrow, rfl, hverify.1, hsubmitted⟩
    · cases hsubmitted
  · rintro ⟨jobId, wave, job, hjob, -, hverify, hsubmitted⟩
    exact ⟨(jobId, job), Table.mem_of_find? hjob, by rw [if_pos ⟨hverify, rfl⟩]; exact hsubmitted⟩

theorem reference_lt_iff {s : AdmissionStore} {createdAt t : ℕ} :
    s.reference recovery createdAt < t ↔
      createdAt < t ∧ ∀ jobId wave at_, s.submission jobId = some (wave, .verify, at_) → at_ < t := by
  rw [reference, max_lt_iff]
  refine and_congr_right fun hcreated => ?_
  cases hlatest : s.latestVerifySubmittedAt (unscoped recovery) with
  | none =>
    rw [latestVerifySubmittedAt, List.max?_eq_none_iff] at hlatest
    refine ⟨?_, fun _ => hcreated⟩
    intro _ jobId wave at_ hverify
    have hmem := (@mem_verifySubmissions recovery s at_).2 ⟨jobId, wave, hverify⟩
    rw [hlatest] at hmem
    exact absurd hmem List.not_mem_nil
  | some latest =>
    rw [latestVerifySubmittedAt, List.max?_eq_some_iff] at hlatest
    obtain ⟨hmem, hmax⟩ := hlatest
    constructor
    · intro h jobId wave at_ hverify
      exact (hmax at_ (mem_verifySubmissions.2 ⟨jobId, wave, hverify⟩)).trans_lt h
    · intro h
      obtain ⟨jobId, wave, hverify⟩ := mem_verifySubmissions.1 hmem
      exact h jobId wave latest hverify

/-! ## Runs -/

def submit (s : AdmissionStore) (jobId : String) : AdmissionStore :=
  { s with jobs := s.jobs.modify jobId fun job => { job with submittedAt := some s.queue.now } }

/-- The item is there since `createdAt` and could be claimed now. -/
def Schedulable (recovery : Option Bool) (itemId : String) (createdAt : ℕ) (s : AdmissionStore) : Prop :=
  ∃ item, s.queue.items.find? itemId = some item ∧ item.createdAt = createdAt ∧
    s.queue.claimable (unscoped recovery).toPendingVerifyScope itemId item = true

/-- A wave-1 job is submitted only while no verification is due.  All else is free: the queue and its owners change,
jobs are composed and dropped, verifications and later waves are submitted, and the clock goes on. -/
inductive Step (recovery : Option Bool) : AdmissionStore → AdmissionStore → Prop
  | submit (s : AdmissionStore) (jobId : String) (job : AdmissionJob) (hjob : s.jobs.find? jobId = some job)
      (hnew : job.submittedAt = none)
      (hdue : job.isWave1 = true → (s.finalVerifyInterleaveDecision (unscoped recovery)).due = false) :
      Step recovery s (s.submit jobId)
  | elsewhere (s s' : AdmissionStore) (hclock : s.queue.now ≤ s'.queue.now)
      (hjobs : ∀ jobId, s'.submission jobId = s.submission jobId) : Step recovery s s'

def Past (s : AdmissionStore) : Prop :=
  ∀ jobId wave kind t, s.submission jobId = some (wave, kind, t) → t ≤ s.queue.now

section Steps
variable {s s' : AdmissionStore}

theorem submission_submit {jobId : String} {job : AdmissionJob} (hjob : s.jobs.find? jobId = some job) (id : String) :
    (s.submit jobId).submission id =
      if id = jobId then some (job.wave, job.jobKind, s.queue.now) else s.submission id := by
  by_cases hid : id = jobId
  · subst hid
    rw [if_pos rfl, submission, submit, Table.find?_modify_self, hjob]
    rfl
  · rw [if_neg hid, submission, submit, Table.find?_modify_ne _ _ hid]
    rfl

theorem submission_of_unsubmitted {jobId : String} {job : AdmissionJob} (hjob : s.jobs.find? jobId = some job)
    (hnew : job.submittedAt = none) : s.submission jobId = none := by
  rw [submission, hjob, Option.bind_some, hnew, Option.map_none]

theorem Past.step (h : s.Past) (hstep : Step recovery s s') : s'.Past := by
  intro id wave kind t hsubmitted
  cases hstep with
  | submit jobId job hjob hnew hdue =>
    rw [submission_submit hjob] at hsubmitted
    split at hsubmitted
    · cases hsubmitted
      exact le_rfl
    · exact h id wave kind t hsubmitted
  | elsewhere s' hclock hjobs =>
    rw [hjobs] at hsubmitted
    exact (h id wave kind t hsubmitted).trans hclock

theorem opportunitySince_le {itemId : String} {createdAt : ℕ} (h : Schedulable recovery itemId createdAt s) :
    ∃ since, s.opportunitySince (unscoped recovery) = some since ∧ since ≤ s.reference recovery createdAt := by
  obtain ⟨item, hitem, hcreated, hclaimable⟩ := h
  have hmem : createdAt ∈ ((s.queue.items.rows.filter fun row =>
      s.queue.claimable (unscoped recovery).toPendingVerifyScope row.1 row.2 && (unscoped recovery).covers row.1 row.2
        ).map fun row => row.2.createdAt) := by
    refine List.mem_map.2 ⟨(itemId, item), List.mem_filter.2 ⟨Table.mem_of_find? hitem, ?_⟩, hcreated⟩
    rw [hclaimable]
    rfl
  cases hpending : s.pendingSince (unscoped recovery) with
  | none =>
    rw [pendingSince, List.min?_eq_none_iff] at hpending
    rw [hpending] at hmem
    exact absurd hmem List.not_mem_nil
  | some pending =>
    have hle : pending ≤ createdAt := by
      rw [pendingSince, List.min?_eq_some_iff] at hpending
      exact hpending.2 createdAt hmem
    refine ⟨_, by rw [opportunitySince, hpending]; rfl, ?_⟩
    rw [reference]
    cases s.latestVerifySubmittedAt (unscoped recovery) with
    | none => exact max_le_max hle hle
    | some latest => exact max_le_max hle le_rfl

theorem admittedAfter_lt_of_not_due {itemId : String} {createdAt : ℕ} (h : Schedulable recovery itemId createdAt s)
    (hdue : (s.finalVerifyInterleaveDecision (unscoped recovery)).due = false) :
    (s.admittedAfter (unscoped recovery) (s.reference recovery createdAt)).length < maxWave1AdmissionsBeforeVerify := by
  obtain ⟨since, hsince, hle⟩ := opportunitySince_le h
  have hpending : (s.pendingSince (unscoped recovery)).isSome = true := by
    rw [opportunitySince] at hsince
    obtain ⟨pending, hpending, -⟩ := Option.map_eq_some_iff.1 hsince
    exact Option.isSome_of_eq_some hpending
  simp only [finalVerifyInterleaveDecision, hpending, wave1AdmissionsSinceOpportunity, hsince, Option.elim_some,
    Bool.true_and, decide_eq_false_iff_not, not_le, List.length_take] at hdue
  have hsub : s.admittedAfter (unscoped recovery) (s.reference recovery createdAt) ⊆
      s.admittedAfter (unscoped recovery) since := by
    intro jobId hjob
    obtain ⟨kind, t, hsubmitted, hkind, hlt⟩ := mem_admittedAfter.1 hjob
    exact mem_admittedAfter.2 ⟨kind, t, hsubmitted, hkind, hle.trans_lt hlt⟩
  have hlength := ((admittedAfter_nodup s _ _).subperm hsub).length_le
  omega

theorem admittedAfter_step {itemId : String} {createdAt : ℕ} (h : Schedulable recovery itemId createdAt s)
    (hbound : (s.admittedAfter (unscoped recovery) (s.reference recovery createdAt)).length ≤
      maxWave1AdmissionsBeforeVerify) (hstep : Step recovery s s') :
    (s'.admittedAfter (unscoped recovery) (s'.reference recovery createdAt)).length ≤
      maxWave1AdmissionsBeforeVerify := by
  cases hstep with
  | elsewhere s' hclock hjobs =>
    have hsub : s'.admittedAfter (unscoped recovery) (s'.reference recovery createdAt) ⊆
        s.admittedAfter (unscoped recovery) (s.reference recovery createdAt) := by
      intro id hid
      obtain ⟨kind, t, hsubmitted, hkind, hlt⟩ := mem_admittedAfter.1 hid
      rw [reference_lt_iff] at hlt
      simp only [hjobs] at hsubmitted hlt
      exact mem_admittedAfter.2 ⟨kind, t, hsubmitted, hkind, reference_lt_iff.2 hlt⟩
    exact ((admittedAfter_nodup s' _ _).subperm hsub).length_le.trans hbound
  | submit jobId job hjob hnew hdue =>
    have hunsubmitted := submission_of_unsubmitted hjob hnew
    -- an old submission after the new reference was after the old one
    have hold : ∀ id ∈ (s.submit jobId).admittedAfter (unscoped recovery)
        ((s.submit jobId).reference recovery createdAt), id ≠ jobId →
        id ∈ s.admittedAfter (unscoped recovery) (s.reference recovery createdAt) := by
      intro id hid hne
      obtain ⟨kind, t, hsubmitted, hkind, hlt⟩ := mem_admittedAfter.1 hid
      rw [submission_submit hjob, if_neg hne] at hsubmitted
      refine mem_admittedAfter.2 ⟨kind, t, hsubmitted, hkind, ?_⟩
      rw [reference_lt_iff] at hlt ⊢
      refine ⟨hlt.1, ?_⟩
      intro id' wave at_ hverify
      refine hlt.2 id' wave at_ ?_
      rw [submission_submit hjob, if_neg]
      · exact hverify
      · rintro rfl
        rw [hunsubmitted] at hverify
        cases hverify
    by_cases hwave : job.isWave1 = true
    · have hlt := admittedAfter_lt_of_not_due h (hdue hwave)
      have hsub : (s.submit jobId).admittedAfter (unscoped recovery) ((s.submit jobId).reference recovery createdAt) ⊆
          jobId :: s.admittedAfter (unscoped recovery) (s.reference recovery createdAt) := by
        intro id hid
        by_cases hne : id = jobId
        · exact hne ▸ List.mem_cons_self
        · exact List.mem_cons_of_mem _ (hold id hid hne)
      have hlength := ((admittedAfter_nodup (s.submit jobId) _ _).subperm hsub).length_le
      rw [List.length_cons] at hlength
      omega
    · have hsub : (s.submit jobId).admittedAfter (unscoped recovery) ((s.submit jobId).reference recovery createdAt) ⊆
          s.admittedAfter (unscoped recovery) (s.reference recovery createdAt) := by
        intro id hid
        refine hold id hid ?_
        rintro rfl
        obtain ⟨kind, t, hsubmitted, hkind, -⟩ := mem_admittedAfter.1 hid
        rw [submission_submit hjob, if_pos rfl] at hsubmitted
        simp only [Option.some.injEq, Prod.mk.injEq] at hsubmitted
        obtain ⟨hone, rfl, -⟩ := hsubmitted
        exact hwave (by simp [AdmissionJob.isWave1, hone, hkind])
      exact ((admittedAfter_nodup (s.submit jobId) _ _).subperm hsub).length_le.trans hbound

end Steps

/-- An item that stays schedulable from its creation on sees at most eight wave-1 submissions after the later of its
creation and the most recent submission of a verification. -/
theorem wave1_after_verify_item_le {recovery : Option Bool} {s₀ s : AdmissionStore} {itemId : String}
    (hreach : Reachable Past (Step recovery) s₀) (hcreated : Schedulable recovery itemId s₀.queue.now s₀)
    (hrun : Relation.ReflTransGen
      (fun a b => Step recovery a b ∧ Schedulable recovery itemId s₀.queue.now b) s₀ s) :
    (s.admittedAfter (unscoped recovery) (s.reference recovery s₀.queue.now)).length ≤
      maxWave1AdmissionsBeforeVerify := by
  have hpast : s₀.Past := hreach.invariant (fun _ h => h) fun _ _ => Past.step
  have hwaits : Schedulable recovery itemId s₀.queue.now s ∧
      (s.admittedAfter (unscoped recovery) (s.reference recovery s₀.queue.now)).length ≤
        maxWave1AdmissionsBeforeVerify := by
    induction hrun with
    | refl =>
      refine ⟨hcreated, ?_⟩
      have hempty : s₀.admittedAfter (unscoped recovery) (s₀.reference recovery s₀.queue.now) = [] := by
        rw [List.eq_nil_iff_forall_not_mem]
        intro jobId hjob
        obtain ⟨kind, t, hsubmitted, -, hlt⟩ := mem_admittedAfter.1 hjob
        exact absurd (hpast jobId 1 kind t hsubmitted) (not_le.2 (reference_lt_iff.1 hlt).1)
      rw [hempty]
      exact Nat.zero_le _
    | tail _ hstep ih => exact ⟨hstep.2, admittedAfter_step ih.1 ih.2 hstep.1⟩
  exact hwaits.2

/-! ## An item and a job -/

def waitingItem : VerifyItem where
  state := .pending
  simJobId := none
  backgroundOwner := true
  campaigns := []
  requests := []
  freshAttemptCount := 0
  continuationAttemptCount := 0
  nextSubmitAt := none
  lastOutcome := none
  submitRetry := none
  createdAt := 1
  updatedAt := 1

def waitingStore : AdmissionStore where
  queue :=
    { now := 1
      campaigns := Table.empty
      items := ⟨[("item", waitingItem)], List.nodup_singleton _⟩
      jobs := Table.empty }
  jobs := ⟨[("rans", ⟨1, .sweep, none, none, none⟩)], List.nodup_singleton _⟩

theorem wave1_after_waiting_item_le :
    ((waitingStore.submit "rans").admittedAfter (unscoped none) ((waitingStore.submit "rans").reference none 1)).length ≤
      maxWave1AdmissionsBeforeVerify := by
  have hschedulable : Schedulable none "item" 1 waitingStore := ⟨waitingItem, rfl, rfl, rfl⟩
  have hpast : waitingStore.Past := by
    intro jobId wave kind t hsubmitted
    obtain ⟨job, hjob, -, -, hat⟩ := submission_eq_some.1 hsubmitted
    have hrow := Table.mem_of_find? hjob
    simp only [waitingStore, List.mem_singleton, Prod.mk.injEq] at hrow
    obtain ⟨-, rfl⟩ := hrow
    cases hat
  have hrun : Relation.ReflTransGen (fun a b => Step none a b ∧ Schedulable none "item" waitingStore.queue.now b)
      waitingStore (waitingStore.submit "rans") :=
    .single ⟨.submit waitingStore "rans" _ rfl rfl fun _ => rfl, waitingItem, rfl, rfl, rfl⟩
  exact wave1_after_verify_item_le (Reachable.start hpast) hschedulable hrun

end AdmissionStore

end XFoilFoam.Ladder
