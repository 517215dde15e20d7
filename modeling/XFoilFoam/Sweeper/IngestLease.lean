import XFoilFoam.Foundations.Table
import XFoilFoam.Foundations.Runs

/-! Evidence-ingest leases: `apps/sweeper/src/ingest-lease.ts` and the cancellation of
`packages/db/src/job-lifecycle.ts`.  Ownership is kept by the predicates of single conditional updates,
so one call is one atomic step on the row it names; a run is any order of calls by any processes, each
with a reading of the common clock taken before its update runs. -/
namespace XFoilFoam.Sweeper
set_option autoImplicit false

/-! ## Rows -/

inductive SimJobStatus where
  | pending
  | submitted
  | running
  | ingesting
  | done
  | failed
  | cancelled
  deriving DecidableEq, Repr

/-- The columns of `sim_jobs` that the four operations read or write; times in milliseconds. -/
structure SimJob where
  status : SimJobStatus
  engineJobId : Option String
  /-- `request_payload -> 'progressive' IS NOT NULL`. -/
  progressive : Bool
  engineState : Option String
  error : Option String
  ingestLeaseToken : Option String
  ingestLeaseClaimedAt : Option ℤ
  ingestLeaseExpiresAt : Option ℤ
  ingestedAt : Option ℤ
  finishedAt : Option ℤ
  updatedAt : ℤ
  deriving DecidableEq, Repr

structure IngestLease where
  jobId : String
  token : String
  claimedAt : ℤ
  expiresAt : ℤ
  deriving DecidableEq, Repr

/-- `column <= bound` and `column > bound` in SQL: a null column satisfies neither. -/
def sqlLe (column : Option ℤ) (bound : ℤ) : Bool := column.any (fun t => decide (t ≤ bound))
def sqlGt (column : Option ℤ) (bound : ℤ) : Bool := column.any (fun t => decide (bound < t))

/-- `UPDATE … SET … WHERE id = … AND … RETURNING`: the row it returns and the table it leaves. -/
def updateWhere (jobs : Table String SimJob) (jobId : String) (holds : SimJob → Bool)
    (set : SimJob → SimJob) : Option (SimJob × Table String SimJob) :=
  match jobs.find? jobId with
  | some row => if holds row then some (set row, jobs.modify jobId set) else none
  | none => none

/-! ## Operations -/

/-- A claim's arguments: its readings of the clock, the token from `randomUUID` and the options. -/
structure ClaimOptions where
  token : String
  now : ℤ
  leaseMs : ℤ
  progressiveStopped : Bool
  /-- What `$onUpdate` stamps. -/
  updatedAt : ℤ

/-- The condition of `claimJobForIngest`; `stops` lists `progressive_cfd_execution_stops`. -/
def claimableForIngest (jobId : String) (opts : ClaimOptions) (stops : List (String × String))
    (row : SimJob) : Bool :=
  decide (row.status = .submitted ∨ row.status = .running ∨ row.status = .failed) ||
  (opts.progressiveStopped && decide (row.status = .cancelled) && row.ingestedAt.isNone &&
    row.progressive && row.engineJobId.any (fun engine => stops.contains (jobId, engine))) ||
  (decide (row.status = .ingesting) &&
    (sqlLe row.ingestLeaseExpiresAt opts.now ||
      (row.ingestLeaseExpiresAt.isNone && decide (row.updatedAt ≤ opts.now - opts.leaseMs))))

def claimedRow (opts : ClaimOptions) (row : SimJob) : SimJob :=
  { row with
    status := .ingesting
    finishedAt := none
    ingestLeaseToken := some opts.token
    ingestLeaseClaimedAt := some opts.now
    ingestLeaseExpiresAt := some (opts.now + opts.leaseMs)
    updatedAt := opts.updatedAt }

def claimJobForIngest (jobs : Table String SimJob) (jobId : String) (opts : ClaimOptions)
    (stops : List (String × String)) : Option (IngestLease × Table String SimJob) :=
  (updateWhere jobs jobId (claimableForIngest jobId opts stops) (claimedRow opts)).map
    (fun updated => (⟨jobId, opts.token, opts.now, opts.now + opts.leaseMs⟩, updated.2))

/-- `ingestLeaseOwnedWhere`. -/
def ingestLeaseOwned (token : String) (row : SimJob) : Bool :=
  decide (row.status = .ingesting) && decide (row.ingestLeaseToken = some token)

def renewedRow (expiresAt updatedAt : ℤ) (row : SimJob) : SimJob :=
  { row with ingestLeaseExpiresAt := some expiresAt, updatedAt := updatedAt }

def renewIngestLease (jobs : Table String SimJob) (jobId token : String) (now leaseMs updatedAt : ℤ) :
    Option (Table String SimJob) :=
  (updateWhere jobs jobId
    (fun row => ingestLeaseOwned token row && sqlGt row.ingestLeaseExpiresAt now)
    (renewedRow (now + leaseMs) updatedAt)).map Prod.snd

def releasedRow (updatedAt : ℤ) (row : SimJob) : SimJob :=
  { row with
    status := .running
    finishedAt := none
    ingestLeaseToken := none
    ingestLeaseClaimedAt := none
    ingestLeaseExpiresAt := none
    updatedAt := updatedAt }

def releaseIngestLeaseToRunning (jobs : Table String SimJob) (jobId token : String) (updatedAt : ℤ) :
    Option (Table String SimJob) :=
  (updateWhere jobs jobId (ingestLeaseOwned token) (releasedRow updatedAt)).map Prod.snd

def cancellableSimJobStatuses : List SimJobStatus := [.pending, .submitted, .running]

inductive SimJobCancellationClaim where
  | cancelled (jobId : String) (engineJobId : Option String)
  | notCancellable (status : Option SimJobStatus)
  deriving DecidableEq, Repr

def cancelledRow (reason : String) (now : ℤ) (row : SimJob) : SimJob :=
  { row with
    status := .cancelled
    engineState := some (if row.engineJobId.isNone then "cancelled" else "cancelling")
    finishedAt := some now
    error := some reason
    updatedAt := now }

/-- `claimSimJobCancellation` on `sim_jobs`. -/
def claimSimJobCancellation (jobs : Table String SimJob) (jobId reason : String) (now : ℤ) :
    SimJobCancellationClaim × Table String SimJob :=
  match updateWhere jobs jobId (fun row => cancellableSimJobStatuses.contains row.status)
      (cancelledRow reason now) with
  | some (row, jobs') => (.cancelled jobId row.engineJobId, jobs')
  | none => (.notCancellable ((jobs.find? jobId).map SimJob.status), jobs)

/-- `outsideLiveSimJobIngestLeaseWhere`. -/
def outsideLiveSimJobIngestLease (now : ℤ) (row : SimJob) : Bool :=
  decide (row.status ≠ .ingesting) || sqlLe row.ingestLeaseExpiresAt now ||
    (row.ingestLeaseExpiresAt.isNone && decide (row.updatedAt ≤ now - 600000))

theorem updateWhere_eq_some {jobs : Table String SimJob} {jobId : String} {holds : SimJob → Bool}
    {set : SimJob → SimJob} {updated : SimJob × Table String SimJob} :
    updateWhere jobs jobId holds set = some updated ↔
      ∃ row, jobs.find? jobId = some row ∧ holds row = true ∧
        updated = (set row, jobs.modify jobId set) := by
  unfold updateWhere
  cases hrow : jobs.find? jobId with
  | none => simp
  | some row =>
    simp only [Option.ite_none_right_eq_some, Option.some.injEq]
    constructor
    · rintro ⟨hholds, hupdated⟩
      exact ⟨row, rfl, hholds, hupdated.symm⟩
    · rintro ⟨row', hrow', hholds, hupdated⟩
      subst hrow'
      exact ⟨hholds, hupdated.symm⟩

/-! ## Runs -/

/-- A lease as its claimant knows it: the expiry of the last successful claim or renewal. -/
structure HeldLease where
  jobId : String
  token : String
  expiresAt : ℤ
  deriving DecidableEq, Repr

/-- The table and the clock, with the leases that claimants hold and have not given back, the pairs of
job and token that were superseded or released, and the tokens handed out so far. -/
structure LeaseWorld where
  clock : ℤ
  jobs : Table String SimJob
  held : List HeldLease
  retired : List (String × String)
  issued : List String

namespace LeaseWorld

def supersededBy (w : LeaseWorld) (jobId : String) : List (String × String) :=
  (((w.jobs.find? jobId).bind SimJob.ingestLeaseToken).map (fun token => (jobId, token))).toList

def claim (w : LeaseWorld) (jobId : String) (opts : ClaimOptions) (stops : List (String × String)) :
    LeaseWorld :=
  match claimJobForIngest w.jobs jobId opts stops with
  | some (lease, jobs) =>
    { w with
      jobs := jobs
      held := ⟨lease.jobId, lease.token, lease.expiresAt⟩ :: w.held
      retired := w.supersededBy jobId ++ w.retired
      issued := opts.token :: w.issued }
  | none => { w with issued := opts.token :: w.issued }

def renew (w : LeaseWorld) (jobId token : String) (now leaseMs updatedAt : ℤ) : LeaseWorld :=
  match renewIngestLease w.jobs jobId token now leaseMs updatedAt with
  | some jobs =>
    { w with
      jobs := jobs
      held := w.held.map (fun lease =>
        if lease.jobId = jobId ∧ lease.token = token then ⟨jobId, token, now + leaseMs⟩ else lease) }
  | none => w

def release (w : LeaseWorld) (jobId token : String) (updatedAt : ℤ) : LeaseWorld :=
  match releaseIngestLeaseToRunning w.jobs jobId token updatedAt with
  | some jobs =>
    { w with
      jobs := jobs
      held := w.held.filter (fun lease => ¬ (lease.jobId = jobId ∧ lease.token = token))
      retired := (jobId, token) :: w.retired }
  | none => w

def cancel (w : LeaseWorld) (jobId reason : String) (now : ℤ) : LeaseWorld :=
  { w with jobs := (claimSimJobCancellation w.jobs jobId reason now).2 }

end LeaseWorld

/-- One call, or the clock moving on.  A claim's token is new because it comes from `randomUUID`. -/
inductive LeaseStep : LeaseWorld → LeaseWorld → Prop where
  | tick (w : LeaseWorld) (time : ℤ) (later : w.clock ≤ time) : LeaseStep w { w with clock := time }
  | claim (w : LeaseWorld) (jobId : String) (opts : ClaimOptions) (stops : List (String × String))
      (past : opts.now ≤ w.clock) (fresh : opts.token ∉ w.issued) :
      LeaseStep w (w.claim jobId opts stops)
  | renew (w : LeaseWorld) (jobId token : String) (now leaseMs updatedAt : ℤ) (past : now ≤ w.clock) :
      LeaseStep w (w.renew jobId token now leaseMs updatedAt)
  | release (w : LeaseWorld) (jobId token : String) (updatedAt : ℤ) :
      LeaseStep w (w.release jobId token updatedAt)
  | cancel (w : LeaseWorld) (jobId reason : String) (now : ℤ) :
      LeaseStep w (w.cancel jobId reason now)

def OwnsRow (jobs : Table String SimJob) (lease : HeldLease) : Prop :=
  ∃ row, jobs.find? lease.jobId = some row ∧ row.status = .ingesting ∧
    row.ingestLeaseToken = some lease.token ∧ row.ingestLeaseExpiresAt = some lease.expiresAt

/-- Any rows; the leases held are the ones the rows name, and every token there was handed out. -/
structure LeaseStart (w : LeaseWorld) : Prop where
  held : ∀ lease, lease ∈ w.held ↔ OwnsRow w.jobs lease
  retired : w.retired = []
  issued : ∀ jobId row token, w.jobs.find? jobId = some row → row.ingestLeaseToken = some token →
    token ∈ w.issued

/-- The invariant: a lease that does not own its row has expired, a row's lease is held, and a retired
token never stands in its row again because its number was used up. -/
structure LeaseInv (w : LeaseWorld) : Prop where
  owned : ∀ lease ∈ w.held, OwnsRow w.jobs lease ∨ lease.expiresAt ≤ w.clock
  held : ∀ lease, OwnsRow w.jobs lease → lease ∈ w.held
  retired : ∀ jobId token, (jobId, token) ∈ w.retired →
    token ∈ w.issued ∧ ∀ row, w.jobs.find? jobId = some row → row.ingestLeaseToken ≠ some token
  issued : ∀ jobId row token, w.jobs.find? jobId = some row → row.ingestLeaseToken = some token →
    token ∈ w.issued

theorem LeaseInv.start {w : LeaseWorld} (h : LeaseStart w) : LeaseInv w where
  owned lease hlease := Or.inl ((h.held lease).mp hlease)
  held lease hrow := (h.held lease).mpr hrow
  retired jobId token hmem := by
    rw [h.retired] at hmem
    cases hmem
  issued := h.issued

theorem LeaseInv.tick {w : LeaseWorld} (h : LeaseInv w) {time : ℤ} (later : w.clock ≤ time) :
    LeaseInv { w with clock := time } where
  owned lease hlease := by
    obtain hrow | hexpired := h.owned lease hlease
    · exact Or.inl hrow
    · exact Or.inr (hexpired.trans later)
  held := h.held
  retired := h.retired
  issued := h.issued

/-! ## One update -/

theorem ownsRow_modify_ne {jobs : Table String SimJob} {jobId : String} {set : SimJob → SimJob}
    {lease : HeldLease} (hne : lease.jobId ≠ jobId) :
    OwnsRow (jobs.modify jobId set) lease ↔ OwnsRow jobs lease := by
  simp only [OwnsRow, Table.find?_modify_ne jobs set hne]

theorem ownsRow_modify_self {jobs : Table String SimJob} {set : SimJob → SimJob} {lease : HeldLease}
    {row : SimJob} (hrow : jobs.find? lease.jobId = some row) :
    OwnsRow (jobs.modify lease.jobId set) lease ↔
      (set row).status = .ingesting ∧ (set row).ingestLeaseToken = some lease.token ∧
        (set row).ingestLeaseExpiresAt = some lease.expiresAt := by
  simp [OwnsRow, hrow]

theorem claimable_ingesting {jobId : String} {opts : ClaimOptions} {stops : List (String × String)}
    {row : SimJob} (hclaim : claimableForIngest jobId opts stops row = true)
    (hstatus : row.status = .ingesting) :
    (∃ expiresAt, row.ingestLeaseExpiresAt = some expiresAt ∧ expiresAt ≤ opts.now) ∨
      (row.ingestLeaseExpiresAt = none ∧ row.updatedAt + opts.leaseMs ≤ opts.now) := by
  simp only [claimableForIngest, hstatus] at hclaim
  cases hexpires : row.ingestLeaseExpiresAt with
  | some expiresAt =>
    rw [hexpires] at hclaim
    simp only [sqlLe, Option.any_some] at hclaim
    exact Or.inl ⟨expiresAt, rfl, by simpa using hclaim⟩
  | none =>
    rw [hexpires] at hclaim
    simp only [sqlLe, Option.any_none] at hclaim
    have hgrace : row.updatedAt ≤ opts.now - opts.leaseMs := by simpa using hclaim
    exact Or.inr ⟨rfl, by omega⟩

theorem claimJobForIngest_eq_some {jobs : Table String SimJob} {jobId : String}
    {opts : ClaimOptions} {stops : List (String × String)} {lease : IngestLease}
    {jobs' : Table String SimJob}
    (h : claimJobForIngest jobs jobId opts stops = some (lease, jobs')) :
    ∃ row, jobs.find? jobId = some row ∧ claimableForIngest jobId opts stops row = true ∧
      lease = ⟨jobId, opts.token, opts.now, opts.now + opts.leaseMs⟩ ∧
      jobs' = jobs.modify jobId (claimedRow opts) := by
  obtain ⟨updated, hupdate, hresult⟩ := Option.map_eq_some_iff.mp h
  obtain ⟨row, hrow, hholds, hupdated⟩ := updateWhere_eq_some.mp hupdate
  cases hresult
  exact ⟨row, hrow, hholds, rfl, by rw [hupdated]⟩

theorem renewIngestLease_eq_some {jobs jobs' : Table String SimJob} {jobId token : String}
    {now leaseMs updatedAt : ℤ}
    (h : renewIngestLease jobs jobId token now leaseMs updatedAt = some jobs') :
    ∃ row expiresAt, jobs.find? jobId = some row ∧ row.status = .ingesting ∧
      row.ingestLeaseToken = some token ∧ row.ingestLeaseExpiresAt = some expiresAt ∧
      now < expiresAt ∧ jobs' = jobs.modify jobId (renewedRow (now + leaseMs) updatedAt) := by
  obtain ⟨updated, hupdate, hresult⟩ := Option.map_eq_some_iff.mp h
  obtain ⟨row, hrow, hholds, hupdated⟩ := updateWhere_eq_some.mp hupdate
  simp only [ingestLeaseOwned, sqlGt, Bool.and_eq_true, decide_eq_true_eq,
    Option.any_eq_true] at hholds
  obtain ⟨⟨hstatus, htoken⟩, expiresAt, hexpires, hlive⟩ := hholds
  exact ⟨row, expiresAt, hrow, hstatus, htoken, hexpires, hlive, by rw [← hresult, hupdated]⟩

theorem releaseIngestLease_eq_some {jobs jobs' : Table String SimJob} {jobId token : String}
    {updatedAt : ℤ} (h : releaseIngestLeaseToRunning jobs jobId token updatedAt = some jobs') :
    ∃ row, jobs.find? jobId = some row ∧ row.status = .ingesting ∧
      row.ingestLeaseToken = some token ∧ jobs' = jobs.modify jobId (releasedRow updatedAt) := by
  obtain ⟨updated, hupdate, hresult⟩ := Option.map_eq_some_iff.mp h
  obtain ⟨row, hrow, hholds, hupdated⟩ := updateWhere_eq_some.mp hupdate
  simp only [ingestLeaseOwned, Bool.and_eq_true, decide_eq_true_eq] at hholds
  exact ⟨row, hrow, hholds.1, hholds.2, by rw [← hresult, hupdated]⟩

theorem claimSimJobCancellation_table (jobs : Table String SimJob) (jobId reason : String) (now : ℤ) :
    (claimSimJobCancellation jobs jobId reason now).2 = jobs ∨
      ∃ row, jobs.find? jobId = some row ∧ row.status ≠ .ingesting ∧
        (claimSimJobCancellation jobs jobId reason now).2 =
          jobs.modify jobId (cancelledRow reason now) := by
  unfold claimSimJobCancellation
  split
  · next row jobs' hupdate =>
    obtain ⟨before, hrow, hholds, hupdated⟩ := updateWhere_eq_some.mp hupdate
    cases hupdated
    refine Or.inr ⟨before, hrow, ?_, rfl⟩
    intro hstatus
    rw [hstatus] at hholds
    exact absurd hholds (by decide)
  · exact Or.inl rfl

theorem find?_modify_cases {jobs : Table String SimJob} {jobId jobId' : String}
    {set : SimJob → SimJob} {row' : SimJob} (h : (jobs.modify jobId set).find? jobId' = some row') :
    (jobId' = jobId ∧ ∃ row, jobs.find? jobId = some row ∧ row' = set row) ∨
      (jobId' ≠ jobId ∧ jobs.find? jobId' = some row') := by
  rw [Table.find?_modify] at h
  by_cases hid : jobId' = jobId
  · subst hid
    rw [if_pos rfl, Option.map_eq_some_iff] at h
    obtain ⟨row, hrow, hset⟩ := h
    exact Or.inl ⟨rfl, row, hrow, hset.symm⟩
  · rw [if_neg hid] at h
    exact Or.inr ⟨hid, h⟩

/-! ## The invariant along one call -/

section Calls
variable {w : LeaseWorld} {jobId token : String}

theorem owned_after_claim {opts : ClaimOptions} {stops : List (String × String)} {row : SimJob} {lease : HeldLease}
    (past : opts.now ≤ w.clock) (hrow : w.jobs.find? jobId = some row)
    (hholds : claimableForIngest jobId opts stops row = true) (hown : OwnsRow w.jobs lease) :
    OwnsRow (w.jobs.modify jobId (claimedRow opts)) lease ∨ lease.expiresAt ≤ w.clock := by
  by_cases hid : lease.jobId = jobId
  · subst hid
    obtain ⟨row', hrow', hstatus, -, hexpires⟩ := hown
    rw [hrow, Option.some.injEq] at hrow'
    subst hrow'
    -- The row names this lease, so the winning predicate read its expiry.
    obtain ⟨expiresAt, hsome, hle⟩ | ⟨hnone, -⟩ := claimable_ingesting hholds hstatus
    · rw [hexpires, Option.some.injEq] at hsome
      right
      omega
    · rw [hexpires] at hnone
      cases hnone
  · exact Or.inl ((ownsRow_modify_ne hid).mpr hown)

theorem LeaseInv.retired_by_claim (h : LeaseInv w) {row : SimJob} {jobId' : String}
    (hrow : w.jobs.find? jobId = some row) (hmem : (jobId', token) ∈ w.supersededBy jobId ++ w.retired) :
    token ∈ w.issued ∧ (jobId' ≠ jobId → ∀ row, w.jobs.find? jobId' = some row →
      row.ingestLeaseToken ≠ some token) := by
  rw [List.mem_append] at hmem
  obtain hmem | hmem := hmem
  · simp only [LeaseWorld.supersededBy, hrow, Option.bind_some, Option.mem_toList,
      Option.map_eq_some_iff, Prod.mk.injEq] at hmem
    obtain ⟨_, htoken, rfl, rfl⟩ := hmem
    exact ⟨h.issued jobId row _ hrow htoken, fun hne => absurd rfl hne⟩
  · exact ⟨(h.retired jobId' token hmem).1, fun _ => (h.retired jobId' token hmem).2⟩

theorem LeaseInv.claim (h : LeaseInv w) {opts : ClaimOptions} {stops : List (String × String)}
    (past : opts.now ≤ w.clock) (fresh : opts.token ∉ w.issued) :
    LeaseInv (w.claim jobId opts stops) := by
  unfold LeaseWorld.claim
  split
  · next lease jobs' hclaim =>
    obtain ⟨row, hrow, hholds, rfl, rfl⟩ := claimJobForIngest_eq_some hclaim
    refine ⟨?_, ?_, ?_, ?_⟩
    · intro lease hlease
      rw [List.mem_cons] at hlease
      obtain rfl | hlease := hlease
      · left
        exact (ownsRow_modify_self hrow).mpr ⟨rfl, rfl, rfl⟩
      · obtain hown | hexpired := h.owned lease hlease
        · exact owned_after_claim past hrow hholds hown
        · exact Or.inr hexpired
    · intro lease hown
      by_cases hid : lease.jobId = jobId
      · subst hid
        obtain ⟨-, htoken, hexpires⟩ := (ownsRow_modify_self hrow).mp hown
        obtain ⟨jobId, token, expiresAt⟩ := lease
        simp only [claimedRow, Option.some.injEq] at htoken hexpires
        subst htoken
        subst hexpires
        exact List.mem_cons_self
      · exact List.mem_cons_of_mem _ (h.held lease ((ownsRow_modify_ne hid).mp hown))
    · intro jobId' token hmem
      obtain ⟨hissued, helsewhere⟩ := h.retired_by_claim hrow hmem
      refine ⟨List.mem_cons_of_mem _ hissued, ?_⟩
      intro row' hrow'
      obtain ⟨-, before, -, rfl⟩ | ⟨hne, hbefore⟩ := find?_modify_cases hrow'
      · intro htoken
        simp only [claimedRow, Option.some.injEq] at htoken
        exact fresh (htoken ▸ hissued)
      · exact helsewhere hne row' hbefore
    · intro jobId' row' token hrow' htoken
      obtain ⟨-, before, -, rfl⟩ | ⟨-, hbefore⟩ := find?_modify_cases hrow'
      · simp only [claimedRow, Option.some.injEq] at htoken
        rw [← htoken]
        exact List.mem_cons_self
      · exact List.mem_cons_of_mem _ (h.issued jobId' row' token hbefore htoken)
  · exact
      { owned := h.owned
        held := h.held
        retired := fun jobId token hmem =>
          ⟨List.mem_cons_of_mem _ (h.retired jobId token hmem).1, (h.retired jobId token hmem).2⟩
        issued := fun jobId row token hrow htoken =>
          List.mem_cons_of_mem _ (h.issued jobId row token hrow htoken) }

theorem token_of_modify {jobs : Table String SimJob} {set : SimJob → SimJob}
    (hset : ∀ row token, (set row).ingestLeaseToken = some token → row.ingestLeaseToken = some token)
    {jobId' : String} {row' : SimJob} (hrow' : (jobs.modify jobId set).find? jobId' = some row')
    (htoken : row'.ingestLeaseToken = some token) :
    ∃ row, jobs.find? jobId' = some row ∧ row.ingestLeaseToken = some token := by
  obtain ⟨rfl, row, hrow, rfl⟩ | ⟨-, hrow⟩ := find?_modify_cases hrow'
  · exact ⟨row, hrow, hset row token htoken⟩
  · exact ⟨row', hrow, htoken⟩

theorem LeaseInv.of_modify (h : LeaseInv w) {set : SimJob → SimJob} {held : List HeldLease}
    {retired : List (String × String)}
    (hset : ∀ row token, (set row).ingestLeaseToken = some token → row.ingestLeaseToken = some token)
    (howned : ∀ lease ∈ held, OwnsRow (w.jobs.modify jobId set) lease ∨ lease.expiresAt ≤ w.clock)
    (hheld : ∀ lease, OwnsRow (w.jobs.modify jobId set) lease → lease ∈ held)
    (hretired : ∀ jobId' token, (jobId', token) ∈ retired → (jobId', token) ∈ w.retired ∨
      token ∈ w.issued ∧ ∀ row, (w.jobs.modify jobId set).find? jobId' = some row →
        row.ingestLeaseToken ≠ some token) :
    LeaseInv { w with jobs := w.jobs.modify jobId set, held := held, retired := retired } where
  owned := howned
  held := hheld
  retired jobId' token hmem := by
    obtain hold | hnew := hretired jobId' token hmem
    · refine ⟨(h.retired jobId' token hold).1, ?_⟩
      intro row' hrow' htoken
      obtain ⟨row, hrow, hbefore⟩ := token_of_modify hset hrow' htoken
      exact (h.retired jobId' token hold).2 row hrow hbefore
    · exact hnew
  issued jobId' row' token hrow' htoken := by
    obtain ⟨row, hrow, hbefore⟩ := token_of_modify hset hrow' htoken
    exact h.issued jobId' row token hrow hbefore

theorem LeaseInv.renew (h : LeaseInv w) {now leaseMs updatedAt : ℤ} :
    LeaseInv (w.renew jobId token now leaseMs updatedAt) := by
  unfold LeaseWorld.renew
  split
  · next jobs' hrenew =>
    obtain ⟨row, expiresAt, hrow, hstatus, htoken, hexpires, -, rfl⟩ := renewIngestLease_eq_some hrenew
    refine h.of_modify (fun _ _ ht => ht) ?_ ?_ (fun _ _ hmem => Or.inl hmem)
    · intro lease hlease
      obtain ⟨before, hbefore, rfl⟩ := List.mem_map.mp hlease
      split
      · left
        exact (ownsRow_modify_self hrow).mpr ⟨hstatus, htoken, rfl⟩
      · next hother =>
        obtain hown | hexpired := h.owned before hbefore
        · left
          apply (ownsRow_modify_ne ?_).mpr hown
          intro hid
          obtain ⟨row', hrow', -, htoken', -⟩ := hown
          rw [hid, hrow, Option.some.injEq] at hrow'
          subst hrow'
          rw [htoken, Option.some.injEq] at htoken'
          exact hother ⟨hid, htoken'.symm⟩
        · exact Or.inr hexpired
    · intro lease hown
      by_cases hid : lease.jobId = jobId
      · subst hid
        obtain ⟨-, htoken', hexpires'⟩ := (ownsRow_modify_self hrow).mp hown
        -- The renewed row names the owner it had before, whose entry was rewritten.
        have howner : OwnsRow w.jobs ⟨lease.jobId, token, expiresAt⟩ :=
          ⟨row, hrow, hstatus, htoken, hexpires⟩
        refine List.mem_map.mpr ⟨_, h.held _ howner, ?_⟩
        rw [if_pos ⟨rfl, rfl⟩]
        obtain ⟨jobId, token', expiresAt'⟩ := lease
        simp only [renewedRow, Option.some.injEq] at htoken' hexpires'
        rw [htoken, Option.some.injEq] at htoken'
        rw [htoken', hexpires']
      · have hbefore := h.held lease ((ownsRow_modify_ne hid).mp hown)
        refine List.mem_map.mpr ⟨lease, hbefore, ?_⟩
        rw [if_neg (fun hsame => hid hsame.1)]
  · exact h

theorem LeaseInv.release (h : LeaseInv w) {updatedAt : ℤ} :
    LeaseInv (w.release jobId token updatedAt) := by
  unfold LeaseWorld.release
  split
  · next jobs' hrelease =>
    obtain ⟨row, hrow, hstatus, htoken, rfl⟩ := releaseIngestLease_eq_some hrelease
    refine h.of_modify ?_ ?_ ?_ ?_
    · intro _ _ ht
      cases ht
    · intro lease hlease
      obtain ⟨hbefore, hother⟩ := List.mem_filter.mp hlease
      obtain hown | hexpired := h.owned lease hbefore
      · left
        apply (ownsRow_modify_ne ?_).mpr hown
        intro hid
        obtain ⟨row', hrow', -, htoken', -⟩ := hown
        rw [hid, hrow, Option.some.injEq] at hrow'
        subst hrow'
        rw [htoken, Option.some.injEq] at htoken'
        exact of_decide_eq_true hother ⟨hid, htoken'.symm⟩
      · exact Or.inr hexpired
    · intro lease hown
      by_cases hid : lease.jobId = jobId
      · subst hid
        obtain ⟨hstatus', -, -⟩ := (ownsRow_modify_self hrow).mp hown
        cases hstatus'
      · have hbefore := h.held lease ((ownsRow_modify_ne hid).mp hown)
        exact List.mem_filter.mpr ⟨hbefore, decide_eq_true (fun hsame => hid hsame.1)⟩
    · intro jobId' token' hmem
      rw [List.mem_cons] at hmem
      obtain hnew | hold := hmem
      · cases hnew
        refine Or.inr ⟨h.issued jobId row token hrow htoken, ?_⟩
        intro row' hrow'
        obtain ⟨-, before, -, rfl⟩ | ⟨hne, -⟩ := find?_modify_cases hrow'
        · simp [releasedRow]
        · exact absurd rfl hne
      · exact Or.inl hold
  · exact h

theorem LeaseInv.cancel (h : LeaseInv w) {reason : String} {now : ℤ} :
    LeaseInv (w.cancel jobId reason now) := by
  unfold LeaseWorld.cancel
  obtain hsame | ⟨row, hrow, hstatus, hmodify⟩ :=
    claimSimJobCancellation_table w.jobs jobId reason now
  · rw [hsame]
    exact h
  · rw [hmodify]
    refine h.of_modify (fun _ _ ht => ht) ?_ ?_ (fun _ _ hmem => Or.inl hmem)
    · intro lease hlease
      obtain hown | hexpired := h.owned lease hlease
      · left
        apply (ownsRow_modify_ne ?_).mpr hown
        intro hid
        obtain ⟨row', hrow', hstatus', -, -⟩ := hown
        rw [hid, hrow, Option.some.injEq] at hrow'
        subst hrow'
        exact hstatus hstatus'
      · exact Or.inr hexpired
    · intro lease hown
      apply h.held lease
      apply (ownsRow_modify_ne ?_).mp hown
      intro hid
      subst hid
      obtain ⟨hstatus', -, -⟩ := (ownsRow_modify_self hrow).mp hown
      cases hstatus'

end Calls

theorem LeaseInv.step (w w' : LeaseWorld) (h : LeaseInv w) (hstep : LeaseStep w w') : LeaseInv w' := by
  cases hstep with
  | tick time later => exact h.tick later
  | claim jobId opts stops past fresh => exact h.claim past fresh
  | renew jobId token now leaseMs updatedAt past => exact h.renew
  | release jobId token updatedAt => exact h.release
  | cancel jobId reason now => exact h.cancel

theorem LeaseInv.of_reachable {w : LeaseWorld} (h : Reachable LeaseStart LeaseStep w) : LeaseInv w :=
  h.invariant (fun _ hstart => LeaseInv.start hstart) LeaseInv.step

/-! ## Mutual exclusion -/

theorem LeaseInv.exclusive {w : LeaseWorld} (h : LeaseInv w) {a b : HeldLease} (ha : a ∈ w.held)
    (hb : b ∈ w.held) (hjob : a.jobId = b.jobId) (halive : w.clock < a.expiresAt)
    (hblive : w.clock < b.expiresAt) : a = b := by
  obtain ⟨row, hrow, -, htoken, hexpires⟩ := (h.owned a ha).resolve_right (by omega)
  obtain ⟨row', hrow', -, htoken', hexpires'⟩ := (h.owned b hb).resolve_right (by omega)
  rw [hjob, hrow', Option.some.injEq] at hrow
  subst hrow
  rw [htoken', Option.some.injEq] at htoken
  rw [hexpires', Option.some.injEq] at hexpires
  obtain ⟨jobId, token, expiresAt⟩ := a
  obtain ⟨jobId', token', expiresAt'⟩ := b
  simp only at hjob htoken hexpires
  rw [hjob, htoken, hexpires]

theorem LeaseInv.claim_after_expiry {w : LeaseWorld} (h : LeaseInv w) {jobId : String}
    {opts : ClaimOptions} {stops : List (String × String)} (past : opts.now ≤ w.clock)
    {row : SimJob} (hrow : w.jobs.find? jobId = some row) (hstatus : row.status = .ingesting)
    (hclaim : (claimJobForIngest w.jobs jobId opts stops).isSome) :
    ((∃ expiresAt, row.ingestLeaseExpiresAt = some expiresAt ∧ expiresAt ≤ opts.now) ∨
        (row.ingestLeaseExpiresAt = none ∧ row.updatedAt + opts.leaseMs ≤ opts.now)) ∧
      ∀ lease ∈ w.held, lease.jobId = jobId → lease.expiresAt ≤ w.clock := by
  obtain ⟨⟨lease, jobs'⟩, hsome⟩ := Option.isSome_iff_exists.mp hclaim
  obtain ⟨row', hrow', hholds, -, -⟩ := claimJobForIngest_eq_some hsome
  rw [hrow, Option.some.injEq] at hrow'
  subst hrow'
  have hfree := claimable_ingesting hholds hstatus
  refine ⟨hfree, ?_⟩
  intro lease hlease hid
  obtain ⟨row', hrow', -, -, hexpires⟩ | hexpired := h.owned lease hlease
  · rw [hid, hrow, Option.some.injEq] at hrow'
    subst hrow'
    obtain ⟨expiresAt, hsome, hle⟩ | ⟨hnone, -⟩ := hfree
    · rw [hexpires, Option.some.injEq] at hsome
      omega
    · rw [hexpires] at hnone
      cases hnone
  · exact hexpired

theorem LeaseInv.retired_powerless {w : LeaseWorld} (h : LeaseInv w) {jobId token : String}
    (hretired : (jobId, token) ∈ w.retired) (now leaseMs updatedAt : ℤ) :
    renewIngestLease w.jobs jobId token now leaseMs updatedAt = none ∧
      releaseIngestLeaseToRunning w.jobs jobId token updatedAt = none := by
  obtain ⟨-, hgone⟩ := h.retired jobId token hretired
  constructor
  · rw [Option.eq_none_iff_forall_ne_some]
    intro jobs' hrenew
    obtain ⟨row, -, hrow, -, htoken, -⟩ := renewIngestLease_eq_some hrenew
    exact hgone row hrow htoken
  · rw [Option.eq_none_iff_forall_ne_some]
    intro jobs' hrelease
    obtain ⟨row, hrow, -, htoken, -⟩ := releaseIngestLease_eq_some hrelease
    exact hgone row hrow htoken

theorem cancellation_refused {jobs : Table String SimJob} {jobId : String} {row : SimJob}
    (hrow : jobs.find? jobId = some row) (hstatus : row.status = .ingesting) (reason : String)
    (now : ℤ) :
    claimSimJobCancellation jobs jobId reason now = (.notCancellable (some .ingesting), jobs) := by
  have hnone : updateWhere jobs jobId (fun row => cancellableSimJobStatuses.contains row.status)
      (cancelledRow reason now) = none := by
    rw [updateWhere, hrow]
    refine if_neg ?_
    rw [hstatus]
    decide
  rw [claimSimJobCancellation, hnone]
  simp [hrow, hstatus]

theorem LeaseInv.shielded {w : LeaseWorld} (h : LeaseInv w) {lease : HeldLease}
    (hlease : lease ∈ w.held) (hlive : w.clock < lease.expiresAt) :
    ∃ row, w.jobs.find? lease.jobId = some row ∧ row.status = .ingesting ∧
      outsideLiveSimJobIngestLease w.clock row = false := by
  obtain ⟨row, hrow, hstatus, -, hexpires⟩ := (h.owned lease hlease).resolve_right (by omega)
  refine ⟨row, hrow, hstatus, ?_⟩
  simp only [outsideLiveSimJobIngestLease, hstatus, hexpires, sqlLe]
  simpa using hlive

/-- Ingest ownership in every state that any order of calls reaches: the unexpired leases of one job are
at most one, and the row of its job names it; an ingesting job is claimed again only after its leases
expired, or after the grace of a row without expiry; a superseded or released token neither renews nor
releases; and a job that is being ingested is not cancelled. -/
theorem ingest_lease_exclusive (w : LeaseWorld) (h : Reachable LeaseStart LeaseStep w) :
    ((∀ lease, OwnsRow w.jobs lease → lease ∈ w.held) ∧
      ∀ a ∈ w.held, ∀ b ∈ w.held, a.jobId = b.jobId → w.clock < a.expiresAt →
        w.clock < b.expiresAt → a = b) ∧
    (∀ jobId opts stops row, opts.now ≤ w.clock → w.jobs.find? jobId = some row →
      row.status = .ingesting → (claimJobForIngest w.jobs jobId opts stops).isSome →
      ((∃ expiresAt, row.ingestLeaseExpiresAt = some expiresAt ∧ expiresAt ≤ opts.now) ∨
          (row.ingestLeaseExpiresAt = none ∧ row.updatedAt + opts.leaseMs ≤ opts.now)) ∧
        ∀ lease ∈ w.held, lease.jobId = jobId → lease.expiresAt ≤ w.clock) ∧
    (∀ jobId token now leaseMs updatedAt, (jobId, token) ∈ w.retired →
      renewIngestLease w.jobs jobId token now leaseMs updatedAt = none ∧
        releaseIngestLeaseToRunning w.jobs jobId token updatedAt = none) ∧
    (∀ lease ∈ w.held, w.clock < lease.expiresAt → ∃ row, w.jobs.find? lease.jobId = some row ∧
      row.status = .ingesting ∧ outsideLiveSimJobIngestLease w.clock row = false) ∧
    (∀ jobId row reason now, w.jobs.find? jobId = some row → row.status = .ingesting →
      claimSimJobCancellation w.jobs jobId reason now =
        (.notCancellable (some .ingesting), w.jobs)) := by
  have hinv := LeaseInv.of_reachable h
  refine ⟨⟨hinv.held, ?_⟩, ?_, ?_, ?_, ?_⟩
  · intro a ha b hb hjob halive hblive
    exact hinv.exclusive ha hb hjob halive hblive
  · intro jobId opts stops row past hrow hstatus hclaim
    exact hinv.claim_after_expiry past hrow hstatus hclaim
  · intro jobId token now leaseMs updatedAt hretired
    exact hinv.retired_powerless hretired now leaseMs updatedAt
  · intro lease hlease hlive
    exact hinv.shielded hlease hlive
  · intro jobId row reason now hrow hstatus
    exact cancellation_refused hrow hstatus reason now

def leaseWorldAtRest : LeaseWorld where
  clock := 0
  jobs := ⟨[("job", ⟨.running, some "engine", false, none, none, none, none, none, none, none, 0⟩)],
    by decide⟩
  held := []
  retired := []
  issued := []

theorem leaseStart_atRest : LeaseStart leaseWorldAtRest where
  held lease := by
    constructor
    · intro hmem
      cases hmem
    · rintro ⟨row, hrow, hstatus, -, -⟩
      have hmem := Table.mem_of_find? hrow
      simp only [leaseWorldAtRest, List.mem_singleton, Prod.mk.injEq] at hmem
      rw [hmem.2] at hstatus
      cases hstatus
  retired := rfl
  issued jobId row token hrow htoken := by
    have hmem := Table.mem_of_find? hrow
    simp only [leaseWorldAtRest, List.mem_singleton, Prod.mk.injEq] at hmem
    rw [hmem.2] at htoken
    cases htoken

def leaseWorldSuperseded : LeaseWorld :=
  LeaseWorld.claim
    { leaseWorldAtRest.claim "job" ⟨"first", 0, 600000, false, 0⟩ [] with clock := 600000 }
    "job" ⟨"second", 600000, 600000, false, 600000⟩ []

theorem ingest_lease_exclusive_superseded :
    leaseWorldSuperseded.retired = [("job", "first")] ∧
      renewIngestLease leaseWorldSuperseded.jobs "job" "first" 600000 600000 600000 = none := by
  have hreach : Reachable LeaseStart LeaseStep leaseWorldSuperseded := by
    have hrest := (Reachable.start leaseStart_atRest : Reachable LeaseStart LeaseStep leaseWorldAtRest)
    have hfirst := hrest.next
      (LeaseStep.claim _ "job" ⟨"first", 0, 600000, false, 0⟩ [] (by decide) (by decide))
    have htick := hfirst.next (LeaseStep.tick _ 600000 (by decide))
    exact htick.next
      (LeaseStep.claim _ "job" ⟨"second", 600000, 600000, false, 600000⟩ [] (by decide) (by decide))
  have hretired : leaseWorldSuperseded.retired = [("job", "first")] := by decide
  obtain ⟨-, -, hpowerless, -⟩ := ingest_lease_exclusive leaseWorldSuperseded hreach
  exact ⟨hretired, (hpowerless "job" "first" 600000 600000 600000 (by rw [hretired]; simp)).1⟩

end XFoilFoam.Sweeper
