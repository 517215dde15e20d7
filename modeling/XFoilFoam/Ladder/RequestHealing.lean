import XFoilFoam.Ladder.VerifyQueue

/-! `healOrphanedUransRequests`: what becomes of URANS requests whose process or job is gone, beside the projection that
settlement uses for a PRECALC request. -/
namespace XFoilFoam.Ladder
open Sweeper (SimJobStatus)
open Precalc (ObligationState liveStatus)
open Progressive (CampaignStatus)
set_option autoImplicit false

/-! ## Rows -/

/-- The columns of `sim_urans_requests` that are read, with the rows of `sim_urans_request_campaigns`. -/
structure UransRequest where
  fidelity : UransFidelity
  state : RequestState
  backgroundOwner : Bool
  owners : List Ownership
  simJobId : Option String
  updatedAt : ℕ

/-- The columns of `sim_jobs` that are read; `uransRequestId` stands in the payload. -/
structure LadderJob where
  uransRequestId : Option String
  status : SimJobStatus
  engineState : Option String
  engineJobId : Option String
  submittedAt : Option ℕ
  updatedAt : ℕ

/-- The submit was rejected: the engine never accepted the job. -/
def LadderJob.rejected (job : LadderJob) : Bool := decide (job.status = .failed) && decide (job.engineJobId = none)

/-- `coverage` are the pairs of `sim_precalc_obligation_requests`, request first. -/
structure RequestStore where
  now : ℕ
  campaigns : Table String CampaignStatus
  requests : Table String UransRequest
  jobs : Table String LadderJob
  obligations : Table String ObligationState
  coverage : List (String × String)

/-- Which of several joined rows an `UPDATE … FROM` takes is the database's choice. -/
structure JoinChoice where
  pick : List (String × LadderJob) → Option (String × LadderJob)
  mem : ∀ rows row, pick rows = some row → row ∈ rows
  total : ∀ rows, rows ≠ [] → (pick rows).isSome = true

def JoinChoice.first : JoinChoice where
  pick := List.head?
  mem _ _ h := List.mem_of_mem_head? h
  total rows h := by
    cases rows with
    | nil => exact absurd rfl h
    | cons row rows => rfl

namespace RequestStore

/-! ## The projection -/

def covered (s : RequestStore) (requestId : String) : List ObligationState :=
  s.coverage.filterMap fun row => if row.1 = requestId then s.obligations.find? row.2 else none

def anyCovered (s : RequestStore) (requestId : String) (states : List ObligationState) : Bool :=
  (s.covered requestId).any fun state => decide (state ∈ states)

def precalcRequestStateFromObligations (s : RequestStore) (requestId : String) : RequestState :=
  if s.anyCovered requestId [.pending, .running] then .pending
  else if s.anyCovered requestId [.blocked] then .blocked
  else if s.anyCovered requestId [.satisfied] then .done
  else .cancelled

def projectSettledRequest (s : RequestStore) (jobId : String) : RequestStore :=
  match (s.jobs.find? jobId).bind LadderJob.uransRequestId with
  | none => s
  | some requestId =>
    let state := s.precalcRequestStateFromObligations requestId
    { s with requests := s.requests.modify requestId fun request =>
        if request.fidelity = .precalc ∧ request.state = .running ∧ request.simJobId = some jobId then
          { request with
            state := state
            simJobId := if state = .pending then none else some jobId
            updatedAt := s.now }
        else request }

/-! ## Healing -/

def inRequestScope (requestIds : Option (List String)) (requestId : String) : Bool :=
  requestIds.all fun ids => decide (requestId ∈ ids)

/-- The job is the one the request is bound to, or its payload names the request. -/
def jobOf (requestId : String) (request : UransRequest) (jobId : String) (job : LadderJob) : Bool :=
  decide (request.simJobId = some jobId) || decide (job.uransRequestId = some requestId)

def frozenOwner (s : RequestStore) (request : UransRequest) : Bool :=
  ownedBy s.campaigns (campaignStates true) request.owners

def reachedEngine (job : LadderJob) : Bool :=
  job.engineJobId.isSome || job.submittedAt.isSome ||
    decide (job.status ∈ [SimJobStatus.submitted, .running, .ingesting, .done, .failed])

def ownerless (s : RequestStore) (requestIds : Option (List String)) (requestId : String) (request : UransRequest) :
    Bool :=
  (decide (request.state = .pending) || decide (request.state = .running)) && inRequestScope requestIds requestId &&
    !request.backgroundOwner && !s.frozenOwner request &&
    (decide (request.state = .pending) ||
      !s.jobs.rows.any fun row => jobOf requestId request row.1 row.2 && reachedEngine row.2)

def cancelOwnerlessRequests (s : RequestStore) (requestIds : Option (List String)) : RequestStore :=
  { s with requests := s.requests.map fun requestId request =>
      if s.ownerless requestIds requestId request then
        { request with state := .cancelled, simJobId := none, updatedAt := s.now }
      else request }

def terminalJobs (s : RequestStore) (requestIds : Option (List String)) (requestId : String) (request : UransRequest) :
    List (String × LadderJob) :=
  s.jobs.rows.filter fun row =>
    decide (request.state = .running) && inRequestScope requestIds requestId && decide (request.fidelity = .precalc) &&
      jobOf requestId request row.1 row.2 && decide (row.2.status ∈ [SimJobStatus.done, .failed])

/-- The `CASE` of the terminal update. -/
def terminalState (s : RequestStore) (requestId : String) (request : UransRequest) (job : LadderJob) : RequestState :=
  if job.rejected && decide (request.fidelity = .precalc) && s.anyCovered requestId [.pending, .running] then .pending
  else if job.rejected && decide (request.fidelity = .precalc) &&
      s.coverage.any (fun row => decide (row.1 = requestId)) then .done
  else if job.rejected then .cancelled
  else .done

def terminalSimJobId (s : RequestStore) (requestId : String) (request : UransRequest) (jobId : String)
    (job : LadderJob) : Option String :=
  if job.rejected && decide (request.fidelity = .precalc) && s.anyCovered requestId [.pending, .running] then none
  else some jobId

def settleTerminalRequests (s : RequestStore) (requestIds : Option (List String)) (choice : JoinChoice) :
    RequestStore :=
  { s with requests := s.requests.map fun requestId request =>
      match choice.pick (s.terminalJobs requestIds requestId request) with
      | none => request
      | some (jobId, job) =>
        { request with
          state := s.terminalState requestId request job
          simJobId := s.terminalSimJobId requestId request jobId job
          updatedAt := s.now } }

def stale (s : RequestStore) (updatedAt : ℕ) : Bool := decide (updatedAt + 5 * 60000 < s.now)

def cancelOrphanedCompositions (s : RequestStore) (requestIds : Option (List String)) : RequestStore :=
  { s with jobs := s.jobs.map fun jobId job =>
      if (s.requests.rows.any fun row =>
          decide (row.2.state = .running) && inRequestScope requestIds row.1 && s.stale row.2.updatedAt &&
            jobOf row.1 row.2 jobId job) && decide (job.status = .pending) && s.stale job.updatedAt then
        { job with status := .cancelled, engineState := some "cancelled", updatedAt := s.now }
      else job }

/-- `REQUEST_CLAIM_RELEASE_STATE_SQL`. -/
def claimReleaseState (s : RequestStore) (request : UransRequest) : RequestState :=
  if request.backgroundOwner || s.frozenOwner request then .pending else .cancelled

def returnOrphanedRequests (s : RequestStore) (requestIds : Option (List String)) : RequestStore :=
  { s with requests := s.requests.map fun requestId request =>
      if request.state = .running ∧ inRequestScope requestIds requestId = true ∧
          (s.jobs.rows.any fun row => jobOf requestId request row.1 row.2 && (liveStatus row.2.status ||
            decide (row.2.status ∈ [SimJobStatus.done, .failed]))) = false ∧
          s.stale request.updatedAt = true then
        { request with state := s.claimReleaseState request, simJobId := none, updatedAt := s.now }
      else request }

/-- `refresh` is `refreshFullUransRequestStateInTransaction`, which projects full requests and no others. -/
def refreshFullRequests (s : RequestStore) (requestIds : Option (List String))
    (refresh : RequestStore → String → UransRequest → UransRequest) : RequestStore :=
  { s with requests := s.requests.map fun requestId request =>
      if request.fidelity = .full ∧ request.state ≠ .cancelled ∧ inRequestScope requestIds requestId = true then
        refresh s requestId request
      else request }

def healOrphanedUransRequests (s : RequestStore) (requestIds : Option (List String)) (choice : JoinChoice)
    (refresh : RequestStore → String → UransRequest → UransRequest) : RequestStore :=
  ((((s.cancelOwnerlessRequests requestIds).settleTerminalRequests requestIds choice).cancelOrphanedCompositions
    requestIds).returnOrphanedRequests requestIds).refreshFullRequests requestIds refresh

/-! ## The request that is settled from a terminal job -/

section Settled
variable {s : RequestStore} {requestIds : Option (List String)} {choice : JoinChoice} {requestId jobId : String}
  {request : UransRequest} {job : LadderJob}

theorem mem_terminalJobs (h : (jobId, job) ∈ s.terminalJobs requestIds requestId request) :
    (jobId, job) ∈ s.jobs.rows ∧ request.state = .running ∧ request.fidelity = .precalc ∧
      jobOf requestId request jobId job = true ∧ job.status ∈ [SimJobStatus.done, .failed] := by
  rw [terminalJobs, List.mem_filter] at h
  simp only [Bool.and_eq_true, decide_eq_true_eq] at h
  obtain ⟨hrow, ⟨⟨⟨hruns, -⟩, hprecalc⟩, hjob⟩, hstatus⟩ := h
  exact ⟨hrow, hruns, hprecalc, hjob, hstatus⟩

theorem ownerless_of_terminal (h : (jobId, job) ∈ s.terminalJobs requestIds requestId request) :
    s.ownerless requestIds requestId request = false := by
  obtain ⟨hrow, hruns, -, hjob, hstatus⟩ := mem_terminalJobs h
  have hreached : reachedEngine job = true := by
    have hmember : job.status ∈ [SimJobStatus.submitted, .running, .ingesting, .done, .failed] := by
      simp only [List.mem_cons, List.not_mem_nil, or_false] at hstatus ⊢
      tauto
    simp [reachedEngine, hmember]
  have hany : (s.jobs.rows.any fun row => jobOf requestId request row.1 row.2 && reachedEngine row.2) = true :=
    List.any_eq_true.2 ⟨(jobId, job), hrow, by simp [hjob, hreached]⟩
  simp [ownerless, hany, hruns]

theorem find?_cancelOwnerlessRequests (hrequest : s.requests.find? requestId = some request)
    (h : (jobId, job) ∈ s.terminalJobs requestIds requestId request) :
    (s.cancelOwnerlessRequests requestIds).requests.find? requestId = some request := by
  rw [cancelOwnerlessRequests, Table.find?_map, hrequest, Option.map_some, ownerless_of_terminal h]
  rfl

theorem terminalState_of_accepted (h : job.rejected = false) : s.terminalState requestId request job = .done := by
  simp [terminalState, h]

theorem healed_state (hrequest : s.requests.find? requestId = some request)
    (hpick : choice.pick (s.terminalJobs requestIds requestId request) = some (jobId, job))
    (haccepted : job.rejected = false) (refresh : RequestStore → String → UransRequest → UransRequest) :
    ((s.healOrphanedUransRequests requestIds choice refresh).requests.find? requestId).map UransRequest.state =
      some .done := by
  have hmem := choice.mem _ _ hpick
  obtain ⟨-, -, hprecalc, -, -⟩ := mem_terminalJobs hmem
  obtain ⟨settled, hsettled, hdone, hfidelity⟩ : ∃ settled,
      ((s.cancelOwnerlessRequests requestIds).settleTerminalRequests requestIds choice).requests.find? requestId =
        some settled ∧ settled.state = .done ∧ settled.fidelity = .precalc := by
    rw [settleTerminalRequests, Table.find?_map, find?_cancelOwnerlessRequests hrequest hmem, Option.map_some]
    have hpick' : choice.pick ((s.cancelOwnerlessRequests requestIds).terminalJobs requestIds requestId request) =
        some (jobId, job) := hpick
    rw [hpick']
    exact ⟨_, rfl, terminalState_of_accepted haccepted, hprecalc⟩
  have hreturn : (((s.cancelOwnerlessRequests requestIds).settleTerminalRequests requestIds
      choice).cancelOrphanedCompositions requestIds |>.returnOrphanedRequests requestIds).requests.find? requestId =
        some settled := by
    rw [returnOrphanedRequests, Table.find?_map, cancelOrphanedCompositions, hsettled, Option.map_some,
      if_neg (by simp [hdone])]
  rw [healOrphanedUransRequests, refreshFullRequests, Table.find?_map, hreturn, Option.map_some,
    if_neg (by simp [hfidelity]), Option.map_some, hdone]

theorem anyCovered_iff {states : List ObligationState} :
    s.anyCovered requestId states = true ↔ ∃ state ∈ s.covered requestId, state ∈ states := by
  simp [anyCovered]

theorem projection_done_iff :
    s.precalcRequestStateFromObligations requestId = .done ↔
      (∀ state ∈ s.covered requestId, state = .satisfied ∨ state = .cancelled) ∧
        ObligationState.satisfied ∈ s.covered requestId := by
  rw [precalcRequestStateFromObligations]
  constructor
  · intro h
    split at h
    · cases h
    · split at h
      · cases h
      · split at h
        · rename_i hopen hblocked hsatisfied
          rw [anyCovered_iff] at hopen hblocked hsatisfied
          push Not at hopen hblocked
          obtain ⟨state, hstate, hsatisfied⟩ := hsatisfied
          rw [List.mem_singleton] at hsatisfied
          subst hsatisfied
          refine ⟨?_, hstate⟩
          intro other hother
          have h₁ := hopen other hother
          have h₂ := hblocked other hother
          cases other <;> simp at h₁ h₂ ⊢
        · cases h
  · rintro ⟨hall, hsatisfied⟩
    have hnone : ∀ states : List ObligationState, ObligationState.satisfied ∉ states →
        ObligationState.cancelled ∉ states → ¬ s.anyCovered requestId states = true := by
      intro states h₁ h₂ hany
      obtain ⟨state, hstate, hmem⟩ := anyCovered_iff.1 hany
      obtain rfl | rfl := hall state hstate
      · exact h₁ hmem
      · exact h₂ hmem
    rw [if_neg (hnone _ (by simp) (by simp)), if_neg (hnone _ (by simp) (by simp)),
      if_pos (anyCovered_iff.2 ⟨_, hsatisfied, List.mem_singleton.2 rfl⟩)]

theorem settled_state (hjob : s.jobs.find? jobId = some job) (hpayload : job.uransRequestId = some requestId)
    (hrequest : s.requests.find? requestId = some request) (hprecalc : request.fidelity = .precalc)
    (hruns : request.state = .running) (hbound : request.simJobId = some jobId) :
    ((s.projectSettledRequest jobId).requests.find? requestId).map UransRequest.state =
      some (s.precalcRequestStateFromObligations requestId) := by
  have hpayload' : (s.jobs.find? jobId).bind LadderJob.uransRequestId = some requestId := by
    rw [hjob]
    exact hpayload
  rw [projectSettledRequest, hpayload']
  dsimp only
  rw [Table.find?_modify_self, hrequest, Option.map_some, if_pos ⟨hprecalc, hruns, hbound⟩, Option.map_some]

/-- The healer agrees with the shared projection exactly when the request's covered obligations are all satisfied or
cancelled, and at least one is satisfied. -/
theorem healed_state_eq_projection_iff (hrequest : s.requests.find? requestId = some request)
    (hpick : choice.pick (s.terminalJobs requestIds requestId request) = some (jobId, job))
    (haccepted : job.rejected = false) (refresh : RequestStore → String → UransRequest → UransRequest) :
    ((s.healOrphanedUransRequests requestIds choice refresh).requests.find? requestId).map UransRequest.state =
        some (s.precalcRequestStateFromObligations requestId) ↔
      (∀ state ∈ s.covered requestId, state = .satisfied ∨ state = .cancelled) ∧
        ObligationState.satisfied ∈ s.covered requestId := by
  rw [healed_state hrequest hpick haccepted refresh, Option.some.injEq, eq_comm]
  exact projection_done_iff

end Settled

/-! ## A sweeper that died after ingest -/

def strandedRequest : UransRequest where
  fidelity := .precalc
  state := .running
  backgroundOwner := true
  owners := []
  simJobId := some "job"
  updatedAt := 0

def ingestedJob : LadderJob where
  uransRequestId := some "request"
  status := .done
  engineState := some "completed"
  engineJobId := some "engine-job"
  submittedAt := some 0
  updatedAt := 0

def strandedStore (low high : ObligationState) : RequestStore where
  now := 0
  campaigns := Table.empty
  requests := ⟨[("request", strandedRequest)], List.nodup_singleton _⟩
  jobs := ⟨[("job", ingestedJob)], List.nodup_singleton _⟩
  obligations := ⟨[("low", low), ("high", high)], by simp⟩
  coverage := [("request", "low"), ("request", "high")]

theorem satisfied_request_healed :
    (((strandedStore .satisfied .cancelled).healOrphanedUransRequests none .first fun _ _ r => r).requests.find?
        "request").map UransRequest.state =
      some ((strandedStore .satisfied .cancelled).precalcRequestStateFromObligations "request") := by
  have hrequest : (strandedStore .satisfied .cancelled).requests.find? "request" = some strandedRequest := rfl
  have hpick : JoinChoice.first.pick ((strandedStore .satisfied .cancelled).terminalJobs none "request"
      strandedRequest) = some ("job", ingestedJob) := rfl
  refine (healed_state_eq_projection_iff hrequest hpick rfl fun _ _ r => r).2 ⟨?_, ?_⟩
  · intro state hstate
    simpa [covered, strandedStore, Table.find?] using hstate
  · exact List.mem_cons_self

/-- One angle is still open.  Settlement would leave the request pending; the healer closes it. -/
theorem open_request_closed :
    (((strandedStore .satisfied .pending).healOrphanedUransRequests none .first fun _ _ r => r).requests.find?
        "request").map UransRequest.state = some .done ∧
      (strandedStore .satisfied .pending).precalcRequestStateFromObligations "request" = .pending ∧
      (((strandedStore .satisfied .pending).projectSettledRequest "job").requests.find? "request").map
        UransRequest.state = some .pending := by
  have hjob : (strandedStore .satisfied .pending).jobs.find? "job" = some ingestedJob := rfl
  have hrequest : (strandedStore .satisfied .pending).requests.find? "request" = some strandedRequest := rfl
  exact ⟨rfl, rfl, settled_state hjob rfl hrequest rfl rfl rfl⟩

end RequestStore

end XFoilFoam.Ladder
