import XFoilFoam.Foundations.Runs
import XFoilFoam.Precalc.Requeue
import XFoilFoam.Precalc.Settlement

/-! The operations on obligations as the actions of one system.  Each is a transaction under the row locks it takes, so
a run of several sweepers is a sequence of them. -/
namespace XFoilFoam.Precalc
set_option autoImplicit false

variable {F : Type} [Binary64 F]

inductive Action (F : Type) where
  /-- A new obligation, with no attempt and no lease. -/
  | enroll (id : String) (o : Obligation)
  | compose (a : Admission) (spec : Composition F)
  | record (jobId : String) (obligationIds : List String)
  /-- A terminal settlement of a job there is, first or late, with whatever its caller knows of it. -/
  | settle (jobId : String) (job : SimJob F) (opts : SettlementOptions) (now : ℕ)
  | requeue (scope : String → Bool)
  /-- Evidence comes in, jobs change, owners come and go. -/
  | observe (world : World F)

def keepsJobs (w w' : World F) : Bool := w.jobs.rows.all fun job => (w'.jobs.find? job.1).isSome

/-- The action, or nothing where it fails or does not apply. -/
def perform (s : Store F) : Action F → Store F
  | .enroll id o =>
    if o.attemptCount = 0 ∧ o.latestSimJobId = none then
      { s with obligations := (s.obligations.insert? id ⟨o, [], Ledger.apart_nil⟩).getD s.obligations }
    else s
  | .compose a spec =>
    match composePhysicalPrecalcJob s a spec with
    | .ok (some s') => s'
    | _ => s
  | .record jobId obligationIds =>
    match recordPrecalcObligationSubmission s jobId obligationIds with
    | .ok s' => s'
    | .error _ => s
  | .settle jobId job opts now =>
    if (s.world.jobs.find? jobId).isSome then
      { s with obligations := settlePrecalcObligationsForJob s.world jobId job opts now s.obligations }
    else s
  | .requeue scope =>
    match requeueRestartablePrecalcContinuations s.world scope s.obligations with
    | .ok obligations => { s with obligations := obligations }
    | .error _ => s
  | .observe world => if keepsJobs s.world world then { s with world := world } else s

def Started (s : Store F) : Prop := s.obligations = .empty

/-! ## Effects on one obligation -/

section Effects
variable {s : Store F} {id : String} {l' : Ledger F}

theorem enroll_cases {id₀ : String} {o : Obligation}
    (h : (perform s (.enroll id₀ o)).obligations.find? id = some l') :
    s.obligations.find? id = some l' ∨
      s.obligations.find? id = none ∧ l' = ⟨o, [], .nil⟩ ∧ o.attemptCount = 0 ∧ o.latestSimJobId = none := by
  simp only [perform] at h
  split at h
  · rename_i hfresh
    cases hinsert : s.obligations.insert? id₀ ⟨o, [], .nil⟩ with
    | none =>
      rw [hinsert] at h
      exact .inl h
    | some t =>
      rw [hinsert, Option.getD_some, Table.find?_insert hinsert] at h
      obtain h | ⟨rfl, rfl⟩ := h
      · exact .inl h
      · exact .inr ⟨Table.find?_eq_none (Table.insert?_rows hinsert).1, rfl, hfresh⟩
  · exact .inl h

theorem enroll_world (id₀ : String) (o : Obligation) : (perform s (.enroll id₀ o)).world = s.world := by
  simp only [perform]
  split <;> rfl

theorem compose_cases (a : Admission) (spec : Composition F) :
    perform s (.compose a spec) = s ∨
      composePhysicalPrecalcJob s a spec = .ok (some (perform s (.compose a spec))) := by
  simp only [perform]
  split
  · rename_i s' h
    exact .inr h
  · exact .inl rfl

theorem record_cases (jobId : String) (ids : List String) :
    perform s (.record jobId ids) = s ∨
      recordPrecalcObligationSubmission s jobId ids = .ok (perform s (.record jobId ids)) := by
  simp only [perform]
  split
  · rename_i s' h
    exact .inr h
  · exact .inl rfl

theorem settle_cases {jobId : String} {job : SimJob F} {opts : SettlementOptions} {now : ℕ}
    (h : (perform s (.settle jobId job opts now)).obligations.find? id = some l') :
    ∃ l, s.obligations.find? id = some l ∧
      (l' = l ∨ (s.world.jobs.find? jobId).isSome = true ∧
        ((precalcObligationIds job.requestPayload).contains id && ofJobCell job l.obligation) = true ∧
        l' = settleLedger (settlingOf jobId job now) (judgementOf s.world jobId job opts s.obligations id l) l) := by
  simp only [perform] at h
  split at h
  · rename_i hknown
    rw [settlePrecalcObligationsForJob, Table.find?_map, Option.map_eq_some_iff] at h
    obtain ⟨l, hfind, hl'⟩ := h
    refine ⟨l, hfind, ?_⟩
    split at hl'
    · rename_i hlisted
      exact .inr ⟨hknown, hlisted, hl'.symm⟩
    · exact .inl hl'.symm
  · exact ⟨l', h, .inl rfl⟩

theorem settle_world (jobId : String) (job : SimJob F) (opts : SettlementOptions) (now : ℕ) :
    (perform s (.settle jobId job opts now)).world = s.world := by
  simp only [perform]
  split <;> rfl

theorem requeue_effect {scope : String → Bool} (h : (perform s (.requeue scope)).obligations.find? id = some l') :
    ∃ l, s.obligations.find? id = some l ∧
      (l' = l ∨ reopenable s.world id l.obligation = true ∧ requeueLedger s.world id l = .ok l') := by
  simp only [perform] at h
  split at h
  · rename_i obligations hok
    exact requeue_cases hok h
  · exact ⟨l', h, .inl rfl⟩

theorem requeue_world (scope : String → Bool) : (perform s (.requeue scope)).world = s.world := by
  simp only [perform]
  split <;> rfl

theorem observe_jobs {world : World F} {jobId : String} (h : (s.world.jobs.find? jobId).isSome = true) :
    ((perform s (.observe world)).world.jobs.find? jobId).isSome = true := by
  simp only [perform]
  split
  · rename_i hkeeps
    obtain ⟨job, hjob⟩ := Option.isSome_iff_exists.mp h
    exact List.all_eq_true.mp hkeeps (jobId, job) (Table.mem_of_find? hjob)
  · exact h

theorem observe_obligations (world : World F) : (perform s (.observe world)).obligations = s.obligations := by
  simp only [perform]
  split <;> rfl

theorem perform_isSome (action : Action F) (h : (s.obligations.find? id).isSome = true) :
    ((perform s action).obligations.find? id).isSome = true := by
  cases action with
  | enroll id₀ o =>
    simp only [perform]
    split
    · cases hinsert : s.obligations.insert? id₀ ⟨o, [], .nil⟩ with
      | none => exact h
      | some t =>
        obtain ⟨l, hl⟩ := Option.isSome_iff_exists.mp h
        exact Option.isSome_of_eq_some ((Table.find?_insert hinsert).mpr (.inl hl))
    · exact h
  | compose a spec =>
    obtain hsame | hok := compose_cases (s := s) a spec
    · rw [hsame]
      exact h
    · obtain ⟨-, -, -, jobs, -, hstore⟩ := composePhysicalPrecalcJob_cases hok
      rw [hstore, Table.find?_map, Option.isSome_map]
      exact h
  | record jobId ids =>
    obtain hsame | hok := record_cases (s := s) jobId ids
    · rw [hsame]
      exact h
    · rw [(recordPrecalcObligationSubmission_cases hok).2.1]
      exact h
  | settle jobId job opts now =>
    simp only [perform]
    split
    · rw [settlePrecalcObligationsForJob, Table.find?_map, Option.isSome_map]
      exact h
    · exact h
  | requeue scope =>
    simp only [perform]
    split
    · rename_i obligations hok
      rw [requeue_isSome hok]
      exact h
    · exact h
  | observe world =>
    rw [observe_obligations]
    exact h

end Effects

/-! ## A first job -/

def freshComposition (jobId : String) : Composition ExactNum where
  obligationIds := ["obligation"]
  jobId := jobId
  job := { solveJob ["obligation"] with status := .pending, engineJobId := none }
  directParent := none

def openAdmission : Admission := ⟨0, [], none⟩

def quietStore : Store ExactNum := ⟨quietWorld, .empty⟩

end XFoilFoam.Precalc
