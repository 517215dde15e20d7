import XFoilFoam.Foundations.SqlTruth
import XFoilFoam.Progressive.Budget

/-! Which targets of a generation may be computed now: `progressiveCfdAdmissionSql`, as correlated subqueries and over the
frontier that a claim materialises once. -/
namespace XFoilFoam.Progressive
set_option autoImplicit false

/-! ## Tables -/

def subsonicThroughPrecisePolicy : String := "subsonic-through-precise-v1"

inductive Cohort
  | low | high
deriving DecidableEq

inductive CursorStatus
  | active | complete | attention
deriving DecidableEq

/-- The columns of `progressive_generations` that the predicates read. -/
structure GenerationRow where
  campaignId : Uuid
  epochId : Uuid
  planRevisionId : Uuid
  status : GenerationStatus

structure ScopeRequest where
  requestedVersion : ℕ
  processedVersion : ℕ
  error : Option String

/-- Primary keys are keys; of the columns only the plan revision of a campaign and the error of a request can be null. -/
structure PolicyTables where
  currentPlanRevisionId : Table Uuid (Option Uuid)
  policies : Table Uuid String
  generations : Table Uuid GenerationRow
  cursors : Table (Uuid × Cohort) CursorStatus
  cohortTargets : Table (Uuid × String) Cohort
  scopeRequests : Table Uuid ScopeRequest

structure LowRow where
  generation : GenerationRow
  currentPlanRevisionId : Option Uuid
  cursor : CursorStatus

namespace PolicyTables
variable (db : PolicyTables)

def lowRows : List LowRow :=
  db.generations.rows.filterMap fun row =>
    match db.currentPlanRevisionId.find? row.2.campaignId, db.cursors.find? (row.1, .low) with
    | some plan, some cursor => some ⟨row.2, plan, cursor⟩
    | _, _ => none

/-! ## Predicates -/

/-- `progressiveExecutionPolicySql`. -/
def progressiveExecutionPolicy (campaignId : Uuid) : SqlTruth :=
  SqlTruth.existsRow db.policies.rows fun row =>
    (SqlTruth.ofBool (row.1 == campaignId)).and (SqlTruth.ofBool (row.2 == subsonicThroughPrecisePolicy))

/-- The `WHERE` over the low cursors, for a campaign and an epoch. -/
def unfinishedLow (campaignId epochId : Uuid) (row : LowRow) : SqlTruth :=
  ((((SqlTruth.ofBool (row.generation.campaignId == campaignId)).and
    (SqlTruth.ofBool (row.generation.epochId == epochId))).and
    (SqlTruth.compare (· == ·) (some row.generation.planRevisionId) row.currentPlanRevisionId)).and
    (SqlTruth.ofBool (decide (row.generation.status ≠ .cancelled)))).and
    (SqlTruth.ofBool (decide (row.cursor ≠ .complete)))

/-- `progressiveLowPreciseOutstandingSql`. -/
def progressiveLowPreciseOutstanding (generation : GenerationRow) : SqlTruth :=
  SqlTruth.existsRow db.lowRows (unfinishedLow generation.campaignId generation.epochId)

def outstandingRequest (campaignId : Uuid) (row : Uuid × ScopeRequest) : SqlTruth :=
  (SqlTruth.ofBool (row.1 == campaignId)).and
    ((SqlTruth.ofBool (decide (row.2.processedVersion < row.2.requestedVersion))).or
      (SqlTruth.ofBool row.2.error.isSome))

def scopeRequestOutstanding (campaignId : Uuid) : SqlTruth :=
  SqlTruth.existsRow db.scopeRequests.rows (outstandingRequest campaignId)

/-- `progressiveAdmissionFrontierSql`: `high_allowed` of every campaign under the policy. -/
def progressiveAdmissionFrontier (epochId : Uuid) : List (Uuid × SqlTruth) :=
  (db.policies.rows.filter fun row => row.2 == subsonicThroughPrecisePolicy).map fun row =>
    (row.1, (SqlTruth.existsRow db.lowRows (unfinishedLow row.1 epochId)).not.and
      (db.scopeRequestOutstanding row.1).not)

/-- The `highAllowed` of the plain predicate. -/
def highAllowed (generation : GenerationRow) : SqlTruth :=
  (db.progressiveLowPreciseOutstanding generation).not.and (db.scopeRequestOutstanding generation.campaignId).not

/-- The `highAllowed` that is looked up in the frontier. -/
def frontierHighAllowed (frontier : List (Uuid × SqlTruth)) (generation : GenerationRow) : SqlTruth :=
  (SqlTruth.scalar ((frontier.find? fun row => row.1 == generation.campaignId).map Prod.snd)).coalesce false

/-- `progressiveCfdAdmissionSql`; without a frontier it is the plain predicate. -/
def progressiveCfdAdmission (frontier : Option (List (Uuid × SqlTruth))) (generationId : Uuid)
    (generation : GenerationRow) (targetId : String) : SqlTruth :=
  let highAllowed := match frontier with
    | some rows => frontierHighAllowed rows generation
    | none => db.highAllowed generation
  (db.progressiveExecutionPolicy generation.campaignId).not.or
    (SqlTruth.scalar ((db.cohortTargets.find? (generationId, targetId)).map fun cohort =>
      (SqlTruth.ofBool (decide (cohort = .low))).or highAllowed))

end PolicyTables

/-! ## The two agree -/

section Agreement
variable {db : PolicyTables} {generation : GenerationRow} {generationId : Uuid}

theorem executionPolicy_eq_holds {campaignId : Uuid} :
    db.progressiveExecutionPolicy campaignId = .holds ↔
      db.policies.find? campaignId = some subsonicThroughPrecisePolicy := by
  rw [PolicyTables.progressiveExecutionPolicy, SqlTruth.existsRow, SqlTruth.ofBool_eq_holds, List.any_eq_true]
  constructor
  · rintro ⟨⟨id, policy⟩, hrow, hadmits⟩
    simp only [SqlTruth.admits, SqlTruth.and_ofBool, decide_eq_true_eq, SqlTruth.ofBool_eq_holds, Bool.and_eq_true,
      beq_iff_eq] at hadmits
    obtain ⟨rfl, rfl⟩ := hadmits
    exact Table.find?_of_mem hrow
  · intro hfind
    refine ⟨_, Table.mem_of_find? hfind, ?_⟩
    simp [SqlTruth.admits, SqlTruth.and_ofBool, SqlTruth.ofBool_eq_holds]

theorem find?_frontier (epochId : Uuid) {campaignId : Uuid}
    (hpolicy : db.policies.find? campaignId = some subsonicThroughPrecisePolicy) :
    ((db.progressiveAdmissionFrontier epochId).find? fun row => row.1 == campaignId).map Prod.snd =
      some ((SqlTruth.existsRow db.lowRows (PolicyTables.unfinishedLow campaignId epochId)).not.and
        (db.scopeRequestOutstanding campaignId).not) := by
  rw [PolicyTables.progressiveAdmissionFrontier, List.find?_map, Option.map_map]
  have hrow := Table.mem_of_find? hpolicy
  cases hfind : (db.policies.rows.filter fun row => row.2 == subsonicThroughPrecisePolicy).find?
      ((fun row => row.1 == campaignId) ∘ fun row => (row.1, (SqlTruth.existsRow db.lowRows
        (PolicyTables.unfinishedLow row.1 epochId)).not.and (db.scopeRequestOutstanding row.1).not)) with
  | none =>
    rw [List.find?_eq_none] at hfind
    exact absurd (by simp) (hfind _ (List.mem_filter.2 ⟨hrow, by simp⟩))
  | some row =>
    have hid := List.find?_some hfind
    simp only [Function.comp_apply, beq_iff_eq] at hid
    subst hid
    rfl

theorem frontierHighAllowed_eq (hpolicy : db.policies.find? generation.campaignId = some subsonicThroughPrecisePolicy) :
    PolicyTables.frontierHighAllowed (db.progressiveAdmissionFrontier generation.epochId) generation =
      db.highAllowed generation := by
  rw [PolicyTables.frontierHighAllowed, find?_frontier generation.epochId hpolicy, PolicyTables.highAllowed,
    PolicyTables.progressiveLowPreciseOutstanding, PolicyTables.scopeRequestOutstanding, SqlTruth.not_existsRow,
    SqlTruth.not_existsRow, SqlTruth.and_ofBool]
  exact SqlTruth.coalesce_ofBool _ false

theorem admission_of_no_policy (frontier : Option (List (Uuid × SqlTruth))) (targetId : String)
    (hpolicy : db.policies.find? generation.campaignId ≠ some subsonicThroughPrecisePolicy) :
    db.progressiveCfdAdmission frontier generationId generation targetId = .holds := by
  have hfails : (db.progressiveExecutionPolicy generation.campaignId).not = .holds := by
    have hnot : db.progressiveExecutionPolicy generation.campaignId ≠ .holds := fun h =>
      hpolicy (executionPolicy_eq_holds.1 h)
    rw [PolicyTables.progressiveExecutionPolicy] at hnot ⊢
    rw [SqlTruth.existsRow] at hnot ⊢
    rw [SqlTruth.not_ofBool, SqlTruth.ofBool_eq_holds]
    rw [Ne, SqlTruth.ofBool_eq_holds] at hnot
    simpa using hnot
  exact SqlTruth.or_eq_holds.2 (.inl hfails)

theorem admission_frontier_eq (targetId : String) :
    db.progressiveCfdAdmission (some (db.progressiveAdmissionFrontier generation.epochId)) generationId generation
        targetId =
      db.progressiveCfdAdmission none generationId generation targetId := by
  by_cases hpolicy : db.policies.find? generation.campaignId = some subsonicThroughPrecisePolicy
  · rw [PolicyTables.progressiveCfdAdmission, PolicyTables.progressiveCfdAdmission, frontierHighAllowed_eq hpolicy]
  · rw [admission_of_no_policy _ targetId hpolicy, admission_of_no_policy _ targetId hpolicy]

theorem unfinishedLow_eq_holds {campaignId epochId : Uuid} {row : LowRow} :
    PolicyTables.unfinishedLow campaignId epochId row = .holds ↔
      row.generation.campaignId = campaignId ∧ row.generation.epochId = epochId ∧
        row.currentPlanRevisionId = some row.generation.planRevisionId ∧ row.generation.status ≠ .cancelled ∧
          row.cursor ≠ .complete := by
  have hplan : SqlTruth.compare (· == ·) (some row.generation.planRevisionId) row.currentPlanRevisionId = .holds ↔
      row.currentPlanRevisionId = some row.generation.planRevisionId := by
    cases row.currentPlanRevisionId with
    | none => simp [SqlTruth.compare]
    | some plan =>
      rw [SqlTruth.compare, SqlTruth.ofBool_eq_holds, beq_iff_eq, Option.some.injEq]
      exact eq_comm
  simp only [PolicyTables.unfinishedLow, SqlTruth.and_eq_holds, SqlTruth.ofBool_eq_holds, hplan, beq_iff_eq,
    decide_eq_true_eq, and_assoc]

/-- No current generation of the campaign in the epoch has an unfinished low cursor. -/
def LowFinished (db : PolicyTables) (campaignId epochId : Uuid) : Prop :=
  ∀ lowId low cursor, db.generations.find? lowId = some low → low.campaignId = campaignId → low.epochId = epochId →
    db.currentPlanRevisionId.find? campaignId = some (some low.planRevisionId) → low.status ≠ .cancelled →
      db.cursors.find? (lowId, .low) = some cursor → cursor = .complete

def ScopeSettled (db : PolicyTables) (campaignId : Uuid) : Prop :=
  ∀ request, db.scopeRequests.find? campaignId = some request →
    request.requestedVersion ≤ request.processedVersion ∧ request.error = none

theorem lowFinished_of_highAllowed (h : db.highAllowed generation = .holds) :
    LowFinished db generation.campaignId generation.epochId := by
  intro lowId low cursor hlow hcampaign hepoch hplan hstatus hcursor
  rw [PolicyTables.highAllowed, SqlTruth.and_eq_holds, PolicyTables.progressiveLowPreciseOutstanding,
    SqlTruth.not_existsRow_eq_holds] at h
  have hrow : LowRow.mk low (some low.planRevisionId) cursor ∈ db.lowRows := by
    rw [PolicyTables.lowRows, List.mem_filterMap]
    refine ⟨(lowId, low), Table.mem_of_find? hlow, ?_⟩
    dsimp only
    rw [hcampaign, hplan, hcursor]
  by_contra hopen
  exact h.1 _ hrow (unfinishedLow_eq_holds.2 ⟨hcampaign, hepoch, rfl, hstatus, hopen⟩)

theorem scopeSettled_of_highAllowed (h : db.highAllowed generation = .holds) :
    ScopeSettled db generation.campaignId := by
  intro request hrequest
  rw [PolicyTables.highAllowed, SqlTruth.and_eq_holds, PolicyTables.scopeRequestOutstanding,
    SqlTruth.not_existsRow_eq_holds] at h
  have hnot := h.2 _ (Table.mem_of_find? hrequest)
  simp only [PolicyTables.outstandingRequest, Ne, SqlTruth.and_eq_holds, SqlTruth.or_eq_holds,
    SqlTruth.ofBool_eq_holds, beq_self_eq_true, true_and, not_or, decide_eq_true_eq, not_lt] at hnot
  exact ⟨hnot.1, by simpa using hnot.2⟩

theorem highAllowed_of_admitted {targetId : String}
    (hpolicy : db.policies.find? generation.campaignId = some subsonicThroughPrecisePolicy)
    (hhigh : db.cohortTargets.find? (generationId, targetId) = some .high)
    (h : db.progressiveCfdAdmission none generationId generation targetId = .holds) :
    db.highAllowed generation = .holds := by
  rw [PolicyTables.progressiveCfdAdmission, hhigh, executionPolicy_eq_holds.2 hpolicy, SqlTruth.or_eq_holds] at h
  obtain h | h := h
  · cases h
  · obtain h | h := SqlTruth.or_eq_holds.1 h
    · cases h
    · exact h

end Agreement

/-- The frontier of an epoch admits the pairs that the plain predicate admits; and under the policy a high target is
admitted only when the low cohort is finished and the scope is settled. -/
theorem frontier_admits_iff (db : PolicyTables) (epochId generationId : Uuid) (generation : GenerationRow)
    (targetId : String) (hepoch : generation.epochId = epochId) :
    (db.progressiveCfdAdmission (some (db.progressiveAdmissionFrontier epochId)) generationId generation
        targetId).admits = (db.progressiveCfdAdmission none generationId generation targetId).admits ∧
      (db.policies.find? generation.campaignId = some subsonicThroughPrecisePolicy →
        db.cohortTargets.find? (generationId, targetId) = some .high →
        (db.progressiveCfdAdmission none generationId generation targetId).admits = true →
          LowFinished db generation.campaignId epochId ∧ ScopeSettled db generation.campaignId) := by
  subst hepoch
  refine ⟨by rw [admission_frontier_eq], ?_⟩
  intro hpolicy hhigh hadmits
  have hallowed := highAllowed_of_admitted hpolicy hhigh (by simpa [SqlTruth.admits] using hadmits)
  exact ⟨lowFinished_of_highAllowed hallowed, scopeSettled_of_highAllowed hallowed⟩

/-! ## A campaign without the policy -/

def cohortTables (policies : Table Uuid String) : PolicyTables where
  currentPlanRevisionId := ⟨[(1, some 7)], List.nodup_singleton _⟩
  policies := policies
  generations := ⟨[(2, ⟨1, 3, 7, .active⟩)], List.nodup_singleton _⟩
  cursors := ⟨[((2, .low), .active), ((2, .high), .active)], by decide⟩
  cohortTargets := ⟨[((2, "slow"), .low), ((2, "fast"), .high)], by decide⟩
  scopeRequests := Table.empty

def underPolicy : Table Uuid String := ⟨[(1, subsonicThroughPrecisePolicy)], List.nodup_singleton _⟩

theorem slow_target_admitted :
    ((cohortTables underPolicy).progressiveCfdAdmission
        (some ((cohortTables underPolicy).progressiveAdmissionFrontier 3)) 2 ⟨1, 3, 7, .active⟩ "slow").admits =
      ((cohortTables underPolicy).progressiveCfdAdmission none 2 ⟨1, 3, 7, .active⟩ "slow").admits :=
  (frontier_admits_iff (cohortTables underPolicy) 3 2 ⟨1, 3, 7, .active⟩ "slow" rfl).1

/-- Without the policy the high target is admitted while the low cohort still runs. -/
theorem fast_target_admitted_without_policy :
    (cohortTables Table.empty).cohortTargets.find? (2, "fast") = some .high ∧
      ((cohortTables Table.empty).progressiveCfdAdmission none 2 ⟨1, 3, 7, .active⟩ "fast").admits = true ∧
      ¬ LowFinished (cohortTables Table.empty) 1 3 := by
  refine ⟨rfl, rfl, ?_⟩
  intro h
  exact CursorStatus.noConfusion (h 2 ⟨1, 3, 7, .active⟩ .active rfl rfl rfl rfl GenerationStatus.noConfusion rfl)

end XFoilFoam.Progressive
