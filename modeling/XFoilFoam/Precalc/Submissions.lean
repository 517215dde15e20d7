import XFoilFoam.Precalc.Checkpoints

/-! From an obligation to a running job: `composePhysicalPrecalcJob` of `precalc-composition.ts`, which leases the
obligations to a new job, and `recordPrecalcObligationSubmission` of `precalc-obligations.ts`, which reserves the solver
ordinals once the engine has accepted it.  Both are transactions: what is not returned is not written. -/
namespace XFoilFoam.Precalc
open Binary64 (isFinite)
set_option autoImplicit false

variable {F : Type} [Binary64 F]

structure Store (F : Type) where
  world : World F
  obligations : Table String (Ledger F)

/-! ## Composition -/

inductive PromotionOwner where
  | campaign
  | background
  | syncPromise
  deriving DecidableEq

structure DirectParent where
  parentJobId : String
  recordedPromotionId : Option String

/-- `PhysicalPrecalcComposition`, with the identifier that the insertion will draw. -/
structure Composition (F : Type) where
  obligationIds : List String
  jobId : String
  job : SimJob F
  directParent : Option DirectParent

/-- What the transaction reads beside the tables of the store: the clock, the obligations of its three owner queries,
and the promotion event that authorizes the recovery of a recorded promotion. -/
structure Admission where
  now : ℕ
  runnableOwnerIds : List String
  promotion : Option PromotionOwner

namespace Composition

def payload (spec : Composition F) : JsValue F := spec.job.requestPayload

/-- `jobBoundaryConditionIds`. -/
def boundaryConditionIds (spec : Composition F) : List String := spec.job.bcIds.filter fun id => id != ""

def mentionsPair (spec : Composition F) : Bool :=
  !(spec.payload.get "continueFromResultId").isUndefined ||
    !(spec.payload.get "continueFromResultAttemptId").isUndefined

def pair (spec : Composition F) : Option (String × String) :=
  continuationPair spec.payload spec.obligationIds.length

def recordedPromotion (spec : Composition F) : Option String :=
  spec.directParent.bind DirectParent.recordedPromotionId

def pairsAngles (spec : Composition F) : Bool :=
  let raw := spec.payload.get "aoas"
  let aoas := raw.elements.filterMap JsValue.finite?
  raw.isArray && raw.elements.length == spec.obligationIds.length &&
    aoas.length == spec.obligationIds.length &&
    decide (aoas.Pairwise fun x y => Binary64.eq x y = false)

/-- The texts that the composition throws before it opens its transaction. -/
def problem (spec : Composition F) : Option String :=
  if spec.job.campaignId.isSome then some "physical precalc jobs must not carry scalar campaign_id"
  else if ¬(precalcObligationIds spec.payload).Perm spec.obligationIds then
    some "physical precalc job payload must carry the exact claimed obligation ids"
  else if spec.recordedPromotion.any fun id => !(spec.payload.get "conditionalPromotionId").isStr id then
    some "recorded promotion composition must pin its exact event id in the payload"
  else if spec.recordedPromotion.isSome && !spec.pairsAngles then
    some "recorded promotion composition must pair every obligation with one exact AoA"
  else if spec.mentionsPair && spec.pair.isNone then
    some "physical precalc continuation must pin one exact result/attempt pair for one obligation"
  else if spec.pair.isSome && decide (spec.boundaryConditionIds.length ≠ 1) then
    some "physical precalc continuation must target one exact boundary condition"
  else none

theorem perm_of_problem {spec : Composition F} (h : spec.problem = none) :
    (precalcObligationIds spec.payload).Perm spec.obligationIds := by
  by_contra hperm
  unfold problem at h
  rw [if_pos hperm] at h
  split at h <;> cases h

def target (spec : Composition F) : Option ContinuationTarget :=
  spec.pair.map fun p => ⟨spec.job.solverImplementationId, spec.boundaryConditionIds.headD "", p.1, p.2⟩

end Composition

def leaseLive (w : World F) (o : Obligation) : Bool :=
  (o.latestSimJobId.bind w.jobs.find?).any fun job => liveStatus job.status

def claimable (w : World F) (a : Admission) (spec : Composition F) (id : String) (l : Ledger F) : Bool :=
  decide (l.obligation.state = .pending) &&
    (match spec.target with
      | some target => restartablePrecalcCheckpoint w l (some target)
      | none => !l.obligation.exhausted) &&
    !(l.obligation.nextSubmitAt.any fun due => decide (a.now < due)) &&
    (l.obligation.backgroundOwner || a.runnableOwnerIds.contains id) && !leaseLive w l.obligation

/-- `recoverableParent` and the promotion event. -/
def recoverable (a : Admission) (parent : SimJob F) : Bool :=
  (match parent.status with
    | .done | .failed | .cancelled => true
    | .ingesting => parent.ingestLeaseExpiresAt.all fun expiry => decide (expiry ≤ a.now)
    | _ => false) &&
    a.promotion.any fun owner => !(decide (parent.status = .cancelled) && decide (owner = .background))

def liveChild (jobs : Table String (SimJob F)) (parentJobId : String) : Bool :=
  jobs.rows.any fun job => job.2.parentJobId == some parentJobId && job.2.wave == 2 && liveStatus job.2.status

/-- The direct parent lets one more child in. -/
def parentAdmits (w : World F) (a : Admission) (parent : DirectParent) : Bool :=
  (w.jobs.find? parent.parentJobId).any fun job =>
    (parent.recordedPromotionId.isNone || recoverable a job) && !liveChild w.jobs parent.parentJobId

def Ledger.lease (l : Ledger F) (jobId : String) : Ledger F :=
  l.setObligation { l.obligation with latestSimJobId := some jobId, lastOutcome := some .composed }

/-- `composePhysicalPrecalcJob`: a text is thrown, `none` is the null it returns. -/
def composePhysicalPrecalcJob (s : Store F) (a : Admission) (spec : Composition F) :
    Except String (Option (Store F)) :=
  if spec.obligationIds = [] ∨ ¬spec.obligationIds.Nodup then .ok none
  else
    match spec.problem with
    | some text => .error text
    | none =>
      if (spec.obligationIds.all fun id =>
            (s.obligations.find? id).any fun l => claimable s.world a spec id l) &&
          spec.directParent.all fun parent => parentAdmits s.world a parent then
        match s.world.jobs.insert? spec.jobId spec.job with
        | none => .error "duplicate key value violates unique constraint"
        | some jobs =>
          .ok (some
            { world := { s.world with jobs := jobs }
              obligations := s.obligations.map fun id l =>
                if spec.obligationIds.contains id then l.lease spec.jobId else l })
      else .ok none

theorem composePhysicalPrecalcJob_cases {s s' : Store F} {a : Admission} {spec : Composition F}
    (h : composePhysicalPrecalcJob s a spec = .ok (some s')) :
    (∀ id ∈ spec.obligationIds, ∃ l, s.obligations.find? id = some l ∧ claimable s.world a spec id l = true) ∧
      (∀ parent ∈ spec.directParent, parentAdmits s.world a parent = true) ∧ spec.problem = none ∧
      ∃ jobs, s.world.jobs.insert? spec.jobId spec.job = some jobs ∧
        s' = { world := { s.world with jobs := jobs }
               obligations := s.obligations.map fun id l =>
                if spec.obligationIds.contains id then l.lease spec.jobId else l } := by
  unfold composePhysicalPrecalcJob at h
  split at h
  · cases h
  · cases hproblem : spec.problem with
    | some text =>
      rw [hproblem] at h
      cases h
    | none =>
      rw [hproblem] at h
      simp only at h
      split at h
      · rename_i hadmits
        rw [Bool.and_eq_true, List.all_eq_true, Option.all_eq_true] at hadmits
        cases hinsert : s.world.jobs.insert? spec.jobId spec.job with
        | none =>
          rw [hinsert] at h
          cases h
        | some jobs =>
          rw [hinsert] at h
          cases h
          refine ⟨fun id hid => ?_, hadmits.2, rfl, jobs, rfl, rfl⟩
          obtain ⟨l, hfind, hclaimable⟩ := (Option.any_eq_true _ _).mp (hadmits.1 id hid)
          exact ⟨l, hfind, hclaimable⟩
      · cases h

/-! ## Submission -/

def Obligation.run (o : Obligation) (jobId : String) (attemptCount : ℕ) (h : attemptCount ≤ o.maxAttempts) :
    Obligation :=
  { o with
    state := .running
    attemptCount := attemptCount
    latestSimJobId := some jobId
    lastOutcome := some .submitted
    lastError := none
    submitFailureCount := 0
    nextSubmitAt := none
    attempts_le := h }

/-- The turn of one obligation in `recordPrecalcObligationSubmission`. -/
def recordSubmission (l : Ledger F) (id jobId : String) (sameCase : Bool) : Except String (Ledger F) :=
  let o := l.obligation
  if (l.submissionOf jobId).isSome then .ok l
  else if (!sameCase && o.exhausted) || o.closed then
    .error ("precalc obligation " ++ id ++ " has no remaining submission attempt")
  else if o.latestSimJobId ≠ some jobId then
    .error ("precalc obligation " ++ id ++ " is leased to " ++ o.latestSimJobId.getD "no composition" ++ ", not " ++
      jobId)
  else
    let ordinal := if sameCase then none else some (o.attemptCount + 1)
    match l.insert? (.submitted jobId l.nextSubmissionSequence ordinal (!sameCase)) with
    | none => .error "duplicate key value violates unique constraint"
    | some l' =>
      if h : ordinal.getD o.attemptCount ≤ o.maxAttempts then
        .ok (l'.setObligation (o.run jobId (ordinal.getD o.attemptCount) h))
      else .error "new row violates check constraint"

def submissionRow (l : Ledger F) (jobId : String) (sameCase : Bool) : Submission F :=
  .submitted jobId l.nextSubmissionSequence (if sameCase then none else some (l.obligation.attemptCount + 1)) (!sameCase)

omit [Binary64 F] in
theorem recordSubmission_cases {l l' : Ledger F} {id jobId : String} {sameCase : Bool}
    (h : recordSubmission l id jobId sameCase = .ok l') :
    l' = l ∨ l.submissionOf jobId = none ∧ l.obligation.latestSimJobId = some jobId ∧
      l.obligation.closed = false ∧ (sameCase = false → l.obligation.exhausted = false) ∧
      ∃ l'', l.insert? (submissionRow l jobId sameCase) = some l'' ∧
        ∃ hle, l' = l''.setObligation (l.obligation.run jobId
          (if sameCase then l.obligation.attemptCount else l.obligation.attemptCount + 1) hle) := by
  unfold recordSubmission at h
  simp only at h
  split at h
  · cases h
    exact .inl rfl
  · rename_i hnone
    split at h
    · cases h
    · rename_i hopen
      split at h
      · cases h
      · rename_i hlease
        have hgetD : (if sameCase then none else some (l.obligation.attemptCount + 1)).getD l.obligation.attemptCount =
            if sameCase then l.obligation.attemptCount else l.obligation.attemptCount + 1 := by
          cases sameCase <;> rfl
        cases hinsert : l.insert? (submissionRow l jobId sameCase) with
        | none =>
          rw [submissionRow] at hinsert
          rw [hinsert] at h
          cases h
        | some l'' =>
          rw [submissionRow] at hinsert
          rw [hinsert] at h
          simp only [hgetD] at h
          by_cases hle : (if sameCase then l.obligation.attemptCount else l.obligation.attemptCount + 1) ≤
              l.obligation.maxAttempts
          · rw [dif_pos hle] at h
            cases h
            refine .inr ⟨by simpa using hnone, by simpa using hlease, ?_, ?_, l'', rfl, hle, rfl⟩
            · simp only [Bool.or_eq_true, not_or, Bool.not_eq_true] at hopen
              exact hopen.2
            · intro hfresh
              simp only [hfresh, Bool.not_false, Bool.true_and, Bool.or_eq_true, not_or, Bool.not_eq_true] at hopen
              exact hopen.1
          · rw [dif_neg hle] at h
            cases h

def recordPrecalcObligationSubmission (s : Store F) (jobId : String) (obligationIds : List String) :
    Except String (Store F) :=
  if obligationIds = [] then .ok s
  else
    match s.world.jobs.find? jobId with
    | none => .error ("precalc submission job " ++ jobId ++ " does not exist")
    | some job =>
      let pair := continuationPair job.requestPayload obligationIds.length
      let boundaries := job.bcIds.filter fun id => id != ""
      let listed := s.obligations.rows.filter fun row => obligationIds.contains row.1
      if mentionsContinuation job.requestPayload && pair.isNone then
        .error ("precalc submission job " ++ jobId ++ " has a malformed continuation pair")
      else if pair.isSome && decide (boundaries.length ≠ 1) then
        .error ("precalc submission job " ++ jobId ++ " has no exact target boundary condition")
      else if pair.any fun p => decide ((listed.filter fun row =>
          restartablePrecalcCheckpoint s.world row.2
            (some ⟨job.solverImplementationId, boundaries.headD "", p.1, p.2⟩)).length ≠ obligationIds.length) then
        .error ("precalc submission job " ++ jobId ++ " does not own an exact restartable checkpoint")
      else
        match listed.mapM fun row => recordSubmission row.2 row.1 jobId pair.isSome with
        | .error text => .error text
        | .ok _ =>
          .ok { s with
            obligations := s.obligations.map fun id l =>
              if obligationIds.contains id then
                match recordSubmission l id jobId pair.isSome with
                | .ok l' => l'
                | .error _ => l
              else l }

theorem recordPrecalcObligationSubmission_cases {s s' : Store F} {jobId : String} {ids : List String}
    (h : recordPrecalcObligationSubmission s jobId ids = .ok s') :
    s'.world = s.world ∧
      (∀ id, (s'.obligations.find? id).isSome = (s.obligations.find? id).isSome) ∧
      ∀ id l', s'.obligations.find? id = some l' → ∃ l, s.obligations.find? id = some l ∧
        (l' = l ∨ (s.world.jobs.find? jobId).isSome = true ∧
          ∃ sameCase, recordSubmission l id jobId sameCase = .ok l') := by
  unfold recordPrecalcObligationSubmission at h
  split at h
  · cases h
    exact ⟨rfl, fun _ => rfl, fun id l' hfind => ⟨l', hfind, .inl rfl⟩⟩
  · cases hjob : s.world.jobs.find? jobId with
    | none =>
      rw [hjob] at h
      cases h
    | some job =>
      rw [hjob] at h
      simp only at h
      split at h
      · cases h
      · split at h
        · cases h
        · split at h
          · cases h
          · split at h
            · cases h
            · cases h
              refine ⟨rfl, fun id => by rw [Table.find?_map, Option.isSome_map], fun id l' hfind => ?_⟩
              rw [Table.find?_map, Option.map_eq_some_iff] at hfind
              obtain ⟨l, hl, hl'⟩ := hfind
              refine ⟨l, hl, ?_⟩
              split at hl'
              · split at hl'
                · rename_i hrecord
                  exact .inr ⟨rfl, _, hrecord.trans (congrArg Except.ok hl')⟩
                · exact .inl hl'.symm
              · exact .inl hl'.symm

end XFoilFoam.Precalc
