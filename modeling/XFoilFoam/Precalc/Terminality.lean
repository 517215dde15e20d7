import XFoilFoam.Precalc.Lifecycle
import XFoilFoam.Precalc.Turn

/-! The states of an obligation along every sequence of the operations that write them: what closes one, and what opens
it again. -/
namespace XFoilFoam.Precalc
set_option autoImplicit false

variable {F : Type} [Binary64 F]

/-! ## Operations -/

inductive Operation (F : Type) where
  | ensure (e : Ensuring) (cells : List (String × PrecalcObligationCell))
  | compose (a : Admission) (spec : Composition F)
  | record (jobId : String) (obligationIds : List String)
  | submitFailure (f : SubmitFailure) (obligationIds : List String)
  /-- Any job, at any time and as often as one likes. -/
  | settle (jobId : String) (job : SimJob F) (opts : SettlementOptions) (now : ℕ)
  | satisfy (t : RepairTables) (resultId : String)
  | requeueMesh (version : ℕ) (scope : String → Bool)
  | requeueContinuations (scope : String → Bool)
  /-- Evidence comes in and is classified anew, jobs change, owners come and go. -/
  | observe (world : World F)

namespace Operation

def isRequeue : Operation F → Bool
  | .requeueMesh .. | .requeueContinuations .. => true
  | _ => false

end Operation

/-- The operation; where it throws, its transaction is rolled back. -/
def operate (s : Store F) : Operation F → Store F
  | .ensure e cells =>
    match ensurePrecalcObligationsInTransaction s.world e cells s.obligations with
    | .ok obligations => { s with obligations := obligations }
    | .error _ => s
  | .compose a spec => perform s (.compose a spec)
  | .record jobId obligationIds => perform s (.record jobId obligationIds)
  | .submitFailure f obligationIds =>
    { s with obligations := recordPrecalcObligationSubmitFailure f obligationIds s.obligations }
  | .settle jobId job opts now =>
    { s with obligations := settlePrecalcObligationsForJob s.world jobId job opts now s.obligations }
  | .satisfy t resultId =>
    { s with obligations := satisfyPrecalcObligationFromAcceptedResult s.world t resultId s.obligations }
  | .requeueMesh version scope =>
    { s with obligations := requeueDeterministicMeshObligations s.world version scope s.obligations }
  | .requeueContinuations scope => perform s (.requeue scope)
  | .observe world => { s with world := world }

def operateAll (s : Store F) (operations : List (Operation F)) : Store F := operations.foldl operate s

/-! ## Acceptance -/

/-- An attempt stands for the very cell of an obligation, boundary condition included. -/
def ResultAttempt.ofExactCell (w : World F) (o : Obligation) (a : ResultAttempt F) : Prop :=
  a.airfoilId = o.airfoilId ∧ a.simulationPresetRevisionId = some o.revisionId ∧ a.aoaDeg = o.aoaDeg ∧
    (w.revisions.find? o.revisionId).bind Revision.boundaryCondition = some a.bcId

/-- An accepted classification of a preliminary attempt of the obligation's cell. -/
def AcceptedClassification (w : World F) (o : Obligation) : Prop :=
  ∃ id a, w.resultAttempts.find? id = some a ∧ a.accepted = true ∧ (a.isPrecalc = true ∨ a.regime = some .urans) ∧
    a.ofExactCell w o

/-- An accepted reading, chosen as the canonical one, of the current preliminary attempt of the obligation's cell. -/
def AcceptedInterpretation (w : World F) (t : RepairTables) (resultId : String) (o : Obligation) : Prop :=
  ∃ current id a, t.results.find? resultId = some current ∧ current.currentResultAttemptId = some id ∧
    w.resultAttempts.find? id = some a ∧ t.acceptedInterpretation resultId id current = true ∧
      a.preliminary = true ∧ a.ofExactCell w o

/-- The evidence on which an operation may satisfy an obligation. -/
def acceptedFor (w : World F) (o : Obligation) : Operation F → Prop
  | .settle .. => AcceptedClassification w o
  | .satisfy t resultId => AcceptedClassification w o ∨ AcceptedInterpretation w t resultId o
  | _ => False

/-! ## What an operation does to one obligation -/

/-- Nothing but evidence satisfies an obligation, a satisfied one stays so, and a blocked one is left for evidence or
by a requeue. -/
structure Effect (s : Store F) (operation : Operation F) (id : String) (o o' : Obligation) : Prop where
  cell : o'.airfoilId = o.airfoilId ∧ o'.revisionId = o.revisionId ∧ o'.aoaDeg = o.aoaDeg
  stays : o.state = .satisfied → o'.state = .satisfied
  becomes : o'.state = .satisfied → o.state = .satisfied ∨ acceptedFor s.world o operation
  leaves : o.state = .blocked → o'.state ≠ .blocked → o'.state ≠ .satisfied →
    operation.isRequeue = true ∧ listedByLiveJob s.world id = false ∧ acceptedEvidence s.world o = false

section Effects
variable {s : Store F} {operation : Operation F} {id : String} {o o' : Obligation}

omit [Binary64 F] in
theorem Effect.same (hcell : o'.airfoilId = o.airfoilId ∧ o'.revisionId = o.revisionId ∧ o'.aoaDeg = o.aoaDeg)
    (hstate : o'.state = o.state) : Effect s operation id o o' where
  cell := hcell
  stays h := hstate.trans h
  becomes h := .inl (hstate.symm.trans h)
  leaves h hne := absurd (hstate.trans h) hne

omit [Binary64 F] in
theorem Effect.refl (s : Store F) (operation : Operation F) (id : String) (o : Obligation) :
    Effect s operation id o o := .same ⟨rfl, rfl, rfl⟩ rfl

omit [Binary64 F] in
theorem Effect.opened (hcell : o'.airfoilId = o.airfoilId ∧ o'.revisionId = o.revisionId ∧ o'.aoaDeg = o.aoaDeg)
    (hsatisfied : o.state ≠ .satisfied) (hblocked : o.state ≠ .blocked) (h : o'.state ≠ .satisfied) :
    Effect s operation id o o' where
  cell := hcell
  stays h := absurd h hsatisfied
  becomes h' := absurd h' h
  leaves h := absurd h hblocked

omit [Binary64 F] in
theorem Effect.accepted (hcell : o'.airfoilId = o.airfoilId ∧ o'.revisionId = o.revisionId ∧ o'.aoaDeg = o.aoaDeg)
    (hstate : o'.state = .satisfied) (haccepted : acceptedFor s.world o operation) : Effect s operation id o o' where
  cell := hcell
  stays _ := hstate
  becomes _ := .inr haccepted
  leaves _ _ h := absurd hstate h

omit [Binary64 F] in
theorem Effect.requeued (hcell : o'.airfoilId = o.airfoilId ∧ o'.revisionId = o.revisionId ∧ o'.aoaDeg = o.aoaDeg)
    (hblocked : o.state = .blocked) (hstate : o'.state = .pending) (hrequeue : operation.isRequeue = true)
    (hjobs : listedByLiveJob s.world id = false) (hevidence : acceptedEvidence s.world o = false) :
    Effect s operation id o o' where
  cell := hcell
  stays h := by rw [hblocked] at h; cases h
  becomes h := by rw [hstate] at h; cases h
  leaves _ _ _ := ⟨hrequeue, hjobs, hevidence⟩

theorem not_closed (h : o.closed = false) : o.state ≠ .satisfied ∧ o.state ≠ .blocked := by
  unfold Obligation.closed at h
  cases hstate : o.state <;> simp [hstate] at h ⊢

/-! ### Ensuring -/

/-- The columns that `ON CONFLICT DO UPDATE` can change leave the state, or take a cancelled obligation back. -/
def Attached (o o' : Obligation) : Prop :=
  (o'.airfoilId = o.airfoilId ∧ o'.revisionId = o.revisionId ∧ o'.aoaDeg = o.aoaDeg) ∧
    (o'.state = o.state ∨ o.state = .cancelled ∧ o'.state = .pending)

theorem Attached.trans {o₁ o₂ o₃ : Obligation} (h : Attached o₁ o₂) (h' : Attached o₂ o₃) : Attached o₁ o₃ := by
  obtain ⟨⟨h₁, h₂, h₃⟩, hstate⟩ := h
  obtain ⟨⟨h₁', h₂', h₃'⟩, hstate'⟩ := h'
  refine ⟨⟨h₁'.trans h₁, h₂'.trans h₂, h₃'.trans h₃⟩, ?_⟩
  obtain hstate | ⟨hcancelled, hpending⟩ := hstate
  · rw [← hstate]
    exact hstate'
  · obtain hstate' | ⟨hcancelled', -⟩ := hstate'
    · exact .inr ⟨hcancelled, hstate'.trans hpending⟩
    · rw [hpending] at hcancelled'
      cases hcancelled'

omit [Binary64 F] in
theorem Attached.effect (h : Attached o o') : Effect s operation id o o' := by
  obtain ⟨hcell, hstate | ⟨hcancelled, hpending⟩⟩ := h
  · exact .same hcell hstate
  · refine .opened hcell ?_ ?_ ?_
    · rw [hcancelled]; exact ObligationState.noConfusion
    · rw [hcancelled]; exact ObligationState.noConfusion
    · rw [hpending]; exact ObligationState.noConfusion

theorem attached_attach (o : Obligation) (source : Option String) (background : Bool) :
    Attached o (o.attach source background) := by
  refine ⟨⟨rfl, rfl, rfl⟩, ?_⟩
  by_cases hcancelled : o.state = .cancelled
  · exact .inr ⟨hcancelled, if_pos hcancelled⟩
  · exact .inl (if_neg hcancelled)

/-- The row is a pending one that was not there, or one that was there and is attached. -/
def EnsuredRow (before : Option (Ledger F)) (l' : Ledger F) : Prop :=
  (before = none ∧ l'.obligation.state = .pending) ∨ ∃ l, before = some l ∧ Attached l.obligation l'.obligation

omit [Binary64 F] in
theorem ensureCell_row {w : World F} {e : Ensuring} {newId : String} {cell : PrecalcObligationCell}
    {obligations obligations' : Table String (Ledger F)} {l' : Ledger F}
    (h : ensureCell w e newId cell obligations = .ok obligations') (hfind : obligations'.find? id = some l') :
    EnsuredRow (obligations.find? id) l' := by
  have hsame : ∀ {l : Ledger F}, obligations.find? id = some l → EnsuredRow (obligations.find? id) l :=
    fun {l} hl => .inr ⟨l, hl, ⟨rfl, rfl, rfl⟩, .inl rfl⟩
  unfold ensureCell at h
  split at h
  · cases h
    exact hsame hfind
  split at h
  · split at h
    · cases h
      exact hsame hfind
    · cases h
      rw [Table.find?_modify] at hfind
      split at hfind
      · obtain ⟨l, hl, rfl⟩ := Option.map_eq_some_iff.1 hfind
        exact .inr ⟨l, hl, attached_attach _ _ _⟩
      · exact hsame hfind
  · split at h
    · cases h
      exact hsame hfind
    · split at h
      · cases h
      · rename_i hinsert
        cases h
        obtain hold | ⟨rfl, rfl⟩ := (Table.find?_insert hinsert).1 hfind
        · exact hsame hold
        · exact .inl ⟨Table.find?_eq_none (Table.insert?_rows hinsert).1, rfl⟩

omit [Binary64 F] in
theorem ensureCell_keeps {w : World F} {e : Ensuring} {newId : String} {cell : PrecalcObligationCell}
    {obligations obligations' : Table String (Ledger F)} {l : Ledger F}
    (h : ensureCell w e newId cell obligations = .ok obligations') (hfind : obligations.find? id = some l) :
    (obligations'.find? id).isSome = true := by
  have hsome : (obligations.find? id).isSome = true := Option.isSome_of_eq_some hfind
  unfold ensureCell at h
  split at h
  · cases h
    exact hsome
  split at h
  · split at h
    · cases h
      exact hsome
    · cases h
      rw [Table.modify, Table.find?_map, Option.isSome_map]
      exact hsome
  · split at h
    · cases h
      exact hsome
    · split at h
      · cases h
      · rename_i hinsert
        cases h
        exact Option.isSome_of_eq_some ((Table.find?_insert hinsert).2 (.inl hfind))

omit [Binary64 F] in
theorem ensure_keeps {w : World F} {e : Ensuring} {cells : List (String × PrecalcObligationCell)}
    {obligations obligations' : Table String (Ledger F)}
    (h : ensurePrecalcObligationsInTransaction w e cells obligations = .ok obligations')
    (hsome : (obligations.find? id).isSome = true) : (obligations'.find? id).isSome = true := by
  induction cells generalizing obligations with
  | nil =>
    cases h
    exact hsome
  | cons row cells ih =>
    unfold ensurePrecalcObligationsInTransaction at h
    split at h
    · cases h
    · rename_i middle hmiddle
      obtain ⟨l, hl⟩ := Option.isSome_iff_exists.1 hsome
      exact ih h (ensureCell_keeps hmiddle hl)

omit [Binary64 F] in
theorem ensure_row {w : World F} {e : Ensuring} {cells : List (String × PrecalcObligationCell)}
    {obligations obligations' : Table String (Ledger F)} {l' : Ledger F}
    (h : ensurePrecalcObligationsInTransaction w e cells obligations = .ok obligations')
    (hfind : obligations'.find? id = some l') : EnsuredRow (obligations.find? id) l' := by
  induction cells generalizing obligations with
  | nil =>
    cases h
    exact .inr ⟨l', hfind, ⟨rfl, rfl, rfl⟩, .inl rfl⟩
  | cons row cells ih =>
    unfold ensurePrecalcObligationsInTransaction at h
    split at h
    · cases h
    · rename_i middle hmiddle
      obtain ⟨hnone, hpending⟩ | ⟨l, hl, hattached⟩ := ih h
      · cases hbefore : obligations.find? id with
        | none => exact .inl ⟨rfl, hpending⟩
        | some l =>
          -- no turn of a cell loses a row
          have hkept := ensureCell_keeps hmiddle hbefore
          rw [hnone] at hkept
          cases hkept
      · obtain ⟨hnone, hpending⟩ | ⟨l₀, hl₀, hattached₀⟩ := ensureCell_row hmiddle hl
        · refine .inl ⟨hnone, ?_⟩
          obtain ⟨-, hstate | ⟨hcancelled, -⟩⟩ := hattached
          · exact hstate.trans hpending
          · rw [hpending] at hcancelled
            cases hcancelled
        · exact .inr ⟨l₀, hl₀, hattached₀.trans hattached⟩

/-! ### Submissions -/

omit [Binary64 F] in
theorem effect_submitFailure (f : SubmitFailure) (o : Obligation) : Effect s operation id o (f.turn o) := by
  unfold SubmitFailure.turn
  split
  · exact .refl s operation id o
  rename_i hopen
  split
  · exact .refl s operation id o
  split
  · exact .refl s operation id o
  · obtain ⟨hsatisfied, hblocked⟩ := not_closed (by simpa using hopen)
    refine .opened ⟨rfl, rfl, rfl⟩ hsatisfied hblocked ?_
    unfold SubmitFailure.settled
    dsimp only
    split <;> simp

theorem effect_compose {a : Admission} {spec : Composition F} {l' : Ledger F}
    (h : (operate s (.compose a spec)).obligations.find? id = some l') :
    ∃ l, s.obligations.find? id = some l ∧ Effect s (.compose a spec) id l.obligation l'.obligation := by
  rw [operate] at h
  obtain hsame | hok := compose_cases (s := s) a spec
  · rw [hsame] at h
    exact ⟨l', h, .refl _ _ _ _⟩
  · obtain ⟨-, -, -, jobs, -, hstore⟩ := composePhysicalPrecalcJob_cases hok
    rw [hstore, Table.find?_map, Option.map_eq_some_iff] at h
    obtain ⟨l, hl, rfl⟩ := h
    refine ⟨l, hl, ?_⟩
    split
    · exact .same ⟨rfl, rfl, rfl⟩ rfl
    · exact .refl _ _ _ _

theorem effect_record {jobId : String} {ids : List String} {l' : Ledger F}
    (h : (operate s (.record jobId ids)).obligations.find? id = some l') :
    ∃ l, s.obligations.find? id = some l ∧ Effect s (.record jobId ids) id l.obligation l'.obligation := by
  rw [operate] at h
  obtain hsame | hok := record_cases (s := s) jobId ids
  · rw [hsame] at h
    exact ⟨l', h, .refl _ _ _ _⟩
  · obtain ⟨l, hl, rfl | ⟨-, sameCase, hrecord⟩⟩ := (recordPrecalcObligationSubmission_cases hok).2.2 id l' h
    · exact ⟨l', hl, .refl _ _ _ _⟩
    · refine ⟨l, hl, ?_⟩
      obtain rfl | ⟨-, -, hopen, -, l'', -, hle, rfl⟩ := recordSubmission_cases hrecord
      · exact .refl _ _ _ _
      · obtain ⟨hsatisfied, hblocked⟩ := not_closed hopen
        exact .opened ⟨rfl, rfl, rfl⟩ hsatisfied hblocked ObligationState.noConfusion

/-! ### Settlement -/

theorem verdict_ne_satisfied {j : Judgement F} (h : j.accepted = none) (segment : Segment) (attemptsLeft : Bool) :
    (verdict j segment attemptsLeft).state ≠ .satisfied := by
  have hretry : ∀ left : Bool, retryOr left ≠ .satisfied := by
    intro left
    cases left <;> simp [retryOr]
  unfold verdict
  rw [h]
  dsimp only
  split
  · rename_i habsurd
    cases habsurd
  · split
    · simp
    split
    · exact hretry _
    split
    · simp
    split
    · simp
    split
    · simp
    split
    · exact hretry _
    split
    · simp
    · exact hretry _

omit [Binary64 F] in
theorem recovered_cell (t : Settling) (j : Judgement F) (l : Ledger F) :
    (t.recovered j l).obligation.airfoilId = l.obligation.airfoilId ∧
      (t.recovered j l).obligation.revisionId = l.obligation.revisionId ∧
        (t.recovered j l).obligation.aoaDeg = l.obligation.aoaDeg := by
  obtain ⟨hsame, -⟩ | ⟨-, l', -, hentered⟩ := recoverSubmission_cases l t.jobId t.crossed j.source.isSome
  · rw [Settling.recovered, hsame]
    exact ⟨rfl, rfl, rfl⟩
  · rw [Settling.recovered, hentered]
    exact ⟨rfl, rfl, rfl⟩

theorem acceptedClassification_of_judge {w : World F} {jobId attemptId : String} {job : SimJob F}
    {opts : SettlementOptions} {o : Obligation} {source : Option (String × JsValue F)}
    (h : (judge w jobId job opts id o source).accepted = some attemptId) : AcceptedClassification w o := by
  obtain ⟨row, hrow, rfl⟩ := Option.map_eq_some_iff.1 h
  have hmem := List.mem_of_find?_eq_some hrow
  have hacceptable := List.find?_some hrow
  rw [List.mem_filter, evidenceOf, List.mem_filter] at hmem
  obtain ⟨⟨hstored, hcell⟩, htier⟩ := hmem
  simp only [Bool.and_eq_true, beq_iff_eq, decide_eq_true_eq] at hcell
  obtain ⟨⟨⟨⟨-, hairfoil⟩, hrevision⟩, haoa⟩, -⟩ := hcell
  simp only [acceptable, Bool.and_eq_true] at hacceptable
  obtain ⟨⟨⟨haccepted, hcompatible⟩, -⟩, -⟩ := hacceptable
  rw [acceptedTargetCellCompatible, Option.any_eq_true] at hcompatible
  obtain ⟨revision, hfound, hboundary⟩ := hcompatible
  rw [Bool.and_eq_true, beq_iff_eq] at hboundary
  refine ⟨row.1, row.2, Table.find?_of_mem hstored, haccepted, by simpa using htier, hairfoil, hrevision, haoa, ?_⟩
  rw [hfound, Option.bind_some]
  exact hboundary.1

theorem effect_settle {jobId : String} {job : SimJob F} {opts : SettlementOptions} {now : ℕ} {l' : Ledger F}
    (h : (operate s (.settle jobId job opts now)).obligations.find? id = some l') :
    ∃ l, s.obligations.find? id = some l ∧ Effect s (.settle jobId job opts now) id l.obligation l'.obligation := by
  have hfind : (settlePrecalcObligationsForJob s.world jobId job opts now s.obligations).find? id = some l' := h
  cases hl : s.obligations.find? id with
  | none =>
    rw [settlePrecalcObligationsForJob, Table.find?_map, hl] at hfind
    cases hfind
  | some l =>
    refine ⟨l, rfl, ?_⟩
    rw [find?_settle s.world jobId job opts now hl, Option.some.injEq] at hfind
    subst hfind
    split
    · cases haccepted : (judgementOf s.world jobId job opts s.obligations id l).accepted with
      | some attemptId =>
        rw [settleLedger_accepted _ _ _ haccepted]
        exact .accepted (recovered_cell _ _ _) rfl (acceptedClassification_of_judge haccepted)
      | none =>
        cases hwrites : (settlingOf jobId job now).writes l with
        | true =>
          rw [settleLedger_written _ _ _ haccepted hwrites]
          rw [Settling.writes, Bool.and_eq_true, Bool.not_eq_true'] at hwrites
          obtain ⟨hsatisfied, hblocked⟩ := not_closed hwrites.2
          exact .opened (recovered_cell _ _ _) hsatisfied hblocked (verdict_ne_satisfied haccepted _ _)
        | false =>
          rw [settleLedger_left _ _ _ haccepted hwrites]
          exact .same (recovered_cell _ _ _) (recovered_state _ _ _)
    · exact .refl _ _ _ _

/-! ### Repair and requeues -/

omit [Binary64 F] in
theorem acceptedResult_spec {w : World F} {t : RepairTables} {resultId : String} {accepted : AcceptedResult F}
    (h : acceptedResult w t resultId = some accepted) {o : Obligation}
    (hcell : o.ofCell accepted.result.airfoilId accepted.revisionId accepted.result.aoaDeg = true) :
    AcceptedClassification w o ∨ AcceptedInterpretation w t resultId o := by
  unfold acceptedResult at h
  split at h
  · rename_i result current hresult hcurrent
    split at h
    · rename_i revisionId attemptId hrevision hattempt
      split at h
      · rename_i a ha
        split at h
        · rename_i hrepairable
          cases h
          simp only [Bool.and_eq_true, repairable, beq_iff_eq, decide_eq_true_eq] at hrepairable
          obtain ⟨-, ⟨⟨⟨⟨⟨⟨⟨⟨⟨-, hairfoil⟩, harevision⟩, -⟩, haoa⟩, -⟩, hpreliminary⟩, -⟩, haccepted⟩, hcompatible⟩⟩ :=
            hrepairable
          simp only [Obligation.ofCell, Bool.and_eq_true, beq_iff_eq, decide_eq_true_eq] at hcell
          obtain ⟨⟨hoairfoil, horevision⟩, hoaoa⟩ := hcell
          rw [hrevision, Option.bind_some, Option.any_eq_true] at hcompatible
          obtain ⟨revision, hfound, hboundary⟩ := hcompatible
          rw [Bool.and_eq_true, beq_iff_eq] at hboundary
          have hexact : a.ofExactCell w o := by
            refine ⟨hairfoil.trans hoairfoil.symm, ?_, haoa.trans hoaoa.symm, ?_⟩
            · rw [harevision, hrevision, horevision]
            · rw [horevision, hfound, Option.bind_some]
              exact hboundary.1
          rw [Bool.or_eq_true] at haccepted
          obtain haccepted | hinterpreted := haccepted
          · refine .inl ⟨attemptId, a, ha, haccepted, ?_, hexact⟩
            simp only [ResultAttempt.preliminary, Bool.or_eq_true, Bool.and_eq_true, decide_eq_true_eq] at hpreliminary
            exact hpreliminary.imp_right And.right
          · exact .inr ⟨current, attemptId, a, hcurrent, hattempt, ha, hinterpreted, hpreliminary, hexact⟩
        · cases h
      · cases h
    · cases h
  · cases h

theorem effect_satisfy {t : RepairTables} {resultId : String} {l' : Ledger F}
    (h : (operate s (.satisfy t resultId)).obligations.find? id = some l') :
    ∃ l, s.obligations.find? id = some l ∧ Effect s (.satisfy t resultId) id l.obligation l'.obligation := by
  have hfind : (satisfyPrecalcObligationFromAcceptedResult s.world t resultId s.obligations).find? id = some l' := h
  unfold satisfyPrecalcObligationFromAcceptedResult at hfind
  split at hfind
  · exact ⟨l', hfind, .refl _ _ _ _⟩
  rename_i accepted haccepted
  split at hfind
  · exact ⟨l', hfind, .refl _ _ _ _⟩
  rename_i id₀ l₀ hcell
  by_cases hid : id = id₀
  · subst hid
    have hl₀ : s.obligations.find? id = some l₀ := Table.find?_of_mem (List.mem_of_find?_eq_some hcell)
    rw [Table.find?_modify_self, hl₀, Option.map_some, Option.some.injEq] at hfind
    subst hfind
    have hofCell := List.find?_some hcell
    exact ⟨l₀, hl₀, .accepted ⟨rfl, rfl, rfl⟩ rfl (acceptedResult_spec haccepted hofCell)⟩
  · rw [Table.find?_modify_ne _ _ hid] at hfind
    exact ⟨l', hfind, .refl _ _ _ _⟩

theorem effect_requeueMesh {version : ℕ} {scope : String → Bool} {l' : Ledger F}
    (h : (operate s (.requeueMesh version scope)).obligations.find? id = some l') :
    ∃ l, s.obligations.find? id = some l ∧ Effect s (.requeueMesh version scope) id l.obligation l'.obligation := by
  have hfind : (requeueDeterministicMeshObligations s.world version scope s.obligations).find? id = some l' := h
  unfold requeueDeterministicMeshObligations at hfind
  split at hfind
  · exact ⟨l', hfind, .refl _ _ _ _⟩
  · dsimp only at hfind
    rw [Table.find?_map, Option.map_eq_some_iff] at hfind
    obtain ⟨l, hl, rfl⟩ := hfind
    refine ⟨l, hl, ?_⟩
    split
    · rename_i hreopens
      simp only [meshReopenable, Bool.and_eq_true, Bool.not_eq_true', decide_eq_true_eq] at hreopens
      obtain ⟨-, ⟨⟨⟨⟨⟨⟨hblocked, -⟩, -⟩, -⟩, -⟩, hjobs⟩, hevidence⟩, -⟩ := hreopens
      exact .requeued ⟨rfl, rfl, rfl⟩ hblocked rfl rfl hjobs hevidence
    · exact .refl _ _ _ _

theorem effect_requeueContinuations {scope : String → Bool} {l' : Ledger F}
    (h : (operate s (.requeueContinuations scope)).obligations.find? id = some l') :
    ∃ l, s.obligations.find? id = some l ∧ Effect s (.requeueContinuations scope) id l.obligation l'.obligation := by
  obtain ⟨l, hl, rfl | ⟨hreopenable, hturn⟩⟩ := requeue_effect h
  · exact ⟨l', hl, .refl _ _ _ _⟩
  · refine ⟨l, hl, ?_⟩
    simp only [reopenable, Bool.and_eq_true, Bool.not_eq_true', decide_eq_true_eq] at hreopenable
    obtain ⟨⟨⟨⟨⟨hblocked, -⟩, -⟩, hjobs⟩, hevidence⟩, -⟩ := hreopenable
    obtain ⟨rfl, -⟩ | ⟨c, -, ⟨rfl, -⟩ | ⟨-, hle, rfl⟩⟩ := requeueLedger_cases hturn
    · exact .refl _ _ _ _
    · exact .refl _ _ _ _
    · exact .requeued ⟨rfl, rfl, rfl⟩ hblocked rfl rfl hjobs hevidence

theorem operate_effect {l' : Ledger F} (h : (operate s operation).obligations.find? id = some l') :
    (s.obligations.find? id = none ∧ l'.obligation.state = .pending) ∨
      ∃ l, s.obligations.find? id = some l ∧ Effect s operation id l.obligation l'.obligation := by
  cases operation with
  | ensure e cells =>
    rw [operate] at h
    split at h
    · rename_i obligations hensured
      obtain hfresh | ⟨l, hl, hattached⟩ := ensure_row hensured h
      · exact .inl hfresh
      · exact .inr ⟨l, hl, hattached.effect⟩
    · exact .inr ⟨l', h, .refl _ _ _ _⟩
  | compose a spec => exact .inr (effect_compose h)
  | record jobId ids => exact .inr (effect_record h)
  | submitFailure f ids =>
    rw [operate, recordPrecalcObligationSubmitFailure, Table.find?_map, Option.map_eq_some_iff] at h
    obtain ⟨l, hl, rfl⟩ := h
    refine .inr ⟨l, hl, ?_⟩
    split
    · exact effect_submitFailure f l.obligation
    · exact .refl _ _ _ _
  | settle jobId job opts now => exact .inr (effect_settle h)
  | satisfy t resultId => exact .inr (effect_satisfy h)
  | requeueMesh version scope => exact .inr (effect_requeueMesh h)
  | requeueContinuations scope => exact .inr (effect_requeueContinuations h)
  | observe world => exact .inr ⟨l', h, .refl _ _ _ _⟩

theorem operate_keeps (operation : Operation F) {l : Ledger F} (h : s.obligations.find? id = some l) :
    ∃ l', (operate s operation).obligations.find? id = some l' := by
  rw [← Option.isSome_iff_exists]
  have hsome : (s.obligations.find? id).isSome = true := Option.isSome_of_eq_some h
  cases operation with
  | ensure e cells =>
    rw [operate]
    split
    · rename_i obligations hensured
      exact ensure_keeps hensured hsome
    · exact hsome
  | compose a spec => exact perform_isSome (.compose a spec) hsome
  | record jobId ids => exact perform_isSome (.record jobId ids) hsome
  | submitFailure f ids =>
    rw [operate, recordPrecalcObligationSubmitFailure, Table.find?_map, Option.isSome_map]
    exact hsome
  | settle jobId job opts now =>
    rw [operate, settlePrecalcObligationsForJob, Table.find?_map, Option.isSome_map]
    exact hsome
  | satisfy t resultId =>
    rw [operate, satisfyPrecalcObligationFromAcceptedResult]
    split
    · exact hsome
    · split
      · exact hsome
      · rw [Table.modify, Table.find?_map, Option.isSome_map]
        exact hsome
  | requeueMesh version scope =>
    rw [operate, requeueDeterministicMeshObligations]
    split
    · exact hsome
    · rw [Table.find?_map, Option.isSome_map]
      exact hsome
  | requeueContinuations scope => exact perform_isSome (.requeue scope) hsome
  | observe world => exact hsome

end Effects

/-! ## Runs -/

def stateAt (s : Store F) (id : String) : Option ObligationState :=
  (s.obligations.find? id).map fun l => l.obligation.state

theorem operateAll_append (s : Store F) (before after : List (Operation F)) :
    operateAll s (before ++ after) = operateAll (operateAll s before) after := List.foldl_append

section Runs
variable {s : Store F} {id : String}

omit [Binary64 F] in
theorem stateAt_eq_some {state : ObligationState} :
    stateAt s id = some state ↔ ∃ l, s.obligations.find? id = some l ∧ l.obligation.state = state :=
  Option.map_eq_some_iff

theorem satisfied_step {operation : Operation F} (h : stateAt s id = some .satisfied) :
    stateAt (operate s operation) id = some .satisfied := by
  obtain ⟨l, hl, hsatisfied⟩ := stateAt_eq_some.1 h
  obtain ⟨l', hl'⟩ := operate_keeps operation hl
  obtain ⟨hnone, -⟩ | ⟨l₀, hl₀, heffect⟩ := operate_effect hl'
  · rw [hl] at hnone
    cases hnone
  · rw [hl, Option.some.injEq] at hl₀
    subst hl₀
    exact stateAt_eq_some.2 ⟨l', hl', heffect.stays hsatisfied⟩

theorem satisfied_stays (operations : List (Operation F)) (h : stateAt s id = some .satisfied) :
    stateAt (operateAll s operations) id = some .satisfied := by
  induction operations generalizing s with
  | nil => exact h
  | cons operation operations ih => exact ih (satisfied_step h)

theorem becomes_satisfied {operation : Operation F} (h : stateAt (operate s operation) id = some .satisfied) :
    stateAt s id = some .satisfied ∨
      ∃ l, s.obligations.find? id = some l ∧ acceptedFor s.world l.obligation operation := by
  obtain ⟨l', hl', hsatisfied⟩ := stateAt_eq_some.1 h
  obtain ⟨-, hpending⟩ | ⟨l, hl, heffect⟩ := operate_effect hl'
  · rw [hsatisfied] at hpending
    cases hpending
  · obtain hbefore | haccepted := heffect.becomes hsatisfied
    · exact .inl (stateAt_eq_some.2 ⟨l, hl, hbefore⟩)
    · exact .inr ⟨l, hl, haccepted⟩

theorem leaves_blocked {operation : Operation F} (h : stateAt s id = some .blocked) :
    stateAt (operate s operation) id = some .blocked ∨ stateAt (operate s operation) id = some .satisfied ∨
      operation.isRequeue = true ∧ listedByLiveJob s.world id = false ∧
        ∃ l, s.obligations.find? id = some l ∧ acceptedEvidence s.world l.obligation = false := by
  obtain ⟨l, hl, hblocked⟩ := stateAt_eq_some.1 h
  obtain ⟨l', hl'⟩ := operate_keeps operation hl
  obtain ⟨hnone, -⟩ | ⟨l₀, hl₀, heffect⟩ := operate_effect hl'
  · rw [hl] at hnone
    cases hnone
  rw [hl, Option.some.injEq] at hl₀
  subst hl₀
  by_cases hstill : l'.obligation.state = .blocked
  · exact .inl (stateAt_eq_some.2 ⟨l', hl', hstill⟩)
  by_cases hsatisfied : l'.obligation.state = .satisfied
  · exact .inr (.inl (stateAt_eq_some.2 ⟨l', hl', hsatisfied⟩))
  · obtain ⟨hrequeue, hjobs, hevidence⟩ := heffect.leaves hblocked hstill hsatisfied
    exact .inr (.inr ⟨hrequeue, hjobs, l, hl, hevidence⟩)

end Runs

/-- Satisfaction is final; it takes accepted evidence of the obligation's cell, a classification or, in the repair, the
canonical reading; and only evidence or a requeue without a live job and without accepted evidence ends a blocked
state. -/
theorem states_along_operations (s : Store F) (operations later : List (Operation F)) (operation : Operation F)
    (id : String) :
    (stateAt (operateAll s operations) id = some .satisfied →
        stateAt (operateAll s (operations ++ later)) id = some .satisfied) ∧
      (stateAt (operateAll s (operations ++ [operation])) id = some .satisfied →
        stateAt (operateAll s operations) id = some .satisfied ∨
          ∃ l, (operateAll s operations).obligations.find? id = some l ∧
            acceptedFor (operateAll s operations).world l.obligation operation) ∧
      (stateAt (operateAll s operations) id = some .blocked →
        stateAt (operateAll s (operations ++ [operation])) id = some .blocked ∨
          stateAt (operateAll s (operations ++ [operation])) id = some .satisfied ∨
          operation.isRequeue = true ∧ listedByLiveJob (operateAll s operations).world id = false ∧
            ∃ l, (operateAll s operations).obligations.find? id = some l ∧
              acceptedEvidence (operateAll s operations).world l.obligation = false) := by
  rw [operateAll_append, operateAll_append]
  exact ⟨satisfied_stays later, becomes_satisfied, leaves_blocked⟩

/-! ### A rejected attempt, read again from its archive -/

def reinterpretedWorld : World ExactNum :=
  { savedWorld with
    resultAttempts := ⟨[("saved", { savedAttempt "first" with qualityWarnings := none })], List.nodup_singleton _⟩ }

def canonicalReading : RepairTables where
  results := ⟨[("result",
    { fidelity := some "urans_precalc"
      qualityWarnings := none
      currentResultAttemptId := some "saved"
      currentCanonicalSelectionId := some "selection"
      currentResultInterpretationId := some "reading" })], List.nodup_singleton _⟩
  selections := ⟨[("selection", ⟨"result", "saved", "reading"⟩)], List.nodup_singleton _⟩
  interpretations := ⟨[("reading", ⟨"result", "saved", some "archive", .accepted, "archive_backfill", .periodic⟩)],
    List.nodup_singleton _⟩
  archives := ⟨[("archive", ⟨"result", "saved", true, "blob"⟩)], List.nodup_singleton _⟩
  blobs := ⟨[("blob", ⟨"gcs", "zstd", "application/zstd", true⟩)], List.nodup_singleton _⟩

def reinterpretedStore : Store ExactNum :=
  ⟨reinterpretedWorld, ⟨[("obligation", ⟨freshObligation, [], .nil⟩)], List.nodup_singleton _⟩⟩

/-- The repair satisfies an obligation whose cell has no accepted classification at all. -/
theorem satisfied_without_classification :
    stateAt (operateAll reinterpretedStore []) "obligation" = some .pending ∧
      stateAt (operateAll reinterpretedStore [.satisfy canonicalReading "result"]) "obligation" = some .satisfied ∧
      ¬ ∃ l, reinterpretedStore.obligations.find? "obligation" = some l ∧
        AcceptedClassification reinterpretedStore.world l.obligation := by
  refine ⟨rfl, by decide +kernel, ?_⟩
  rintro ⟨l, -, id, a, ha, haccepted, -⟩
  have hrow := Table.mem_of_find? ha
  simp only [reinterpretedStore, reinterpretedWorld, List.mem_singleton, Prod.mk.injEq] at hrow
  obtain ⟨-, rfl⟩ := hrow
  cases haccepted

theorem satisfied_has_evidence {s : Store F} (hs : Started s) (operations : List (Operation F)) {id : String}
    (h : stateAt (operateAll s operations) id = some .satisfied) :
    ∃ before operation after l, operations = before ++ operation :: after ∧
      (operateAll s before).obligations.find? id = some l ∧
        acceptedFor (operateAll s before).world l.obligation operation := by
  induction operations using List.reverseRecOn with
  | nil =>
    obtain ⟨l, hl, -⟩ := stateAt_eq_some.1 h
    rw [operateAll, List.foldl_nil, hs] at hl
    cases hl
  | append_singleton operations operation ih =>
    rw [operateAll_append] at h
    obtain hbefore | ⟨l, hl, haccepted⟩ := becomes_satisfied h
    · obtain ⟨before, earlier, after, l, rfl, hl, haccepted⟩ := ih hbefore
      exact ⟨before, earlier, after ++ [operation], l, by simp, hl, haccepted⟩
    · exact ⟨operations, operation, [], l, rfl, hl, haccepted⟩

def repairRun : List (Operation ExactNum) :=
  [.ensure ⟨⟨0, .empty, .empty, .empty, [], .empty⟩, ⟨[], [], [], true⟩, none⟩
      [("obligation", ⟨"airfoil", "revision", 4, none, none⟩)],
    .satisfy canonicalReading "result"]

theorem satisfied_has_evidence_repair :
    ∃ before operation after l, repairRun = before ++ operation :: after ∧
      (operateAll ⟨reinterpretedWorld, .empty⟩ before).obligations.find? "obligation" = some l ∧
        acceptedFor (operateAll ⟨reinterpretedWorld, .empty⟩ before).world l.obligation operation :=
  satisfied_has_evidence (show Started ⟨reinterpretedWorld, .empty⟩ from rfl) repairRun (by decide +kernel)

end XFoilFoam.Precalc
