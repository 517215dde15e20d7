import XFoilFoam.Angles.Canonical
import XFoilFoam.Sweeper.Gaps

/-! `apps/sweeper/src/claim.ts`: one `INSERT … ON CONFLICT … DO UPDATE … RETURNING` for each angle, under the locks of
its cells.  What `findGaps` selects is what this statement takes, although the two are written over different joins. -/
namespace XFoilFoam.Sweeper.Gaps
open Precalc (ResultStatus DataSource Regime)
set_option autoImplicit false

/-! ## The statement -/

structure ClaimScope where
  airfoilId : String
  bcId : String
  presetRevisionId : String
  simJobId : String
  deriving DecidableEq

def ClaimScope.cell (scope : ClaimScope) (aoaDeg : Double) : Cell :=
  { airfoilId := scope.airfoilId, presetRevisionId := scope.presetRevisionId, aoaDeg }

/-- `progressiveUnits?.find(…)` at an angle: the condition on a row that the unit found stands for. -/
abbrev ProgressiveUnits := Double → Option (ResultRow → SqlTruth)

/-- `progressiveRetryClaimSql`: without a unit it is `false`. -/
def progressiveRetryClaimSql (unit : Option (ResultRow → SqlTruth)) (row : ResultRow) : SqlTruth :=
  match unit with
  | none => .fails
  | some condition => condition row

/-- The two `NOT EXISTS` on a cell, which the insert and the update both ask. -/
def unowned (ledger : Ledger) (now : ℤ) (simJobId : String) (cell : Cell) : SqlTruth :=
  let syncPromiseId := (ledger.jobs.find? simJobId).bind id
  (obligated ledger cell).not.and
    (promised ledger now cell fun point => .ofBool (some point.promiseId ≠ syncPromiseId)).not

/-- `NOT EXISTS (SELECT 1 FROM sim_result_submit_retries …)`. -/
def noRetryWait (ledger : Ledger) (now : ℤ) (resultId : ℕ) : SqlTruth :=
  (SqlTruth.existsRow ledger.retries.rows fun retry =>
    (SqlTruth.ofBool (retry.1 = resultId)).and ((SqlTruth.ofBool (retry.2.state = "retry_wait")).and
      (SqlTruth.compare (fun x y => y < x) retry.2.nextAttemptAt (some now)))).not

/-- The `WHERE` of the update. -/
def claimable (ledger : Ledger) (now : ℤ) (scope : ClaimScope) (unit : Option (ResultRow → SqlTruth)) (cell : Cell)
    (row : ResultRow) : SqlTruth :=
  (((SqlTruth.ofBool (awaits row)).and (notUrans row)).or (progressiveRetryClaimSql unit row)).and
    ((unowned ledger now scope.simJobId cell).and (noRetryWait ledger now row.id))

def claimedRow (now : ℤ) (scope : ClaimScope) (row : ResultRow) : ResultRow :=
  { row with status := .queued, source := .queued, simJobId := some scope.simJobId, error := none, updatedAt := now }

def insertedRow (now : ℤ) (scope : ClaimScope) (id : ℕ) : ResultRow :=
  { id
    bcId := scope.bcId
    status := .queued
    source := .queued
    regime := none
    fidelity := none
    priority := 0
    simJobId := some scope.simJobId
    error := none
    updatedAt := now }

def registered (ledger : Ledger) (scope : ClaimScope) : Bool :=
  (ledger.airfoils.any fun airfoil => airfoil.id = scope.airfoilId) && ledger.boundaryConditions.contains scope.bcId &&
    (ledger.revisions.any fun revision => revision.id = scope.presetRevisionId) &&
    (ledger.jobs.find? scope.simJobId).isSome

/-- The statement at one angle: the identifier it returns, if any; `none` is a foreign key without its row. -/
def claimAoa (ledger : Ledger) (now : ℤ) (scope : ClaimScope) (unit : Option (ResultRow → SqlTruth)) (aoa : Double)
    (results : Results) : Option (Option ℕ × Results) :=
  let cell := scope.cell aoa
  if (unowned ledger now scope.simJobId cell).admits then
    match results.rows.find? cell with
    | none =>
      if registered ledger scope then
        some (some results.nextId,
          { rows := results.rows.set cell (insertedRow now scope results.nextId), nextId := results.nextId + 1 })
      else none
    | some row =>
      if (claimable ledger now scope unit cell row).admits then
        if (ledger.jobs.find? scope.simJobId).isSome then
          some (some row.id, { results with rows := results.rows.modify cell (claimedRow now scope) })
        else none
      else some (none, results)
  else some (none, results)

/-! ## The call -/

/-- The keys of `lockPrecalcCells`, in the order they are taken. -/
def lockKeys (scope : ClaimScope) (aoas : List Double) : Option (List String) := do
  let keys ← aoas.mapM fun aoa => do
    let aoa ← (Angles.canonicalAoa aoa).toOption
    return "precalc-cell:" ++ scope.airfoilId ++ ":" ++ scope.presetRevisionId ++ ":" ++ Decimal.numberText aoa
  return KeyOrder.sortBy id keys.dedup

def claimEach (ledger : Ledger) (now : ℤ) (scope : ClaimScope) (units : ProgressiveUnits) :
    List Double → Results → Option (List Double × Results)
  | [], results => some ([], results)
  | aoa :: rest, results => do
    let (id, results) ← claimAoa ledger now scope (units aoa) aoa results
    let (claimed, results) ← claimEach ledger now scope units rest results
    return (if id.isSome then aoa :: claimed else claimed, results)

/-- `claimAoas`; when a statement raises, the transaction leaves nothing. -/
def claimAoas (db : Database) (now : ℤ) (scope : ClaimScope) (aoas : List Double) (units : ProgressiveUnits) :
    Option (List Double × Database) := do
  let _ ← lockKeys scope aoas
  let (claimed, results) ← claimEach db.ledger now scope units aoas db.results
  return (claimed, { db with results })

/-! ## What one statement does -/

section Statement
variable {ledger : Ledger} {now : ℤ} {scope : ClaimScope} {unit : Option (ResultRow → SqlTruth)} {aoa : Double}
  {results results' : Results}

theorem claimAoa_some {id : ℕ} (h : claimAoa ledger now scope unit aoa results = some (some id, results')) :
    (results.rows.find? (scope.cell aoa) = none ∧ id = results.nextId ∧
      results' = { rows := results.rows.set (scope.cell aoa) (insertedRow now scope results.nextId),
                   nextId := results.nextId + 1 }) ∨
    ∃ row, results.rows.find? (scope.cell aoa) = some row ∧ id = row.id ∧
      claimable ledger now scope unit (scope.cell aoa) row = .holds ∧
      results' = { results with rows := results.rows.modify (scope.cell aoa) (claimedRow now scope) } := by
  unfold claimAoa at h
  dsimp only at h
  split at h
  · cases hfind : results.rows.find? (scope.cell aoa) with
    | none =>
      rw [hfind] at h
      dsimp only at h
      split at h
      · cases h
        exact .inl ⟨rfl, rfl, rfl⟩
      · cases h
    | some row =>
      rw [hfind] at h
      dsimp only at h
      split at h
      · rename_i hclaim
        split at h
        · cases h
          exact .inr ⟨row, rfl, rfl, of_decide_eq_true hclaim, rfl⟩
        · cases h
      · cases h
  · cases h

theorem claimAoa_none (h : claimAoa ledger now scope unit aoa results = some (none, results')) : results' = results := by
  unfold claimAoa at h
  dsimp only at h
  split at h
  · split at h
    · split at h <;> cases h
    · split at h
      · split at h <;> cases h
      · cases h
        rfl
  · cases h
    rfl

theorem claimAoa_other {id : Option ℕ} (h : claimAoa ledger now scope unit aoa results = some (id, results'))
    {cell : Cell} (hcell : cell ≠ scope.cell aoa) : results'.rows.find? cell = results.rows.find? cell := by
  cases id with
  | none => rw [claimAoa_none h]
  | some id =>
    obtain ⟨-, -, rfl⟩ | ⟨row, -, -, -, rfl⟩ := claimAoa_some h
    · rw [Table.find?_set, if_neg hcell]
    · exact Table.find?_modify_ne _ _ hcell

theorem job_of_registered (h : registered ledger scope = true) : (ledger.jobs.find? scope.simJobId).isSome = true := by
  unfold registered at h
  exact (Bool.and_eq_true_iff.mp h).2

theorem claimAoa_total (now : ℤ) (unit : Option (ResultRow → SqlTruth)) (aoa : Double)
    (h : registered ledger scope = true) (results : Results) :
    ∃ id results', claimAoa ledger now scope unit aoa results = some (id, results') := by
  have hjob := job_of_registered h
  -- no foreign key is missing, on either path
  unfold claimAoa
  dsimp only
  split
  · split
    · exact ⟨_, _, rfl⟩
    · split
      · exact ⟨_, _, rfl⟩
      · exact ⟨_, _, rfl⟩
  · exact ⟨_, _, rfl⟩

/-! ## The two selections -/

theorem not_promised_of_any {cell : Cell} {asked : PromisePoint → SqlTruth}
    (h : (promised ledger now cell fun _ => .holds).not = .holds) :
    (promised ledger now cell asked).not = .holds := by
  unfold promised at h ⊢
  rw [SqlTruth.not_existsRow_eq_holds] at h ⊢
  intro point hpoint hstands
  refine h point hpoint ?_
  cases hpromise : ledger.promises.find? point.promiseId with
  | none =>
    rw [hpromise] at hstands
    cases hstands
  | some promise =>
    rw [hpromise] at hstands
    simp only [SqlTruth.and_eq_holds] at hstands ⊢
    obtain ⟨hcell, hpoint, hactive, hexpires, -⟩ := hstands
    exact ⟨hcell, hpoint, hactive, hexpires, trivial⟩

theorem noRetryWait_of_joined {resultId : ℕ}
    (h : (SqlTruth.ofBool (ledger.retries.find? resultId).isNone).or
      ((SqlTruth.compare (fun x y => x ≠ y) ((ledger.retries.find? resultId).map (·.state)) (some "retry_wait")).or
        (SqlTruth.compare (fun x y => x ≤ y) ((ledger.retries.find? resultId).bind (·.nextAttemptAt)) (some now))) =
      .holds) : noRetryWait ledger now resultId = .holds := by
  unfold noRetryWait
  rw [SqlTruth.not_existsRow_eq_holds]
  rintro ⟨id, retry⟩ hretry hwaits
  simp only [SqlTruth.and_eq_holds, SqlTruth.ofBool_eq_holds, decide_eq_true_eq] at hwaits
  obtain ⟨rfl, hstate, hlater⟩ := hwaits
  rw [Table.find?_of_mem hretry] at h
  simp only [SqlTruth.or_eq_holds, SqlTruth.ofBool_eq_holds, Option.isNone_some, Bool.false_eq_true, false_or,
    Option.map_some, Option.bind_some] at h
  cases hnext : retry.nextAttemptAt with
  | none =>
    rw [hnext] at hlater
    cases hlater
  | some next =>
    rw [hnext] at h hlater
    simp only [SqlTruth.compare, SqlTruth.ofBool_eq_holds, decide_eq_true_eq] at h hlater
    rcases h with hother | hover
    · exact hother hstate
    · omega

theorem claimAoa_of_unanswered (unit : Option (ResultRow → SqlTruth))
    (hgap : (unanswered { ledger, results } now (scope.cell aoa)).admits = true)
    (hregistered : registered ledger scope = true) :
    ∃ id results', claimAoa ledger now scope unit aoa results = some (some id, results') := by
  have hholds := of_decide_eq_true hgap
  unfold unanswered at hholds
  simp only [SqlTruth.and_eq_holds] at hholds
  obtain ⟨hwanted, hordinary, hobligated, hpromised⟩ := hholds
  have hunowned : unowned ledger now scope.simJobId (scope.cell aoa) = .holds :=
    SqlTruth.and_eq_holds.mpr ⟨hobligated, not_promised_of_any hpromised⟩
  have hjob := job_of_registered hregistered
  unfold claimAoa
  dsimp only
  rw [hunowned]
  cases hfind : results.rows.find? (scope.cell aoa) with
  | none =>
    rw [hregistered]
    exact ⟨_, _, rfl⟩
  | some row =>
    rw [hfind] at hwanted hordinary
    simp only [SqlTruth.and_eq_holds, Option.bind_some] at hwanted hordinary
    have hclaimable : claimable ledger now scope unit (scope.cell aoa) row = .holds := by
      unfold claimable
      rw [SqlTruth.and_eq_holds, SqlTruth.or_eq_holds, SqlTruth.and_eq_holds, SqlTruth.and_eq_holds]
      exact ⟨.inl ⟨hwanted.1, hordinary⟩, hunowned, noRetryWait_of_joined hwanted.2⟩
    dsimp only
    rw [hclaimable, hjob]
    exact ⟨_, _, rfl⟩

end Statement

/-! ## A call for gaps -/

section Call
variable {ledger : Ledger} {now : ℤ} {scope : ClaimScope} {units : ProgressiveUnits} {aoa : Double}

theorem unanswered_congr {results results' : Results} {cell : Cell}
    (h : results'.rows.find? cell = results.rows.find? cell) :
    unanswered { ledger, results := results' } now cell = unanswered { ledger, results } now cell := by
  unfold unanswered
  dsimp only
  rw [h]

theorem claimEach_of_unanswered (now : ℤ) (units : ProgressiveUnits) (aoa : Double)
    (hregistered : registered ledger scope = true) (aoas : List Double) (results : Results) :
    ∃ claimed results', claimEach ledger now scope units aoas results = some (claimed, results') ∧
      (aoa ∈ aoas → (unanswered { ledger, results } now (scope.cell aoa)).admits = true → aoa ∈ claimed) := by
  induction aoas generalizing results with
  | nil => exact ⟨[], results, rfl, fun h => nomatch h⟩
  | cons b rest ih =>
    obtain ⟨id, results₁, hone⟩ := claimAoa_total now (units b) b hregistered results
    obtain ⟨claimed, results₂, hrest, hkept⟩ := ih results₁
    refine ⟨if id.isSome then b :: claimed else claimed, results₂, ?_, ?_⟩
    · rw [claimEach, hone]
      simp only [Option.bind_eq_bind, Option.bind_some, hrest]
      rfl
    · intro hmem hgap
      by_cases hb : aoa = b
      · subst hb
        obtain ⟨id', results', hsome⟩ := claimAoa_of_unanswered (units aoa) hgap hregistered
        rw [hone] at hsome
        cases hsome
        exact List.mem_cons_self
      · have hcell : scope.cell aoa ≠ scope.cell b := fun heq => hb (congrArg Cell.aoaDeg heq)
        have hlater := hkept ((List.mem_cons.mp hmem).resolve_left hb)
          (by rw [unanswered_congr (claimAoa_other hone hcell)]; exact hgap)
        split
        · exact List.mem_cons_of_mem b hlater
        · exact hlater

theorem lockKeys_total (scope : ClaimScope) {aoas : List Double} (h : ∀ aoa ∈ aoas, Binary64.isFinite aoa = true) :
    ∃ keys, lockKeys scope aoas = some keys := by
  have hkeys : ∀ aoa ∈ aoas, ∃ key, (do
      let aoa ← (Angles.canonicalAoa aoa).toOption
      return "precalc-cell:" ++ scope.airfoilId ++ ":" ++ scope.presetRevisionId ++ ":" ++ Decimal.numberText aoa :
        Option String) = some key := by
    intro aoa haoa
    unfold Angles.canonicalAoa Angles.roundHalfEvenFixed
    rw [h aoa haoa]
    exact ⟨_, rfl⟩
  obtain ⟨keys, hall⟩ := mapM_eq_some_of_forall hkeys
  unfold lockKeys
  rw [hall]
  exact ⟨_, rfl⟩

end Call

/-! ## The gaps -/

section Selection
variable {α : Type} [LinearOrder α] {collate : String → α} {expiredAt now : ℤ} {limit : ℕ} {db db' : Database}
  {gaps : List Gap}

theorem finite_of_numericFloat8 {x : ℚ} {aoa : Double} (h : numericFloat8 x = some aoa) :
    Binary64.isFinite aoa = true := by
  unfold numericFloat8 at h
  dsimp only at h
  split at h
  · rename_i hcond
    cases h
    exact (Bool.and_eq_true_iff.mp hcond).1
  · cases h

theorem mem_candidates {ledger : Ledger} {c : Candidate} (h : c ∈ candidates ledger) :
    c.airfoil ∈ ledger.airfoils ∧ c.revision ∈ ledger.revisions ∧ c.bcId ∈ ledger.boundaryConditions := by
  unfold candidates at h
  simp only [List.mem_flatMap, List.mem_map, List.mem_filter, Option.mem_toList] at h
  obtain ⟨airfoil, hairfoil, preset, -, revision, hrevision, bcId, ⟨hbc, -⟩, sweep, -, rfl⟩ := h
  refine ⟨hairfoil, ?_, hbc⟩
  have hhead := List.mem_of_mem_head? hrevision
  exact List.mem_of_mem_filter ((KeyOrder.mem_sortBy _).mp hhead)

theorem gap_origin (h : findGaps collate expiredAt now limit db = some (gaps, db')) {gap : Gap} (hgap : gap ∈ gaps) :
    ∃ c ∈ candidates db'.ledger, ∃ aoa, Binary64.isFinite aoa = true ∧
      (unanswered db' now (cellOf c aoa)).admits = true ∧ gap = gapOf db' c aoa := by
  unfold findGaps at h
  obtain ⟨found, hfound, h⟩ := Option.bind_eq_some_iff.mp h
  cases h
  have hflat := (KeyOrder.mem_sortBy _).mp (List.mem_of_mem_take hgap)
  obtain ⟨part, hpart, hmem⟩ := List.mem_flatten.mp hflat
  obtain ⟨c, hc, hcandidate⟩ := mem_of_mapM_eq_some hfound hpart
  obtain ⟨angles, -, hcandidate⟩ := Option.bind_eq_some_iff.mp hcandidate
  obtain ⟨aoas, haoas, hcandidate⟩ := Option.bind_eq_some_iff.mp hcandidate
  cases hcandidate
  obtain ⟨aoa, haoa, rfl⟩ := List.mem_map.mp hmem
  obtain ⟨hin, hadmits⟩ := List.mem_filter.mp haoa
  obtain ⟨x, -, hx⟩ := mem_of_mapM_eq_some haoas hin
  exact ⟨c, List.mem_of_mem_filter hc, aoa, finite_of_numericFloat8 hx, hadmits, rfl⟩

theorem claimAoas_of_gap (h : findGaps collate expiredAt now limit db = some (gaps, db')) {gap : Gap}
    (hgap : gap ∈ gaps) {simJobId : String} (hjob : (db'.ledger.jobs.find? simJobId).isSome = true)
    {aoas : List Double} (haoas : ∀ aoa ∈ aoas, Binary64.isFinite aoa = true) (hmem : gap.aoaDeg ∈ aoas)
    (units : ProgressiveUnits) :
    ∃ claimed db'',
      claimAoas db' now ⟨gap.airfoilId, gap.bcId, gap.presetRevisionId, simJobId⟩ aoas units = some (claimed, db'') ∧
        gap.aoaDeg ∈ claimed := by
  obtain ⟨c, hc, aoa, -, hopen, rfl⟩ := gap_origin h hgap
  obtain ⟨hairfoil, hrevision, hbc⟩ := mem_candidates hc
  let scope : ClaimScope := ⟨c.airfoil.id, c.bcId, c.revision.id, simJobId⟩
  have hregistered : registered db'.ledger scope = true := by
    unfold registered
    rw [hjob, Bool.and_true, Bool.and_eq_true, Bool.and_eq_true, List.any_eq_true, List.any_eq_true,
      List.contains_iff_mem]
    exact ⟨⟨⟨c.airfoil, hairfoil, decide_eq_true rfl⟩, hbc⟩, c.revision, hrevision, decide_eq_true rfl⟩
  obtain ⟨keys, hkeys⟩ := lockKeys_total scope haoas
  obtain ⟨claimed, results', hclaim, htaken⟩ :=
    claimEach_of_unanswered now units aoa hregistered aoas db'.results
  refine ⟨claimed, { db' with results := results' }, ?_, htaken hmem hopen⟩
  show claimAoas db' now scope aoas units = _
  unfold claimAoas
  rw [hkeys, Option.bind_eq_bind, Option.bind_some, hclaim]
  rfl

end Selection

/-! ## The first batch -/

theorem mem_firstBatch {gaps : List Gap} {batch : ContinuousBatch} (h : firstBatch gaps = some batch) {aoa : Double} :
    aoa ∈ batch.aoas ↔ ∃ head rest, gaps = head :: rest ∧ ∃ gap ∈ gaps, besideHead head gap = true ∧ gap.aoaDeg = aoa := by
  cases gaps with
  | nil => cases h
  | cons head rest =>
    cases h
    dsimp only
    rw [mem_jsSort, List.mem_map]
    simp only [List.mem_filter, and_assoc]
    constructor
    · rintro ⟨gap, hgap, hbeside, haoa⟩
      exact ⟨head, rest, rfl, gap, hgap, hbeside, haoa⟩
    · rintro ⟨head', rest', heq, gap, hgap, hbeside, haoa⟩
      cases heq
      exact ⟨gap, hgap, hbeside, haoa⟩

theorem besideHead_iff {head gap : Gap} : besideHead head gap = true ↔
    gap.airfoilId = head.airfoilId ∧ gap.presetRevisionId = head.presetRevisionId ∧
      (10 ≤ gap.priority ↔ 10 ≤ head.priority) := by
  unfold besideHead
  split
  · rename_i hhead
    simp [hhead, and_assoc]
  · rename_i hhead
    simp [hhead, and_assoc]

end XFoilFoam.Sweeper.Gaps
