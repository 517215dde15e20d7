import XFoilFoam.Foundations.Decimal
import XFoilFoam.Foundations.ExceptLists
import XFoilFoam.Foundations.JsSort
import XFoilFoam.Foundations.KeyOrder
import XFoilFoam.Foundations.SqlTruth
import XFoilFoam.Precalc.Rows
import Mathlib.Data.Prod.Lex
import Mathlib.Data.String.Basic

/-! `apps/sweeper/src/gaps.ts`: the cells of enabled presets that no result answers, and the batch of the first of them.
Identifiers are their texts; those of `results` are numbered as they are drawn. -/
namespace XFoilFoam.Sweeper.Gaps
open Precalc (ResultStatus DataSource Regime)
set_option autoImplicit false

/-! ## Rows -/

inductive TargetScope where
  | all
  | airfoils
  deriving DecidableEq

/-- `sync_promise_status`. -/
inductive PromiseStatus where
  | active
  | fulfilled
  | expired
  | cancelled
  deriving DecidableEq

structure Airfoil where
  id : String
  slug : String
  archivedAt : Option ℤ
  deletedAt : Option ℤ
  deriving DecidableEq

structure Preset where
  id : String
  enabled : Bool
  targetScope : TargetScope
  sweepDefinitionId : String
  legacyBoundaryConditionId : Option String
  deriving DecidableEq

structure PresetRevision where
  id : String
  presetId : String
  revisionNumber : ℤ
  reynolds : ℤ
  deriving DecidableEq

structure SweepDefinition where
  id : String
  aoaStart : Double
  aoaStop : Double
  aoaStep : Double
  aoaList : Option (List ℚ)
  deriving DecidableEq

/-- A natural solver cell: the columns of `results_revision_natural_uq`. -/
structure Cell where
  airfoilId : String
  presetRevisionId : String
  aoaDeg : Double
  deriving DecidableEq

structure ResultRow where
  id : ℕ
  bcId : String
  status : ResultStatus
  source : DataSource
  regime : Option Regime
  fidelity : Option String
  priority : ℤ
  simJobId : Option String
  error : Option String
  updatedAt : ℤ
  deriving DecidableEq

/-- `results`: the rows with a revision, under their cells, and the next identifier to be drawn. -/
structure Results where
  rows : Table Cell ResultRow
  nextId : ℕ

/-- A row of `sim_result_submit_retries`, under its result. -/
structure SubmitRetry where
  state : String
  nextAttemptAt : Option ℤ
  deriving DecidableEq

structure SweepPromise where
  status : PromiseStatus
  expiresAt : ℤ
  expiredAt : Option ℤ
  updatedAt : ℤ
  deriving DecidableEq

structure PromisePoint where
  promiseId : String
  cell : Cell
  status : PromiseStatus
  updatedAt : ℤ
  deriving DecidableEq

/-- The tables beside `results`; of an obligation its cell is read, of a job `request_payload ->> 'syncPromiseId'`. -/
structure Ledger where
  airfoils : List Airfoil
  presets : List Preset
  revisions : List PresetRevision
  boundaryConditions : List String
  sweeps : List SweepDefinition
  targets : List (String × String)
  retries : Table ℕ SubmitRetry
  obligations : List Cell
  promises : Table String SweepPromise
  points : List PromisePoint
  jobs : Table String (Option String)

structure Database where
  ledger : Ledger
  results : Results

/-! ## Angles -/

/-- `x::numeric` of a double: fifteen significant digits; what is not finite is no bound of a series. -/
def float8Numeric (x : Double) : Option ℚ :=
  if Binary64.isFinite x then some (Decimal.significant 15 x.value) else none

/-- `x::float8` of a numeric, out of range where it overflows or vanishes. -/
def numericFloat8 (x : ℚ) : Option Double :=
  let value : Double := Binary64.lit x
  if Binary64.isFinite value && (decide (x = 0) || decide (value.value ≠ 0)) then some value else none

/-- `generate_series(start, stop, step)`; a step of zero raises. -/
def generateSeries (start stop step : ℚ) : Option (List ℚ) :=
  if step = 0 then none
  else some ((List.range (⌊(stop - start) / step⌋ + 1).toNat).map fun i => start + i * step)

/-- The lateral `g`. -/
def sweepAngles (sweep : SweepDefinition) : Option (List ℚ) :=
  match sweep.aoaList with
  | some aoas => some aoas
  | none => do
    let start ← float8Numeric sweep.aoaStart
    let stop ← float8Numeric sweep.aoaStop
    let step ← float8Numeric sweep.aoaStep
    generateSeries start stop step

/-! ## Conditions -/

/-- `text LIKE 'urans%'`. -/
def likeUrans (text : String) : Bool := "urans".toList.isPrefixOf text.toList

/-- `status IN ('pending', 'stale')`. -/
def awaits (row : ResultRow) : Bool := row.status = .pending || row.status = .stale

/-- `regime IS DISTINCT FROM 'urans' AND COALESCE(fidelity::text, '') NOT LIKE 'urans%'`. -/
def notUrans (row : ResultRow) : SqlTruth :=
  (SqlTruth.ofBool (row.regime ≠ some .urans)).and (SqlTruth.ofBool (likeUrans (row.fidelity.getD ""))).not

/-- `EXISTS (SELECT 1 FROM sim_precalc_obligations …)`. -/
def obligated (ledger : Ledger) (cell : Cell) : SqlTruth :=
  SqlTruth.existsRow ledger.obligations fun obligation => .ofBool (obligation = cell)

/-- The promise points of a cell that stand, joined with their promises, and what else is asked of them. -/
def promised (ledger : Ledger) (now : ℤ) (cell : Cell) (asked : PromisePoint → SqlTruth) : SqlTruth :=
  SqlTruth.existsRow ledger.points fun point =>
    match ledger.promises.find? point.promiseId with
    | none => .fails
    | some promise =>
      (SqlTruth.ofBool (point.cell = cell)).and ((SqlTruth.ofBool (point.status = .active)).and
        ((SqlTruth.ofBool (promise.status = .active)).and
          ((SqlTruth.ofBool (now < promise.expiresAt)).and (asked point))))

/-! ## `findGaps` -/

structure Gap where
  airfoilId : String
  bcId : String
  presetId : String
  presetRevisionId : String
  aoaDeg : Double
  priority : ℤ
  reynolds : ℤ
  slug : String
  deriving DecidableEq

def expireOverdue (now : ℤ) (ledger : Ledger) : Ledger :=
  let overdue (promise : SweepPromise) : Bool := promise.status = .active && decide (promise.expiresAt ≤ now)
  { ledger with
    promises := ledger.promises.map fun _ promise =>
      if overdue promise then { promise with status := .expired, expiredAt := some now, updatedAt := now } else promise
    points := ledger.points.map fun point =>
      if point.status = .active ∧ (ledger.promises.find? point.promiseId).any overdue then
        { point with status := .expired, updatedAt := now }
      else point }

def latestRevision (ledger : Ledger) (presetId : String) : Option PresetRevision :=
  (KeyOrder.sortBy (fun revision => -revision.revisionNumber)
    (ledger.revisions.filter fun revision => revision.presetId = presetId)).head?

/-- An airfoil with a preset and what is joined to it, before the angles. -/
structure Candidate where
  airfoil : Airfoil
  preset : Preset
  revision : PresetRevision
  bcId : String
  sweep : SweepDefinition

def candidates (ledger : Ledger) : List Candidate :=
  ledger.airfoils.flatMap fun airfoil =>
    ledger.presets.flatMap fun preset =>
      (latestRevision ledger preset.id).toList.flatMap fun revision =>
        (ledger.boundaryConditions.filter fun bc => preset.legacyBoundaryConditionId = some bc).flatMap fun bcId =>
          (ledger.sweeps.filter fun sweep => sweep.id = preset.sweepDefinitionId).map fun sweep =>
            { airfoil, preset, revision, bcId, sweep }

def scheduled (ledger : Ledger) (c : Candidate) : Bool :=
  c.preset.enabled &&
    (c.preset.targetScope = .all || ledger.targets.contains (c.preset.id, c.airfoil.id)) &&
    c.airfoil.archivedAt.isNone && c.airfoil.deletedAt.isNone

def cellOf (c : Candidate) (aoaDeg : Double) : Cell :=
  { airfoilId := c.airfoil.id, presetRevisionId := c.revision.id, aoaDeg }

/-- The conditions on the joined result, its retry, the obligations and the promises. -/
def unanswered (db : Database) (now : ℤ) (cell : Cell) : SqlTruth :=
  let row := db.results.rows.find? cell
  let retry := row.bind fun r => db.ledger.retries.find? r.id
  let noWait :=
    (SqlTruth.ofBool retry.isNone).or
      ((SqlTruth.compare (fun x y => x ≠ y) (retry.map (·.state)) (some "retry_wait")).or
        (SqlTruth.compare (fun x y => x ≤ y) (retry.bind (·.nextAttemptAt)) (some now)))
  let wanted : SqlTruth :=
    match row with
    | none => .holds
    | some r => (SqlTruth.ofBool (awaits r)).and noWait
  let ordinary : SqlTruth :=
    match row with
    | none => .holds
    | some r => notUrans r
  wanted.and (ordinary.and ((obligated db.ledger cell).not.and (promised db.ledger now cell fun _ => .holds).not))

def gapOf (db : Database) (c : Candidate) (aoaDeg : Double) : Gap :=
  { airfoilId := c.airfoil.id
    bcId := c.bcId
    presetId := c.preset.id
    presetRevisionId := c.revision.id
    aoaDeg
    priority := ((db.results.rows.find? (cellOf c aoaDeg)).map (·.priority)).getD 0
    reynolds := c.revision.reynolds
    slug := c.airfoil.slug }

def candidateGaps (db : Database) (now : ℤ) (c : Candidate) : Option (List Gap) := do
  let aoas ← (← sweepAngles c.sweep).mapM numericFloat8
  return (aoas.filter fun aoa => (unanswered db now (cellOf c aoa)).admits).map (gapOf db c)

section Order
variable {α : Type} [LinearOrder α]

/-- `ORDER BY priority DESC, reynolds ASC, slug ASC, aoa ASC` in the database's collation. -/
def gapOrder (collate : String → α) (gap : Gap) : ℤ ×ₗ ℤ ×ₗ α ×ₗ WithBot (WithTop ℚ) :=
  toLex (-gap.priority, toLex (gap.reynolds, toLex (collate gap.slug, gap.aoaDeg.rank)))

/-- The two statements of `findGaps`, each at its own instant; `none` is an angle that the database refuses. -/
def findGaps (collate : String → α) (expiredAt now : ℤ) (limit : ℕ) (db : Database) : Option (List Gap × Database) := do
  let db := { db with ledger := expireOverdue expiredAt db.ledger }
  let gaps ← ((candidates db.ledger).filter (scheduled db.ledger)).mapM (candidateGaps db now)
  return ((KeyOrder.sortBy (gapOrder collate) gaps.flatten).take limit, db)

end Order

/-! ## `firstBatch` -/

structure ContinuousBatch where
  airfoilId : String
  bcId : String
  presetId : String
  presetRevisionId : String
  aoas : List Double
  effectivePriority : ℤ
  reynolds : ℤ
  slug : String
  headAoa : Double
  deriving DecidableEq

/-- Same airfoil, same revision, and an explicit request with explicit requests only. -/
def besideHead (head g : Gap) : Bool :=
  g.airfoilId = head.airfoilId && g.presetRevisionId = head.presetRevisionId &&
    (if 10 ≤ head.priority then decide (10 ≤ g.priority) else decide (g.priority < 10))

def firstBatch : List Gap → Option ContinuousBatch
  | [] => none
  | head :: rest =>
    let aoas := ((head :: rest).filter (besideHead head)).map (·.aoaDeg)
    some
      { airfoilId := head.airfoilId
        bcId := head.bcId
        presetId := head.presetId
        presetRevisionId := head.presetRevisionId
        aoas := jsSort Binary64.sub aoas
        effectivePriority := head.priority
        reynolds := head.reynolds
        slug := head.slug
        headAoa := head.aoaDeg }

end XFoilFoam.Sweeper.Gaps
