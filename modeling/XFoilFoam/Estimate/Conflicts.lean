import XFoilFoam.Estimate.Numpy
import Mathlib.Data.Prod.Lex

/-! `postprocess/polar_conflicts.py`: each lineage of a method is compared with the rest of that method's observations,
and where it stands out its discrepancy becomes a covariance of its own. -/
namespace XFoilFoam.Estimate
set_option autoImplicit false

/-! ## Scores -/

structure Scores (K : Type) where
  meanScore : K
  meanDimension : ℕ
  meanCutoff : K
  contrastScore : K
  contrastDimension : ℕ
  contrastCutoff : Option K
  varianceMultiplier : K
  totalScore : K

/-- A coefficient of a group; the variances are set once the covariance is shared out. -/
structure Channel (K : Type) where
  coefficient : String
  scores : Scores K
  sharedVariance : Option K := none
  independentVariance : Option K := none

structure ConflictGroup (K : Type) where
  method : String
  lineageId : String
  windowCount : ℕ
  observationIds : List String
  alpha : List Double
  coefficients : List (Channel K)

structure ConflictDiagnostics (K : Type) where
  groups : List (ConflictGroup K)
  modelFamilyTailProbability : K
  perTestTailProbability : K

section Operations
variable {K : Type} (num : Numpy K)

/-- `0 < probability < 1`. -/
def properProbability (probability : K) : Bool := num.lt (num.lit 0) probability && num.lt probability (num.lit 1)

def gaussianTailCutoff (dimension : ℕ) (probability : K) : Except String K :=
  if dimension < 1 || !properProbability num probability then
    .error "A positive dimension and model tail probability are required"
  else
    let parameter := num.neg (num.log probability)
    .ok (num.add (num.add (num.lit dimension) (num.mul (num.lit 2) (num.sqrt (num.mul (num.lit dimension) parameter))))
      (num.mul (num.lit 2) parameter))

/-- `np.allclose(A, A.T, atol=1e-12, rtol=1e-12)`. -/
def nearlySymmetric {n : ℕ} (A : Matrix (Fin n) (Fin n) K) : Bool :=
  (List.finRange n).all fun i => (List.finRange n).all fun j =>
    num.le (num.abs (num.sub (A i j) (A j i)))
      (num.add (num.lit (1 / 10 ^ 12)) (num.mul (num.lit (1 / 10 ^ 12)) (num.abs (A j i))))

def conditionalGroup {n : ℕ} (covariance : Matrix (Fin n) (Fin n) K) (residual : Fin n → K) (indices : List (Fin n)) :
    Except String ((Fin indices.length → K) × Matrix (Fin indices.length) (Fin indices.length) K) :=
  if !num.matFinite covariance || !num.allFinite residual || indices.isEmpty || decide (¬ indices.Nodup) ||
      !nearlySymmetric num covariance then
    .error "Invalid conditional group covariance or scope"
  else do
    let complement := (List.finRange n).filter fun index => index ∉ indices
    let group (a : Fin indices.length) : Fin n := indices.get a
    let other (b : Fin complement.length) : Fin n := complement.get b
    let (groupResidual, groupCovariance) ←
      if complement.isEmpty then
        .ok (fun a => residual (group a), covariance.submatrix group group)
      else do
        let cross := covariance.submatrix group other
        let factor ← num.cholesky (covariance.submatrix other other)
        let projection ← num.solve factor cross.transpose
        let whitened ← num.solveVec factor fun b => residual (other b)
        let explained := num.matMul projection.transpose projection
        let expected := num.matVec projection.transpose whitened
        .ok (fun a => num.sub (residual (group a)) (expected a),
          fun a b => num.sub (covariance (group a) (group b)) (explained a b))
    return (groupResidual,
      fun a b => num.div (num.add (groupCovariance a b) (groupCovariance b a)) (num.lit 2))

def averaging {k : ℕ} (angles : Fin k → K) (unique : List K) (u : Fin unique.length) (i : Fin k) : K :=
  let at_ (j : Fin k) : Bool := num.eq (angles j) (unique.get u)
  num.div (num.flag (at_ i)) (num.lit ((List.finRange k).countP at_))

def groupSubspaceScores {k : ℕ} (residual : Fin k → K) (covariance : Matrix (Fin k) (Fin k) K) (angles : Fin k → K)
    (probability : K) : Except String (Scores K) :=
  if k = 0 || !num.allFinite residual || !num.matFinite covariance || !num.allFinite angles then
    .error "Invalid group subspace input"
  else do
    let uniqueAngles := num.unique (List.ofFn angles)
    let averaging : Matrix (Fin uniqueAngles.length) (Fin k) K := averaging num angles uniqueAngles
    let meanResidual := num.matVec averaging residual
    let meanCovariance := num.matMul (num.matMul averaging covariance) averaging.transpose
    let meanFactor ← num.cholesky meanCovariance
    let meanWhitened ← num.solveVec meanFactor meanResidual
    let factor ← num.cholesky covariance
    let whitened ← num.solveVec factor residual
    let total := num.dot whitened whitened
    let meanScore := num.dot meanWhitened meanWhitened
    let contrast := num.sub total meanScore
    let _ ← (if num.lt contrast (num.mul (num.lit (-1 / 10 ^ 8)) (num.pyMax (num.lit 1) total)) then
        .error "Group projection violates the covariance decomposition"
      else .ok () : Except String Unit)
    let meanDimension := uniqueAngles.length
    let contrastDimension := k - meanDimension
    let meanCutoff ← gaussianTailCutoff num meanDimension probability
    let contrastCutoff ←
      if contrastDimension = 0 then .ok none
      else (gaussianTailCutoff num contrastDimension probability).map some
    let contrastScore := if contrastDimension = 0 then num.lit 0 else num.pyMax (num.lit 0) contrast
    let meanExcess ← num.quotient meanScore meanCutoff
    let contrastExcess ←
      match contrastCutoff with
      | none => .ok (num.lit 0)
      | some cutoff =>
        if num.eq cutoff (num.lit 0) then .ok (num.lit 0)
        else (num.quotient contrastScore cutoff).map fun ratio => num.sub ratio (num.lit 1)
    return {
      meanScore, meanDimension, meanCutoff, contrastScore, contrastDimension, contrastCutoff
      varianceMultiplier :=
        num.pyMax (num.pyMax (num.lit 0) (num.sub meanExcess (num.lit 1))) contrastExcess
      totalScore := total }

/-! ## The moments of one method -/

/-- The rows of a method, their covariance and their residuals in each coefficient. -/
structure Moments (K : Type) where
  rows : List PolarObservation
  covariance : Fin 3 → Matrix (Fin rows.length) (Fin rows.length) K
  residual : Fin 3 → Fin rows.length → K

/-- The covariance of the discrepancies of a method, one term for each amplitude. -/
def discrepancyCovariance {n : ℕ} (policy : PolarModelPolicy) (amplitudes : List K) (alpha : Fin n → K) (center scale : K)
    (wide : Bool) (j : Fin 3) (s t : Fin n) : K :=
  let normalized (i : Fin n) : K := num.div (num.sub (alpha i) center) scale
  let distance := num.div (num.sub (alpha s) (alpha t)) (num.ofDouble policy.correlationLengthDeg)
  amplitudes.foldl (fun covariance amplitude =>
    let covariance := num.add covariance (num.add (num.square amplitude)
      (num.mul (num.square (num.entry policy.slopeStd j)) (num.mul (normalized s) (normalized t))))
    if wide then
      num.add covariance (num.mul (num.square (num.entry policy.localStd j))
        (num.exp (num.mul (num.lit (-1 / 2)) (num.square distance))))
    else covariance) (num.lit 0)

/-- The covariance with the noise of the lineages, and what is added on the diagonal to factorise it. -/
def withNoise {n : ℕ} (policy : PolarModelPolicy) (covariance : Matrix (Fin n) (Fin n) K) (noise : Fin n → K)
    (lineage : Fin n → Fin n → Bool) : Matrix (Fin n) (Fin n) K :=
  let correlation := num.ofDouble policy.lineageCorrelation
  let noisy : Matrix (Fin n) (Fin n) K := fun s t =>
    num.add
      (num.add (covariance s t) (num.mul (num.mul correlation (num.mul (noise s) (noise t))) (num.flag (lineage s t))))
      (num.diagonal (fun i => num.mul (num.sub (num.lit 1) correlation) (num.square (noise i))) s t)
  let largest := num.pyMax (num.vecMax fun i => noisy i i) (num.lit 1)
  fun s t => num.add (noisy s t) (num.mul (num.mul (num.eye s t) largest) (num.lit (1 / 10 ^ 10)))

def methodMoments (prior : PolarPrior) (observations : List PolarObservation) (policy : PolarModelPolicy) :
    Except String (Moments K) := do
  let ledger ← validate prior observations policy
  let eligible := ledger.eligible
  if eligible.isEmpty || decide (128 < eligible.length) || (eligible.map (·.method)).dedup.length != 1 then
    .error "A bounded single-method observation set is required"
  else
    let arrays := priorArrays num prior
    let data := observed num policy eligible
    let precise := (eligible.map (·.method)).headD "" == "openfoam_precise"
    let angles := num.unique (List.ofFn data.alpha)
    let center := num.mean angles
    let scale := arrays.scale num policy
    let floors := if precise then policy.preciseNoiseFloor else policy.fastNoiseFloor
    .ok
      { rows := eligible
        covariance := fun j =>
          let amplitudes := num.entry policy.fastDiscrepancyStd j ::
            if precise then [num.entry policy.preciseDiscrepancyStd j] else []
          let noise (i : Fin eligible.length) : K := num.maximum (data.errors i j) (num.entry floors j)
          withNoise num policy
            (discrepancyCovariance num policy amplitudes data.alpha center scale (decide (3 ≤ angles.length)) j) noise
            (sameLineage eligible)
        residual := fun j i => num.sub (data.values i j) (arrays.meanAt num j (data.alpha i)) }

/-! ## The groups -/

/-- `sorted({(row.method, row.lineage_id) for row in eligible})`. -/
def lineageGroups (eligible : List PolarObservation) : List (String × String) :=
  KeyOrder.sortBy (fun group => toLex (group.1.toList, group.2.toList))
    (eligible.map fun row => (row.method, row.lineageId)).dedup

def groupDiagnostics (moments : Moments K) (group : String × String) (probability : K) :
    Except String (ConflictGroup K) := do
  let indices := (List.finRange moments.rows.length).filter fun i => (moments.rows.get i).lineageId = group.2
  let angles (a : Fin indices.length) : Double := (moments.rows.get (indices.get a)).alpha
  let channels ← (List.finRange 3).mapM fun j => do
    let (residual, covariance) ← conditionalGroup num (moments.covariance j) (moments.residual j) indices
    let scores ← groupSubspaceScores num residual covariance (fun a => num.ofDouble (angles a)) probability
    return { coefficient := coefficientName j, scores }
  return {
    method := group.1
    lineageId := group.2
    windowCount := indices.length
    observationIds := indices.map fun i => (moments.rows.get i).observationId
    alpha := List.ofFn angles
    coefficients := channels }

def groupedCovarianceDiagnostics (prior : PolarPrior) (observations : List PolarObservation) (policy : PolarModelPolicy)
    (probability : K) : Except String (ConflictDiagnostics K) := do
  let ledger ← validate prior observations policy
  let eligible := ledger.eligible
  if decide (128 < eligible.length) || !properProbability num probability then
    .error "Invalid bounded group diagnostic request"
  else
    let groups := lineageGroups eligible
    let perTest := num.div probability (num.lit (6 * max 1 groups.length))
    let methods := KeyOrder.sortBy String.toList (eligible.map (·.method)).dedup
    let prepared ← methods.mapM fun method =>
      (methodMoments num prior (eligible.filter fun row => row.method = method) policy).map fun m => (method, m)
    let groups ← groups.mapM fun group =>
      match prepared.lookup group.1 with
      | none => .error group.1
      | some moments => groupDiagnostics num moments group perTest
    return { groups, modelFamilyTailProbability := probability, perTestTailProbability := perTest }

/-! ## What the conflicts add to the covariance -/

def excess (beyond : Bool) (score : K) (dimension : ℕ) : Except String K :=
  if beyond then
    (num.quotient score (num.lit dimension)).map fun ratio => num.pyMax (num.lit 0) (num.sub ratio (num.lit 1))
  else .ok (num.lit 0)

def shareChannel (scale : K) (channel : Channel K) : Except String (Channel K) := do
  let scores := channel.scores
  let meanExcess ← excess num (num.lt scores.meanCutoff scores.meanScore) scores.meanScore scores.meanDimension
  let contrastExcess ←
    excess num (scores.contrastCutoff.any fun cutoff => !num.eq cutoff (num.lit 0) && num.lt cutoff scores.contrastScore)
      scores.contrastScore scores.contrastDimension
  return { channel with
    sharedVariance := some (num.mul meanExcess (num.square scale))
    independentVariance := some (num.mul contrastExcess (num.square scale)) }

/-- `covariance[np.ix_(indices, indices)] += block`. -/
def addBlock {n : ℕ} (covariance : Matrix (Fin n) (Fin n) K) (indices : List (Fin n)) (block : ℕ → ℕ → K) :
    Matrix (Fin n) (Fin n) K := fun s t =>
  match indices.idxOf? s, indices.idxOf? t with
  | some a, some b => num.add (covariance s t) (block a b)
  | _, _ => covariance s t

/-- The block of a channel: its shared variance between equal angles, its independent variance on the diagonal. -/
def channelBlock (alpha : List Double) (channel : Channel K) (a b : ℕ) : K :=
  let angle (i : ℕ) : K := num.entry alpha i
  num.add (num.mul (num.flag (num.eq (angle a) (angle b))) (channel.sharedVariance.getD (num.lit 0)))
    (num.mul (num.flag (decide (a = b))) (channel.independentVariance.getD (num.lit 0)))

/-- A group's turn of the loop: its channels with their variances, and the covariance with their blocks. -/
def shareGroup {n : ℕ} (policy : PolarModelPolicy) (identities : Fin n → String)
    (covariance : Fin 3 → Matrix (Fin n) (Fin n) K) (group : ConflictGroup K) :
    Except String (ConflictGroup K × (Fin 3 → Matrix (Fin n) (Fin n) K)) := do
  let indices ← group.observationIds.mapM fun identity =>
    match (List.finRange n).reverse.find? fun i => identities i = identity with
    | some i => Except.ok i
    | none => .error identity
  let scale := if group.method == "openfoam_fast" then policy.fastDiscrepancyStd else policy.preciseDiscrepancyStd
  let channels ← (group.coefficients.zipIdx).mapM fun channel => shareChannel num (num.entry scale channel.2) channel.1
  return ({ group with coefficients := channels },
    fun j =>
      match channels[(j : ℕ)]? with
      | none => covariance j
      | some channel => addBlock num (covariance j) indices (channelBlock num group.alpha channel))

def shareGroups {n : ℕ} (policy : PolarModelPolicy) (identities : Fin n → String) :
    List (ConflictGroup K) → (Fin 3 → Matrix (Fin n) (Fin n) K) →
      Except String (List (ConflictGroup K) × (Fin 3 → Matrix (Fin n) (Fin n) K))
  | [], covariance => .ok ([], covariance)
  | group :: rest, covariance => do
    let (group, covariance) ← shareGroup num policy identities covariance group
    let (groups, covariance) ← shareGroups policy identities rest covariance
    return (group :: groups, covariance)

/-- `shared_discrepancy_covariance`, with the diagnostics whose channels it completes. -/
def sharedDiscrepancyCovariance (observations : List PolarObservation) (diagnostics : ConflictDiagnostics K)
    (policy : PolarModelPolicy) : Except String
      (ConflictDiagnostics K × (Fin 3 → Matrix (Fin observations.length) (Fin observations.length) K)) := do
  let (groups, covariance) ← shareGroups num policy (fun i => (observations.get i).observationId) diagnostics.groups
    fun _ => .of fun _ _ => num.lit 0
  return ({ diagnostics with groups }, covariance)

end Operations

end XFoilFoam.Estimate
