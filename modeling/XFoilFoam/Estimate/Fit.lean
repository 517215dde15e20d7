import XFoilFoam.Estimate.Acceptance
import XFoilFoam.Estimate.Conflicts
import XFoilFoam.Foundations.CanonicalJson

/-! `fit_progressive_polar` of `postprocess/progressive_polar.py`: a Gaussian-process posterior of two fidelities on the
prior's grid, its published curves, and what one more observation at an angle would be worth.  The constant entries of
the estimate are left out. -/
namespace XFoilFoam.Estimate
set_option autoImplicit false

/-! ## The estimate -/

structure Curve (K : Type) where
  coefficients : List (List K)
  lower : List (List K)
  upper : List (List K)

structure SparseConflict (K : Type) where
  angleScope : List K
  priorTrendCl : K
  observedTrendCl : K

structure Contributor where
  observationId : String
  resultId : String
  attemptId : String
  method : String
  window : Option (Double × Double)
  numericalConvergence : String
  statisticalCertification : String
  deriving DecidableEq

structure Candidate (K : Type) where
  alpha : K
  integratedVarianceReductionFraction : K
  covarianceReductionFraction : List K
  coverageReductionFraction : List K

structure Acquisition (K : Type) where
  status : String
  prospectiveNoiseStd : Option (List K)
  candidates : List (Candidate K)

structure SignaturePayload where
  version : String
  prior : PolarPrior
  policy : PolarModelPolicy
  observations : List PolarObservation

structure PolarEstimate (K : Type) where
  version : String
  signature : String
  targetSignature : String
  branch : String
  alpha : List K
  priorPredictionId : String
  policyId : String
  calibrationStatus : String
  validationId : Option String
  curves : List (String × Curve K)
  bestMethod : String
  primaryMethod : String
  sparseConflict : Option (SparseConflict K)
  contributors : List Contributor
  excluded : List (String × String)
  diagnostics : List (String × K)
  acquisition : Acquisition K
  conflictDiagnostics : Option (ConflictDiagnostics K)

/-! ## The signature -/

def vectorFinite (values : List Double) : Bool := values.all fun x => Binary64.isFinite x

/-- What `json.dumps(…, allow_nan=False)` asks of each part of the payload. -/
def PolarPrior.finite (prior : PolarPrior) : Bool :=
  vectorFinite prior.alpha && prior.coefficients.all vectorFinite && prior.standardDeviation.all vectorFinite &&
    (JsValue.obj prior.provenance).isJson

def PolarModelPolicy.finite (policy : PolarModelPolicy) : Bool :=
  [policy.fastDiscrepancyStd, policy.preciseDiscrepancyStd, policy.slopeStd, policy.localStd, policy.fastNoiseFloor,
    policy.preciseNoiseFloor, policy.uncertifiedFastBiasStd.getD []].all vectorFinite &&
    vectorFinite (policy.correlationLengthDeg :: policy.lineageCorrelation :: policy.lineageConflictProbability.toList)

def PolarObservation.finite (o : PolarObservation) : Bool :=
  vectorFinite (o.alpha :: (o.coefficients.getD [] ++ o.standardError.getD [])) &&
    o.window.all fun w => vectorFinite [w.1, w.2]

def signatureOf (digest : SignaturePayload → String) (version : String) (prior : PolarPrior) (policy : PolarModelPolicy)
    (observations : List PolarObservation) : Except String String :=
  if prior.finite && policy.finite && observations.all PolarObservation.finite then
    .ok (digest { version, prior, policy, observations := sortedObservations observations })
  else .error "Out of range float values are not JSON compliant"

def modelVersion (policy : PolarModelPolicy) : String :=
  if policy.lineageConflictProbability.isSome then "progressive-polar-gp-v4"
  else if policy.uncertifiedFastBiasStd.isSome then "progressive-polar-gp-v3"
  else "progressive-polar-gp-v2"

section Operations
variable {K : Type} (num : Numpy K)

/-! ## Covariances -/

/-- `kernel(…, method)` of one coefficient, at two angles: level, slope and, from three angles on, a local term. -/
def kernel {m : ℕ} (arrays : PriorArrays K m) (policy : PolarModelPolicy) (contributing : List K) (amplitude : K)
    (j : Fin 3) (s t : K) : K :=
  let angles := num.unique contributing
  let center := if contributing.isEmpty then num.mean (List.ofFn arrays.angles) else num.mean angles
  let scale := arrays.scale num policy
  let level := num.add (num.square amplitude)
    (num.mul (num.square (num.entry policy.slopeStd j))
      (num.mul (num.div (num.sub s center) scale) (num.div (num.sub t center) scale)))
  if 3 ≤ angles.length then
    let distance := num.div (num.sub s t) (num.ofDouble policy.correlationLengthDeg)
    num.add level (num.mul (num.square (num.entry policy.localStd j))
      (num.exp (num.mul (num.lit (-1 / 2)) (num.square distance))))
  else level

structure Kernels (K : Type) where
  fast : K → K → K
  precise : K → K → K

def kernels {m : ℕ} (arrays : PriorArrays K m) (policy : PolarModelPolicy) (rows : List PolarObservation)
    (alpha : Fin rows.length → K) (j : Fin 3) : Kernels K :=
  let precise := ((List.finRange rows.length).filter fun i => (rows.get i).precise).map alpha
  { fast := kernel num arrays policy (List.ofFn alpha) (num.entry policy.fastDiscrepancyStd j) j
    precise := kernel num arrays policy precise (num.entry policy.preciseDiscrepancyStd j) j }

/-- `np.maximum(errors, floors)`. -/
def noiseStd (policy : PolarModelPolicy) (rows : List PolarObservation) (data : Observed K rows.length) (j : Fin 3)
    (i : Fin rows.length) : K :=
  num.maximum (data.errors i j)
    (num.entry (if (rows.get i).precise then policy.preciseNoiseFloor else policy.fastNoiseFloor) j)

/-- `data_covariance`, its diagonal raised by the jitter. -/
def dataCovariance {n : ℕ} (policy : PolarModelPolicy) (kernels : Kernels K) (alpha : Fin n → K) (precise : Fin n → Bool)
    (noise : Fin n → K) (lineage : Fin n → Fin n → Bool) (extra : Option (Matrix (Fin n) (Fin n) K)) :
    Matrix (Fin n) (Fin n) K :=
  let correlation := num.ofDouble policy.lineageCorrelation
  let covariance : Matrix (Fin n) (Fin n) K := fun s t =>
    let latent := num.add (kernels.fast (alpha s) (alpha t))
      (num.mul (kernels.precise (alpha s) (alpha t)) (num.mul (num.flag (precise s)) (num.flag (precise t))))
    let noisy := num.add latent
      (num.add (num.mul (num.mul correlation (num.mul (noise s) (noise t))) (num.flag (lineage s t)))
        (num.diagonal (fun i => num.mul (num.sub (num.lit 1) correlation) (num.square (noise i))) s t))
    match extra with
    | none => noisy
    | some extra => num.add noisy (extra s t)
  let jitter := num.mul (num.pyMax (num.vecMax fun i => covariance i i) (num.lit 1)) (num.lit (1 / 10 ^ 10))
  fun s t => num.add (covariance s t) (num.mul (num.eye s t) jitter)

/-! ## The acquisition -/

def gridWeights {m : ℕ} (arrays : PriorArrays K m) (i : Fin m) : K :=
  let spacing (k : ℕ) : K := num.sub (arrays.angleAt num (k + 1)) (arrays.angleAt num k)
  if (i : ℕ) = 0 then num.div (spacing 0) (num.lit 2)
  else if (i : ℕ) + 1 = m then num.div (spacing (i - 1)) (num.lit 2)
  else num.div (num.add (spacing (i - 1)) (spacing i)) (num.lit 2)

def acquisitionReduction {m : ℕ} (weights currentVariance : Fin m → K) (posteriorCross : Matrix (Fin m) (Fin m) K)
    (candidateVariance : Fin m → K) (noiseVariance : K) (coverageReduction : Matrix (Fin m) (Fin m) K) :
    Except String ((Fin m → K) × (Fin m → K)) :=
  let denominator := num.dot weights currentVariance
  if !num.isFinite denominator || num.le denominator (num.lit 0) || num.le noiseVariance (num.lit 0) then
    .error "Acquisition requires positive finite uncertainty and prospective noise"
  else
    let covarianceReduction : Matrix (Fin m) (Fin m) K := fun i c =>
      num.div (num.square (posteriorCross i c)) (num.add (candidateVariance c) noiseVariance)
    let covariance (c : Fin m) : K := num.div (num.vecMat weights covarianceReduction c) denominator
    let coverage (c : Fin m) : K := num.div (num.vecMat weights coverageReduction c) denominator
    let total (c : Fin m) : K := num.add (covariance c) (coverage c)
    if !num.allFinite total || ((List.ofFn total).any fun x => num.lt x (num.lit (-1 / 10 ^ 8))) ||
        ((List.ofFn total).any fun x => num.lt (num.add (num.lit 1) (num.lit (1 / 10 ^ 8))) x) then
      .error "Acquisition reduction exceeds the current fitted uncertainty"
    else .ok (fun c => num.clip (covariance c), fun c => num.clip (coverage c))

/-! ## One coefficient -/

/-- What the loop leaves of a coefficient: means and variances of both methods, and the scores. -/
structure CoefficientFit (K : Type) (m : ℕ) where
  disagreement : K
  prospectiveNoise : K
  mean : Bool → Fin m → K
  variance : Bool → Fin m → K
  acquisitionCovariance : Fin m → K
  acquisitionCoverage : Fin m → K

/-- `1 - np.exp(-(distance / policy.correlation_length_deg) ** 2)`. -/
def unsupportedAt (policy : PolarModelPolicy) (distance : K) : K :=
  num.sub (num.lit 1) (num.exp (num.neg (num.square (num.div distance (num.ofDouble policy.correlationLengthDeg)))))

/-- One turn of the loop over the coefficients; a method is whether it is the precise one. -/
def fitCoefficient {m : ℕ} (arrays : PriorArrays K m) (policy : PolarModelPolicy) (rows : List PolarObservation)
    (data : Observed K rows.length) (extra : Option (Matrix (Fin rows.length) (Fin rows.length) K)) (j : Fin 3) :
    Except String (CoefficientFit K m) := do
  let kernels := kernels num arrays policy rows data.alpha j
  let precise (i : Fin rows.length) : Bool := (rows.get i).precise
  let residuals (i : Fin rows.length) : K := num.sub (data.values i j) (arrays.meanAt num j (data.alpha i))
  let noise := noiseStd num policy rows data j
  let factor ← num.cholesky (dataCovariance num policy kernels data.alpha precise noise (sameLineage rows) extra)
  let whitened ← num.solveVec factor residuals
  let solved ← num.solveVec factor.transpose whitened
  let inverse ← num.solve factor fun s t => num.eye s t
  let inverseDiagonal := num.columnSum fun s t => num.square (inverse s t)
  let disagreement := num.pyMax (num.lit 1)
    (num.mean (List.ofFn fun i => num.div (num.square (solved i)) (inverseDiagonal i)))
  let fastCross : Matrix (Fin m) (Fin rows.length) K := fun a i => kernels.fast (arrays.angles a) (data.alpha i)
  let fastProjection ← num.solve factor fastCross.transpose
  let fastCovariance : Matrix (Fin m) (Fin m) K := fun a b => kernels.fast (arrays.angles a) (arrays.angles b)
  let explainedBy (projection : Matrix (Fin rows.length) (Fin m) K) (a : Fin m) : K :=
    num.columnSum (fun i b => num.square (projection i b)) a
  let fastConditional (a : Fin m) : K :=
    num.maximum (num.sub (fastCovariance a a) (explainedBy fastProjection a)) (num.lit 0)
  let fastErrors := ((List.finRange rows.length).filter fun i => !precise i).map fun i =>
    match extra with
    | none => noise i
    | some extra => num.sqrt (num.add (num.square (noise i)) (extra i i))
  let prospectiveNoise := num.pyMax (num.entry policy.fastNoiseFloor j)
    (if fastErrors.isEmpty then num.lit 0 else num.median fastErrors)
  let nearest (a : Fin m) : K :=
    num.vecMin fun i => num.abs (num.sub (arrays.angles a) (data.alpha i))
  let unsupported (a : Fin m) : K := unsupportedAt num policy (nearest a)
  let priorVariance (a : Fin m) : K := num.square (arrays.std a j)
  let cross (method : Bool) : Matrix (Fin m) (Fin rows.length) K := fun a i =>
    if method then
      num.add (fastCross a i) (num.mul (kernels.precise (arrays.angles a) (data.alpha i)) (num.flag (precise i)))
    else fastCross a i
  let predictionVariance (method : Bool) (a : Fin m) : K :=
    if method then num.add (fastCovariance a a) (kernels.precise (arrays.angles a) (arrays.angles a))
    else fastCovariance a a
  let projectedFast ← num.solve factor (cross false).transpose
  let projectedPrecise ← num.solve factor (cross true).transpose
  let projected (method : Bool) := if method then projectedPrecise else projectedFast
  let conditional (method : Bool) (a : Fin m) : K :=
    num.maximum (num.sub (predictionVariance method a) (explainedBy (projected method) a)) (num.lit 0)
  let variance (method : Bool) (a : Fin m) : K :=
    num.mul disagreement (num.add (conditional method a) (num.mul (priorVariance a) (unsupported a)))
  let explainedCross := num.matMul projectedPrecise.transpose fastProjection
  let posteriorCross : Matrix (Fin m) (Fin m) K := fun a c => num.sub (fastCovariance a c) (explainedCross a c)
  let coverageReduction : Matrix (Fin m) (Fin m) K := fun a c =>
    let nextNearest := num.minimum (nearest a) (num.abs (num.sub (arrays.angles a) (arrays.angles c)))
    num.mul (priorVariance a) (num.sub (unsupported a) (unsupportedAt num policy nextNearest))
  let (covarianceScore, coverageScore) ← acquisitionReduction num (gridWeights num arrays)
    (fun a => num.div (variance true a) disagreement) posteriorCross fastConditional (num.square prospectiveNoise)
    coverageReduction
  return {
    disagreement
    prospectiveNoise
    mean := fun method a => num.add (arrays.mean a j) (num.matVec (cross method) solved a)
    variance
    acquisitionCovariance := covarianceScore
    acquisitionCoverage := coverageScore }

/-! ## Curves -/

def rowsOf {m : ℕ} (values : Fin m → Fin 3 → K) : List (List K) := List.ofFn fun i => List.ofFn (values i)

def withDrag {m : ℕ} (values : Fin m → Fin 3 → K) (i : Fin m) (j : Fin 3) : K :=
  if j = 1 then num.exp (values i 1) else values i j

/-- The three matrices of a curve: the mean and 1.96 deviations on both sides. -/
structure Bands (K : Type) (m : ℕ) where
  central : Fin m → Fin 3 → K
  lower : Fin m → Fin 3 → K
  upper : Fin m → Fin 3 → K

def bands {m : ℕ} (mean sigma : Fin m → Fin 3 → K) : Bands K m :=
  { central := withDrag num mean
    lower := withDrag num fun i j => num.sub (mean i j) (num.mul (num.lit (196 / 100)) (sigma i j))
    upper := withDrag num fun i j => num.add (mean i j) (num.mul (num.lit (196 / 100)) (sigma i j)) }

def Bands.curve {m : ℕ} (bands : Bands K m) : Curve K :=
  ⟨rowsOf bands.central, rowsOf bands.lower, rowsOf bands.upper⟩

/-- A curve whose numbers are all finite; an exponential that overflows raises. -/
def publishable {m : ℕ} (mean sigma : Fin m → Fin 3 → K) : Except String (Bands K m) :=
  let bands := bands num mean sigma
  let overflows (logarithm value : K) : Bool := num.isFinite logarithm && !num.isFinite value
  let spread (i : Fin m) : K := num.mul (num.lit (196 / 100)) (sigma i 1)
  if (List.finRange m).any fun i => overflows (mean i 1) (bands.central i 1) ||
      overflows (num.sub (mean i 1) (spread i)) (bands.lower i 1) ||
      overflows (num.add (mean i 1) (spread i)) (bands.upper i 1) then
    .error "overflow encountered in exp"
  else if (List.finRange m).all fun i =>
      num.allFinite (bands.central i) && num.allFinite (bands.lower i) && num.allFinite (bands.upper i) then
    .ok bands
  else .error "Posterior is not finite; no publishable estimate"

/-! ## Sparse evidence against the prior's trend -/

def opposed (priorTrend observedTrend : K) : Bool :=
  !(num.lt (num.abs priorTrend) (num.lit (2 / 10)) || num.lt (num.abs observedTrend) (num.lit (2 / 10)) ||
    num.le (num.lit 0) (num.mul priorTrend observedTrend))

def sparseLowAngleConflict {m : ℕ} (arrays : PriorArrays K m) (rows : List PolarObservation) :
    Option (SparseConflict K) :=
  if rows.isEmpty || rows.any PolarObservation.precise then none
  else
    let low := rows.filter fun row =>
      num.le (num.lit (-5)) (num.ofDouble row.alpha) && num.le (num.ofDouble row.alpha) (num.lit 10)
    let lift (alpha : K) : List K :=
      (low.filter fun row => num.eq (num.ofDouble row.alpha) alpha).map fun row => num.entry (row.coefficients.getD []) 0
    match num.unique (low.map fun row => num.ofDouble row.alpha) with
    | first :: second :: rest =>
      let last := (second :: rest).getLastD second
      if num.lt (num.sub last first) (num.lit 2) then none
      else
        let priorTrend := num.sub (arrays.meanAt num 0 last) (arrays.meanAt num 0 first)
        let observedTrend := num.sub (num.median (lift last)) (num.median (lift first))
        if opposed num priorTrend observedTrend then some ⟨[first, last], priorTrend, observedTrend⟩ else none
    | _ => none

def sparseFitTrendConflict {m : ℕ} (arrays : PriorArrays K m) (fastCurve : Bands K m) (rows : List PolarObservation) :
    Option (SparseConflict K) :=
  if rows.isEmpty || rows.any PolarObservation.precise ||
      decide (2 < (num.unique (rows.map fun row => num.ofDouble row.alpha)).length) ||
      !((List.finRange m).all fun i => num.allFinite (fastCurve.central i)) then none
  else
    let low := arrays.angleAt num 0
    let high := arrays.angleAt num (m - 1)
    let liftAt (k : ℕ) : K := if h : k < m then fastCurve.central ⟨k, h⟩ 0 else num.lit 0
    let priorTrend := num.sub (arrays.meanAt num 0 high) (arrays.meanAt num 0 low)
    let fittedTrend := num.sub (liftAt (m - 1)) (liftAt 0)
    if opposed num priorTrend fittedTrend then some ⟨[low, high], priorTrend, fittedTrend⟩ else none

/-! ## The fit -/

def contributor (o : PolarObservation) : Contributor :=
  { observationId := o.observationId
    resultId := o.resultId
    attemptId := o.attemptId
    method := o.method
    window := o.window
    numericalConvergence := o.numericalConvergence
    statisticalCertification := o.statisticalCertification }

def conflictStage (prior : PolarPrior) (observations eligible : List PolarObservation) (policy : PolarModelPolicy) :
    Except String (Option (ConflictDiagnostics K × (Fin 3 → Matrix (Fin eligible.length) (Fin eligible.length) K))) :=
  match policy.lineageConflictProbability with
  | none => .ok none
  | some probability => do
    let diagnostics ← groupedCovarianceDiagnostics num prior observations policy (num.ofDouble probability)
    if eligible.isEmpty then return some (diagnostics, fun _ => .of fun _ _ => num.lit 0)
    else (sharedDiscrepancyCovariance num eligible diagnostics policy).map some

def fitCoefficients {m : ℕ} (arrays : PriorArrays K m) (policy : PolarModelPolicy) (rows : List PolarObservation)
    (extra : Option (Fin 3 → Matrix (Fin rows.length) (Fin rows.length) K)) :
    Except String (List (CoefficientFit K m)) :=
  (List.finRange 3).mapM fun j =>
    if rows.isEmpty then
      .ok {
        disagreement := num.lit 1
        prospectiveNoise := num.lit 0
        mean := fun _ a => arrays.mean a j
        variance := fun _ a => num.square (arrays.std a j)
        acquisitionCovariance := fun _ => num.lit 0
        acquisitionCoverage := fun _ => num.lit 0 }
    else fitCoefficient num arrays policy rows (observed num policy rows) (extra.map fun e => e j) j

def columns {m : ℕ} (fits : List (CoefficientFit K m)) (column : CoefficientFit K m → Fin m → K) (i : Fin m) (j : Fin 3) :
    K :=
  match fits[(j : ℕ)]? with
  | none => num.lit 0
  | some fit => column fit i

def candidatesOf {m : ℕ} (arrays : PriorArrays K m) (fits : List (CoefficientFit K m)) (rows : List PolarObservation) :
    List (Candidate K) :=
  ((List.finRange m).filter fun i =>
    !rows.isEmpty && !(rows.any fun row => num.eq (arrays.angles i) (num.ofDouble row.alpha))).map fun i =>
      let covariance := columns num fits (fun fit => fit.acquisitionCovariance) i
      let coverage := columns num fits (fun fit => fit.acquisitionCoverage) i
      { alpha := arrays.angles i
        integratedVarianceReductionFraction := num.mean (List.ofFn fun j => num.add (covariance j) (coverage j))
        covarianceReductionFraction := List.ofFn covariance
        coverageReductionFraction := List.ofFn coverage }

def fitProgressivePolar (digest : SignaturePayload → String) (prior : PolarPrior) (observations : List PolarObservation)
    (policy : PolarModelPolicy) : Except String (PolarEstimate K) := do
  let ledger ← validate prior observations policy
  let eligible := ledger.eligible
  let arrays := priorArrays num prior
  let signature ← signatureOf digest (modelVersion policy) prior policy observations
  let conflicts ← conflictStage num prior observations eligible policy
  let fits ← fitCoefficients num arrays policy eligible (conflicts.map Prod.snd)
  let mean (precise : Bool) := columns num fits fun fit => fit.mean precise
  let sigma (precise : Bool) (i : Fin prior.alpha.length) (j : Fin 3) : K :=
    num.sqrt (columns num fits (fun fit => fit.variance precise) i j)
  let fast ← publishable num (mean false) (sigma false)
  let precise ← publishable num (mean true) (sigma true)
  let sparseConflict := (sparseLowAngleConflict num arrays eligible).or (sparseFitTrendConflict num arrays fast eligible)
  let composite := if sparseConflict.isSome then (bands num arrays.mean arrays.std).curve else precise.curve
  return {
    version := modelVersion policy
    signature
    targetSignature := prior.targetSignature
    branch := prior.branch
    alpha := List.ofFn arrays.angles
    priorPredictionId := prior.predictionId
    policyId := policy.policyId
    calibrationStatus := policy.calibrationStatus
    validationId := policy.validationId
    curves := ("composite", composite) ::
      ((if eligible.any PolarObservation.fast then [("openfoam_fast", fast.curve)] else []) ++
        if eligible.any PolarObservation.precise then [("openfoam_precise", precise.curve)] else [])
    bestMethod :=
      if sparseConflict.isSome then "neuralfoil"
      else if eligible.any PolarObservation.precise then "openfoam_precise"
      else if eligible.isEmpty then "neuralfoil" else "openfoam_fast"
    primaryMethod := if sparseConflict.isSome || eligible.isEmpty then "neuralfoil" else "composite"
    sparseConflict
    contributors := eligible.map contributor
    excluded := ledger.excluded
    diagnostics :=
      if eligible.isEmpty then [] else fits.zipIdx.map fun fit => (["cl", "log_cd", "cm"].getD fit.2 "", fit.1.disagreement)
    acquisition :=
      { status := if eligible.isEmpty then "no_eligible_cfd" else "available"
        prospectiveNoiseStd := if eligible.isEmpty then none else some (fits.map fun fit => fit.prospectiveNoise)
        candidates := candidatesOf num arrays fits eligible }
    conflictDiagnostics := conflicts.map Prod.fst }

end Operations

end XFoilFoam.Estimate
