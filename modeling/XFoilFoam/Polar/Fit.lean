import XFoilFoam.Foundations.Literals
import XFoilFoam.Polar.Classify
import XFoilFoam.Foundations.DoubleOrder

/-! `buildPolarFit` of `polar-fit.ts`: a weighted local quadratic through the classified evidence, sampled over the angles
of the evidence, and the metrics read off the samples.  The loops that step by floating-point amounts have fuel. -/
namespace XFoilFoam.Polar
open Binary64
set_option autoImplicit false

/-- The functions of `Math` that the standard leaves to the engine, with `Math.sqrt`. -/
structure MathFunctions where
  exp : Double → Double
  sqrt : Double → Double

/-! ## The evidence of a fit -/

structure FitInput where
  a : Double
  cl : Double
  cd : Double
  cm : Double
  state : ResultClassificationState
  regime : Option ResultRegime

inductive Coefficient
  | cl
  | cd
  | cm
  deriving DecidableEq

def FitInput.coefficient (p : FitInput) : Coefficient → Double
  | .cl => p.cl
  | .cd => p.cd
  | .cm => p.cm

section Inputs
variable {Ref : Type} (heap : Ref → PolarEvidencePoint Double)

def fitUsable (c : PolarEvidenceClassification Ref Double) : Bool :=
  let p := heap c.evidence
  (decide (c.state = .accepted) || decide (c.state = .needsUrans)) &&
    ((finiteOf p.cl).isSome && (finiteOf p.cd).isSome && (finiteOf p.cm).isSome && lt (lit 0) (p.cd.getD (lit 0)))

def fitInput (c : PolarEvidenceClassification Ref Double) : FitInput :=
  let p := heap c.evidence
  { a := p.a
    cl := p.cl.getD (lit 0)
    cd := p.cd.getD (lit 0)
    cm := p.cm.getD (lit 0)
    state := c.state
    regime := p.regime }

def fitInputsOf (cs : List (PolarEvidenceClassification Ref Double)) : List FitInput :=
  jsSort (fun p q => sub p.a q.a) ((cs.filter (fitUsable heap)).map (fitInput heap))

end Inputs

/-- The point that a fit input is spread into for `nominalStep`. -/
def FitInput.point (p : FitInput) : PolarEvidencePoint Double where
  a := p.a
  cl := some p.cl
  cd := some p.cd
  cm := some p.cm
  ld := none
  status := "done"
  source := "solved"
  regime := p.regime
  converged := true
  stalled := false
  unsteady := none
  error := none
  failureDisposition := none
  finalResidual := none
  iterations := none
  sourceGeometryCompatible := none
  hasForceHistory := false
  hasVideo := false
  frameTrack := .undefined
  uransCycleCertificate := .undefined
  noSheddingCertificate := .undefined
  aperiodicMeanCertificate := .undefined
  ransHoldCertificate := .undefined
  fidelity := none
  steadyHistory := .undefined
  qualityWarnings := none
  selectedArchiveInterpretation := .undefined

def weightFor (p : FitInput) : Double :=
  if p.state = .needsUrans then lit (45 / 100)
  else if p.regime = some .urans then lit (14 / 10)
  else lit 1

/-! ## The local quadratic -/

def eliminateColumn (m : Fin 3 → Fin 4 → Double) (col : Fin 3) : Option (Fin 3 → Fin 4 → Double) :=
  let column : Fin 4 := col.castSucc
  let pivot := ((List.finRange 3).filter fun r => decide (col < r)).foldl
    (fun pivot r => if lt (Binary64.abs (m pivot column)) (Binary64.abs (m r column)) then r else pivot) col
  if lt (Binary64.abs (m pivot column)) (lit (1 / 10 ^ 12)) then none
  else
    let swapped (r : Fin 3) : Fin 4 → Double := if r = col then m pivot else if r = pivot then m col else m r
    let scaled (c : Fin 4) : Double := if column ≤ c then div (swapped col c) (swapped col column) else swapped col c
    some fun r c =>
      if r = col then scaled c
      else if column ≤ c then sub (swapped r c) (mul (swapped r column) (scaled c))
      else swapped r c

/-- `solve3` on the matrix with its right side; its first solution is the one that is read. -/
def solve3 (m : Fin 3 → Fin 4 → Double) : Option (Double × Double × Double) :=
  ((List.finRange 3).foldlM eliminateColumn m).map fun solved => (solved 0 3, solved 1 3, solved 2 3)

structure QuadraticSums where
  normal : Fin 3 → Fin 4 → Double
  totalWeight : Double
  weightedAverage : Double

def localQuadratic (math : MathFunctions) (points : List FitInput) (x : Double) (key : Coefficient) (span : Double) :
    Double :=
  let sums := points.foldl
    (fun (sums : QuadraticSums) p =>
      let dx := sub p.a x
      let distanceWeight := math.exp (mul (lit (-1 / 2)) (mul (div dx span) (div dx span)))
      let w := mul distanceWeight (weightFor p)
      let basis (r : Fin 3) : Double := if r = 0 then lit 1 else if r = 1 then dx else mul dx dx
      let y := p.coefficient key
      { normal := fun r c =>
          add (sums.normal r c) (mul (mul w (basis r)) (if h : (c : ℕ) < 3 then basis ⟨c, h⟩ else y))
        totalWeight := add sums.totalWeight w
        weightedAverage := add sums.weightedAverage (mul w y) })
    ⟨fun _ _ => lit 0, lit 0, lit 0⟩
  match solve3 sums.normal with
  | some solved => solved.1
  | none => div sums.weightedAverage (Binary64.max sums.totalWeight (lit (1 / 10 ^ 9)))

/-! ## Samples and their metrics -/

structure PolarFitPoint where
  a : Double
  cl : Double
  cd : Double
  cm : Double
  ld : Double

structure PolarFitMetrics where
  ldmax : Double
  aLd : Double
  cdmin : Double
  clCd : Double
  cd0 : Double
  clmax : Double
  aStall : Double
  cm0 : Double
  alphaLdmaxFine : Double
  alphaClZeroFine : Option Double
  alphaClmaxFine : Option Double

/-- `Number(x.toFixed(decimals))`: the nearest decimal, the larger one on a tie. -/
def toFixedNumber (decimals : ℕ) (x : Double) : Double :=
  match x.val with
  | .fin q =>
    if 10 ^ 21 ≤ |q| then x
    else
      let units : ℚ := ⌊|q| * 10 ^ decimals + 1 / 2⌋
      lit ((if q < 0 then -units else units) / 10 ^ decimals)
  | _ => x

def roundCenti (x : Double) : Double := toFixedNumber 2 x

/-- A point that `interpolateAtClZero` reads, of `cd` or of `cm`. -/
def PolarFitPoint.coefficient (p : PolarFitPoint) : Coefficient → Double
  | .cl => p.cl
  | .cd => p.cd
  | .cm => p.cm

/-- `(a < 0 && b > 0) || (a > 0 && b < 0)`. -/
def oppositeSigns (a b : Double) : Bool := (lt a (lit 0) && lt (lit 0) b) || (lt (lit 0) a && lt b (lit 0))

/-- The loop of `interpolateAtClZero`. -/
def crossingAtClZero (key : Coefficient) : List PolarFitPoint → Option Double
  | a :: b :: rest =>
    if eq a.cl (lit 0) then some (a.coefficient key)
    else if oppositeSigns a.cl b.cl || eq b.cl (lit 0) then
      let t := div (sub (lit 0) a.cl) ((sub b.cl a.cl).orElse (lit 1))
      some (add (a.coefficient key) (mul t (sub (b.coefficient key) (a.coefficient key))))
    else crossingAtClZero key (b :: rest)
  | _ => none

def interpolateAtClZero (points : List PolarFitPoint) (key : Coefficient) : Double :=
  match crossingAtClZero key points with
  | some value => value
  | none =>
    ((jsSort (fun p q => sub (Binary64.abs p.cl) (Binary64.abs q.cl)) points).head?.map fun p =>
      p.coefficient key).getD (lit 0)

structure Section where
  a : Double
  b : Double
  c : Double
  d : Double
  fc : Double
  fd : Double

/-- `while (b - a > 1e-5)`. -/
def goldenLoop (invPhi : Double) (f : Double → Double) : ℕ → Section → Option Section
  | 0, _ => none
  | fuel + 1, s =>
    if lt (lit (1 / 10 ^ 5)) (sub s.b s.a) then
      if lt s.fd s.fc then
        let c := sub s.d (mul invPhi (sub s.d s.a))
        goldenLoop invPhi f fuel ⟨s.a, s.d, c, s.c, f c, s.fc⟩
      else
        let d := add s.c (mul invPhi (sub s.b s.c))
        goldenLoop invPhi f fuel ⟨s.c, s.b, s.d, d, s.fd, f d⟩
    else some s

def goldenSectionMax (math : MathFunctions) (fuel : ℕ) (f : Double → Double) (lo hi : Double) : Option Double :=
  let invPhi := div (sub (math.sqrt (lit 5)) (lit 1)) (lit 2)
  let c := sub hi (mul invPhi (sub hi lo))
  let d := add lo (mul invPhi (sub hi lo))
  (goldenLoop invPhi f fuel ⟨lo, hi, c, d, f c, f d⟩).map fun s => div (add s.a s.b) (lit 2)

/-- The rounds of `bisectRoot` that are left. -/
def bisectLoop (f : Double → Double) : ℕ → Double → Double → Double → Double
  | 0, a, b, _ => div (add a b) (lit 2)
  | rounds + 1, a, b, fa =>
    if lt (lit (1 / 10 ^ 7)) (sub b a) then
      let mid := div (add a b) (lit 2)
      let fm := f mid
      if eq fm (lit 0) then mid
      else if (lt fa (lit 0) && lt fm (lit 0)) || (lt (lit 0) fa && lt (lit 0) fm) then bisectLoop f rounds mid b fm
      else bisectLoop f rounds a mid fa
    else div (add a b) (lit 2)

def bisectRoot (f : Double → Double) (lo hi : Double) : Double :=
  if eq (f lo) (lit 0) then lo else bisectLoop f 80 lo hi (f lo)

structure FineTargetContext where
  evaluate : Double → Coefficient → Double
  stepDeg : Double
  minA : Double
  maxA : Double

/-- The loop for `alphaClZeroFine`. -/
def fineClZero (fine : FineTargetContext) : List PolarFitPoint → Option Double
  | a :: b :: rest =>
    if eq a.cl (lit 0) then some (roundCenti a.a)
    else if eq b.cl (lit 0) then some (roundCenti b.a)
    else if oppositeSigns a.cl b.cl then some (roundCenti (bisectRoot (fun x => fine.evaluate x .cl) a.a b.a))
    else fineClZero fine (b :: rest)
  | _ => none

/-- `finitePoints.reduce` to the index of the first largest lift coefficient. -/
def clArgmaxIdx (points : List PolarFitPoint) : ℕ :=
  (points.zipIdx.foldl
    (fun (best : ℕ × Option Double) p =>
      match best.2 with
      | none => (p.2, some p.1.cl)
      | some cl => if lt cl p.1.cl then (p.2, some p.1.cl) else best)
    (0, none)).1

def bracketAround (fine : FineTargetContext) (a : Double) : Double × Double :=
  (Binary64.max fine.minA (sub a fine.stepDeg), Binary64.min fine.maxA (add a fine.stepDeg))

/-- `fitMetrics`; the outer option is the fuel, the inner one its `null`. -/
def fitMetrics (math : MathFunctions) (fuel : ℕ) (points : List PolarFitPoint) (fine : FineTargetContext) :
    Option (Option PolarFitMetrics) :=
  if points.length < 3 then some none
  else
    let finitePoints := points.filter fun p => isFinite p.cl && isFinite p.cd && isFinite p.cm && isFinite p.ld
    if finitePoints.length < 3 then some none
    else
      match (jsSort (fun p q => sub q.ld p.ld) finitePoints).head?, (jsSort (fun p q => sub q.cl p.cl) finitePoints).head?,
        (jsSort (fun p q => sub p.cd q.cd) finitePoints).head? with
      | some byLd, some byCl, some byCd => do
        let ldBracket := bracketAround fine byLd.a
        let alphaLdmax ←
          goldenSectionMax math fuel (fun a => div (fine.evaluate a .cl) (fine.evaluate a .cd)) ldBracket.1 ldBracket.2
        let clBracket := bracketAround fine byCl.a
        let interior := decide (0 < clArgmaxIdx finitePoints ∧ clArgmaxIdx finitePoints < finitePoints.length - 1)
        let alphaClmaxFine ←
          if interior then
            (goldenSectionMax math fuel (fun a => fine.evaluate a .cl) clBracket.1 clBracket.2).map fun alpha =>
              some (roundCenti alpha)
          else some none
        return some {
          ldmax := byLd.ld
          aLd := byLd.a
          cdmin := byCd.cd
          clCd := byCd.cl
          cd0 := interpolateAtClZero finitePoints .cd
          clmax := byCl.cl
          aStall := byCl.a
          cm0 := interpolateAtClZero finitePoints .cm
          alphaLdmaxFine := roundCenti alphaLdmax
          alphaClZeroFine := fineClZero fine finitePoints
          alphaClmaxFine }
      | _, _, _ => some none

/-! ## The fit -/

inductive PolarFitStatus
  | insufficient
  | provisional
  | final
  deriving DecidableEq

structure PolarFit where
  status : PolarFitStatus
  confidence : Double
  metrics : Option PolarFitMetrics
  points : List PolarFitPoint
  acceptedPointCount : ℕ
  provisionalPointCount : ℕ
  rejectedPointCount : ℕ

/-- `for (let a = minA; a <= maxA + step * 0.5; a += step)`. -/
def sampleAngles (last step : Double) : ℕ → Double → Option (List Double)
  | 0, _ => none
  | fuel + 1, a => if le a last then (sampleAngles last step fuel (add a step)).map (a :: ·) else some []

/-- The fit of inputs in their order; the counts are those of all classifications. -/
def fitOf (math : MathFunctions) (fuel : ℕ) (fitInputs : List FitInput) (accepted provisional rejected : ℕ) :
    Option PolarFit :=
  match fitInputs with
  | first :: _ :: _ :: _ => do
    let step := Binary64.min (lit (1 / 2)) (nominalStep (fitInputs.map FitInput.point))
    let minA := first.a
    let maxA := (fitInputs.getLastD first).a
    let span := Binary64.max (mul step (lit 6)) (lit (5 / 2))
    let evaluate (a : Double) (key : Coefficient) : Double :=
      let value := localQuadratic math fitInputs a key span
      if key = .cd then Binary64.max (lit (1 / 10 ^ 6)) value else value
    let angles ← sampleAngles (add maxA (mul step (lit (1 / 2)))) step fuel minA
    let samples := angles.map fun a =>
      let cl := evaluate a .cl
      let cd := evaluate a .cd
      ({ a := toFixedNumber 4 a, cl, cd, cm := evaluate a .cm, ld := div cl cd } : PolarFitPoint)
    let metrics ← fitMetrics math fuel samples ⟨evaluate, step, minA, maxA⟩
    let confidenceBase := Binary64.min (lit (98 / 100))
      (add (lit (45 / 100)) (mul (lit fitInputs.length) (lit (35 / 1000))))
    return {
      status := if 0 < provisional then .provisional else .final
      confidence := if 0 < provisional then Binary64.min confidenceBase (lit (74 / 100)) else confidenceBase
      metrics
      points := samples
      acceptedPointCount := accepted
      provisionalPointCount := provisional
      rejectedPointCount := rejected }
  | _ =>
    some {
      status := .insufficient
      confidence := lit 0
      metrics := none
      points := []
      acceptedPointCount := accepted
      provisionalPointCount := provisional
      rejectedPointCount := rejected }

/-- `buildPolarFit`; without a result where a loop takes more rounds than `fuel`. -/
def buildPolarFit {Ref : Type} (heap : Ref → PolarEvidencePoint Double) (math : MathFunctions) (fuel : ℕ)
    (classifications : List (PolarEvidenceClassification Ref Double)) : Option PolarFit :=
  fitOf math fuel (fitInputsOf heap classifications)
    (classifications.countP fun c => c.state = .accepted)
    (classifications.countP fun c => c.state = .needsUrans)
    (classifications.countP fun c => c.state = .rejected ∨ c.state = .supersededByUrans)

/-! ## Orders of the evidence -/

/-- Angles that are told apart: one of two is always the smaller. -/
def AnglesDistinct {Ref : Type} (heap : Ref → PolarEvidencePoint Double) (points : List Ref) : Prop :=
  points.Pairwise fun p q => lt (heap p).a (heap q).a = true ∨ lt (heap q).a (heap p).a = true

section Orders
variable {Ref : Type} {heap : Ref → PolarEvidencePoint Double} {points points' : List Ref}

theorem not_nan_of_lt {x y : Double} (h : lt x y = true ∨ lt y x = true) : x.val ≠ .nan ∧ y.val ≠ .nan := by
  have hlt (x y : Double) (h : lt x y = true) : x.val ≠ .nan ∧ y.val ≠ .nan := by
    have hval : x.val.lt y.val = true := h
    cases hx : x.val <;> cases hy : y.val <;> simp_all [ExactNum.lt]
  obtain h | h := h
  · exact hlt x y h
  · exact (hlt y x h).symm

theorem rank_ne_of_lt {x y : Double} (h : lt x y = true ∨ lt y x = true) : x.rank ≠ y.rank := by
  obtain ⟨hx, hy⟩ := not_nan_of_lt h
  rw [Double.lt_iff_rank hx hy, Double.lt_iff_rank hy hx] at h
  exact h.elim ne_of_lt ne_of_gt

theorem AnglesDistinct.orders (h : AnglesDistinct heap points) (hmany : 2 ≤ points.length) :
    OrdersBy (fun p q => sub (heap p).a (heap q).a) (fun p => (heap p).a.rank) points := by
  have hnumber : ∀ p ∈ points, (heap p).a.val ≠ .nan := by
    intro p hp
    obtain ⟨i, hi, rfl⟩ := List.getElem_of_mem hp
    -- another place in the list to compare with
    obtain ⟨j, hj, hne⟩ : ∃ j, j < points.length ∧ j ≠ i := by
      by_cases hzero : i = 0
      · exact ⟨1, by omega, by omega⟩
      · exact ⟨0, by omega, fun hij => hzero hij.symm⟩
    rw [AnglesDistinct, List.pairwise_iff_getElem] at h
    obtain hlt | hgt := Nat.lt_or_gt_of_ne hne
    · exact (not_nan_of_lt (h j i hj hi hlt)).2
    · exact (not_nan_of_lt (h i j hi hj hgt)).1
  exact fun p hp q hq => (Double.sub_spec (hnumber p hp) (hnumber q hq)).1

theorem AnglesDistinct.injective (h : AnglesDistinct heap points) :
    ∀ p ∈ points, ∀ q ∈ points, (heap p).a.rank = (heap q).a.rank → p = q := by
  intro p hp q hq hrank
  obtain ⟨i, hi, rfl⟩ := List.getElem_of_mem hp
  obtain ⟨j, hj, rfl⟩ := List.getElem_of_mem hq
  rw [AnglesDistinct, List.pairwise_iff_getElem] at h
  obtain hlt | rfl | hgt := lt_trichotomy i j
  · exact absurd hrank (rank_ne_of_lt (h i j hi hj hlt))
  · rfl
  · exact absurd hrank.symm (rank_ne_of_lt (h j i hj hi hgt))

theorem sortBy_angles_perm (h : AnglesDistinct heap points) (hperm : points.Perm points') :
    sortBy (fun ref => (heap ref).a) points = sortBy (fun ref => (heap ref).a) points' := by
  obtain hfew | hmany := Nat.lt_or_ge points.length 2
  · match points, hfew with
    | [], _ => rw [List.nil_perm.mp hperm]
    | [p], _ => rw [List.singleton_perm.mp hperm]
  · exact (h.orders hmany).jsSort_eq h.injective hperm

end Orders

/-- With distinct angles the order of the evidence is not seen, in the classification and in its fit. -/
theorem order_without_influence {Ref : Type} [DecidableEq Ref] (heap : Ref → PolarEvidencePoint Double)
    (options : ClassifierOptions) (points points' : List Ref) (hdistinct : AnglesDistinct heap points)
    (hperm : points.Perm points') :
    classifyPolarEvidence heap points' options = classifyPolarEvidence heap points options ∧
      ∀ math fuel, buildPolarFit heap math fuel (classifyPolarEvidence heap points' options).classifications =
        buildPolarFit heap math fuel (classifyPolarEvidence heap points options).classifications := by
  have hsame : classifyPolarEvidence heap points' options = classifyPolarEvidence heap points options := by
    unfold classifyPolarEvidence
    rw [sortBy_angles_perm hdistinct hperm]
  exact ⟨hsame, fun math fuel => by rw [hsame]⟩

def twoPoints (second : Bool) : PolarEvidencePoint Double :=
  FitInput.point ⟨lit (if second then 1 else 0), lit (1 / 2), lit (1 / 100), lit 0, .accepted, some .rans⟩

theorem two_points_swapped :
    classifyPolarEvidence twoPoints [true, false] ⟨none⟩ = classifyPolarEvidence twoPoints [false, true] ⟨none⟩ ∧
      ∀ math fuel, buildPolarFit twoPoints math fuel (classifyPolarEvidence twoPoints [true, false] ⟨none⟩).classifications =
        buildPolarFit twoPoints math fuel (classifyPolarEvidence twoPoints [false, true] ⟨none⟩).classifications :=
  order_without_influence twoPoints ⟨none⟩ [false, true] [true, false] (by unfold AnglesDistinct; decide +kernel) (by decide)

end XFoilFoam.Polar
