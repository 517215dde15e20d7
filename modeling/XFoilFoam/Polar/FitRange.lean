import XFoilFoam.Polar.Classify
import XFoilFoam.Polar.LineSearch
import XFoilFoam.Foundations.KeyOrder
import Mathlib.Algebra.Order.Floor.Ring
import Mathlib.Analysis.Complex.Exponential
import Mathlib.Data.List.Dedup
import Mathlib.Data.Fin.VecNotation

/-! `buildPolarFit` of `packages/core/src/polar-fit.ts` in exact arithmetic: where its sample angles and the angles of its
metrics lie.  Every exact number is finite; the exponential is the engine's. -/
namespace XFoilFoam.FitRange
open Sampling (SquareRoot)
open Polar (ResultClassificationState ResultRegime)
open KeyOrder (sortBy)
set_option autoImplicit false

/-! ## The evidence of a fit -/

structure EvidencePoint (K : Type) where
  a : K
  cl : Option K
  cd : Option K
  cm : Option K
  regime : Option ResultRegime

structure Classification (K : Type) where
  evidence : EvidencePoint K
  state : ResultClassificationState

structure FitInput (K : Type) where
  a : K
  cl : K
  cd : K
  cm : K
  state : ResultClassificationState
  regime : Option ResultRegime

inductive Coefficient where
  | cl
  | cd
  | cm
  deriving DecidableEq

def FitInput.coefficient {K : Type} (p : FitInput K) : Coefficient → K
  | .cl => p.cl
  | .cd => p.cd
  | .cm => p.cm

section Fit
variable {K : Type} [Field K] [LinearOrder K]

def usable (c : Classification K) : Bool :=
  (decide (c.state = .accepted) || decide (c.state = .needsUrans)) &&
    (c.evidence.cl.isSome && c.evidence.cd.isSome && c.evidence.cm.isSome && decide (0 < c.evidence.cd.getD 0))

def fitInput (c : Classification K) : FitInput K where
  a := c.evidence.a
  cl := c.evidence.cl.getD 0
  cd := c.evidence.cd.getD 0
  cm := c.evidence.cm.getD 0
  state := c.state
  regime := c.evidence.regime

def fitInputsOf (cs : List (Classification K)) : List (FitInput K) := sortBy FitInput.a ((cs.filter usable).map fitInput)

/-- `median` of the positive values. -/
def median (values : List K) (fallback : K) : K :=
  let xs := sortBy id (values.filter fun x => decide (0 < x))
  let mid := xs.length / 2
  if xs.isEmpty then fallback
  else if xs.length % 2 = 1 then xs.getD mid fallback
  else (xs.getD (mid - 1) fallback + xs.getD mid fallback) / 2

/-- `nominalStep`; the order of the set is sorted away. -/
def nominalStep (angles : List K) : K :=
  let xs := sortBy id angles.dedup
  median (List.zipWith (fun x y => x - y) xs.tail xs) 1

def fitStep (inputs : List (FitInput K)) : K := min (1 / 2) (nominalStep (inputs.map FitInput.a))

/-! ## The local quadratic -/

def weightFor (p : FitInput K) : K :=
  if p.state = .needsUrans then 45 / 100 else if p.regime = some .urans then 14 / 10 else 1

def eliminateColumn (m : Fin 3 → Fin 4 → K) (col : Fin 3) : Option (Fin 3 → Fin 4 → K) :=
  let pivot := ((List.finRange 3).filter fun r => decide (col < r)).foldl
    (fun pivot r => if |m pivot col.castSucc| < |m r col.castSucc| then r else pivot) col
  if |m pivot col.castSucc| < 1 / 10 ^ 12 then none
  else
    let swapped (r : Fin 3) : Fin 4 → K := if r = col then m pivot else if r = pivot then m col else m r
    let scaled (c : Fin 4) : K := if col.castSucc ≤ c then swapped col c / swapped col col.castSucc else swapped col c
    some fun r c =>
      if r = col then scaled c
      else if col.castSucc ≤ c then swapped r c - swapped r col.castSucc * scaled c
      else swapped r c

/-- `solve3` on the matrix with its right side. -/
def solve3 (m : Fin 3 → Fin 4 → K) : Option (K × K × K) :=
  ((List.finRange 3).foldlM eliminateColumn m).map fun solved => (solved 0 3, solved 1 3, solved 2 3)

structure QuadraticSums (K : Type) where
  normal : Fin 3 → Fin 4 → K
  totalWeight : K
  weightedAverage : K

def localQuadratic (exp : K → K) (points : List (FitInput K)) (x : K) (key : Coefficient) (span : K) : K :=
  let sums := points.foldl
    (fun (sums : QuadraticSums K) p =>
      let dx := p.a - x
      let w := exp (-(1 / 2) * (dx / span) ^ 2) * weightFor p
      let basis : Fin 3 → K := ![1, dx, dx * dx]
      let y := p.coefficient key
      { normal := fun r c => sums.normal r c + w * basis r * (if h : (c : ℕ) < 3 then basis ⟨c, h⟩ else y)
        totalWeight := sums.totalWeight + w
        weightedAverage := sums.weightedAverage + w * y })
    ⟨fun _ _ => 0, 0, 0⟩
  match solve3 sums.normal with
  | some solved => solved.1
  | none => sums.weightedAverage / max sums.totalWeight (1 / 10 ^ 9)

/-! ## Samples and their metrics -/

structure PolarFitPoint (K : Type) where
  a : K
  cl : K
  cd : K
  cm : K
  ld : K

def PolarFitPoint.coefficient (p : PolarFitPoint K) : Coefficient → K
  | .cl => p.cl
  | .cd => p.cd
  | .cm => p.cm

structure PolarFitMetrics (K : Type) where
  ldmax : K
  aLd : K
  cdmin : K
  clCd : K
  cd0 : K
  clmax : K
  aStall : K
  cm0 : K
  alphaLdmaxFine : K
  alphaClZeroFine : Option K
  alphaClmaxFine : Option K

/-- `(a < 0 && b > 0) || (a > 0 && b < 0)`. -/
def oppositeSigns (a b : K) : Bool := decide (a < 0 ∧ 0 < b ∨ 0 < a ∧ b < 0)

/-- The loop of `interpolateAtClZero`. -/
def crossingAtClZero (key : Coefficient) : List (PolarFitPoint K) → Option K
  | a :: b :: rest =>
    if a.cl = 0 then some (a.coefficient key)
    else if oppositeSigns a.cl b.cl || b.cl = 0 then
      let t := (0 - a.cl) / (if b.cl - a.cl = 0 then 1 else b.cl - a.cl)
      some (a.coefficient key + t * (b.coefficient key - a.coefficient key))
    else crossingAtClZero key (b :: rest)
  | _ => none

def interpolateAtClZero (points : List (PolarFitPoint K)) (key : Coefficient) : K :=
  match crossingAtClZero key points with
  | some value => value
  | none => ((sortBy (fun p => |p.cl|) points).head?.map fun p => p.coefficient key).getD 0

/-- `finitePoints.reduce` to the index of the first largest lift coefficient. -/
def clArgmaxIdx (points : List (PolarFitPoint K)) : ℕ :=
  (points.zipIdx.foldl
    (fun (best : ℕ × Option K) p =>
      match best.2 with
      | none => (p.2, some p.1.cl)
      | some cl => if cl < p.1.cl then (p.2, some p.1.cl) else best)
    (0, none)).1

structure FineTargetContext (K : Type) where
  evaluate : K → Coefficient → K
  stepDeg : K
  minA : K
  maxA : K

def bracketAround (fine : FineTargetContext K) (a : K) : K × K :=
  (max fine.minA (a - fine.stepDeg), min fine.maxA (a + fine.stepDeg))

section Rounding
variable [FloorRing K]

/-- `Number(x.toFixed(decimals))`: the nearest decimal, the larger one in magnitude on a tie. -/
def toFixed (decimals : ℕ) (x : K) : K :=
  if 10 ^ 21 ≤ |x| then x
  else (if x < 0 then -(⌊|x| * 10 ^ decimals + 1 / 2⌋ : K) else (⌊|x| * 10 ^ decimals + 1 / 2⌋ : K)) / 10 ^ decimals

def roundCenti (x : K) : K := toFixed 2 x

/-- The loop for `alphaClZeroFine`. -/
def fineClZero (fine : FineTargetContext K) : List (PolarFitPoint K) → Option K
  | a :: b :: rest =>
    if a.cl = 0 then some (roundCenti a.a)
    else if b.cl = 0 then some (roundCenti b.a)
    else if oppositeSigns a.cl b.cl then
      some (roundCenti (LineSearch.bisectRoot (fun x => fine.evaluate x .cl) a.a b.a))
    else fineClZero fine (b :: rest)
  | _ => none

/-- The metrics of the samples with the largest ratio, the largest lift and the least drag. -/
def metricsOf (points : List (PolarFitPoint K)) (fine : FineTargetContext K) (byLd byCl byCd : PolarFitPoint K)
    (alphaLdmax : K) (alphaClmax : Option K) : PolarFitMetrics K where
  ldmax := byLd.ld
  aLd := byLd.a
  cdmin := byCd.cd
  clCd := byCd.cl
  cd0 := interpolateAtClZero points .cd
  clmax := byCl.cl
  aStall := byCl.a
  cm0 := interpolateAtClZero points .cm
  alphaLdmaxFine := roundCenti alphaLdmax
  alphaClZeroFine := fineClZero fine points
  alphaClmaxFine := alphaClmax.map roundCenti

/-- `fitMetrics`; the outer option is the fuel, the inner one its `null`. -/
def fitMetrics (root : SquareRoot K) (fuel : ℕ) (points : List (PolarFitPoint K)) (fine : FineTargetContext K) :
    Option (Option (PolarFitMetrics K)) :=
  if points.length < 3 then some none
  else
    match (sortBy (fun p => -p.ld) points).head?, (sortBy (fun p => -p.cl) points).head?,
      (sortBy (fun p => p.cd) points).head? with
    | some byLd, some byCl, some byCd =>
      let ldBracket := bracketAround fine byLd.a
      let clBracket := bracketAround fine byCl.a
      (LineSearch.goldenSectionMax root fuel (fun a => fine.evaluate a .cl / fine.evaluate a .cd) ldBracket.1
          ldBracket.2).bind fun alphaLdmax =>
        (if 0 < clArgmaxIdx points ∧ clArgmaxIdx points < points.length - 1 then
          (LineSearch.goldenSectionMax root fuel (fun a => fine.evaluate a .cl) clBracket.1 clBracket.2).map some
        else some none).map fun alphaClmax => some (metricsOf points fine byLd byCl byCd alphaLdmax alphaClmax)
    | _, _, _ => some none

/-! ## The fit -/

inductive PolarFitStatus where
  | insufficient
  | provisional
  | final
  deriving DecidableEq

structure PolarFit (K : Type) where
  status : PolarFitStatus
  confidence : K
  metrics : Option (PolarFitMetrics K)
  points : List (PolarFitPoint K)
  acceptedPointCount : ℕ
  provisionalPointCount : ℕ
  rejectedPointCount : ℕ

/-- `for (let a = minA; a <= maxA + step * 0.5; a += step)`. -/
def sampleAngles (last step : K) : ℕ → K → Option (List K)
  | 0, _ => none
  | fuel + 1, a => if a ≤ last then (sampleAngles last step fuel (a + step)).map (a :: ·) else some []

/-- `evaluate`. -/
def evaluateFit (exp : K → K) (inputs : List (FitInput K)) (a : K) (key : Coefficient) : K :=
  let value := localQuadratic exp inputs a key (max (fitStep inputs * 6) (5 / 2))
  if key = .cd then max (1 / 10 ^ 6) value else value

def samplePoint (evaluate : K → Coefficient → K) (a : K) : PolarFitPoint K where
  a := toFixed 4 a
  cl := evaluate a .cl
  cd := evaluate a .cd
  cm := evaluate a .cm
  ld := evaluate a .cl / evaluate a .cd

def fitRecord (classifications : List (Classification K)) (count : ℕ) (metrics : Option (PolarFitMetrics K))
    (samples : List (PolarFitPoint K)) : PolarFit K :=
  let provisional := classifications.countP fun c => c.state = .needsUrans
  let confidenceBase : K := min (98 / 100) (45 / 100 + count * (35 / 1000))
  { status := if 0 < provisional then .provisional else .final
    confidence := if 0 < provisional then min confidenceBase (74 / 100) else confidenceBase
    metrics
    points := samples
    acceptedPointCount := classifications.countP fun c => c.state = .accepted
    provisionalPointCount := provisional
    rejectedPointCount := classifications.countP fun c => c.state = .rejected ∨ c.state = .supersededByUrans }

/-- `buildPolarFit`; without a result where a loop takes more rounds than `fuel`. -/
def buildPolarFit (root : SquareRoot K) (exp : K → K) (fuel : ℕ) (classifications : List (Classification K)) :
    Option (PolarFit K) :=
  match fitInputsOf classifications with
  | first :: second :: third :: rest =>
    let inputs := first :: second :: third :: rest
    let step := fitStep inputs
    let minA := first.a
    let maxA := (inputs.getLastD first).a
    (sampleAngles (maxA + step * (1 / 2)) step fuel minA).bind fun angles =>
      let samples := angles.map (samplePoint (evaluateFit exp inputs))
      (fitMetrics root fuel samples ⟨evaluateFit exp inputs, step, minA, maxA⟩).map fun metrics =>
        fitRecord classifications inputs.length metrics samples
  | _ =>
    some {
      status := .insufficient
      confidence := 0
      metrics := none
      points := []
      acceptedPointCount := classifications.countP fun c => c.state = .accepted
      provisionalPointCount := classifications.countP fun c => c.state = .needsUrans
      rejectedPointCount := classifications.countP fun c => c.state = .rejected ∨ c.state = .supersededByUrans }

end Rounding

end Fit

/-! ## Steps and rounding -/

section Steps
variable {K : Type} [Field K] [LinearOrder K] [IsStrictOrderedRing K]

theorem median_pos {values : List K} {fallback : K} (h : 0 < fallback) : 0 < median values fallback := by
  have hget (i : ℕ) : 0 < (sortBy id (values.filter fun x => decide (0 < x))).getD i fallback := by
    rw [List.getD_eq_getElem?_getD]
    cases hi : (sortBy id (values.filter fun x => decide (0 < x)))[i]? with
    | none => exact h
    | some x =>
      have hmem := (KeyOrder.mem_sortBy id).mp (List.mem_of_getElem? hi)
      exact of_decide_eq_true (List.mem_filter.mp hmem).2
  unfold median
  dsimp only
  split
  · exact h
  · split
    · exact hget _
    · have hlow := hget ((sortBy id (values.filter fun x => decide (0 < x))).length / 2 - 1)
      have hhigh := hget ((sortBy id (values.filter fun x => decide (0 < x))).length / 2)
      linarith

theorem fitStep_pos (inputs : List (FitInput K)) : 0 < fitStep inputs :=
  lt_min (by norm_num) (median_pos one_pos)

variable [FloorRing K]

theorem units_near (decimals : ℕ) (m : K) : |(⌊m * 10 ^ decimals + 1 / 2⌋ : K) / 10 ^ decimals - m| ≤ 1 / (2 * 10 ^ decimals) := by
  have hpow : (0 : K) < 10 ^ decimals := by positivity
  have hle := Int.floor_le (m * 10 ^ decimals + 1 / 2)
  have hlt := Int.lt_floor_add_one (m * 10 ^ decimals + 1 / 2)
  have hunits : |(⌊m * 10 ^ decimals + 1 / 2⌋ : K) - m * 10 ^ decimals| ≤ 1 / 2 := by
    rw [abs_le]
    constructor <;> linarith
  calc |(⌊m * 10 ^ decimals + 1 / 2⌋ : K) / 10 ^ decimals - m|
      = |(⌊m * 10 ^ decimals + 1 / 2⌋ : K) - m * 10 ^ decimals| / 10 ^ decimals := by
        rw [← abs_of_pos hpow, ← abs_div, abs_of_pos hpow]
        congr 1
        field_simp
    _ ≤ 1 / 2 / 10 ^ decimals := by gcongr
    _ = 1 / (2 * 10 ^ decimals) := by rw [div_div]

theorem toFixed_near (decimals : ℕ) (x : K) : |toFixed decimals x - x| ≤ 1 / (2 * 10 ^ decimals) := by
  unfold toFixed
  split
  · rw [sub_self, abs_zero]
    positivity
  · have hunits := units_near decimals |x|
    split
    · next hneg =>
      rw [abs_of_neg hneg] at hunits ⊢
      rw [show -(⌊-x * 10 ^ decimals + 1 / 2⌋ : K) / 10 ^ decimals - x =
        -((⌊-x * 10 ^ decimals + 1 / 2⌋ : K) / 10 ^ decimals - -x) by ring, abs_neg]
      exact hunits
    · next hpos =>
      rw [abs_of_nonneg (not_lt.mp hpos)] at hunits ⊢
      exact hunits

end Steps

/-! ## Searches stay in their brackets -/

section Searches
variable {K : Type} [Field K] [LinearOrder K] [IsStrictOrderedRing K] {low high : K}

theorem middle_between {a b : K} (ha : low ≤ a ∧ a ≤ high) (hb : low ≤ b ∧ b ≤ high) :
    low ≤ (a + b) / 2 ∧ (a + b) / 2 ≤ high := by
  constructor <;> linarith [ha.1, ha.2, hb.1, hb.2]

theorem bisectLoop_between {f : K → K} {rounds : ℕ} {a b fa : K} (ha : low ≤ a ∧ a ≤ high) (hb : low ≤ b ∧ b ≤ high) :
    low ≤ LineSearch.bisectLoop f rounds a b fa ∧ LineSearch.bisectLoop f rounds a b fa ≤ high := by
  induction rounds generalizing a b fa with
  | zero => exact middle_between ha hb
  | succ rounds ih =>
    rw [LineSearch.bisectLoop]
    dsimp only
    split
    · split
      · exact middle_between ha hb
      · split
        · exact ih (middle_between ha hb) hb
        · exact ih ha (middle_between ha hb)
    · exact middle_between ha hb

theorem bisectRoot_between {f : K → K} {a b : K} (ha : low ≤ a ∧ a ≤ high) (hb : low ≤ b ∧ b ≤ high) :
    low ≤ LineSearch.bisectRoot f a b ∧ LineSearch.bisectRoot f a b ≤ high := by
  unfold LineSearch.bisectRoot
  split
  · exact ha
  · exact bisectLoop_between ha hb

theorem goldenSectionMax_between [Archimedean K] (root : SquareRoot K) (f : K → K) (a b : K) :
    ∃ n x, (∀ fuel, n < fuel → LineSearch.goldenSectionMax root fuel f a b = some x) ∧
      ∀ low high, low ≤ a ∧ a ≤ high → low ≤ b ∧ b ≤ high → low ≤ x ∧ x ≤ high := by
  obtain hle | hlt := le_or_gt a b
  · obtain ⟨n, x, hfuel, hmem, -⟩ := LineSearch.goldenSectionMax_spec root f hle
    exact ⟨n, x, hfuel, fun low high ha hb => ⟨ha.1.trans hmem.1, hmem.2.trans hb.2⟩⟩
  · -- the ends are the wrong way round, and the loop is not entered
    refine ⟨0, (a + b) / 2, fun fuel hfuel => ?_, fun low high ha hb => middle_between ha hb⟩
    obtain ⟨fuel, rfl⟩ := Nat.exists_eq_succ_of_ne_zero hfuel.ne'
    have hnarrow : ¬1 / 10 ^ 5 < b - a := by
      have hpos : (0 : K) < 1 / 10 ^ 5 := by positivity
      linarith
    have hloop : LineSearch.goldenLoop (LineSearch.invPhi root) f (fuel + 1)
        (LineSearch.goldenStart (LineSearch.invPhi root) f a b) =
          some (LineSearch.goldenStart (LineSearch.invPhi root) f a b) := if_neg hnarrow
    rw [LineSearch.goldenSectionMax, hloop]
    rfl

end Searches

/-! ## Where the angles lie -/

section Range
variable {K : Type} [Field K] [LinearOrder K] [IsStrictOrderedRing K]

def Near (slack low high x : K) : Prop := low - slack ≤ x ∧ x ≤ high + slack

def sampleSlack : K := 1 / 20000

/-- That and half a unit of the second decimal, to which fine angles are rounded. -/
def fineSlack : K := 1 / 20000 + 1 / 200

omit [IsStrictOrderedRing K] in
theorem sampleAngles_spec {last step a : K} {m fuel : ℕ} (hle : ∀ k < m, a + k * step ≤ last) (hlast : last < a + m * step)
    (hfuel : m < fuel) : sampleAngles last step fuel a = some ((List.range m).map fun (k : ℕ) => a + k * step) := by
  induction m generalizing a fuel with
  | zero =>
    obtain ⟨fuel, rfl⟩ := Nat.exists_eq_succ_of_ne_zero hfuel.ne'
    rw [Nat.cast_zero, zero_mul, add_zero] at hlast
    exact if_neg (not_le.mpr hlast)
  | succ m ih =>
    obtain ⟨fuel, rfl⟩ := Nat.exists_eq_succ_of_ne_zero (by omega : fuel ≠ 0)
    have hfirst : a ≤ last := by
      have h := hle 0 (Nat.succ_pos m)
      rwa [Nat.cast_zero, zero_mul, add_zero] at h
    have hshift (k : ℕ) : a + step + k * step = a + ((k + 1 : ℕ) : K) * step := by
      push_cast
      ring
    have hrest := ih (a := a + step) (fun k hk => by rw [hshift]; exact hle (k + 1) (by omega)) (by rwa [hshift])
      (by omega : m < fuel)
    rw [sampleAngles, if_pos hfirst, hrest, Option.map_some, List.range_succ_eq_map, List.map_cons, List.map_map,
      Nat.cast_zero, zero_mul, add_zero]
    exact congrArg (fun rest => some (a :: rest)) (List.map_congr_left fun k _ => hshift k)

variable [FloorRing K]

theorem roundCenti_near {low high x : K} (h : Near sampleSlack low high x) : Near fineSlack low high (roundCenti x) := by
  have hround := abs_le.mp (toFixed_near 2 x)
  obtain ⟨hlow, hhigh⟩ := h
  norm_num [sampleSlack] at hround hlow hhigh
  unfold Near fineSlack roundCenti
  constructor <;> linarith

theorem fineClZero_near {fine : FineTargetContext K} {low high : K} {points : List (PolarFitPoint K)}
    (hpoints : ∀ p ∈ points, Near sampleSlack low high p.a) {x : K} (h : fineClZero fine points = some x) :
    Near fineSlack low high x := by
  induction points with
  | nil => cases h
  | cons p points ih =>
    cases points with
    | nil => cases h
    | cons q rest =>
      have hp := hpoints p List.mem_cons_self
      have hq := hpoints q (List.mem_cons_of_mem _ List.mem_cons_self)
      rw [fineClZero] at h
      split at h
      · cases h
        exact roundCenti_near hp
      · split at h
        · cases h
          exact roundCenti_near hq
        · split at h
          · cases h
            exact roundCenti_near (bisectRoot_between hp hq)
          · exact ih (fun r hr => hpoints r (List.mem_cons_of_mem _ hr)) h

theorem bracketAround_near {fine : FineTargetContext K} {a : K} (hrange : fine.minA ≤ fine.maxA) (hstep : 0 ≤ fine.stepDeg)
    (ha : Near sampleSlack fine.minA fine.maxA a) :
    Near sampleSlack fine.minA fine.maxA (bracketAround fine a).1 ∧
      Near sampleSlack fine.minA fine.maxA (bracketAround fine a).2 := by
  obtain ⟨hlow, hhigh⟩ := ha
  have hslack : (0 : K) ≤ sampleSlack := by
    unfold sampleSlack
    positivity
  refine ⟨⟨?_, max_le ?_ ?_⟩, le_min ?_ ?_, ?_⟩
  · exact (sub_le_self _ hslack).trans (le_max_left _ _)
  · linarith
  · linarith
  · linarith
  · linarith
  · exact (min_le_left _ _).trans (le_add_of_nonneg_right hslack)

structure MetricsNear (low high : K) (m : PolarFitMetrics K) : Prop where
  aLd : Near sampleSlack low high m.aLd
  aStall : Near sampleSlack low high m.aStall
  alphaLdmaxFine : Near fineSlack low high m.alphaLdmaxFine
  alphaClmaxFine : ∀ x, m.alphaClmaxFine = some x → Near fineSlack low high x
  alphaClZeroFine : ∀ x, m.alphaClZeroFine = some x → Near fineSlack low high x

omit [Field K] [LinearOrder K] [IsStrictOrderedRing K] [FloorRing K] in
theorem mem_of_head_sortBy {β : Type} [LinearOrder β] {key : PolarFitPoint K → β} {points : List (PolarFitPoint K)}
    {p : PolarFitPoint K} (h : (sortBy key points).head? = some p) : p ∈ points :=
  (KeyOrder.mem_sortBy key).mp (List.mem_of_mem_head? h)

theorem fitMetrics_spec [Archimedean K] (root : SquareRoot K) (points : List (PolarFitPoint K)) (fine : FineTargetContext K)
    (hrange : fine.minA ≤ fine.maxA) (hstep : 0 ≤ fine.stepDeg) :
    ∃ n metrics, (∀ fuel, n < fuel → fitMetrics root fuel points fine = some metrics) ∧
      ((∀ p ∈ points, Near sampleSlack fine.minA fine.maxA p.a) →
        ∀ m, metrics = some m → MetricsNear fine.minA fine.maxA m) := by
  unfold fitMetrics
  by_cases hfew : points.length < 3
  · refine ⟨0, none, fun fuel _ => if_pos hfew, fun _ m hm => ?_⟩
    cases hm
  · cases hLd : (sortBy (fun p : PolarFitPoint K => -p.ld) points).head? with
    | none =>
      refine ⟨0, none, fun fuel _ => if_neg hfew, fun _ m hm => ?_⟩
      cases hm
    | some byLd =>
      cases hCl : (sortBy (fun p : PolarFitPoint K => -p.cl) points).head? with
      | none =>
        refine ⟨0, none, fun fuel _ => if_neg hfew, fun _ m hm => ?_⟩
        cases hm
      | some byCl =>
        cases hCd : (sortBy (fun p : PolarFitPoint K => p.cd) points).head? with
        | none =>
          refine ⟨0, none, fun fuel _ => if_neg hfew, fun _ m hm => ?_⟩
          cases hm
        | some byCd =>
          obtain ⟨nLd, xLd, hfuelLd, hnearLd⟩ := goldenSectionMax_between root
            (fun a => fine.evaluate a .cl / fine.evaluate a .cd) (bracketAround fine byLd.a).1 (bracketAround fine byLd.a).2
          obtain ⟨nCl, xCl, hfuelCl, hnearCl⟩ := goldenSectionMax_between root
            (fun a => fine.evaluate a .cl) (bracketAround fine byCl.a).1 (bracketAround fine byCl.a).2
          by_cases hinner : 0 < clArgmaxIdx points ∧ clArgmaxIdx points < points.length - 1
          · refine ⟨max nLd nCl, some (metricsOf points fine byLd byCl byCd xLd (some xCl)), fun fuel hfuel => ?_, fun hpoints m hm => ?_⟩
            · rw [if_neg hfew]
              dsimp only
              rw [hfuelLd fuel (lt_of_le_of_lt (le_max_left _ _) hfuel), Option.bind_some, if_pos hinner,
                hfuelCl fuel (lt_of_le_of_lt (le_max_right _ _) hfuel), Option.map_some, Option.map_some]
            · cases hm
              have hLdMem := hpoints byLd (mem_of_head_sortBy hLd)
              have hClMem := hpoints byCl (mem_of_head_sortBy hCl)
              obtain ⟨hlowLd, hhighLd⟩ := bracketAround_near hrange hstep hLdMem
              obtain ⟨hlowCl, hhighCl⟩ := bracketAround_near hrange hstep hClMem
              refine ⟨hLdMem, hClMem, roundCenti_near (hnearLd _ _ hlowLd hhighLd), fun x hx => ?_,
                fun x hx => fineClZero_near hpoints hx⟩
              cases hx
              exact roundCenti_near (hnearCl _ _ hlowCl hhighCl)
          · refine ⟨nLd, some (metricsOf points fine byLd byCl byCd xLd none), fun fuel hfuel => ?_, fun hpoints m hm => ?_⟩
            · rw [if_neg hfew]
              dsimp only
              rw [hfuelLd fuel hfuel, Option.bind_some, if_neg hinner, Option.map_some]
            · cases hm
              have hLdMem := hpoints byLd (mem_of_head_sortBy hLd)
              obtain ⟨hlowLd, hhighLd⟩ := bracketAround_near hrange hstep hLdMem
              refine ⟨hLdMem, hpoints byCl (mem_of_head_sortBy hCl), roundCenti_near (hnearLd _ _ hlowLd hhighLd),
                fun x hx => ?_, fun x hx => fineClZero_near hpoints hx⟩
              cases hx

end Range

/-! ## The fit and its evidence -/

section Evidence
variable {K : Type} [Field K] [LinearOrder K]

def usableAngles (cs : List (Classification K)) : Set K := {a | ∃ c ∈ cs, usable c = true ∧ c.evidence.a = a}

theorem mem_usableAngles {cs : List (Classification K)} {a : K} : a ∈ usableAngles cs ↔ ∃ p ∈ fitInputsOf cs, p.a = a := by
  constructor
  · rintro ⟨c, hc, husable, rfl⟩
    exact ⟨fitInput c, (KeyOrder.mem_sortBy _).mpr (List.mem_map_of_mem (List.mem_filter.mpr ⟨hc, husable⟩)), rfl⟩
  · rintro ⟨p, hp, rfl⟩
    obtain ⟨c, hc, rfl⟩ := List.mem_map.mp ((KeyOrder.mem_sortBy _).mp hp)
    exact ⟨c, (List.mem_filter.mp hc).1, (List.mem_filter.mp hc).2, rfl⟩

theorem first_least {cs : List (Classification K)} {first : FitInput K} {rest : List (FitInput K)}
    (h : fitInputsOf cs = first :: rest) : IsLeast (usableAngles cs) first.a := by
  have hsorted := KeyOrder.sortBy_sorted FitInput.a ((cs.filter usable).map fitInput)
  refine ⟨mem_usableAngles.mpr ⟨first, by rw [h]; exact List.mem_cons_self, rfl⟩, fun a ha => ?_⟩
  obtain ⟨p, hp, rfl⟩ := mem_usableAngles.mp ha
  rw [fitInputsOf] at h
  rw [h] at hsorted
  rw [fitInputsOf, h] at hp
  obtain rfl | hp := List.mem_cons.mp hp
  · exact le_rfl
  · exact (List.pairwise_cons.mp hsorted).1 p hp

theorem last_greatest {cs : List (Classification K)} {first : FitInput K} {rest : List (FitInput K)}
    (h : fitInputsOf cs = first :: rest) : IsGreatest (usableAngles cs) ((first :: rest).getLastD first).a := by
  have hsorted := KeyOrder.sortBy_sorted FitInput.a ((cs.filter usable).map fitInput)
  have hlast : (first :: rest).getLastD first = (first :: rest).getLast (List.cons_ne_nil _ _) := by
    rw [List.getLastD_eq_getLast?, List.getLast?_eq_some_getLast (List.cons_ne_nil first rest), Option.getD_some]
  rw [hlast]
  refine ⟨mem_usableAngles.mpr ⟨_, by rw [h]; exact List.getLast_mem _, rfl⟩, fun a ha => ?_⟩
  obtain ⟨p, hp, rfl⟩ := mem_usableAngles.mp ha
  rw [fitInputsOf] at h
  rw [h] at hsorted
  rw [fitInputsOf, h] at hp
  rw [← List.dropLast_append_getLast (List.cons_ne_nil first rest)] at hp hsorted
  obtain hp | hp := List.mem_append.mp hp
  · exact (List.pairwise_append.mp hsorted).2.2 p hp _ (List.mem_singleton_self _)
  · rw [List.mem_singleton.mp hp]

variable [FloorRing K]

/-- The last grid point that the loop visits: the span is rounded to whole steps, a half upwards. -/
def lastSample (cs : List (Classification K)) (low high : K) : K :=
  low + ⌊(high - low) / fitStep (fitInputsOf cs) + 1 / 2⌋ * fitStep (fitInputsOf cs)

/-- Every sample angle and every angle of the metrics lies within the range of the evidence. -/
structure WithinEvidence (low high : K) (fit : PolarFit K) : Prop where
  points : ∀ p ∈ fit.points, Near sampleSlack low high p.a
  metrics : ∀ m, fit.metrics = some m → MetricsNear low high m

section Grid
variable [IsStrictOrderedRing K] {low high step : K}

theorem grid_spec (hrange : low ≤ high) (hstep : 0 < step) :
    ∃ m : ℕ, low + (m : K) * step = low + ⌊(high - low) / step + 1 / 2⌋ * step ∧
      (∀ fuel, m + 1 < fuel → sampleAngles (high + step * (1 / 2)) step fuel low =
        some ((List.range (m + 1)).map fun (k : ℕ) => low + k * step)) ∧
      ∀ k < m, low + (k : K) * step ≤ high := by
  have hpositive : 0 ≤ (high - low) / step + 1 / 2 := by
    have hquotient := div_nonneg (sub_nonneg.mpr hrange) hstep.le
    linarith
  obtain ⟨m, hm⟩ := Int.eq_ofNat_of_zero_le (Int.floor_nonneg.mpr hpositive)
  have hcast : (⌊(high - low) / step + 1 / 2⌋ : K) = m := by
    rw [hm]
    exact Int.cast_natCast m
  have hle := Int.floor_le ((high - low) / step + 1 / 2)
  have hlt := Int.lt_floor_add_one ((high - low) / step + 1 / 2)
  rw [hcast] at hle hlt
  -- the same bounds, in steps
  have hspan : ((high - low) / step + 1 / 2) * step = high - low + step * (1 / 2) := by
    rw [add_mul, div_mul_cancel₀ _ hstep.ne']
    ring
  have hreach : (m : K) * step ≤ high - low + step * (1 / 2) := by
    rw [← hspan]
    gcongr
  have hbeyond : high - low + step * (1 / 2) < (m + 1) * step := by
    rw [← hspan]
    gcongr
  refine ⟨m, by rw [hcast], fun fuel hfuel => sampleAngles_spec (fun k hk => ?_) ?_ hfuel, fun k hk => ?_⟩
  · have hk' : (k : K) * step ≤ m * step := by
      gcongr
      omega
    linarith
  · push_cast
    linarith
  · have hk' : ((k : K) + 1) * step ≤ m * step := by
      gcongr
      exact_mod_cast hk
    linarith

end Grid

theorem buildPolarFit_spec [IsStrictOrderedRing K] [Archimedean K] (root : SquareRoot K) (exp : K → K)
    (cs : List (Classification K)) {low high : K} (hthree : 3 ≤ (cs.filter usable).length)
    (hlow : IsLeast (usableAngles cs) low) (hhigh : IsGreatest (usableAngles cs) high) :
    ∃ n fit, (∀ fuel, n < fuel → buildPolarFit root exp fuel cs = some fit) ∧
      (∃ p ∈ fit.points, p.a = toFixed 4 (lastSample cs low high)) ∧
      (toFixed 4 (lastSample cs low high) ≤ high + sampleSlack → WithinEvidence low high fit) := by
  have hlength : (fitInputsOf cs).length = (cs.filter usable).length := by
    rw [fitInputsOf, (KeyOrder.sortBy_perm _ _).length_eq, List.length_map]
  obtain ⟨first, second, third, rest, hinputs⟩ : ∃ first second third rest, fitInputsOf cs = first :: second :: third :: rest := by
    match hcs : fitInputsOf cs with
    | first :: second :: third :: rest => exact ⟨first, second, third, rest, rfl⟩
    | [] | [_] | [_, _] =>
      rw [hcs] at hlength
      simp only [List.length_nil, List.length_cons] at hlength
      omega
  have hfirst : first.a = low := (first_least hinputs).unique hlow
  have hlast : ((first :: second :: third :: rest).getLastD first).a = high := (last_greatest hinputs).unique hhigh
  have hrange : low ≤ high := hlow.2 hhigh.1
  have hstep := fitStep_pos (fitInputsOf cs)
  obtain ⟨m, hm, hangles, hearlier⟩ := grid_spec hrange hstep
  rw [hinputs] at hangles hearlier hstep hm
  let evaluate := evaluateFit exp (first :: second :: third :: rest)
  let step := fitStep (first :: second :: third :: rest)
  let samples := ((List.range (m + 1)).map fun (k : ℕ) => low + k * step).map (samplePoint evaluate)
  obtain ⟨n, metrics, hfuel, hmetrics⟩ := fitMetrics_spec root samples ⟨evaluate, step, low, high⟩ hrange hstep.le
  refine ⟨max (m + 1) n, fitRecord cs (rest.length + 3) metrics samples, fun fuel hmany => ?_, ?_, fun hcondition => ?_⟩
  · unfold buildPolarFit
    rw [hinputs]
    dsimp only
    rw [hfirst, hlast, hangles fuel (lt_of_le_of_lt (le_max_left _ _) hmany), Option.bind_some,
      hfuel fuel (lt_of_le_of_lt (le_max_right _ _) hmany), Option.map_some]
    rfl
  · refine ⟨samplePoint evaluate (low + m * step), ?_, ?_⟩
    · exact List.mem_map_of_mem (List.mem_map_of_mem (List.mem_range.mpr (Nat.lt_succ_self m)))
    · rw [lastSample, hinputs, ← hm]
      rfl
  · have hpoints : ∀ p ∈ samples, Near sampleSlack low high p.a := by
      intro p hp
      obtain ⟨a, ha, rfl⟩ := List.mem_map.mp hp
      obtain ⟨k, hk, rfl⟩ := List.mem_map.mp ha
      have hround := abs_le.mp (toFixed_near 4 (low + (k : K) * step))
      have hgrid : 0 ≤ (k : K) * step := mul_nonneg (Nat.cast_nonneg k) hstep.le
      norm_num at hround
      refine ⟨?_, ?_⟩
      · show low - 1 / 20000 ≤ toFixed 4 (low + (k : K) * step)
        linarith [hround.1]
      · show toFixed 4 (low + (k : K) * step) ≤ high + sampleSlack
        obtain hlt | rfl := Nat.lt_succ_iff_lt_or_eq.mp (List.mem_range.mp hk)
        · have hbelow := hearlier k hlt
          show toFixed 4 (low + (k : K) * step) ≤ high + 1 / 20000
          linarith [hround.2]
        · rw [lastSample, hinputs, ← hm] at hcondition
          exact hcondition
    exact ⟨hpoints, fun metrics hm => hmetrics hpoints metrics hm⟩

end Evidence

/-! ## Three points -/

noncomputable def evenPoints (gap : ℝ) : List (Classification ℝ) :=
  [0, gap, 2 * gap].map fun a => ⟨⟨a, some (1 / 2), some (1 / 100), some 0, some .rans⟩, .accepted⟩

theorem filter_evenPoints (gap : ℝ) : (evenPoints gap).filter usable = evenPoints gap := by
  norm_num [evenPoints, usable]

theorem usableAngles_evenPoints (gap : ℝ) : usableAngles (evenPoints gap) = {0, gap, 2 * gap} := by
  ext a
  norm_num [usableAngles, evenPoints, usable]
  tauto

theorem fitStep_evenPoints {gap : ℝ} (h : 0 < gap) : fitStep (fitInputsOf (evenPoints gap)) = min (1 / 2) gap := by
  have hdouble : gap ≤ 2 * gap := by linarith
  have hangles : (fitInputsOf (evenPoints gap)).map FitInput.a = [0, gap, 2 * gap] := by
    rw [fitInputsOf, filter_evenPoints, sortBy, List.Pairwise.insertionSort_eq]
    · simp [evenPoints, fitInput]
    · simp [evenPoints, fitInput, h.le, hdouble]
  have hdistinct : [0, gap, 2 * gap].Nodup := by
    have hne : gap ≠ 2 * gap := by linarith
    simp [h.ne, h.ne', hne]
  have hsorted : sortBy id [0, gap, 2 * gap] = [0, gap, 2 * gap] := by
    rw [sortBy, List.Pairwise.insertionSort_eq]
    simp [h.le, hdouble]
  have hgap : 2 * gap - gap = gap := by ring
  rw [fitStep, hangles, nominalStep, hdistinct.dedup, hsorted]
  norm_num [median, sortBy, List.insertionSort, List.orderedInsert, h, hgap]

theorem range_evenPoints {gap : ℝ} (h : 0 < gap) :
    IsLeast (usableAngles (evenPoints gap)) 0 ∧ IsGreatest (usableAngles (evenPoints gap)) (2 * gap) := by
  have hdouble : gap ≤ 2 * gap := by linarith
  rw [usableAngles_evenPoints]
  constructor
  · refine ⟨by simp, fun a ha => ?_⟩
    obtain rfl | rfl | rfl := ha
    · exact le_rfl
    · exact h.le
    · linarith
  · refine ⟨by simp, fun a ha => ?_⟩
    obtain rfl | rfl | rfl := ha
    · linarith
    · exact hdouble
    · exact le_rfl

end XFoilFoam.FitRange
