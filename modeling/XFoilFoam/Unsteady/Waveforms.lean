import XFoilFoam.Unsteady.AperiodicMean
import XFoilFoam.Foundations.KeyOrder

/-! The waveform measures of `postprocess/unsteady.py` in exact arithmetic: impulses, scales, energies and the
comparison of a cycle with the template. -/
namespace XFoilFoam.Unsteady.Exact
open Aperiodic (Channel)
open Sampling
set_option autoImplicit false

variable {K : Type} [Field K] [LinearOrder K] [FloorRing K]

/-! ## Array routines -/

/-- `math.sqrt`, and `np.linalg.norm(np.fft.rfft(values)[start:])`. -/
structure Numerics (K : Type) where
  sqrt : K → K
  spectralNorm : ℕ → List K → K

/-- `np.diff`. -/
def diff : List K → List K
  | x :: y :: rest => (y - x) :: diff (y :: rest)
  | _ => []

/-- `np.nanpercentile` with its linear rule. -/
def percentile (q : ℚ) (values : List K) : K :=
  let sorted := KeyOrder.sortBy id values
  let position : K := ((values.length - 1 : ℕ) : K) * ((q / 100 : ℚ) : K)
  let lower := ⌊position⌋.toNat
  let a := sorted.getD lower 0
  let b := sorted.getD (min (lower + 1) (values.length - 1)) 0
  a + (b - a) * (position - ⌊position⌋)

/-- `np.median`: halfway between the middle values of an even number. -/
def median (values : List K) : K := percentile 50 values

/-- `np.nanmax`. -/
def largest : List K → K
  | [] => 0
  | x :: rest => rest.foldl max x

def square (x : K) : K := x * x

/-- `np.linspace(start, end, count, endpoint=False)`. -/
def phaseGrid (start stop : K) (count : ℕ) : List K :=
  (List.range count).map fun (i : ℕ) => start + i * ((stop - start) / count)

/-! ## Impulses -/

/-- The steepest step of a channel stands out from the percentile `reference` of its slopes, and its largest one
from the span of its values. -/
def jumpsOut (reference factor : ℚ) (minimum : ℕ) (dt values : List K) : Bool :=
  let jumps : List K := (diff values).map fun jump => |jump|
  let slopes : List K := ((jumps.zip dt).filter fun step => decide (0 < step.2)).map fun step => step.1 / step.2
  if slopes.length < minimum then false
  else
    let robustSpan := percentile 95 values - percentile 5 values
    let steepest : K := max (factor * percentile reference slopes) (1 / 10 ^ 12)
    let furthest : K := max (1 / 4 * robustSpan) (1 / 10 ^ 9)
    decide (steepest < largest slopes) && decide (furthest < largest jumps)

/-- `_has_impulsive_discontinuity` without ignored jumps; the values are numbers of the field. -/
def hasImpulsiveDiscontinuity (t : List K) (channels : List (List K)) : Bool :=
  if t.length < 32 then false
  else if ((diff t).countP fun dt => decide (0 < dt)) < 16 then true
  else channels.any (jumpsOut 95 20 16 (diff t))

def hasCycleImpulse (times : List K) (channels : List (List K)) : Bool :=
  if hasImpulsiveDiscontinuity times channels then true
  else if 32 ≤ times.length ∨ times.length < 8 then false
  else if ((diff times).countP fun dt => decide (0 < dt)) < 6 then true
  else channels.any (jumpsOut 75 12 6 (diff times))

/-! ## Scales and energies -/

structure ChannelScale (K : Type) where
  scale : K
  amplitude : K
  mean : K

def channelScale (values : List K) : ChannelScale K :=
  if values.isEmpty then ⟨1 / 10 ^ 9, 0, 0⟩
  else
    let amplitude := percentile 95 values - percentile 5 values
    let average := mean values
    ⟨max (max amplitude (5 / 100 * |average|)) (1 / 10 ^ 9), max amplitude 0, average⟩

def highFrequencyStartBin : ℕ := 9

def highFrequencyAmplitude (numerics : Numerics K) (values : List K) : K :=
  if values.length < highFrequencyStartBin * 2 then 0
  else
    let centered := values.map fun value => value - mean values
    let size := values.length / 2 + 1
    let start := min highFrequencyStartBin size
    if size ≤ start then 0 else numerics.sqrt 2 * numerics.spectralNorm start centered / values.length

/-- The mean of `_time_weighted_mean_std`. -/
def timeWeightedMean (points : List (K × K)) : K :=
  match points.head?, points.getLast? with
  | some first, some last =>
    if points.length = 1 ∨ last.1 ≤ first.1 then mean (points.map Prod.snd)
    else trapezoid points / (last.1 - first.1)
  | _, _ => 0

/-! ## Comparison with the template -/

/-- `CLEAN_CYCLE_UNBOUNDED_METRIC`. -/
def unboundedMetric : ℚ := 10 ^ 12

/-- `np.nanmean((actual - expected) ** 2)`. -/
def meanSquare (actual expected : List K) : K := mean (List.zipWith (fun a e => square (a - e)) actual expected)

def alignmentCost (values template : Channel → List K) (shift : ℕ) : K :=
  (Channel.all.map fun c =>
    meanSquare ((values c).rotateRight shift) (template c) / square (channelScale (template c)).scale).sum

def bestShift (values template : Channel → List K) : ℕ :=
  ((List.range (values .cl).length).foldl
    (fun (best : Option K × ℕ) shift =>
      let cost := alignmentCost values template shift
      if best.1.all fun least => decide (cost < least) then (some cost, shift) else best)
    (none, 0)).2

def amplitudeDeviation (actual expected : List K) : K :=
  let actualAmplitude := (channelScale actual).amplitude
  let expectedAmplitude := (channelScale expected).amplitude
  if expectedAmplitude ≤ max (1 / 10 ^ 8) (1 / 100 * (channelScale expected).scale) then
    if actualAmplitude ≤ 1 / 10 ^ 8 then 0 else (unboundedMetric : K)
  else |actualAmplitude - expectedAmplitude| / expectedAmplitude

structure AlignedErrors (K : Type) where
  shift : ℤ
  shape : Channel → K
  amplitude : Channel → K

def phaseAlignedErrors (numerics : Numerics K) (values template : Channel → List K) : AlignedErrors K :=
  let count := (values .cl).length
  let best := bestShift values template
  let aligned := fun c => (values c).rotateRight best
  { shift := if best ≤ count / 2 then best else (best : ℤ) - count
    shape := fun c =>
      numerics.sqrt (meanSquare (aligned c) (template c)) / (channelScale (template c)).scale
    amplitude := fun c => amplitudeDeviation (aligned c) (template c) }

/-- `_CYCLE_MEAN_ABS_BUDGET`. -/
def meanAbsBudget : Channel → ℚ
  | .cl => 2 / 100
  | .cd => 2 / 1000
  | .cm => 1 / 100

/-- `_CYCLE_MEAN_REL_BUDGET`. -/
def meanRelBudget : Channel → ℚ
  | .cl => 3 / 100
  | .cd => 5 / 100
  | .cm => 5 / 100

def meanOutlier (c : Channel) (actual expected : K) : Bool :=
  decide (max (meanAbsBudget c : K) ((meanRelBudget c : K) * |expected|) < |actual - expected|)

end XFoilFoam.Unsteady.Exact
