import XFoilFoam.Foundations.Extended
import XFoilFoam.Foundations.Sampling
import XFoilFoam.Polar.Certificates

/-! The statistical mean of a wake without a period: `reduce_aperiodic_mean` of `postprocess/aperiodic.py` and the
models of its certificate in `models.py`, in exact arithmetic.  The inputs may be infinite or NaN; once the input
checks have passed, every number is one of the field.  The SHA-256 of the inputs is a parameter. -/
namespace XFoilFoam.Unsteady.Aperiodic
open Sampling
open Binary64 (lit lt le sub isFinite)
set_option autoImplicit false

/-! ## Inputs and constants -/

def minSourceSamples : ℕ := 400
def minFieldFrames : ℤ := 40
def minConvectiveTimes : ℚ := 4
def minPeriodicityCycles : ℤ := 6
def minNonrepeatableFraction : ℚ := 1 / 2
def maxSourceGapFraction : ℚ := 1 / 10
def blockCount : ℕ := 10
def minEffectiveBlocks : ℚ := 3
def maxCi95Fraction : ℚ := 4 / 100
def maxTrendFraction : ℚ := 6 / 100
def maxHalfDriftFraction : ℚ := 6 / 100
def maxAmplitudeGrowth : ℚ := 135 / 100
def cmToleranceMultiplier : ℚ := 2
def resampledMin : ℕ := 800
def resampledMax : ℕ := 4000

inductive Channel where
  | cl
  | cd
  | cm
  deriving DecidableEq

namespace Channel

def name : Channel → String
  | cl => "cl"
  | cd => "cd"
  | cm => "cm"

/-- `APERIODIC_ABSOLUTE_FLOORS`. -/
def absoluteFloor : Channel → ℚ
  | cl => 2 / 100
  | cd => 2 / 1000
  | cm => 1 / 100

def multiplier : Channel → ℚ
  | cm => cmToleranceMultiplier
  | _ => 1

def all : List Channel := [cl, cd, cm]

end Channel

/-- The arguments of `reduce_aperiodic_mean`. -/
structure Input (K : Type) where
  t : List (Extended K)
  cl : List (Extended K)
  cd : List (Extended K)
  cm : List (Extended K)
  speed : Extended K
  chord : Extended K
  fieldFrameCount : ℤ
  priorDiagnostic : String
  candidatePeriodS : Option (Extended K)
  periodicityCyclesObserved : ℤ
  periodicityNonrepeatableCycles : ℤ
  periodicityContaminated : Bool

variable {K : Type} [Field K] [LinearOrder K] [FloorRing K]

def number : Extended K → K
  | .fin x => x
  | _ => 0

namespace Input

def channel (i : Input K) : Channel → List (Extended K)
  | .cl => i.cl
  | .cd => i.cd
  | .cm => i.cm

def period (i : Input K) : Extended K := i.candidatePeriodS.getD .nan

def times (i : Input K) : List K := i.t.map number

/-- `nonrepeatable_cycles / observed_cycles if observed_cycles > 0 else 0.0`. -/
def nonrepeatableFraction (i : Input K) : K :=
  if 0 < i.periodicityCyclesObserved then
    (i.periodicityNonrepeatableCycles : K) / (i.periodicityCyclesObserved : K)
  else 0

end Input

/-- `np.any(np.diff(times) <= 0)`. -/
def stepsBack : List (Extended K) → Bool
  | s :: t :: rest => le (sub t s) (lit 0) || stepsBack (t :: rest)
  | _ => false

/-- `not math.isfinite(x) or x <= 0`. -/
def notPositive (x : Extended K) : Bool := !isFinite x || le x (lit 0)

def inputReasons (i : Input K) : List String :=
  let samples := i.t.length
  pushIf (decide (i.cl.length ≠ samples) || decide (i.cd.length ≠ samples) || decide (i.cm.length ≠ samples))
      "mismatched-channel-lengths" ++
    pushIf (decide (samples < minSourceSamples)) "insufficient-source-samples" ++
    pushIf ([i.t, i.cl, i.cd, i.cm].any fun values => values.any fun x => !isFinite x) "non-finite-evidence" ++
    pushIf (decide (2 ≤ samples) && stepsBack i.t) "non-monotonic-time" ++
    pushIf (notPositive i.speed) "invalid-speed" ++
    pushIf (notPositive i.chord) "invalid-chord" ++
    pushIf (decide (i.fieldFrameCount < minFieldFrames)) "insufficient-field-frames" ++
    pushIf (notPositive i.period) "missing-periodicity-assessment" ++
    pushIf (decide (i.periodicityCyclesObserved < minPeriodicityCycles)) "insufficient-periodicity-cycles" ++
    pushIf (decide (i.periodicityNonrepeatableCycles < 0) ||
        decide (i.periodicityCyclesObserved < i.periodicityNonrepeatableCycles))
      "invalid-nonrepeatable-cycle-count" ++
    pushIf (decide (minPeriodicityCycles ≤ i.periodicityCyclesObserved) &&
        decide (i.nonrepeatableFraction < (minNonrepeatableFraction : K)))
      "periodicity-not-disproven" ++
    pushIf i.periodicityContaminated "periodicity-assessment-contaminated"

/-! ## The observation -/

namespace Input

def start (i : Input K) : K := i.times.headD 0
def stop (i : Input K) : K := i.times.getLastD 0
def duration (i : Input K) : K := i.stop - i.start
def convectiveTimes (i : Input K) : K := i.duration * number i.speed / number i.chord

/-- `np.max(np.diff(times)) / block_duration`. -/
def gapFraction (i : Input K) : K :=
  let gaps := differences i.times
  gaps.foldl max (gaps.headD 0) / (i.duration / (blockCount : K))

end Input

def priorDiagnosticVeto (diagnostic : String) : Option String :=
  let lowered := String.ofList (diagnostic.toList.map asciiLower)
  if includes lowered "cycle means trend" || includes lowered "cycle means drift" then
    some "prior-monotonic-trend"
  else if includes lowered "amplitude growing" then some "prior-amplitude-growth"
  else none

def observationReasons (i : Input K) : List String :=
  pushIf (decide (i.convectiveTimes < (minConvectiveTimes : K))) "insufficient-observation-horizon" ++
    pushIf (decide ((maxSourceGapFraction : K) < i.gapFraction)) "source-cadence-gap" ++
    pushIf ((i.cd.map number).any fun x => decide (x ≤ 0)) "non-positive-instantaneous-drag" ++
    pushIf (((i.cl.map number).any fun x => decide (10 < |x|)) || (i.cm.map number).any fun x => decide (10 < |x|))
      "non-physical-coefficients" ++
    (priorDiagnosticVeto i.priorDiagnostic).toList

/-! ## Channels -/

inductive Raised where
  | indexError
  | notFinite
  | validationError (fields : List String)
  deriving DecidableEq

/-- `AperiodicMeanChannelCertificate` before its validation. -/
structure ChannelStatistics (K : Type) where
  mean : K
  standardDeviation : K
  scale : K
  ci95HalfWidth : K
  ci95Fraction : K
  trendFraction : K
  halfDriftFraction : K
  blockRangeFraction : K
  effectiveBlocks : K
  amplitudeGrowth : K

def edge (start stop : K) (k : ℕ) : K := start + k * ((stop - start) / (blockCount : K))

def inBlock (start stop : K) (k : ℕ) (x : K) : Bool :=
  decide (edge start stop k ≤ x) &&
    (if k + 1 = blockCount then decide (x ≤ edge start stop (k + 1)) else decide (x < edge start stop (k + 1)))

/-- The mean of one block.  An empty block has no first row, and a block of no duration has no finite mean. -/
def blockMean : List (K × K) → Except Raised K
  | [] => .error .indexError
  | p :: ps =>
    let duration := ((p :: ps).getLast (List.cons_ne_nil _ _)).1 - p.1
    if duration = 0 then .error .notFinite else .ok (trapezoid (p :: ps) / duration)

/-- `np.dot(centered[:-1], centered[1:]) / denominator`, held between -0.9 and 0.9. -/
def lagCorrelation (means : List K) : K :=
  let centered := means.map fun x => x - mean means
  let rho := if 0 < deviation means then lagSum centered / deviation means else 0
  max (-((9 / 10 : ℚ) : K)) (min ((9 / 10 : ℚ) : K) rho)

def effectiveBlocks (means : List K) : K :=
  let rho := lagCorrelation means
  max 1 (min (blockCount : K) ((blockCount : K) * (1 - rho) / (1 + rho)))

/-- The statistics of a channel, from its resampled values and the means and deviations of its blocks. -/
def statisticsOf (root : SquareRoot K) (floor : K) (values means deviations : List K) : ChannelStatistics K :=
  let centre := mean means
  let deviation := std root values
  let scale := max (max |centre| deviation) floor
  let half := blockCount / 2
  let ci95 := ((196 / 100 : ℚ) : K) * sampleStd root means / root.sqrt (effectiveBlocks means)
  { mean := centre
    standardDeviation := deviation
    scale := scale
    ci95HalfWidth := ci95
    ci95Fraction := ci95 / scale
    trendFraction := |slope means * ((blockCount - 1 : ℕ) : K)| / scale
    halfDriftFraction := |mean (means.take half) - mean (means.drop (means.length - half))| / scale
    blockRangeFraction := peakToPeak means / scale
    effectiveBlocks := effectiveBlocks means
    amplitudeGrowth := mean (deviations.drop (deviations.length - half)) / max (mean (deviations.take half)) floor }

def channelProblems (c : ChannelStatistics K) : List String :=
  pushIf (decide (c.standardDeviation < 0)) "standard_deviation" ++
    pushIf (decide (c.scale ≤ 0)) "scale" ++
    pushIf (decide (c.ci95HalfWidth < 0)) "ci95_half_width" ++
    pushIf (decide (c.ci95Fraction < 0)) "ci95_fraction" ++
    pushIf (decide (c.trendFraction < 0)) "trend_fraction" ++
    pushIf (decide (c.halfDriftFraction < 0)) "half_drift_fraction" ++
    pushIf (decide (c.blockRangeFraction < 0)) "block_range_fraction" ++
    pushIf (decide (c.effectiveBlocks < 1)) "effective_blocks" ++
    pushIf (decide (c.amplitudeGrowth < 0)) "amplitude_growth"

/-- `AperiodicMeanChannelCertificate`. -/
structure ChannelCertificate (K : Type) [Field K] [LinearOrder K] where
  statistics : ChannelStatistics K
  valid : channelProblems statistics = []

def blockRows (start stop : K) (rows : List (K × K)) (k : ℕ) : List (K × K) :=
  rows.filter fun p => inBlock start stop k p.1

/-- `_channel_certificate` on the resampled rows. -/
def channelCertificate (root : SquareRoot K) (floor start stop : K) (rows : List (K × K)) :
    Except Raised (ChannelCertificate K) :=
  let blocks := (List.range blockCount).map (blockRows start stop rows)
  match blocks.mapM blockMean with
  | .error e => .error e
  | .ok means =>
    let statistics := statisticsOf root floor (rows.map Prod.snd) means
      (blocks.map fun rows => std root (rows.map Prod.snd))
    if h : channelProblems statistics = [] then .ok ⟨statistics, h⟩
    else .error (.validationError (channelProblems statistics))

namespace Input

/-- `min(4000, max(800, sample_count))`. -/
def gridSize (i : Input K) : ℕ := min resampledMax (max resampledMin i.t.length)

def resampled (i : Input K) (c : Channel) : List (K × K) :=
  (linspace i.start i.stop i.gridSize).map fun x => (x, interp x (i.times.zip ((i.channel c).map number)))

def certificateOf (root : SquareRoot K) (i : Input K) (c : Channel) : Except Raised (ChannelCertificate K) :=
  channelCertificate root (c.absoluteFloor : K) i.start i.stop (i.resampled c)

end Input

def channelReasons (c : Channel) (s : ChannelStatistics K) : List String :=
  pushIf (decide (((maxCi95Fraction * c.multiplier : ℚ) : K) < s.ci95Fraction)) (c.name ++ "-mean-uncertainty") ++
    pushIf (decide (((maxTrendFraction * c.multiplier : ℚ) : K) < s.trendFraction)) (c.name ++ "-mean-trend") ++
    pushIf (decide (((maxHalfDriftFraction * c.multiplier : ℚ) : K) < s.halfDriftFraction))
      (c.name ++ "-half-drift") ++
    pushIf (decide (s.effectiveBlocks < (minEffectiveBlocks : K))) (c.name ++ "-insufficient-effective-blocks") ++
    pushIf (decide ((maxAmplitudeGrowth : K) < s.amplitudeGrowth)) (c.name ++ "-amplitude-growth")

/-! ## The certificate -/

/-- `AperiodicMeanThresholds`: each key with its value and the bound of the model. -/
def thresholds : List (String × ℚ × (ℚ → Bool)) :=
  [("minimum_source_samples", minSourceSamples, fun x => decide (1 ≤ x)),
    ("minimum_field_frames", minFieldFrames, fun x => decide (1 ≤ x)),
    ("minimum_convective_times", minConvectiveTimes, fun x => decide (0 < x)),
    ("minimum_periodicity_cycles", minPeriodicityCycles, fun x => decide (3 ≤ x)),
    ("minimum_nonrepeatable_fraction", minNonrepeatableFraction, fun x => decide (0 < x ∧ x ≤ 1)),
    ("maximum_source_gap_fraction", maxSourceGapFraction, fun x => decide (0 < x ∧ x < 1)),
    ("block_count", blockCount, fun x => decide (4 ≤ x)),
    ("minimum_effective_blocks", minEffectiveBlocks, fun x => decide (1 ≤ x)),
    ("maximum_ci95_fraction", maxCi95Fraction, fun x => decide (0 < x)),
    ("maximum_trend_fraction", maxTrendFraction, fun x => decide (0 < x)),
    ("maximum_half_drift_fraction", maxHalfDriftFraction, fun x => decide (0 < x)),
    ("maximum_amplitude_growth", maxAmplitudeGrowth, fun x => decide (1 < x)),
    ("cm_tolerance_multiplier", cmToleranceMultiplier, fun x => decide (1 ≤ x))]

def thresholdProblems : List String := (thresholds.filter fun t => !t.2.2 t.2.1).map Prod.fst

/-- `AperiodicMeanCertificate` before its validation. -/
structure Evidence (K : Type) [Field K] [LinearOrder K] where
  inputSha256 : String
  sourceSampleCount : ℕ
  resampledSampleCount : ℕ
  fieldFrameCount : ℤ
  observationStartTime : K
  observationEndTime : K
  observedDurationS : K
  convectiveTimes : K
  candidatePeriodS : K
  structurallyValidCycles : ℤ
  nonrepeatableCycles : ℤ
  nonrepeatableFraction : K
  cl : ChannelCertificate K
  cd : ChannelCertificate K
  cm : ChannelCertificate K

/-- The fields that `AperiodicMeanPeriodicityAssessment` refuses. -/
def periodicityProblems (e : Evidence K) : List String :=
  pushIf (decide (e.candidatePeriodS ≤ 0)) "candidate_period_s" ++
    pushIf (decide (e.structurallyValidCycles < 1)) "structurally_valid_cycles" ++
    pushIf (decide (e.nonrepeatableCycles < 1)) "nonrepeatable_cycles" ++
    pushIf (decide (e.nonrepeatableFraction ≤ 0) || decide (1 < e.nonrepeatableFraction))
      "nonrepeatable_fraction" ++
    pushIf (decide (e.structurallyValidCycles < e.nonrepeatableCycles))
      "nonrepeatable cycles exceed structurally valid cycles" ++
    pushIf (decide (((1 / 10 ^ 12 : ℚ) : K) <
        |(e.nonrepeatableCycles : K) / (e.structurallyValidCycles : K) - e.nonrepeatableFraction|))
      "aperiodic periodicity fraction is inconsistent"

/-- The fields that `AperiodicMeanCertificate` refuses. -/
def evidenceProblems (e : Evidence K) : List String :=
  let span := e.observationEndTime - e.observationStartTime
  thresholdProblems ++ periodicityProblems e ++
    pushIf (!isSha256Hex e.inputSha256) "input_sha256" ++
    pushIf (decide (e.sourceSampleCount < 1)) "source_sample_count" ++
    pushIf (decide (e.resampledSampleCount < 1)) "resampled_sample_count" ++
    pushIf (decide (e.fieldFrameCount < 1)) "field_frame_count" ++
    pushIf (decide (e.observationStartTime < 0)) "observation_start_time" ++
    pushIf (decide (e.observationEndTime ≤ 0)) "observation_end_time" ++
    pushIf (decide (e.observedDurationS ≤ 0)) "observed_duration_s" ++
    pushIf (decide (e.convectiveTimes ≤ 0)) "convective_times" ++
    pushIf (decide (e.observationEndTime ≤ e.observationStartTime))
      "aperiodic mean observation window is reversed" ++
    pushIf (decide (((1 / 10 ^ 10 : ℚ) : K) * max (max 1 |span|) |e.observedDurationS| <
        |span - e.observedDurationS|)) "aperiodic mean duration does not match its time window"

/-- `AperiodicMeanCertificate`. -/
structure Certificate (K : Type) [Field K] [LinearOrder K] where
  evidence : Evidence K
  valid : evidenceProblems evidence = []

/-- `_canonical_input_sha256`: sixty-four hexadecimal digits of the inputs. -/
structure InputDigest (K : Type) where
  sha256 : Input K → String
  hex : ∀ i, isSha256Hex (sha256 i) = true

def evidenceOf (digest : InputDigest K) (i : Input K) (cl cd cm : ChannelCertificate K) : Evidence K where
  inputSha256 := digest.sha256 i
  sourceSampleCount := i.t.length
  resampledSampleCount := i.gridSize
  fieldFrameCount := i.fieldFrameCount
  observationStartTime := i.start
  observationEndTime := i.stop
  observedDurationS := i.duration
  convectiveTimes := i.convectiveTimes
  candidatePeriodS := number i.period
  structurallyValidCycles := i.periodicityCyclesObserved
  nonrepeatableCycles := i.periodicityNonrepeatableCycles
  nonrepeatableFraction := i.nonrepeatableFraction
  cl := cl
  cd := cd
  cm := cm

/-- `AperiodicMeanReduction`. -/
structure Reduction (K : Type) [Field K] [LinearOrder K] where
  certificate : Option (Certificate K)
  reasons : List String
  observedConvectiveTimes : Option K
  additionalConvectiveTimes : Option K

def statisticsReasons (cl cd cm : ChannelCertificate K) : List String :=
  channelReasons .cl cl.statistics ++ channelReasons .cd cd.statistics ++ channelReasons .cm cm.statistics

def reduceAperiodicMean (root : SquareRoot K) (digest : InputDigest K) (i : Input K) :
    Except Raised (Reduction K) :=
  if inputReasons i ≠ [] then .ok ⟨none, inputReasons i, none, none⟩
  else if observationReasons i ≠ [] then
    .ok ⟨none, observationReasons i, some i.convectiveTimes,
      some (max 0 ((minConvectiveTimes : K) - i.convectiveTimes))⟩
  else
    match i.certificateOf root .cl, i.certificateOf root .cd, i.certificateOf root .cm with
    | .error e, _, _ => .error e
    | .ok _, .error e, _ => .error e
    | .ok _, .ok _, .error e => .error e
    | .ok cl, .ok cd, .ok cm =>
      if statisticsReasons cl cd cm ≠ [] then
        .ok ⟨none, statisticsReasons cl cd cm, some i.convectiveTimes, some 0⟩
      else if h : evidenceProblems (evidenceOf digest i cl cd cm) = [] then
        .ok ⟨some ⟨evidenceOf digest i cl cd cm, h⟩, [], some i.convectiveTimes, some 0⟩
      else .error (.validationError (evidenceProblems (evidenceOf digest i cl cd cm)))

/-! ## JSON -/

def ChannelCertificate.toJson (c : ChannelCertificate K) : JsValue (Extended K) :=
  .obj [("mean", .num (.fin c.statistics.mean)),
    ("standard_deviation", .num (.fin c.statistics.standardDeviation)),
    ("scale", .num (.fin c.statistics.scale)),
    ("ci95_half_width", .num (.fin c.statistics.ci95HalfWidth)),
    ("ci95_fraction", .num (.fin c.statistics.ci95Fraction)),
    ("trend_fraction", .num (.fin c.statistics.trendFraction)),
    ("half_drift_fraction", .num (.fin c.statistics.halfDriftFraction)),
    ("block_range_fraction", .num (.fin c.statistics.blockRangeFraction)),
    ("effective_blocks", .num (.fin c.statistics.effectiveBlocks)),
    ("amplitude_growth", .num (.fin c.statistics.amplitudeGrowth))]

def thresholdsJson : JsValue (Extended K) := .obj (thresholds.map fun t => (t.1, .num (lit t.2.1)))

def Evidence.periodicityJson (e : Evidence K) : JsValue (Extended K) :=
  .obj [("candidate_period_s", .num (.fin e.candidatePeriodS)),
    ("structurally_valid_cycles", .num (.fin (e.structurallyValidCycles : K))),
    ("nonrepeatable_cycles", .num (.fin (e.nonrepeatableCycles : K))),
    ("nonrepeatable_fraction", .num (.fin e.nonrepeatableFraction))]

def Evidence.toJson (e : Evidence K) : JsValue (Extended K) :=
  .obj [("reducer_version", .str "aperiodic-mean-v1"), ("certified", .bool true),
    ("input_sha256", .str e.inputSha256),
    ("source_sample_count", .num (.fin (e.sourceSampleCount : K))),
    ("resampled_sample_count", .num (.fin (e.resampledSampleCount : K))),
    ("field_frame_count", .num (.fin (e.fieldFrameCount : K))),
    ("observation_start_time", .num (.fin e.observationStartTime)),
    ("observation_end_time", .num (.fin e.observationEndTime)),
    ("observed_duration_s", .num (.fin e.observedDurationS)),
    ("convective_times", .num (.fin e.convectiveTimes)),
    ("thresholds", thresholdsJson), ("periodicity", e.periodicityJson),
    ("cl", e.cl.toJson), ("cd", e.cd.toJson), ("cm", e.cm.toJson)]

end XFoilFoam.Unsteady.Aperiodic
