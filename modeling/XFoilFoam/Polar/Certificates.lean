import XFoilFoam.Foundations.JsValue

/-! The strict certificate parsers that the polar classifier relies on: `no-shedding-certificate.ts`,
`aperiodic-mean-certificate.ts` and the clean-cycle policy of `urans-cycle-policy.ts`.  Each parser
collects the texts of all its errors and accepts only when there are none. -/
namespace XFoilFoam.Polar
open Binary64
set_option autoImplicit false

variable {F : Type} [Binary64 F]

/-! ## Field checks -/

def positiveFinite (v : JsValue F) : Bool := v.finiteAnd (fun x => lt (lit 0) x)

def nonNegativeFinite (v : JsValue F) : Bool := v.finiteAnd (fun x => le (lit 0) x)

/-- A finite integer that is at least `minimum`. -/
def nonnegativeInteger (v : JsValue F) (minimum : ℚ) : Bool :=
  v.finiteAnd (fun x => isInteger x && le (lit minimum) x)

def approximately (tolerance left right : F) : Bool :=
  le (abs (sub left right)) (mul tolerance (max (max (lit 1) (abs left)) (abs right)))

def exactKeys (value : JsValue F) (expected : List String) (path suffix : String) : List String :=
  (expected.filter (fun key => !value.hasOwn key)).map
      (fun key => path ++ ": missing key \"" ++ key ++ "\"") ++
    (value.keys.filter (fun key => !expected.contains key)).map
      (fun key => path ++ ": unexpected key \"" ++ key ++ "\"" ++ suffix)

def eachKey (value : JsValue F) (keys : List String) (good : JsValue F → Bool) (path text : String) :
    List String :=
  keys.flatMap (fun key => pushIf (!good (value.get key)) (path ++ "." ++ key ++ ": " ++ text))

omit [Binary64 F] in
theorem eachKey_eq_nil {value : JsValue F} {keys : List String} {good : JsValue F → Bool}
    {path text : String} :
    eachKey value keys good path text = [] ↔ ∀ key ∈ keys, good (value.get key) = true := by
  simp only [eachKey, List.flatMap_eq_nil_iff, pushIf_eq_nil, Bool.not_eq_false']

omit [Binary64 F] in
theorem exactKeys_of_keys {value : JsValue F} {expected : List String} (h : value.keys = expected)
    (path suffix : String) : exactKeys value expected path suffix = [] := by
  simp only [exactKeys, JsValue.hasOwn, h, List.append_eq_nil_iff, List.map_eq_nil_iff, List.filter_eq_nil_iff]
  constructor
  · intro key hkey
    simp [hkey]
  · intro key hkey
    simp [hkey]

/-! ## No shedding -/

def noSheddingCertificateVersion : String := "no-shedding-v1"

def noSheddingMinSampleCount : ℚ := 20

def noSheddingCertificateKeys : List String :=
  ["reducer_version", "certified", "required_observation_s", "observation_start_time",
    "observation_end_time", "observed_observation_s", "source_sample_count",
    "transport_sample_count", "relative_tolerance", "absolute_floor", "cl_mean", "cd_mean",
    "cm_mean", "cl_rms", "cd_rms", "cm_rms", "transport_cl_mean", "transport_cd_mean",
    "transport_cm_mean", "transport_cl_rms", "transport_cd_rms", "transport_cm_rms"]

def noSheddingRmsKeys : List String :=
  ["cl_rms", "cd_rms", "cm_rms", "transport_cl_rms", "transport_cd_rms", "transport_cm_rms"]

def noSheddingWindowErrors (value : JsValue F) : List String :=
  match (value.get "observation_start_time").finite?,
      (value.get "observation_end_time").finite? with
  | some start, some stop =>
    pushIf (le stop start) "no_shedding_certificate: observation time window is reversed" ++
      pushIf ((value.get "observed_observation_s").finiteAnd (fun observed =>
          lt (lit 0) observed && !approximately (lit (1 / 10 ^ 10)) observed (sub stop start)))
        ("no_shedding_certificate.observed_observation_s: " ++
          "does not match the observation time window")
  | _, _ => []

def noSheddingHorizonErrors (value : JsValue F) : List String :=
  pushIf ((value.get "observed_observation_s").finiteAnd (fun observed =>
      lt (lit 0) observed && (value.get "required_observation_s").finiteAnd (fun required =>
        lt (lit 0) required &&
          lt (add observed (mul (lit (1 / 10 ^ 10)) (max (lit 1) observed))) required)))
    "no_shedding_certificate: observation is below the physical slow-shedding horizon"

def noSheddingSampleErrors (value : JsValue F) : List String :=
  pushIf (nonnegativeInteger (value.get "source_sample_count") noSheddingMinSampleCount &&
      nonnegativeInteger (value.get "transport_sample_count") noSheddingMinSampleCount &&
      (value.get "source_sample_count").finiteAnd (fun source =>
        (value.get "transport_sample_count").finiteAnd (fun transport => lt source transport)))
    "no_shedding_certificate: source sample count is below transported history count"

def noSheddingAmplitudeErrors (value : JsValue F) : List String :=
  match (value.get "relative_tolerance").finite?, (value.get "absolute_floor").finite? with
  | some relativeTolerance, some absoluteFloor =>
    if lt (lit 0) relativeTolerance && lt (lit 0) absoluteFloor then
      ["cl", "cd", "cm"].flatMap (fun channel =>
        pushIf ((value.get (channel ++ "_mean")).finiteAnd (fun mean =>
            (value.get (channel ++ "_rms")).finiteAnd (fun rms =>
              lt (add (max (mul relativeTolerance (abs mean)) absoluteFloor)
                  (mul (lit (1 / 10 ^ 12))
                    (max (lit 1) (max (mul relativeTolerance (abs mean)) absoluteFloor))))
                (abs rms))))
          ("no_shedding_certificate." ++ channel ++ "_rms: exceeds its stamped amplitude tolerance"))
    else []
  | _, _ => []

/-- `parseNoSheddingCertificate`: the certificate itself, or the texts of its errors. -/
def parseNoSheddingCertificate (value : JsValue F) : Except (List String) (JsValue F) :=
  if !value.isRecord then
    .error ["no_shedding_certificate: expected object, got " ++
      (if value.isNull then "null" else value.typeOf)]
  else
    match exactKeys value noSheddingCertificateKeys "no_shedding_certificate" " (contract drift)" ++
      pushIf (!(value.get "reducer_version").isStr noSheddingCertificateVersion)
        ("no_shedding_certificate.reducer_version: expected " ++ noSheddingCertificateVersion) ++
      pushIf (!(value.get "certified").isTrue) "no_shedding_certificate.certified: expected true" ++
      eachKey value
        ["required_observation_s", "observed_observation_s", "relative_tolerance", "absolute_floor"]
        positiveFinite "no_shedding_certificate" "expected positive finite number" ++
      eachKey value ["observation_start_time", "observation_end_time"]
        (fun v => v.finiteAnd (fun x => !lt x (lit 0)))
        "no_shedding_certificate" "expected non-negative finite number" ++
      eachKey value ["source_sample_count", "transport_sample_count"]
        (fun v => nonnegativeInteger v noSheddingMinSampleCount)
        "no_shedding_certificate" "expected integer >= 20" ++
      eachKey value (["cl_mean", "cd_mean", "cm_mean", "cl_rms", "cd_rms", "cm_rms",
          "transport_cl_mean", "transport_cd_mean", "transport_cm_mean", "transport_cl_rms",
          "transport_cd_rms", "transport_cm_rms"])
        JsValue.finite "no_shedding_certificate" "expected finite number" ++
      eachKey value noSheddingRmsKeys (fun v => !v.finiteAnd (fun x => lt x (lit 0)))
        "no_shedding_certificate" "expected non-negative number" ++
      noSheddingWindowErrors value ++ noSheddingHorizonErrors value ++
      noSheddingSampleErrors value ++ noSheddingAmplitudeErrors value with
    | [] => .ok value
    | errors => .error errors

/-! ## Aperiodic mean -/

def aperiodicMeanCertificateVersion : String := "aperiodic-mean-v1"
def aperiodicMinSourceSamples : ℚ := 400
def aperiodicMinFieldFrames : ℚ := 40
def aperiodicMinConvectiveTimes : ℚ := 4
def aperiodicMinPeriodicityCycles : ℚ := 6
def aperiodicMinNonrepeatableFraction : ℚ := 1 / 2
def aperiodicMaxSourceGapFraction : ℚ := 1 / 10
def aperiodicBlockCount : ℚ := 10
def aperiodicMinEffectiveBlocks : ℚ := 3
def aperiodicMaxCi95Fraction : ℚ := 4 / 100
def aperiodicMaxTrendFraction : ℚ := 6 / 100
def aperiodicMaxHalfDriftFraction : ℚ := 6 / 100
def aperiodicMaxAmplitudeGrowth : ℚ := 135 / 100
def aperiodicCmToleranceMultiplier : ℚ := 2

def aperiodicRootKeys : List String :=
  ["reducer_version", "certified", "input_sha256", "source_sample_count", "resampled_sample_count",
    "field_frame_count", "observation_start_time", "observation_end_time", "observed_duration_s",
    "convective_times", "thresholds", "periodicity", "cl", "cd", "cm"]

/-- The threshold keys in order, each with its value and the value as printed. -/
def aperiodicThresholds : List (String × ℚ × String) :=
  [("minimum_source_samples", aperiodicMinSourceSamples, "400"),
    ("minimum_field_frames", aperiodicMinFieldFrames, "40"),
    ("minimum_convective_times", aperiodicMinConvectiveTimes, "4"),
    ("minimum_periodicity_cycles", aperiodicMinPeriodicityCycles, "6"),
    ("minimum_nonrepeatable_fraction", aperiodicMinNonrepeatableFraction, "0.5"),
    ("maximum_source_gap_fraction", aperiodicMaxSourceGapFraction, "0.1"),
    ("block_count", aperiodicBlockCount, "10"),
    ("minimum_effective_blocks", aperiodicMinEffectiveBlocks, "3"),
    ("maximum_ci95_fraction", aperiodicMaxCi95Fraction, "0.04"),
    ("maximum_trend_fraction", aperiodicMaxTrendFraction, "0.06"),
    ("maximum_half_drift_fraction", aperiodicMaxHalfDriftFraction, "0.06"),
    ("maximum_amplitude_growth", aperiodicMaxAmplitudeGrowth, "1.35"),
    ("cm_tolerance_multiplier", aperiodicCmToleranceMultiplier, "2")]

def aperiodicPeriodicityKeys : List String :=
  ["candidate_period_s", "structurally_valid_cycles", "nonrepeatable_cycles", "nonrepeatable_fraction"]

def aperiodicChannelKeys : List String :=
  ["mean", "standard_deviation", "scale", "ci95_half_width", "ci95_fraction", "trend_fraction",
    "half_drift_fraction", "block_range_fraction", "effective_blocks", "amplitude_growth"]

/-- `!Number.isInteger(value) || Number(value) < minimum`. -/
def belowInteger (v : JsValue F) (minimum : ℚ) : Bool :=
  !v.finiteAnd (fun x => isInteger x && !lt x (lit minimum))

/-- `exactNumber` on one threshold. -/
def exactNumber (value : JsValue F) (threshold : String × ℚ × String) (path : String) : List String :=
  pushIf (!(value.get threshold.1).isLit threshold.2.1)
    (path ++ "." ++ threshold.1 ++ ": expected " ++ threshold.2.2)

def channelErrors (value : JsValue F) (path : String) : List String :=
  if !value.isRecord then [path ++ ": expected object"]
  else
    exactKeys value aperiodicChannelKeys path "" ++
      eachKey value aperiodicChannelKeys JsValue.finite path "expected finite number" ++
      eachKey value ["standard_deviation", "ci95_half_width", "ci95_fraction", "trend_fraction",
          "half_drift_fraction", "block_range_fraction", "amplitude_growth"]
        (fun v => !v.finiteAnd (fun x => lt x (lit 0))) path "expected non-negative number" ++
      pushIf ((value.get "scale").finiteAnd (fun x => le x (lit 0)))
        (path ++ ".scale: expected positive number") ++
      pushIf ((value.get "effective_blocks").finiteAnd
          (fun x => lt x (lit aperiodicMinEffectiveBlocks)))
        (path ++ ".effective_blocks: below certified minimum")

/-- `value.key > bound` on a number; any other value has already failed as not finite. -/
def exceeds (v : JsValue F) (bound : F) : Bool :=
  match v with
  | .num x => lt bound x
  | _ => false

def channelLimitErrors (value : JsValue F) (name : String) (multiplier : ℚ) : List String :=
  if !value.isRecord then []
  else
    pushIf (exceeds (value.get "ci95_fraction")
        (mul (lit aperiodicMaxCi95Fraction) (lit multiplier)))
      ("aperiodic_mean_certificate." ++ name ++ ".ci95_fraction: exceeds certified maximum") ++
    pushIf (exceeds (value.get "trend_fraction")
        (mul (lit aperiodicMaxTrendFraction) (lit multiplier)))
      ("aperiodic_mean_certificate." ++ name ++ ".trend_fraction: exceeds certified maximum") ++
    pushIf (exceeds (value.get "half_drift_fraction")
        (mul (lit aperiodicMaxHalfDriftFraction) (lit multiplier)))
      ("aperiodic_mean_certificate." ++ name ++ ".half_drift_fraction: exceeds certified maximum") ++
    pushIf (exceeds (value.get "amplitude_growth") (lit aperiodicMaxAmplitudeGrowth))
      ("aperiodic_mean_certificate." ++ name ++ ".amplitude_growth: exceeds certified maximum")

def aperiodicWindowErrors (value : JsValue F) : List String :=
  match (value.get "observation_start_time").finite?, (value.get "observation_end_time").finite?,
      (value.get "observed_duration_s").finite? with
  | some start, some stop, some duration =>
    pushIf (le (sub stop start) (lit 0)) "aperiodic_mean_certificate: reversed observation window" ++
      pushIf (lt (mul (lit (1 / 10 ^ 10)) (max (lit 1) (abs (sub stop start))))
          (abs (sub (sub stop start) duration)))
        "aperiodic_mean_certificate: duration mismatch"
  | _, _, _ => []

def aperiodicThresholdErrors (thresholds : JsValue F) : List String :=
  if !thresholds.isRecord then ["aperiodic_mean_certificate.thresholds: expected object"]
  else
    exactKeys thresholds (aperiodicThresholds.map Prod.fst)
        "aperiodic_mean_certificate.thresholds" "" ++
      aperiodicThresholds.flatMap (fun threshold =>
        exactNumber thresholds threshold "aperiodic_mean_certificate.thresholds")

def aperiodicPeriodicityErrors (periodicity : JsValue F) : List String :=
  if !periodicity.isRecord then ["aperiodic_mean_certificate.periodicity: expected object"]
  else
    let path := "aperiodic_mean_certificate.periodicity"
    let observed := periodicity.get "structurally_valid_cycles"
    let nonrepeatable := periodicity.get "nonrepeatable_cycles"
    let fraction := periodicity.get "nonrepeatable_fraction"
    exactKeys periodicity aperiodicPeriodicityKeys path "" ++
      eachKey periodicity aperiodicPeriodicityKeys JsValue.finite path "expected finite number" ++
      pushIf (belowInteger observed aperiodicMinPeriodicityCycles)
        (path ++ ".structurally_valid_cycles: below minimum") ++
      pushIf (belowInteger nonrepeatable 1 ||
          observed.finiteAnd (fun o => nonrepeatable.finiteAnd (fun n => lt o n)))
        (path ++ ".nonrepeatable_cycles: invalid count") ++
      pushIf (fraction.finiteAnd (fun x =>
          lt x (lit aperiodicMinNonrepeatableFraction) || lt (lit 1) x))
        (path ++ ".nonrepeatable_fraction: outside certified range") ++
      pushIf (observed.finiteAnd (fun o => nonrepeatable.finiteAnd (fun n => fraction.finiteAnd
          (fun x => lt (lit (1 / 10 ^ 12)) (abs (sub (div n o) x))))))
        (path ++ ": inconsistent nonrepeatable fraction") ++
      pushIf ((periodicity.get "candidate_period_s").finiteAnd (fun x => le x (lit 0)))
        (path ++ ".candidate_period_s: expected positive number")

def parseAperiodicMeanCertificate (value : JsValue F) : Except (List String) (JsValue F) :=
  if !value.isRecord then .error ["aperiodic_mean_certificate: expected object"]
  else
    match exactKeys value aperiodicRootKeys "aperiodic_mean_certificate" "" ++
      pushIf (!(value.get "reducer_version").isStr aperiodicMeanCertificateVersion)
        ("aperiodic_mean_certificate.reducer_version: expected " ++
          aperiodicMeanCertificateVersion) ++
      pushIf (!(value.get "certified").isTrue)
        "aperiodic_mean_certificate.certified: expected true" ++
      pushIf (!(value.get "input_sha256").isStrAnd isSha256Hex)
        "aperiodic_mean_certificate.input_sha256: expected SHA-256 hex" ++
      eachKey value ["source_sample_count", "resampled_sample_count", "field_frame_count",
          "observation_start_time", "observation_end_time", "observed_duration_s",
          "convective_times"]
        JsValue.finite "aperiodic_mean_certificate" "expected finite number" ++
      pushIf (belowInteger (value.get "source_sample_count") aperiodicMinSourceSamples)
        "aperiodic_mean_certificate.source_sample_count: below minimum" ++
      pushIf (belowInteger (value.get "resampled_sample_count") 1)
        "aperiodic_mean_certificate.resampled_sample_count: expected positive integer" ++
      pushIf (belowInteger (value.get "field_frame_count") aperiodicMinFieldFrames)
        "aperiodic_mean_certificate.field_frame_count: below minimum" ++
      pushIf ((value.get "convective_times").finiteAnd
          (fun x => lt x (lit aperiodicMinConvectiveTimes)))
        "aperiodic_mean_certificate.convective_times: below minimum" ++
      aperiodicWindowErrors value ++
      aperiodicThresholdErrors (value.get "thresholds") ++
      aperiodicPeriodicityErrors (value.get "periodicity") ++
      ["cl", "cd", "cm"].flatMap (fun name =>
        channelErrors (value.get name) ("aperiodic_mean_certificate." ++ name)) ++
      channelLimitErrors (value.get "cl") "cl" 1 ++
      channelLimitErrors (value.get "cd") "cd" 1 ++
      channelLimitErrors (value.get "cm") "cm" aperiodicCmToleranceMultiplier with
    | [] => .ok value
    | errors => .error errors

/-! ## Clean cycles -/

/-- `SelectedCleanCycleQualityReason`. -/
inductive CycleIssue where
  | coefficientSamples
  | fieldFrames
  | phaseGap
  | phaseShift
  | reasons
  | shapeError (channel : String)
  | amplitudeDeviation (channel : String)
  | highFrequency (channel : String)
  deriving DecidableEq

/-- `selectedCleanCycleQualityReasons`, on the record of one cycle. -/
def selectedCleanCycleQualityReasons (record : JsValue F) : List CycleIssue :=
  (if nonnegativeInteger (record.get "coefficient_samples") 20 then [] else [.coefficientSamples]) ++
    (if nonnegativeInteger (record.get "field_frames") 20 then [] else [.fieldFrames]) ++
    (if (record.get "phase_max_gap").finiteAnd (fun x => le (lit 0) x && le x (lit (1 / 10))) then []
      else [.phaseGap]) ++
    (if (record.get "phase_shift_bins").finiteAnd (fun x => isInteger x && le (abs x) (lit 4)) then []
      else [.phaseShift]) ++
    (if (record.get "reasons").isArray && (record.get "reasons").elements.isEmpty then []
      else [.reasons]) ++
    ["cl", "cd", "cm"].flatMap (fun name =>
      (if (record.get (name ++ "_shape_error")).finiteAnd
          (fun x => le (lit 0) x && le x (lit (12 / 100))) then [] else [.shapeError name]) ++
      (if (record.get (name ++ "_amplitude_deviation")).finiteAnd
          (fun x => le (lit 0) x && le x (lit (3 / 10))) then [] else [.amplitudeDeviation name]) ++
      (if nonNegativeFinite (record.get (name ++ "_high_frequency")) then []
        else [.highFrequency name]))

end XFoilFoam.Polar
