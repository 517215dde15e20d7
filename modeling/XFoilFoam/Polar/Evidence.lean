import XFoilFoam.Polar.Certificates

/-! The pointwise evidence gate of `polar-fit.ts`: `baseRejectionReasons` lists every reason to reject a
point that can be read off the point alone. -/
namespace XFoilFoam.Polar
open Binary64
set_option autoImplicit false

inductive ResultRegime where
  | rans
  | urans
  deriving DecidableEq

inductive FailureDisposition where
  | none
  | hardSolver
  | deterministicMesh
  | materialDomain
  | infrastructure
  deriving DecidableEq

/-- `PolarEvidencePoint`.  A field whose absence and `null` read differently is a `JsValue`. -/
structure PolarEvidencePoint (F : Type) where
  a : F
  cl : Option F
  cd : Option F
  cm : Option F
  ld : Option F
  status : String
  source : String
  regime : Option ResultRegime
  converged : Bool
  stalled : Bool
  unsteady : Option Bool
  error : Option String
  failureDisposition : Option FailureDisposition
  finalResidual : Option F
  iterations : Option F
  sourceGeometryCompatible : Option Bool
  hasForceHistory : Bool
  hasVideo : Bool
  frameTrack : JsValue F
  uransCycleCertificate : JsValue F
  noSheddingCertificate : JsValue F
  aperiodicMeanCertificate : JsValue F
  ransHoldCertificate : JsValue F
  fidelity : Option String
  steadyHistory : JsValue F
  qualityWarnings : Option (List String)
  selectedArchiveInterpretation : JsValue F

variable {F : Type} [Binary64 F]

/-- `finite(value)` on a nullable number, with the number. -/
def finiteOf (x : Option F) : Option F := x.filter isFinite

def uransBudgetStopMarker : String := "stopped by the wall-clock budget guard"

def uransContinuationRequiredMarker : String := "requires further same-case integration"

def hasIncompleteUransIntegrationWarning (warnings : Option (List String)) : Bool :=
  warnings.any (fun texts => texts.any (fun warning =>
    includes warning uransBudgetStopMarker || includes warning uransContinuationRequiredMarker))

/-- `FRAME_TRACK_MIN_PERIODS_PRECALC` or `FRAME_TRACK_MIN_PERIODS_FULL`. -/
def frameTrackMinPeriodsFor (fidelity : Option String) : ℕ :=
  if fidelity = some "urans_precalc" then 3 else 5

def hasCertifiedSelectedArchiveInterpretation (p : PolarEvidencePoint F) : Bool :=
  let interpretation := p.selectedArchiveInterpretation
  decide (p.regime = some .urans) && interpretation.isRecord &&
    (interpretation.get "source").isStr "archive_backfill" &&
    (interpretation.get "state").isStr "accepted" &&
    ((interpretation.get "regime").isStr "periodic" ||
      (interpretation.get "regime").isStr "steady_equivalent") &&
    (interpretation.get "id").isStrAnd isUuidText &&
    (interpretation.get "sourceArchiveId").isStrAnd isUuidText &&
    (interpretation.get "inputEvidenceSignature").isStrAnd isSha256Hex

/-- Only a literal `mean_stable === true` on a steady row. -/
def isOscillatingSteadyStable (p : PolarEvidencePoint F) : Bool :=
  p.unsteady != some true && !p.steadyHistory.isNullish && (p.steadyHistory.get "mean_stable").isTrue

/-- Regime `rans`, and not a URANS tier that reports the physical regime of a non-shedding wake. -/
def isSteadyRansEvidence (p : PolarEvidencePoint F) : Bool :=
  decide (p.regime = some .rans) && decide (p.fidelity ≠ some "urans_precalc") &&
    decide (p.fidelity ≠ some "urans_full")

/-! ## The RANS hold proof -/

def hasExactKeys (value : JsValue F) (expected : List String) : Bool :=
  value.keys.length == expected.length && expected.all value.hasOwn

def approximatelyEqual (left right : F) : Bool := approximately (lit (1 / 10 ^ 12)) left right

def validRansHoldChannel (value : JsValue F) (absoluteFloor relativeTolerance : F) : Bool :=
  value.isRecord &&
    hasExactKeys value ["mean", "min_value", "max_value", "peak_to_peak", "relative_spread"] &&
    match (value.get "mean").finite?, (value.get "min_value").finite?,
      (value.get "max_value").finite?, (value.get "peak_to_peak").finite?,
      (value.get "relative_spread").finite? with
    | some mean, some minimum, some maximum, some peakToPeak, some relativeSpread =>
      !lt mean minimum && !lt maximum mean && !lt maximum minimum && !lt peakToPeak (lit 0) &&
        !lt relativeSpread (lit 0) &&
        approximatelyEqual peakToPeak (sub maximum minimum) &&
        approximatelyEqual relativeSpread (div peakToPeak (add (abs mean) absoluteFloor)) &&
        le relativeSpread relativeTolerance
    | _, _, _, _, _ => false

def integer? (v : JsValue F) : Option F := v.finite?.filter isInteger

theorem integer?_of_finite {x : F} (hfinite : isFinite x = true) (hinteger : isInteger x = true) :
    integer? (.num x) = some x := by
  rw [integer?, JsValue.finite?, if_pos hfinite, Option.filter_some_pos hinteger]

def validRansHoldWindow (certificate : JsValue F) : Bool :=
  (certificate.get "reducer_version").isStr "rans-hold-v1" && (certificate.get "certified").isTrue &&
    match integer? (certificate.get "sample_count"),
      integer? (certificate.get "required_sample_count"),
      integer? (certificate.get "start_iteration"), integer? (certificate.get "end_iteration"),
      (certificate.get "relative_tolerance").finite?, (certificate.get "absolute_floor").finite? with
    | some sampleCount, some requiredSampleCount, some startIteration, some endIteration,
      some relativeTolerance, some absoluteFloor =>
      eq sampleCount (lit 200) && eq requiredSampleCount (lit 200) && !lt startIteration (lit 0) &&
        !lt endIteration startIteration &&
        eq (add (sub endIteration startIteration) (lit 1)) sampleCount &&
        !le relativeTolerance (lit 0) && !le absoluteFloor (lit 0) &&
        validRansHoldChannel (certificate.get "cl") absoluteFloor relativeTolerance &&
        validRansHoldChannel (certificate.get "cd") absoluteFloor relativeTolerance &&
        validRansHoldChannel (certificate.get "cm") absoluteFloor relativeTolerance
    | _, _, _, _, _, _ => false

def coefficientsMatch (p : PolarEvidencePoint F) (certificate : JsValue F) : Bool :=
  match finiteOf p.cl, finiteOf p.cd, finiteOf p.cm, ((certificate.get "cl").get "mean").finite?,
    ((certificate.get "cd").get "mean").finite?, ((certificate.get "cm").get "mean").finite? with
  | some cl, some cd, some cm, some clMean, some cdMean, some cmMean =>
    approximatelyEqual cl clMean && approximatelyEqual cd cdMean && approximatelyEqual cm cmMean
  | _, _, _, _, _, _ => false

def ransHoldCertificateKeys : List String :=
  ["reducer_version", "sample_count", "required_sample_count", "start_iteration", "end_iteration",
    "relative_tolerance", "absolute_floor", "certified", "cl", "cd", "cm"]

def ransHoldCertificateReasons (p : PolarEvidencePoint F) : List String :=
  if !isSteadyRansEvidence p || p.ransHoldCertificate.isUndefined then []
  else if p.ransHoldCertificate.isNull then ["missing-rans-hold-certificate"]
  else if !p.ransHoldCertificate.isRecord ||
      !hasExactKeys p.ransHoldCertificate ransHoldCertificateKeys ||
      !validRansHoldWindow p.ransHoldCertificate then ["invalid-rans-hold-certificate"]
  else if !coefficientsMatch p p.ransHoldCertificate then ["rans-hold-coefficient-mismatch"]
  else []

/-! ## URANS gates -/

/-- The indices of the cycles are integers, each one more than the one before. -/
def consecutiveIndices : Option F → List (JsValue F) → Bool
  | _, [] => true
  | previous, cycle :: rest =>
    match integer? (cycle.get "index") with
    | none => false
    | some index =>
      previous.all (fun x => eq index (add x (lit 1))) && consecutiveIndices (some index) rest

def selectedCycle (cycle : JsValue F) : Bool := (cycle.get "disposition").isStr "selected"

/-- `startPosition`: where the cycle with the selected start index stands. -/
def startPosition (certificate : JsValue F) (cycles : List (JsValue F)) : Option ℕ :=
  match integer? (certificate.get "selected_cycle_start_index") with
  | none => none
  | some selectedStart =>
    if le (lit 0) selectedStart then
      cycles.findIdx? (fun cycle =>
        match cycle.get "index" with
        | .num index => eq index selectedStart
        | _ => false)
    else none

/-- `suffixIsValid`: exactly the required cycles from the start position on are selected. -/
def suffixIsValid (certificate : JsValue F) (cycles : List (JsValue F)) (required : ℕ) : Bool :=
  (startPosition certificate cycles).any (fun start =>
    (cycles.drop start).all selectedCycle && (cycles.take start).all (fun cycle => !selectedCycle cycle) &&
      consecutiveIndices none cycles && (cycles.filter selectedCycle).length == required)

/-- `issue === "coefficient-samples" || issue === "field-frames"`. -/
def evidenceIssue : CycleIssue → Bool
  | .coefficientSamples => true
  | .fieldFrames => true
  | _ => false

/-- The reasons of a certificate that calls itself certified under the current version. -/
def certifiedCycleReasons (certificate : JsValue F) (required : ℕ) : List String :=
  let cycles := (certificate.get "cycles").elements
  let selected := cycles.filter selectedCycle
  let selectedQualityIssues := selected.flatMap selectedCleanCycleQualityReasons
  pushIf (!(integer? (certificate.get "required_clean_cycles")).any (fun x => eq x (lit required)) ||
      !(integer? (certificate.get "terminal_clean_cycles")).any (fun x => le (lit required) x))
      "insufficient-clean-cycles" ++
    pushIf (decide (selected.length < required) || selectedQualityIssues.any evidenceIssue)
      "insufficient-clean-cycle-evidence" ++
    pushIf (selectedQualityIssues.any (fun issue => !evidenceIssue issue))
      "invalid-clean-cycle-quality" ++
    pushIf (!suffixIsValid certificate cycles required) "invalid-clean-cycle-certificate"

def cleanCycleReasons (certificate : JsValue F) (required : ℕ) : List String :=
  if certificate.isUndefined then []
  else if certificate.isNull then ["missing-clean-cycle-certificate"]
  else
    let current := (certificate.get "reducer_version").isStr "clean-cycle-v3"
    let certified := (certificate.get "certified").isTrue
    pushIf (!current) "invalid-clean-cycle-certificate" ++
      pushIf (!certified) "uncertified-urans-cycles" ++
      (if certified && current then certifiedCycleReasons certificate required else [])

def frameTrackReasons (p : PolarEvidencePoint F) : List String :=
  if p.frameTrack.isNullish then []
  else
    pushIf (!(p.frameTrack.get "stationary").isTrue) "non-stationary" ++
      pushIf (!(p.frameTrack.get "periods_retained").finiteAnd (fun periods =>
          le (lit (frameTrackMinPeriodsFor p.fidelity)) (add periods (lit (1 / 10 ^ 9)))))
        "insufficient-periods"

/-- The gates of regime `urans`. -/
def uransReasons (p : PolarEvidencePoint F) : List String :=
  let archiveBacked := hasCertifiedSelectedArchiveInterpretation p
  let hasNoShedding := !p.noSheddingCertificate.isNullish
  let noSheddingOk := hasNoShedding && (parseNoSheddingCertificate p.noSheddingCertificate).isOk
  let certifiedNoShedding := decide (p.unsteady = some false) && noSheddingOk
  let hasAperiodic := !p.aperiodicMeanCertificate.isNullish
  let aperiodicOk := hasAperiodic && (parseAperiodicMeanCertificate p.aperiodicMeanCertificate).isOk
  let aperiodicCoefficientsMatch := aperiodicOk && coefficientsMatch p p.aperiodicMeanCertificate
  let precalc := decide (p.fidelity = some "urans_precalc")
  let certifiedAperiodic :=
    decide (p.unsteady = some true) && precalc && aperiodicOk && aperiodicCoefficientsMatch
  let periodic := !archiveBacked && !certifiedNoShedding && !certifiedAperiodic
  let selectedSteadyEquivalent :=
    archiveBacked && (p.selectedArchiveInterpretation.get "regime").isStr "steady_equivalent"
  pushIf (hasNoShedding && (!noSheddingOk || decide (p.unsteady ≠ some false)))
      "invalid-no-shedding-certificate" ++
    pushIf (hasAperiodic && (!aperiodicOk || decide (p.unsteady ≠ some true) || !precalc))
      "invalid-aperiodic-mean-certificate" ++
    pushIf (aperiodicOk && !aperiodicCoefficientsMatch) "aperiodic-mean-coefficient-mismatch" ++
    pushIf (periodic && hasIncompleteUransIntegrationWarning p.qualityWarnings)
      "incomplete-urans-integration" ++
    pushIf (periodic && !p.hasForceHistory) "missing-force-history" ++
    pushIf (certifiedAperiodic && !p.hasForceHistory) "missing-force-history" ++
    pushIf (!p.hasVideo && !selectedSteadyEquivalent && !certifiedNoShedding) "missing-urans-video" ++
    (if periodic then frameTrackReasons p else []) ++
    (if periodic then
      cleanCycleReasons p.uransCycleCertificate (frameTrackMinPeriodsFor p.fidelity) else [])

/-! ## The gate -/

def nonPhysicalCoefficientLimit : ℚ := 5

def pointReasons (p : PolarEvidencePoint F) : List String :=
  let archiveBacked := hasCertifiedSelectedArchiveInterpretation p
  let oscillatingSteady := isOscillatingSteadyStable p
  pushIf (decide (p.sourceGeometryCompatible = some false)) "unverified-source-geometry" ++
    pushIf (decide (p.status ≠ "done") || decide (p.source ≠ "solved")) "not-solved" ++
    pushIf ((finiteOf p.cl).isNone || (finiteOf p.cd).isNone || (finiteOf p.cm).isNone)
      "missing-coefficients" ++
    pushIf ((finiteOf p.cd).any (fun cd => le cd (lit 0))) "non-positive-drag" ++
    pushIf ((finiteOf p.cl).any (fun cl => lt (lit nonPhysicalCoefficientLimit) (Binary64.abs cl)) ||
        (finiteOf p.cm).any (fun cm => lt (lit nonPhysicalCoefficientLimit) (Binary64.abs cm)))
      "non-physical-coefficients" ++
    pushIf (p.error.any (fun error => !error.isEmpty)) "solver-error" ++
    pushIf (decide (p.failureDisposition = some .materialDomain)) "material-domain" ++
    pushIf (!p.converged && !oscillatingSteady && !archiveBacked) "not-converged" ++
    pushIf (p.stalled && p.unsteady != some true && !oscillatingSteady) "solver-stalled"

def baseRejectionReasons (p : PolarEvidencePoint F) : List String :=
  pointReasons p ++ ransHoldCertificateReasons p ++
    (if p.regime = some .urans then uransReasons p else [])

def ransHoldReasonTexts : List String :=
  ["missing-rans-hold-certificate", "invalid-rans-hold-certificate", "rans-hold-coefficient-mismatch"]

theorem ransHoldCertificateReasons_mem (p : PolarEvidencePoint F) {r : String}
    (h : r ∈ ransHoldCertificateReasons p) : r ∈ ransHoldReasonTexts := by
  unfold ransHoldCertificateReasons at h
  unfold ransHoldReasonTexts
  split at h
  · simp at h
  · split at h
    · simp_all
    · split at h
      · simp_all
      · split at h
        · simp_all
        · simp at h

theorem ransHoldCertificateReasons_steady (p : PolarEvidencePoint F)
    (h : ransHoldCertificateReasons p ≠ []) : isSteadyRansEvidence p = true := by
  by_contra hsteady
  apply h
  simp only [Bool.not_eq_true] at hsteady
  simp [ransHoldCertificateReasons, hsteady]

theorem pointReasons_not_hold (p : PolarEvidencePoint F) {r : String} (h : r ∈ pointReasons p) :
    r ∉ ransHoldReasonTexts := by
  simp only [pointReasons, List.mem_append, mem_pushIf] at h
  rcases h with (((((((⟨-, rfl⟩ | ⟨-, rfl⟩) | ⟨-, rfl⟩) | ⟨-, rfl⟩) | ⟨-, rfl⟩) | ⟨-, rfl⟩) |
    ⟨-, rfl⟩) | ⟨-, rfl⟩) | ⟨-, rfl⟩
  all_goals decide

theorem frameTrackReasons_not_hold (p : PolarEvidencePoint F) {r : String}
    (h : r ∈ frameTrackReasons p) : r ∉ ransHoldReasonTexts := by
  unfold frameTrackReasons at h
  split at h
  · simp at h
  · simp only [List.mem_append, mem_pushIf] at h
    rcases h with ⟨-, rfl⟩ | ⟨-, rfl⟩
    all_goals decide

theorem certifiedCycleReasons_not_hold (certificate : JsValue F) (required : ℕ) {r : String}
    (h : r ∈ certifiedCycleReasons certificate required) : r ∉ ransHoldReasonTexts := by
  simp only [certifiedCycleReasons, List.mem_append, mem_pushIf] at h
  rcases h with ((⟨-, rfl⟩ | ⟨-, rfl⟩) | ⟨-, rfl⟩) | ⟨-, rfl⟩
  all_goals decide

theorem cleanCycleReasons_not_hold (certificate : JsValue F) (required : ℕ) {r : String}
    (h : r ∈ cleanCycleReasons certificate required) : r ∉ ransHoldReasonTexts := by
  unfold cleanCycleReasons at h
  split at h
  · simp at h
  · split at h
    · rw [List.mem_singleton] at h
      subst h
      decide
    · simp only [List.mem_append, mem_pushIf] at h
      rcases h with (⟨-, rfl⟩ | ⟨-, rfl⟩) | h
      · decide
      · decide
      · split at h
        · exact certifiedCycleReasons_not_hold certificate required h
        · simp at h

theorem uransReasons_not_hold (p : PolarEvidencePoint F) {r : String} (h : r ∈ uransReasons p) :
    r ∉ ransHoldReasonTexts := by
  simp only [uransReasons, List.mem_append, mem_pushIf] at h
  rcases h with (((((((⟨-, rfl⟩ | ⟨-, rfl⟩) | ⟨-, rfl⟩) | ⟨-, rfl⟩) | ⟨-, rfl⟩) | ⟨-, rfl⟩) |
    ⟨-, rfl⟩) | h) | h
  all_goals try decide
  · split at h
    · exact frameTrackReasons_not_hold p h
    · simp at h
  · split at h
    · exact cleanCycleReasons_not_hold _ _ h
    · simp at h

theorem baseRejectionReasons_all_hold (p : PolarEvidencePoint F) :
    (∀ r ∈ baseRejectionReasons p, r ∈ ransHoldReasonTexts) ↔
      baseRejectionReasons p = ransHoldCertificateReasons p := by
  constructor
  · intro h
    unfold baseRejectionReasons at h ⊢
    have hpoint : pointReasons p = [] := by
      rw [List.eq_nil_iff_forall_not_mem]
      intro r hr
      exact pointReasons_not_hold p hr (h r (by simp [hr]))
    have hurans : (if p.regime = some .urans then uransReasons p else []) = [] := by
      rw [List.eq_nil_iff_forall_not_mem]
      intro r hr
      have hhold := h r (List.mem_append_right _ hr)
      split at hr
      · exact uransReasons_not_hold p hr hhold
      · simp at hr
    rw [hpoint, hurans, List.nil_append, List.append_nil]
  · intro h r hr
    rw [h] at hr
    exact ransHoldCertificateReasons_mem p hr

end XFoilFoam.Polar
