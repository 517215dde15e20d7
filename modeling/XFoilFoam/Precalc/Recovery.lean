import XFoilFoam.Precalc.Rows

/-! Policy on stored evidence: `planPrecalcRecovery` and `precalcRecoveryOutcome` of `precalc-recovery-policy.ts`, the
measured progress of a continuation, and the readers of a job's payload in `precalc-obligations.ts`. -/
namespace XFoilFoam.Precalc
open Polar (FailureDisposition uransBudgetStopMarker uransContinuationRequiredMarker)
open Binary64 (lit isFinite isInteger)
set_option autoImplicit false

/-! ## Text -/

/-- `toLowerCase`, as far as a search for ASCII text can see: besides the ASCII capitals only the Kelvin sign and the
dotted capital I have an ASCII letter in their lower case. -/
def lowerCase (text : String) : String :=
  String.ofList (text.toList.flatMap fun c =>
    if c.toNat = 0x212a then ['k'] else if c.toNat = 0x130 then ['i', Char.ofNat 0x307] else [asciiLower c])

def isDeterministicMeshBlockerError (error : Option String) : Bool :=
  let normalized := lowerCase (error.getD "")
  includes normalized "mesh degenerate at this fidelity tier" && includes normalized "max non-orthogonality"

def hasPrecalcContinuationWarning (warnings : Option (List String)) : Bool :=
  (warnings.getD []).any fun warning =>
    includes warning uransBudgetStopMarker || includes warning uransContinuationRequiredMarker

/-! ## Recovery plans -/

section Plan
variable {F : Type} [Binary64 F]

/-- `PrecalcRecoveryPolicyInput`; a job without evidence that was cancelled has `none` as its status. -/
structure PolicyInput (F : Type) where
  status : Option ResultStatus
  failureDisposition : Option Disposition
  classificationReasons : List String
  qualityWarnings : List String
  error : Option String
  hasRestartableEvidence : Bool
  forceSampleCount : Option F
  fieldFrameCount : Option F
  statisticalMeanScore : Option F
  numericalNoiseScore : Option F
  observationProgress : Option F
  continuationProgressed : Option Bool

/-- `PrecalcFailureType`. -/
inductive FailureType where
  | infrastructureInterruption
  | deterministicSetupFailure
  | missingDerivedMedia
  | incompleteObservation
  | stationaryAperiodicCandidate
  | numericalInstability
  | nonpublishableEvidence
  deriving DecidableEq

/-- `PrecalcRecoveryPlan`. -/
structure RecoveryPlan (F : Type) where
  failureType : FailureType
  action : RecoveryAction
  consumesSolverAttempt : Bool
  evidenceCompleteness : F
  statisticalMeanScore : F
  numericalNoiseScore : F
  reason : String

def clamp01 (value : Option F) : F :=
  match value with
  | some x => if isFinite x then Binary64.max (lit 0) (Binary64.min (lit 1) x) else lit 0
  | none => lit 0

def normalizedCount (value : Option F) (required : ℚ) : F :=
  match value with
  | some x =>
    if isFinite x && Binary64.le (lit 0) x then clamp01 (some (Binary64.div x (lit required))) else lit 0
  | none => lit 0

def normalizedText (input : PolicyInput F) : String :=
  lowerCase (" ".intercalate (input.classificationReasons ++ input.qualityWarnings ++ [input.error.getD ""]))

def onlyMissingVideo (reasons : List String) : Bool :=
  reasons.contains "missing-urans-video" &&
    reasons.all fun reason => reason == "missing-urans-video" || reason == "not-converged"

def numericalMarkers : List String :=
  ["non-physical", "diverg", "high-frequency", "impulse", "amplitude-growth", "amplitude growing", "shape-error",
    "phase-shift", "period-instability", "period unstable", "mean-trend", "monotonic"]

def inferredNumericalNoise (text : String) : F :=
  clamp01 (some (numericalMarkers.foldl
    (fun score marker => Binary64.add score (lit (if includes text marker then 1 / 4 else 0))) (lit 0)))

def infrastructureText (text : String) : Bool :=
  includes text "infrastructure" || includes text "lost engine job" || includes text "worker restart"

def incompleteReasons : List String :=
  ["incomplete-urans-integration", "insufficient-periods", "insufficient-clean-cycle-evidence"]

def incompleteTexts : List String :=
  ["insufficient-observation-horizon", "insufficient-source-samples", "insufficient-field-frames",
    "missing-periodicity-assessment", "insufficient-periodicity-cycles",
    "period acquisition exhausted the physical slow-shedding horizon", "source-cadence-gap", "budget-stop",
    "continuation-required", lowerCase uransBudgetStopMarker, lowerCase uransContinuationRequiredMarker]

def incompleteObservation (reasons : List String) (text : String) : Bool :=
  (reasons.any fun reason => incompleteReasons.contains reason) || incompleteTexts.any fun part => includes text part

def planPrecalcRecovery (input : PolicyInput F) : RecoveryPlan F :=
  let text := normalizedText input
  let measured := Binary64.min (normalizedCount input.forceSampleCount 400)
    (normalizedCount input.fieldFrameCount 40)
  let completeness := Binary64.max measured (clamp01 input.observationProgress)
  let statistical := clamp01 input.statisticalMeanScore
  let noise := Binary64.max (clamp01 input.numericalNoiseScore) (inferredNumericalNoise text)
  let plan := fun failureType action consumes reason =>
    (⟨failureType, action, consumes, completeness, statistical, noise, reason⟩ : RecoveryPlan F)
  if input.failureDisposition = some (.typed .materialDomain) then
    plan .deterministicSetupFailure .recoverDeterministicSetup false
      "material coverage or numerical behavior must be corrected before another solve"
  else if input.failureDisposition = some (.typed .infrastructure) || input.status.isNone ||
      infrastructureText text then
    plan .infrastructureInterruption .retryInfrastructure false "execution ended before usable physical evidence"
  else if input.failureDisposition = some (.typed .deterministicMesh) || includes text "deterministic-mesh" then
    plan .deterministicSetupFailure .recoverDeterministicSetup false
      "deterministic setup or mesh recovery is required before CFD"
  else if onlyMissingVideo input.classificationReasons then
    plan .missingDerivedMedia .repairMedia false "coefficients are usable but required stored media is missing"
  else if Binary64.lt (lit 0) statistical then
    plan .stationaryAperiodicCandidate .rerunStatisticalMeanContract true
      "retrospective evidence supports the separate aperiodic statistical-mean contract"
  else if input.hasRestartableEvidence && incompleteObservation input.classificationReasons text &&
      input.continuationProgressed != some false then
    plan .incompleteObservation .continueExactCase false
      "the exact saved trajectory still has measurable recovery progress"
  else if Binary64.lt (lit 0) noise || input.failureDisposition = some (.typed .hardSolver) ||
      input.status = some .failed then
    plan .numericalInstability .rerunConservativeNumerics true
      "the next physical attempt must change numerical execution"
  else
    plan .nonpublishableEvidence .rerunFresh true
      "the stored attempt is nonpublishable and has no safe continuation"

end Plan

/-! ## Progress of a continuation -/

section Progress
variable {F : Type} [Binary64 F]

/-- `PrecalcContinuationProgress`. -/
structure ContinuationProgress (F : Type) where
  periodsRetained : Option F
  simulatedTimeS : Option F
  periodS : Option F
  driftFrac : Option F
  stationary : Option Bool
  terminalCleanCycles : Option F
  requiredCleanCycles : Option F
  cleanCycleCount : Option F

def finiteMetric (value : JsValue F) : Option F := value.finite?.filter fun x => Binary64.le (lit 0) x

def positiveMetric (value : JsValue F) : Option F := (finiteMetric value).filter fun x => Binary64.lt (lit 0) x

/-- `JsValue.get` sees through a record only, so that an absent one reads as absent fields. -/
def precalcContinuationProgressFromEvidence (payload : JsValue F) : ContinuationProgress F :=
  let frameTrack := payload.get "frame_track"
  let forceHistory := payload.get "force_history"
  let certificate := payload.get "urans_cycle_certificate"
  let terminal := (finiteMetric (certificate.get "terminal_clean_cycles")).filter isInteger
  let required := (positiveMetric (certificate.get "required_clean_cycles")).filter isInteger
  let cycles := certificate.get "cycles"
  { periodsRetained := (finiteMetric (frameTrack.get "periods_retained")).or
      (finiteMetric (forceHistory.get "retained_cycles"))
    simulatedTimeS := (finiteMetric ((frameTrack.get "window").get "t_end")).or
      (finiteMetric (forceHistory.get "window_end"))
    periodS := (positiveMetric (frameTrack.get "period_s")).or (positiveMetric (forceHistory.get "period_s"))
    driftFrac := finiteMetric (frameTrack.get "drift_frac")
    stationary := match frameTrack.get "stationary" with
      | .bool b => some b
      | _ => none
    terminalCleanCycles := terminal
    requiredCleanCycles := required
    cleanCycleCount :=
      if cycles.isArray && terminal.isSome && required.isSome then
        some (lit (cycles.elements.countP fun cycle =>
          (cycle.get "reasons").isArray && (cycle.get "reasons").elements.isEmpty))
      else none }

/-- `x != null && p(x)`. -/
def presentAnd (x : Option F) (p : F → Bool) : Bool := x.any p

/-- `Math.abs(current - previous) / Math.max(current, previous) <= 0.05` on two present periods. -/
def periodCompatible (current previous : Option F) : Bool :=
  match current, previous with
  | some c, some p =>
    Binary64.le (Binary64.div (Binary64.abs (Binary64.sub c p)) (Binary64.max c p)) (lit (5 / 100))
  | _, _ => false

def qualityImproved (previous current : ContinuationProgress F) : Bool :=
  (presentAnd current.terminalCleanCycles fun c =>
      Binary64.lt (previous.terminalCleanCycles.getD (lit 0)) c) ||
    (presentAnd current.cleanCycleCount fun c => Binary64.lt (previous.cleanCycleCount.getD (lit 0)) c) ||
    (current.stationary == some true && previous.stationary != some true) ||
    presentAnd current.driftFrac fun c => presentAnd previous.driftFrac fun p =>
      Binary64.lt (lit 0) p && Binary64.le c (Binary64.mul p (lit (9 / 10)))

def frameTrackMinPeriodsPrecalc : ℚ := 3

def measuredPeriod (current previous : Option F) : Option F :=
  match current, previous with
  | some c, some p => some (Binary64.max c p)
  | some c, none => some c
  | none, p => p

/-- `precalcContinuationMadeProgress` with a previous measurement. -/
def advanced (previous current : ContinuationProgress F) : Bool :=
  match previous.simulatedTimeS, current.simulatedTimeS with
  | some before, some now =>
    let delta := Binary64.sub now before
    let compatible := periodCompatible current.periodS previous.periodS
    if Binary64.le delta
        (Binary64.max (lit (1 / 10 ^ 9)) (Binary64.mul (Binary64.abs before) (lit (1 / 10 ^ 9)))) then false
    else if presentAnd current.periodsRetained fun x => Binary64.le (lit frameTrackMinPeriodsPrecalc) x then
      compatible && qualityImproved previous current
    else if compatible then true
    else
      let required := match measuredPeriod current.periodS previous.periodS with
        | some period => Binary64.max (lit (1 / 10 ^ 6)) (Binary64.mul period (lit (1 / 4)))
        | none => Binary64.max (lit (1 / 10 ^ 4)) (Binary64.mul (Binary64.abs before) (lit (1 / 100)))
      Binary64.le required delta || qualityImproved previous current
  | none, none =>
    match current.periodsRetained, previous.periodsRetained with
    | some now, some before =>
      if !periodCompatible current.periodS previous.periodS ||
          !Binary64.le (lit (1 / 4)) (Binary64.sub now before) then false
      else if Binary64.lt now (lit frameTrackMinPeriodsPrecalc) then true
      else qualityImproved previous current
    | _, _ => false
  | _, _ => false

def precalcContinuationMadeProgress (previous : Option (ContinuationProgress F))
    (current : ContinuationProgress F) : Bool :=
  previous.any fun p => advanced p current

end Progress

/-! ## Payloads -/

section Payload
variable {F : Type}

def nonemptyText (value : JsValue F) : Option String :=
  match value with
  | .str s => if s = "" then none else some s
  | _ => none

def precalcObligationIds (payload : JsValue F) : List String :=
  (payload.get "precalcObligationIds").elements.filterMap fun v =>
    match v with
    | .str s => some s
    | _ => none

/-- The exact pair of `precalcContinuationPayload`. -/
def continuationPair (payload : JsValue F) (obligationCount : ℕ) : Option (String × String) :=
  match nonemptyText (payload.get "continueFromResultId"),
      nonemptyText (payload.get "continueFromResultAttemptId") with
  | some resultId, some attemptId => if obligationCount = 1 then some (resultId, attemptId) else none
  | _, _ => none

theorem nonemptyText_ne {value : JsValue F} {text : String} (h : nonemptyText value = some text) : text ≠ "" := by
  unfold nonemptyText at h
  split at h
  · split at h
    · cases h
    · cases h
      assumption
  · cases h

theorem continuationPair_ne {payload : JsValue F} {count : ℕ} {resultId attemptId : String}
    (h : continuationPair payload count = some (resultId, attemptId)) : resultId ≠ "" ∧ attemptId ≠ "" := by
  unfold continuationPair at h
  split at h
  · rename_i hresult hattempt
    split at h
    · cases h
      exact ⟨nonemptyText_ne hresult, nonemptyText_ne hattempt⟩
    · cases h
  · cases h

/-- `mentioned` of `precalcContinuationPayload`. -/
def mentionsContinuation (payload : JsValue F) : Bool :=
  payload.hasOwn "continueFromResultAttemptId" || payload.hasOwn "continueFromResultId"

/-- `executedMeshRecoveryVersion` when it is an integer from 0 to 2147483647, else 0. -/
def acknowledgedMeshRecoveryVersion [Binary64 F] (payload : JsValue F) : ℕ :=
  match payload.get "executedMeshRecoveryVersion" with
  | .num x =>
    match Binary64.safeInteger x with
    | some n => if 0 ≤ n ∧ n ≤ 2147483647 then n.toNat else 0
    | none => 0
  | _ => 0

/-- `jsonb ->> 'failure_disposition'`. -/
def failureDispositionOf (payload : JsValue F) : Option Disposition :=
  match payload.get "failure_disposition" with
  | .undefined => none
  | .null => none
  | .str s =>
    if s = "none" then some (.typed .none)
    else if s = "hard_solver" then some (.typed .hardSolver)
    else if s = "deterministic_mesh" then some (.typed .deterministicMesh)
    else if s = "material_domain" then some (.typed .materialDomain)
    else if s = "infrastructure" then some (.typed .infrastructure)
    else some .other
  | _ => some .other

end Payload

end XFoilFoam.Precalc
