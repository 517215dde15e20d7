import XFoilFoam.Polar.Evidence
import XFoilFoam.Foundations.Double

/-! The frame track of a shedding point: the strict contract parser of `frame-track.ts`, the row that
`point-evidence.ts` and `incomingPointEvidence` of `ingest.ts` persist for an engine point, and what the gate of
`baseRejectionReasons` still sees of a track that the parser refuses.  The parser's verdict is only logged there:
the raw value goes into the row. -/
namespace XFoilFoam.Polar
open Binary64
set_option autoImplicit false

variable {F : Type} [Binary64 F]

/-! ## The contract parser -/

def frameTrackMaxFrames : ℕ := 120

def frameTrackKeys : List String :=
  ["period_s", "periods_retained", "stationary", "drift_frac", "window", "stats", "fields", "frames",
    "image_pattern"]

def frameTrackWindowKeys : List String := ["t_start", "t_end"]
def frameTrackStatsKeys : List String := ["cl", "cd", "cm"]
def frameTrackStatKeys : List String := ["mean", "std", "min", "max"]
def frameTrackFrameKeys : List String := ["i", "t", "cl", "cd", "cm"]

def checkExactKeys (obj : JsValue F) (allowed : List String) (path : String) : List String :=
  exactKeys obj allowed path " (contract drift)"

def presentFinite (obj : JsValue F) (keys : List String) (path : String) : List String :=
  keys.flatMap fun key =>
    pushIf (obj.hasOwn key && !(obj.get key).finite) (path ++ "." ++ key ++ ": expected finite number")

def frameTrackWindowErrors (window : JsValue F) : List String :=
  if !window.isRecord then ["frame_track.window: expected object"]
  else
    checkExactKeys window frameTrackWindowKeys "frame_track.window" ++
      presentFinite window frameTrackWindowKeys "frame_track.window"

def frameTrackStatErrors (stat : JsValue F) (path : String) : List String :=
  if !stat.isRecord then [path ++ ": expected object"]
  else checkExactKeys stat frameTrackStatKeys path ++ presentFinite stat frameTrackStatKeys path

def frameTrackStatsErrors (stats : JsValue F) : List String :=
  if !stats.isRecord then ["frame_track.stats: expected object"]
  else
    checkExactKeys stats frameTrackStatsKeys "frame_track.stats" ++
      frameTrackStatsKeys.flatMap fun coeff =>
        if stats.hasOwn coeff then
          frameTrackStatErrors (stats.get coeff) ("frame_track.stats." ++ coeff)
        else []

def frameTrackFrameErrors (frame : JsValue F) (path : String) : List String :=
  if !frame.isRecord then [path ++ ": expected object"]
  else
    checkExactKeys frame frameTrackFrameKeys path ++ presentFinite frame frameTrackFrameKeys path ++
      pushIf ((frame.get "i").finiteAnd fun i => !isInteger i) (path ++ ".i: expected integer")

def frameTrackFramesErrors (frames : JsValue F) : List String :=
  if !frames.isArray then ["frame_track.frames: expected array"]
  else
    pushIf (decide (frameTrackMaxFrames < frames.elements.length))
        ("frame_track.frames: " ++ toString frames.elements.length ++
          " frames exceeds contract cap of 120") ++
      frames.elements.zipIdx.flatMap fun frame =>
        frameTrackFrameErrors frame.1 ("frame_track.frames[" ++ toString frame.2 ++ "]")

def frameTrackErrors (value : JsValue F) : List String :=
  checkExactKeys value frameTrackKeys "frame_track" ++
    pushIf (value.hasOwn "period_s" && !(value.get "period_s").isNull && !(value.get "period_s").finite)
      "frame_track.period_s: expected finite number or null" ++
    presentFinite value ["periods_retained"] "frame_track" ++
    pushIf (value.hasOwn "stationary" && (value.get "stationary").typeOf != "boolean")
      "frame_track.stationary: expected boolean" ++
    presentFinite value ["drift_frac"] "frame_track" ++
    (if value.hasOwn "window" then frameTrackWindowErrors (value.get "window") else []) ++
    (if value.hasOwn "stats" then frameTrackStatsErrors (value.get "stats") else []) ++
    pushIf (value.hasOwn "fields" && (!(value.get "fields").isArray ||
        (value.get "fields").elements.any fun f => !f.isStrAnd fun s => !s.isEmpty))
      "frame_track.fields: expected array of non-empty strings" ++
    (if value.hasOwn "frames" then frameTrackFramesErrors (value.get "frames") else []) ++
    pushIf (value.hasOwn "image_pattern" && !(value.get "image_pattern").isStrAnd fun s => !s.isEmpty)
      "frame_track.image_pattern: expected non-empty string"

/-- `parseFrameTrack`: the track itself, or the texts of its errors. -/
def parseFrameTrack (value : JsValue F) : Except (List String) (JsValue F) :=
  if !value.isRecord then
    .error ["frame_track: expected object, got " ++ (if value.isNull then "null" else value.typeOf)]
  else
    match frameTrackErrors value with
    | [] => .ok value
    | errors => .error errors

/-! ## The row of an engine point -/

/-- `UransFidelity`: what the job requested. -/
inductive UransFidelity where
  | precalc
  | full
  deriving DecidableEq

inductive PointFidelity where
  | rans
  | uransPrecalc
  | uransFull
  deriving DecidableEq

namespace PointFidelity

def text : PointFidelity → String
  | rans => "rans"
  | uransPrecalc => "urans_precalc"
  | uransFull => "urans_full"

end PointFidelity

/-- The fields of an engine `PolarPoint` that the evidence row reads. -/
structure PolarPoint (F : Type) where
  aoaDeg : F
  cl : Option F
  cd : Option F
  cm : Option F
  clCd : Option F
  unsteady : Bool
  converged : Bool
  finalResidual : Option F
  iterations : Option F
  video : List (String × String)
  forceHistory : Option (JsValue F)
  frameTrack : JsValue F
  uransCycleCertificate : JsValue F
  aperiodicMeanCertificate : JsValue F
  noSheddingCertificate : JsValue F
  fidelity : JsValue F
  steadyHistory : JsValue F
  qualityWarnings : Option (List String)
  failureDisposition : Option FailureDisposition
  error : Option String

def stalledForPoint (point : PolarPoint F) : Bool := point.unsteady || !point.converged

def failedForPoint (point : PolarPoint F) : Bool :=
  (point.error.any fun error => !error.isEmpty) || (finiteOf point.cl).isNone || (finiteOf point.cd).isNone

def missingTrack : JsValue F :=
  .obj [("missing", .bool true), ("stationary", .bool false), ("periods_retained", .null),
    ("reason", .str "engine shipped no frame_track for a shedding URANS point")]

def frameTrackForPoint (point : PolarPoint F) : JsValue F :=
  if point.frameTrack.isNullish then (if point.unsteady then missingTrack else .null) else point.frameTrack

def parsePointFidelity (value : JsValue F) : Option PointFidelity :=
  [PointFidelity.rans, .uransPrecalc, .uransFull].find? fun tier => value.isStr tier.text

/-- `fidelityForPoint`: the engine's echo, else the requested tier, else the one of the wake. -/
def fidelityForPoint (point : PolarPoint F) (requested : Option UransFidelity) : PointFidelity :=
  match parsePointFidelity point.fidelity, requested with
  | some echoed, _ => echoed
  | none, some .precalc => .uransPrecalc
  | none, some .full => .uransFull
  | none, none => if point.unsteady then .uransFull else .rans

def solverRegimeForPoint (point : PolarPoint F) (fidelity : PointFidelity) (context : String) :
    Except String ResultRegime :=
  let urans := decide (fidelity = .uransPrecalc) || decide (fidelity = .uransFull)
  if point.unsteady && !urans then
    .error ("solver regime contract drift (" ++ context ++ "): shedding point carries non-URANS fidelity '" ++
      fidelity.text ++ "'")
  else .ok (if urans then .urans else .rans)

def hasStableSteadyMean (point : PolarPoint F) : Bool :=
  !point.unsteady && (point.steadyHistory.get "mean_stable").isTrue

def steadyNote (history : JsValue F) : String :=
  match history.get "note" with
  | .str note =>
    if note.toList.all jsWhitespace then
      "steady solve settled into a bounded oscillation; coefficients are stable window means"
    else note
  | _ => "steady solve settled into a bounded oscillation; coefficients are stable window means"

def qualityWarningsForPoint (point : PolarPoint F) : Option (List String) :=
  let warnings := point.qualityWarnings.getD []
  let marker := "steady-oscillating-mean: " ++ steadyNote point.steadyHistory
  let all := if hasStableSteadyMean point && !warnings.contains marker then warnings ++ [marker] else warnings
  if all.isEmpty then none else some all

/-- The values that `stagePoint` derives before it builds the row. -/
structure DerivedPoint (F : Type) where
  fidelity : PointFidelity
  frameTrack : JsValue F
  steadyHistory : JsValue F
  error : Option String

def incomingPointEvidence (p : PolarPoint F) (derived : DerivedPoint F) (context : String) :
    Except String (PolarEvidencePoint F) :=
  (solverRegimeForPoint p derived.fidelity context).map fun regime =>
    { a := p.aoaDeg
      cl := p.cl
      cd := p.cd
      cm := p.cm
      ld := p.clCd
      status := if failedForPoint p then "failed" else "done"
      source := if failedForPoint p then "queued" else "solved"
      regime := some regime
      converged := p.converged
      stalled := stalledForPoint p
      unsteady := some p.unsteady
      error := derived.error
      failureDisposition := p.failureDisposition
      finalResidual := p.finalResidual
      iterations := p.iterations
      sourceGeometryCompatible := none
      hasForceHistory := p.forceHistory.isSome
      hasVideo := p.video.any fun entry => !entry.2.isEmpty
      frameTrack := if derived.frameTrack.isNullish then .null else derived.frameTrack
      uransCycleCertificate := p.uransCycleCertificate
      noSheddingCertificate := p.noSheddingCertificate
      aperiodicMeanCertificate := p.aperiodicMeanCertificate
      ransHoldCertificate := .undefined
      fidelity := some derived.fidelity.text
      steadyHistory := if derived.steadyHistory.isNullish then .null else derived.steadyHistory
      qualityWarnings := qualityWarningsForPoint p
      selectedArchiveInterpretation := .undefined }

/-! ## What the gate sees of a refused track -/

/-- The row carries what `frameTrackForPoint`, `fidelityForPoint` and `solverRegimeForPoint` give for the point. -/
structure BuiltFrom (point : PolarPoint F) (requested : Option UransFidelity) (row : PolarEvidencePoint F) :
    Prop where
  unsteady : row.unsteady = some point.unsteady
  fidelity : row.fidelity = some (fidelityForPoint point requested).text
  frameTrack : row.frameTrack = frameTrackForPoint point
  regime : ∃ context regime,
    solverRegimeForPoint point (fidelityForPoint point requested) context = .ok regime ∧ row.regime = some regime

/-- The row has a valid aperiodic-mean certificate whose means are the row's coefficients. -/
def certifiedAperiodicMean (p : PolarEvidencePoint F) : Bool :=
  let aperiodicOk := !p.aperiodicMeanCertificate.isNullish &&
    (parseAperiodicMeanCertificate p.aperiodicMeanCertificate).isOk
  decide (p.unsteady = some true) && decide (p.fidelity = some "urans_precalc") && aperiodicOk &&
    (aperiodicOk && coefficientsMatch p p.aperiodicMeanCertificate)

/-- A refused track rejects every row that a shedding point of this tier gets with it. -/
def TrackFailsClosed (track : JsValue F) (tier : PointFidelity) : Prop :=
  (parseFrameTrack track).isOk = false →
    ∀ (point : PolarPoint F) (requested : Option UransFidelity) (row : PolarEvidencePoint F),
      point.unsteady = true → point.frameTrack = track → fidelityForPoint point requested = tier →
      BuiltFrom point requested row → hasCertifiedSelectedArchiveInterpretation row = false →
      certifiedAperiodicMean row = false → baseRejectionReasons row ≠ []

/-- The two fields that the gate reads: a literal `stationary` and enough retained periods. -/
def passesTrackGate (track : JsValue F) (tier : PointFidelity) : Bool :=
  (track.get "stationary").isTrue &&
    (track.get "periods_retained").finiteAnd fun periods =>
      le (lit (frameTrackMinPeriodsFor (some tier.text))) (add periods (lit (1 / 10 ^ 9)))

theorem frameTrackReasons_eq_nil {p : PolarEvidencePoint F} {tier : PointFidelity}
    (hfidelity : p.fidelity = some tier.text) (htrack : p.frameTrack.isNullish = false) :
    frameTrackReasons p = [] ↔ passesTrackGate p.frameTrack tier = true := by
  unfold frameTrackReasons passesTrackGate
  rw [htrack, hfidelity, if_neg Bool.false_ne_true, List.append_eq_nil_iff, pushIf_eq_nil, pushIf_eq_nil,
    Bool.not_eq_false', Bool.not_eq_false', Bool.and_eq_true]

omit [Binary64 F] in
theorem regime_of_unsteady {point : PolarPoint F} {tier : PointFidelity} {context : String}
    {regime : ResultRegime} (hunsteady : point.unsteady = true)
    (h : solverRegimeForPoint point tier context = .ok regime) : regime = .urans ∧ tier ≠ .rans := by
  unfold solverRegimeForPoint at h
  cases tier with
  | rans => simp [hunsteady] at h
  | uransPrecalc =>
    simp only [hunsteady, decide_true, Bool.true_or, Bool.not_true, Bool.and_false, if_true,
      Bool.false_eq_true, if_false, Except.ok.injEq] at h
    exact ⟨h.symm, by decide⟩
  | uransFull =>
    simp only [hunsteady, decide_true, Bool.or_true, Bool.not_true, Bool.and_false, if_true,
      Bool.false_eq_true, if_false, Except.ok.injEq] at h
    exact ⟨h.symm, by decide⟩

theorem frameTrackReasons_of_clean {p : PolarEvidencePoint F} (hregime : p.regime = some .urans)
    (hunsteady : p.unsteady = some true) (harchive : hasCertifiedSelectedArchiveInterpretation p = false)
    (haperiodic : certifiedAperiodicMean p = false) (hclean : baseRejectionReasons p = []) :
    frameTrackReasons p = [] := by
  rw [baseRejectionReasons, if_pos hregime, List.append_eq_nil_iff] at hclean
  have hurans := hclean.2
  rw [uransReasons, List.append_eq_nil_iff, List.append_eq_nil_iff] at hurans
  have hperiodic : (!hasCertifiedSelectedArchiveInterpretation p &&
      !(decide (p.unsteady = some false) && (!p.noSheddingCertificate.isNullish &&
        (parseNoSheddingCertificate p.noSheddingCertificate).isOk)) && !certifiedAperiodicMean p) = true := by
    rw [harchive, haperiodic, hunsteady]
    rfl
  exact (if_pos hperiodic).symm.trans hurans.1.2

theorem passes_of_clean {track : JsValue F} {tier : PointFidelity} {point : PolarPoint F}
    {requested : Option UransFidelity} {row : PolarEvidencePoint F} (hunsteady : point.unsteady = true)
    (htrack : point.frameTrack = track) (htier : fidelityForPoint point requested = tier)
    (hbuilt : BuiltFrom point requested row) (harchive : hasCertifiedSelectedArchiveInterpretation row = false)
    (haperiodic : certifiedAperiodicMean row = false) (hclean : baseRejectionReasons row = []) :
    tier ≠ .rans ∧ passesTrackGate track tier = true := by
  obtain ⟨context, regime, hregime, hrow⟩ := hbuilt.regime
  obtain ⟨rfl, hrans⟩ := regime_of_unsteady hunsteady hregime
  have hreasons : frameTrackReasons row = [] :=
    frameTrackReasons_of_clean hrow (hbuilt.unsteady.trans (by rw [hunsteady])) harchive haperiodic hclean
  have hfidelity : row.fidelity = some tier.text := by rw [hbuilt.fidelity, htier]
  refine ⟨htier ▸ hrans, ?_⟩
  cases hnull : track.isNullish with
  | true =>
    -- The sentinel of a missing track is not stationary.
    have hmissing : row.frameTrack = missingTrack := by
      rw [hbuilt.frameTrack, frameTrackForPoint, htrack, if_pos hnull, if_pos hunsteady]
    have hpass := (frameTrackReasons_eq_nil hfidelity (by rw [hmissing]; rfl)).mp hreasons
    rw [hmissing] at hpass
    exact absurd hpass Bool.false_ne_true
  | false =>
    have hraw : row.frameTrack = track := by
      rw [hbuilt.frameTrack, frameTrackForPoint, htrack, hnull, if_neg Bool.false_ne_true]
    have hpass := (frameTrackReasons_eq_nil hfidelity (by rw [hraw, hnull])).mp hreasons
    rwa [hraw] at hpass

/-- What `stagePoint` derives for a point without an error text. -/
def derivedOf (point : PolarPoint F) (requested : Option UransFidelity) : DerivedPoint F where
  fidelity := fidelityForPoint point requested
  frameTrack := frameTrackForPoint point
  steadyHistory := point.steadyHistory
  error := none

omit [Binary64 F] in
theorem frameTrackForPoint_ne_undefined (point : PolarPoint F) :
    (if (frameTrackForPoint point).isNullish then .null else frameTrackForPoint point) =
      frameTrackForPoint point := by
  unfold frameTrackForPoint
  cases hnull : point.frameTrack.isNullish with
  | true => cases point.unsteady <;> rfl
  | false => simp [hnull]

theorem builtFrom_of_incoming {point : PolarPoint F} {requested : Option UransFidelity} {context : String}
    {row : PolarEvidencePoint F}
    (h : incomingPointEvidence point (derivedOf point requested) context = .ok row) :
    BuiltFrom point requested row := by
  unfold incomingPointEvidence at h
  cases hregime : solverRegimeForPoint point (derivedOf point requested).fidelity context with
  | error text =>
    rw [hregime] at h
    cases h
  | ok regime =>
    rw [hregime] at h
    cases h
    exact ⟨rfl, rfl, frameTrackForPoint_ne_undefined point, context, regime, hregime, rfl⟩

def cleanPoint (track : JsValue Double) (tier : PointFidelity) : PolarPoint Double where
  aoaDeg := lit 12
  cl := some (lit 1)
  cd := some (lit 1)
  cm := some (lit 0)
  clCd := some (lit 1)
  unsteady := true
  converged := true
  finalResidual := none
  iterations := none
  video := [("vorticity", "case/vorticity.mp4")]
  forceHistory := some (.obj [])
  frameTrack := track
  uransCycleCertificate := .undefined
  aperiodicMeanCertificate := .undefined
  noSheddingCertificate := .undefined
  fidelity := .str tier.text
  steadyHistory := .null
  qualityWarnings := none
  failureDisposition := none
  error := none

theorem cleanPoint_fidelity (track : JsValue Double) (tier : PointFidelity) :
    fidelityForPoint (cleanPoint track tier) none = tier := by
  cases tier <;> rfl

def cleanRow (track : JsValue Double) (tier : PointFidelity) : PolarEvidencePoint Double where
  a := lit 12
  cl := some (lit 1)
  cd := some (lit 1)
  cm := some (lit 0)
  ld := some (lit 1)
  status := "done"
  source := "solved"
  regime := some .urans
  converged := true
  stalled := true
  unsteady := some true
  error := none
  failureDisposition := none
  finalResidual := none
  iterations := none
  sourceGeometryCompatible := none
  hasForceHistory := true
  hasVideo := true
  frameTrack := track
  uransCycleCertificate := .undefined
  noSheddingCertificate := .undefined
  aperiodicMeanCertificate := .undefined
  ransHoldCertificate := .undefined
  fidelity := some tier.text
  steadyHistory := .null
  qualityWarnings := none
  selectedArchiveInterpretation := .undefined

theorem incomingPointEvidence_cleanPoint {track : JsValue Double} {tier : PointFidelity}
    (htier : tier ≠ .rans) (hnull : track.isNullish = false) (context : String) :
    incomingPointEvidence (cleanPoint track tier) (derivedOf (cleanPoint track tier) none) context =
      .ok (cleanRow track tier) := by
  have hregime : solverRegimeForPoint (cleanPoint track tier) tier context = .ok .urans := by
    cases tier with
    | rans => exact absurd rfl htier
    | uransPrecalc => rfl
    | uransFull => rfl
  have hfailed : failedForPoint (cleanPoint track tier) = false := by
    have hone : (finiteOf (some (lit 1 : Double))).isNone = false := by decide +kernel
    show ((false || (finiteOf (some (lit 1 : Double))).isNone) ||
      (finiteOf (some (lit 1 : Double))).isNone) = false
    rw [hone]
    rfl
  have hstored : frameTrackForPoint (cleanPoint track tier) = track := by
    rw [frameTrackForPoint]
    exact if_neg (by rw [show (cleanPoint track tier).frameTrack = track from rfl, hnull]; decide)
  unfold incomingPointEvidence derivedOf
  rw [cleanPoint_fidelity, hregime, hstored, hfailed, hnull]
  rfl

theorem cleanRow_not_aperiodic (track : JsValue Double) (tier : PointFidelity) :
    certifiedAperiodicMean (cleanRow track tier) = false := by
  simp [certifiedAperiodicMean, cleanRow, JsValue.isNullish, JsValue.isUndefined]

theorem cleanRow_reasons {track : JsValue Double} {tier : PointFidelity} (hnull : track.isNullish = false)
    (hpass : passesTrackGate track tier = true) : baseRejectionReasons (cleanRow track tier) = [] := by
  have hpoint : pointReasons (cleanRow track tier) = [] := by
    have hone : finiteOf (some (lit 1 : Double)) = some (lit 1) := by decide +kernel
    have hzero : finiteOf (some (lit 0 : Double)) = some (lit 0) := by decide +kernel
    have hdrag : le (lit 1 : Double) (lit 0) = false := by decide +kernel
    have hlift : lt (lit nonPhysicalCoefficientLimit) (Binary64.abs (lit 1 : Double)) = false := by
      decide +kernel
    have hmoment : lt (lit nonPhysicalCoefficientLimit) (Binary64.abs (lit 0 : Double)) = false := by
      decide +kernel
    simp [pointReasons, cleanRow, hone, hzero, hdrag, hlift, hmoment, pushIf]
  have htrack : frameTrackReasons (cleanRow track tier) = [] := (frameTrackReasons_eq_nil rfl hnull).mpr hpass
  have hhold : ransHoldCertificateReasons (cleanRow track tier) = [] := by
    simp [ransHoldCertificateReasons, cleanRow, JsValue.isUndefined]
  have hurans : uransReasons (cleanRow track tier) = [] := by
    unfold uransReasons
    rw [htrack]
    simp [cleanRow, JsValue.isNullish, JsValue.isUndefined, hasIncompleteUransIntegrationWarning,
      cleanCycleReasons, pushIf]
  rw [baseRejectionReasons, hpoint, hhold, hurans, ite_self]
  rfl

/-- Exactly the tracks that the parser refuses and that still carry a literal `stationary` with enough periods get
past the gate. -/
theorem refused_track_rejects_iff (track : JsValue Double) (tier : PointFidelity) :
    TrackFailsClosed track tier ↔
      tier = .rans ∨ (parseFrameTrack track).isOk = true ∨ passesTrackGate track tier = false := by
  constructor
  · intro hclosed
    by_contra hopen
    push Not at hopen
    obtain ⟨htier, hrefused, hpass⟩ := hopen
    rw [ne_eq, Bool.not_eq_true] at hrefused
    rw [ne_eq, Bool.not_eq_false] at hpass
    have hnull : track.isNullish = false := by
      cases track with
      | undefined => exact absurd hpass Bool.false_ne_true
      | null => exact absurd hpass Bool.false_ne_true
      | _ => rfl
    exact hclosed hrefused (cleanPoint track tier) none (cleanRow track tier) rfl rfl
      (cleanPoint_fidelity track tier) (builtFrom_of_incoming (incomingPointEvidence_cleanPoint htier hnull ""))
      rfl (cleanRow_not_aperiodic track tier) (cleanRow_reasons hnull hpass)
  · rintro hcondition hrefused point requested row hunsteady htrack htier hbuilt harchive haperiodic hclean
    obtain ⟨hrans, hpass⟩ := passes_of_clean hunsteady htrack htier hbuilt harchive haperiodic hclean
    obtain rfl | hok | hfail := hcondition
    · exact hrans rfl
    · rw [hok] at hrefused
      cases hrefused
    · rw [hfail] at hpass
      cases hpass

/-- A track of two fields is refused for its seven missing keys, and its row is accepted. -/
theorem two_field_track_accepted :
    let track : JsValue Double := .obj [("stationary", .bool true), ("periods_retained", .num (lit 3))]
    (parseFrameTrack track).isOk = false ∧
      (incomingPointEvidence (cleanPoint track .uransPrecalc) (derivedOf (cleanPoint track .uransPrecalc) none)
        "test").toOption.map baseRejectionReasons = some [] ∧
      ¬TrackFailsClosed track .uransPrecalc := by
  intro track
  have hpass : passesTrackGate track .uransPrecalc = true := by decide +kernel
  have hrefused : (parseFrameTrack track).isOk = false := by decide +kernel
  have hrow := incomingPointEvidence_cleanPoint (show PointFidelity.uransPrecalc ≠ .rans by decide)
    (show track.isNullish = false from rfl) "test"
  refine ⟨hrefused, ?_, fun hclosed => ?_⟩
  · rw [hrow]
    exact congrArg some (cleanRow_reasons rfl hpass)
  · exact hclosed hrefused (cleanPoint track .uransPrecalc) none (cleanRow track .uransPrecalc) rfl rfl
      (cleanPoint_fidelity track .uransPrecalc) (builtFrom_of_incoming hrow) rfl
      (cleanRow_not_aperiodic track .uransPrecalc) (cleanRow_reasons rfl hpass)

end XFoilFoam.Polar
