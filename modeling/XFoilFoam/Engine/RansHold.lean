import XFoilFoam.Polar.HoldCertificate
import XFoilFoam.Foundations.DoubleOrder
import XFoilFoam.Foundations.ExceptLists

/-! The RANS hold reducer of the engine: `_strict_data_rows` and `analyze_rans_hold` of
`postprocess/forces.py`, the validated models `RansHoldChannel` and `RansHoldCertificate` of `models.py`,
and `_rans_hold_certificate_from_raw` of `pipeline.py`. -/
namespace XFoilFoam.Engine
open Binary64
set_option autoImplicit false

/-! ## Text of the coefficient file -/

/-- `str.isspace`. -/
def pySpace (c : Char) : Bool :=
  (decide (0x9 ≤ c.toNat) && decide (c.toNat ≤ 0xd)) || (decide (0x1c ≤ c.toNat) && decide (c.toNat ≤ 0x20)) ||
    [0x85, 0xa0, 0x1680, 0x2028, 0x2029, 0x202f, 0x205f, 0x3000].contains c.toNat ||
    (decide (0x2000 ≤ c.toNat) && decide (c.toNat ≤ 0x200a))

/-- Where `str.splitlines` ends a line. -/
def pyLineBreak (c : Char) : Bool :=
  [0xa, 0xb, 0xc, 0xd, 0x1c, 0x1d, 0x1e, 0x85, 0x2028, 0x2029].contains c.toNat

/-- `str.splitlines`, with the line so far in reverse. -/
def splitLines (line : List Char) : List Char → List (List Char)
  | [] => if line.isEmpty then [] else [line.reverse]
  | '\r' :: '\n' :: rest => line.reverse :: splitLines [] rest
  | c :: rest => if pyLineBreak c then line.reverse :: splitLines [] rest else splitLines (c :: line) rest

/-- `str.split()`, with the word so far in reverse. -/
def splitWords (word : List Char) : List Char → List (List Char)
  | [] => if word.isEmpty then [] else [word.reverse]
  | c :: rest =>
    if pySpace c then (if word.isEmpty then splitWords [] rest else word.reverse :: splitWords [] rest)
    else splitWords (c :: word) rest

/-- `str.strip()`. -/
def strip (line : List Char) : List Char :=
  ((line.dropWhile pySpace).reverse.dropWhile pySpace).reverse

/-- `str.replace("\t", " ").split()`. -/
def tokensOf (line : List Char) : List (List Char) :=
  splitWords [] (line.map (fun c => if c = '\t' then ' ' else c))

/-- The platform: `float` of a text, `None` for a `ValueError`, and the built-in `sum` of floats, whose
rounding depends on the version. -/
structure PyRuntime where
  float : List Char → Option Double
  sum : List Double → Double

/-- The loop of `_strict_data_rows` over the lines. -/
def strictRows (runtime : PyRuntime) (header : List (List Char)) (rows : List (List Double)) :
    List (List Char) → List (List Char) × Option (List (List Double))
  | [] => (header, some rows)
  | raw :: rest =>
    let line := strip raw
    if line.isEmpty then strictRows runtime header rows rest
    else if line.head? = some '#' then
      let tokens := tokensOf (strip (line.dropWhile (fun c => c == '#')))
      if tokens.contains "Cl".toList && tokens.contains "Cd".toList then
        strictRows runtime tokens rows rest
      else strictRows runtime header rows rest
    else
      match (tokensOf line).mapM runtime.float with
      | some row => strictRows runtime header (rows ++ [row]) rest
      | none => (header, none)

inductive PyError where
  | unicodeDecodeError
  | valueError (text : String)
  | validationError (texts : List String)
  deriving DecidableEq

def strictDataRows (runtime : PyRuntime) (file : ByteArray) :
    Except PyError (List (List Char) × Option (List (List Double))) :=
  match file.utf8Decode? with
  | some text => .ok (strictRows runtime [] [] (splitLines [] text.toList))
  | none => .error .unicodeDecodeError

/-! ## The reducer -/

def ransHoldRequiredSamples : ℤ := 200
def ransHoldRelativeTolerance : Double := lit (25 / 10000)
def ransHoldAbsoluteFloor : Double := lit (1 / 1000)

structure RansHoldChannelAnalysis where
  mean : Double
  minValue : Double
  maxValue : Double
  peakToPeak : Double
  relativeSpread : Double

structure RansHoldAnalysis where
  sampleCount : ℤ
  requiredSampleCount : ℤ
  startIteration : ℤ
  endIteration : ℤ
  relativeTolerance : Double
  absoluteFloor : Double
  cl : RansHoldChannelAnalysis
  cd : RansHoldChannelAnalysis
  cm : RansHoldChannelAnalysis
  certified : Bool
  reason : String

def defaultHeader : List (List Char) :=
  ["Time", "Cd", "Cd(f)", "Cd(r)", "Cl", "Cl(f)", "Cl(r)", "CmPitch", "CmRoll", "CmYaw", "Cs", "Cs(f)",
    "Cs(r)"].map String.toList

/-- `idx[name]` of `{name: i for i, name in enumerate(header)}`: the last of equal names counts. -/
def columnIndex (header : List (List Char)) (name : String) : Option ℕ :=
  ((header.zipIdx.filter (fun entry => entry.1 == name.toList)).getLast?).map Prod.snd

/-- `idx[cm_key]`. -/
def cmIndex (header : List (List Char)) : Option ℕ :=
  (columnIndex header "CmPitch").or (columnIndex header "Cm")

structure HoldColumns where
  rawIterations : List Double
  cl : List Double
  cd : List Double
  cm : List Double

/-- The last `required` rows, when all of them have all four columns. -/
def holdColumns (header : List (List Char)) (rows : List (List Double)) (required : ℕ) :
    Option HoldColumns :=
  match columnIndex header "Time", columnIndex header "Cl", columnIndex header "Cd", cmIndex header with
  | some time, some cl, some cd, some cm =>
    let finalRows := rows.drop (rows.length - required)
    if rows.length < required then none
    else if finalRows.any (fun row => decide (row.length ≤ max (max time cl) (max cd cm))) then none
    else
      let column (i : ℕ) : List Double := finalRows.map (fun row => row.getD i (lit 0))
      some ⟨column time, column cl, column cd, column cm⟩
  | _, _, _, _ => none

/-- The integer iterations of a window, when they are finite, whole and increasing. -/
def holdIterations (rawIterations : List Double) : Option (List ℤ) :=
  let iterations := rawIterations.map (fun x => roundHalfEven x.value)
  if rawIterations.any (fun x => !isFinite x) then none
  else if rawIterations.any (fun x =>
      lt (lit (1 / 10 ^ 9)) (abs (sub x (lit (roundHalfEven x.value : ℚ))))) then none
  else if (iterations.zip iterations.tail).any (fun pair => decide (pair.2 ≤ pair.1)) then none
  else some iterations

/-- `min(values)` and `max(values)` of a list that is not empty. -/
def pyMin : List Double → Double
  | [] => lit 0
  | x :: xs => xs.foldl (fun least y => if lt y least then y else least) x

def pyMax : List Double → Double
  | [] => lit 0
  | x :: xs => xs.foldl (fun greatest y => if lt greatest y then y else greatest) x

/-- `channel` of `analyze_rans_hold`. -/
def holdChannel (runtime : PyRuntime) (absoluteFloor : Double) (values : List Double) :
    Option RansHoldChannelAnalysis :=
  if values.any (fun x => !isFinite x) then none
  else
    let mean := div (runtime.sum values) (lit values.length)
    let peakToPeak := sub (pyMax values) (pyMin values)
    some ⟨mean, pyMin values, pyMax values, peakToPeak, div peakToPeak (add (abs mean) absoluteFloor)⟩

def holdVerdict (required : ℤ) (relativeTolerance absoluteFloor : Double)
    (iterations : List ℤ) (cl cd cm : RansHoldChannelAnalysis) : RansHoldAnalysis :=
  let unstable := ([("Cl", cl), ("Cd", cd), ("Cm", cm)].filter (fun entry =>
    lt relativeTolerance entry.2.relativeSpread)).map Prod.fst
  { sampleCount := required
    requiredSampleCount := required
    startIteration := iterations.headD 0
    endIteration := iterations.getLastD 0
    relativeTolerance := relativeTolerance
    absoluteFloor := absoluteFloor
    cl := cl
    cd := cd
    cm := cm
    certified := unstable.isEmpty
    reason :=
      if unstable.isEmpty then "all channels held within the final-window tolerance"
      else "final-window spread exceeds tolerance for " ++ String.intercalate ", " unstable }

def reduceRows (runtime : PyRuntime) (header : List (List Char)) (rows : List (List Double)) (required : ℤ)
    (relativeTolerance absoluteFloor : Double) : Option RansHoldAnalysis :=
  (holdColumns header rows required.toNat).bind fun columns =>
    (holdIterations columns.rawIterations).bind fun iterations =>
      (holdChannel runtime absoluteFloor columns.cl).bind fun cl =>
        (holdChannel runtime absoluteFloor columns.cd).bind fun cd =>
          (holdChannel runtime absoluteFloor columns.cm).map fun cm =>
            holdVerdict required relativeTolerance absoluteFloor iterations cl cd cm

def analyzeRansHold (runtime : PyRuntime) (file : ByteArray) (window : ℤ)
    (relativeTolerance absoluteFloor : Double) : Except PyError (Option RansHoldAnalysis) :=
  if decide (window < 1) || !isFinite relativeTolerance || le relativeTolerance (lit 0) then
    .error (.valueError "RANS hold reducer requires a positive finite window and tolerance")
  else if !isFinite absoluteFloor || le absoluteFloor (lit 0) then
    .error (.valueError "RANS hold reducer requires a positive finite absolute floor")
  else
    (strictDataRows runtime file).map fun read =>
      match read.2 with
      | none => none
      | some [] => none
      | some rows =>
        reduceRows runtime (if read.1.isEmpty then defaultHeader else read.1) rows window relativeTolerance
          absoluteFloor

/-! ## The certificate -/

/-- `abs(actual - expected) > 1e-12 * max(1.0, abs(expected), abs(actual))`. -/
def differs (actual expected : Double) : Bool :=
  lt (mul (lit (1 / 10 ^ 12)) (max (max (lit 1) (abs expected)) (abs actual))) (abs (sub actual expected))

/-- What the model raises for these values: the field constraints, then the validator. -/
def channelProblem (mean minValue maxValue peakToPeak relativeSpread : Double) : Option PyError :=
  match pushIf (!le (lit 0) peakToPeak) "peak_to_peak: Input should be greater than or equal to 0" ++
    pushIf (!le (lit 0) relativeSpread) "relative_spread: Input should be greater than or equal to 0" with
  | [] =>
    if [mean, minValue, maxValue, peakToPeak, relativeSpread].any (fun x => !isFinite x) then
      some (.validationError ["RANS hold channel values must be finite"])
    else if lt maxValue minValue then
      some (.validationError ["RANS hold channel max_value is below min_value"])
    else if differs peakToPeak (sub maxValue minValue) then
      some (.validationError ["RANS hold channel peak_to_peak does not match min/max"])
    else none
  | texts => some (.validationError texts)

structure RansHoldChannel where
  mean : Double
  minValue : Double
  maxValue : Double
  peakToPeak : Double
  relativeSpread : Double
  valid : channelProblem mean minValue maxValue peakToPeak relativeSpread = none
  deriving DecidableEq

/-- The validator's test of one channel against the certificate's floor and tolerance. -/
def spreadProblem (name : String) (channel : RansHoldChannel) (relativeTolerance absoluteFloor : Double) :
    Option PyError :=
  if differs channel.relativeSpread (div channel.peakToPeak (add (abs channel.mean) absoluteFloor)) then
    some (.validationError ["RANS hold " ++ name ++ " relative_spread does not match its raw window"])
  else if lt relativeTolerance channel.relativeSpread then
    some (.validationError ["RANS hold " ++ name ++ " relative_spread exceeds the configured tolerance"])
  else none

def certificateProblem (reducerVersion : String) (sampleCount requiredSampleCount startIteration
    endIteration : ℤ) (relativeTolerance absoluteFloor : Double) (cl cd cm : RansHoldChannel) :
    Option PyError :=
  match pushIf (reducerVersion.toList.length < 1) "reducer_version: String should have at least 1 character" ++
    pushIf (160 < reducerVersion.toList.length) "reducer_version: String should have at most 160 characters" ++
    pushIf (sampleCount < 1) "sample_count: Input should be greater than or equal to 1" ++
    pushIf (requiredSampleCount < 1) "required_sample_count: Input should be greater than or equal to 1" ++
    pushIf (startIteration < 0) "start_iteration: Input should be greater than or equal to 0" ++
    pushIf (endIteration < 0) "end_iteration: Input should be greater than or equal to 0" ++
    pushIf (!lt (lit 0) relativeTolerance) "relative_tolerance: Input should be greater than 0" ++
    pushIf (!lt (lit 0) absoluteFloor) "absolute_floor: Input should be greater than 0" with
  | [] =>
    if sampleCount < requiredSampleCount then
      some (.validationError ["RANS hold certificate lacks its required final-window samples"])
    else if endIteration < startIteration then
      some (.validationError ["RANS hold certificate iteration window is reversed"])
    else if endIteration - startIteration + 1 ≠ sampleCount then
      some (.validationError ["RANS hold certificate iteration window does not match sample count"])
    else if [relativeTolerance, absoluteFloor].any (fun x => !isFinite x) then
      some (.validationError ["RANS hold certificate tolerances must be finite"])
    else
      (spreadProblem "Cl" cl relativeTolerance absoluteFloor).or
        ((spreadProblem "Cd" cd relativeTolerance absoluteFloor).or
          (spreadProblem "Cm" cm relativeTolerance absoluteFloor))
  | texts => some (.validationError texts)

/-- `RansHoldCertificate`; its `certified` is the literal `True`. -/
structure RansHoldCertificate where
  reducerVersion : String
  sampleCount : ℤ
  requiredSampleCount : ℤ
  startIteration : ℤ
  endIteration : ℤ
  relativeTolerance : Double
  absoluteFloor : Double
  cl : RansHoldChannel
  cd : RansHoldChannel
  cm : RansHoldChannel
  valid : certificateProblem reducerVersion sampleCount requiredSampleCount startIteration endIteration
    relativeTolerance absoluteFloor cl cd cm = none
  deriving DecidableEq

/-- `channel` of `_rans_hold_certificate_from_raw`. -/
def ransHoldChannel (value : RansHoldChannelAnalysis) : Except PyError RansHoldChannel :=
  match h : channelProblem value.mean value.minValue value.maxValue value.peakToPeak
      value.relativeSpread with
  | none => .ok ⟨value.mean, value.minValue, value.maxValue, value.peakToPeak, value.relativeSpread, h⟩
  | some error => .error error

def ransHoldCertificate (analysis : RansHoldAnalysis) (cl cd cm : RansHoldChannel) :
    Except PyError RansHoldCertificate :=
  match h : certificateProblem "rans-hold-v1" analysis.sampleCount analysis.requiredSampleCount
      analysis.startIteration analysis.endIteration analysis.relativeTolerance analysis.absoluteFloor
      cl cd cm with
  | none => .ok ⟨_, _, _, _, _, _, _, cl, cd, cm, h⟩
  | some error => .error error

def certifyAnalysis (analysis : RansHoldAnalysis) : Except PyError RansHoldCertificate :=
  (ransHoldChannel analysis.cl).bind fun cl =>
    (ransHoldChannel analysis.cd).bind fun cd =>
      (ransHoldChannel analysis.cm).bind fun cm => ransHoldCertificate analysis cl cd cm

def ransHoldCertificateFromRaw (runtime : PyRuntime) (file : ByteArray) :
    Except PyError (Option RansHoldCertificate) :=
  (analyzeRansHold runtime file ransHoldRequiredSamples ransHoldRelativeTolerance
    ransHoldAbsoluteFloor).bind fun result =>
    match result with
    | none => .ok none
    | some analysis => if !analysis.certified then .ok none else (certifyAnalysis analysis).map some

def RansHoldChannel.toJson (channel : RansHoldChannel) : JsValue Double :=
  .obj [("mean", .num channel.mean), ("min_value", .num channel.minValue),
    ("max_value", .num channel.maxValue), ("peak_to_peak", .num channel.peakToPeak),
    ("relative_spread", .num channel.relativeSpread)]

def RansHoldCertificate.toJson (certificate : RansHoldCertificate) : JsValue Double :=
  .obj [("reducer_version", .str certificate.reducerVersion),
    ("sample_count", .num (lit certificate.sampleCount)),
    ("required_sample_count", .num (lit certificate.requiredSampleCount)),
    ("start_iteration", .num (lit certificate.startIteration)),
    ("end_iteration", .num (lit certificate.endIteration)),
    ("relative_tolerance", .num certificate.relativeTolerance),
    ("absolute_floor", .num certificate.absoluteFloor), ("certified", .bool true),
    ("cl", certificate.cl.toJson), ("cd", certificate.cd.toJson), ("cm", certificate.cm.toJson)]

/-! ## Channels of a held window -/

theorem hold_constants :
    isFinite ransHoldRelativeTolerance = true ∧ lt (lit 0) ransHoldRelativeTolerance = true ∧
      le ransHoldRelativeTolerance (lit 0) = false ∧ isFinite ransHoldAbsoluteFloor = true ∧
      lt (lit 0) ransHoldAbsoluteFloor = true ∧ le ransHoldAbsoluteFloor (lit 0) = false ∧
      (2 : ℚ) ^ (-1074 : ℤ) ≤ ransHoldAbsoluteFloor.value ∧ ransHoldAbsoluteFloor.value ≤ 1 ∧
      isFinite (lit (1 / 10 ^ 12) : Double) = true ∧ 0 ≤ (lit (1 / 10 ^ 12) : Double).value := by
  decide +kernel

theorem tolerance_finite : isFinite ransHoldRelativeTolerance = true := hold_constants.1

theorem floor_finite : isFinite ransHoldAbsoluteFloor = true := hold_constants.2.2.2.1

section Channels
variable {x y : Double} {q : ℚ} {values : List Double}

theorem tolerance_nonneg (hx : x.val = .fin q) :
    Double.Nonneg (mul (lit (1 / 10 ^ 12)) (max (max (lit 1) (abs x)) (abs x))) := by
  obtain ⟨-, -, -, -, -, -, -, -, hfinite, htNonneg⟩ := hold_constants
  have ht := Double.val_of_finite hfinite
  have hmax := Double.max_val (Double.max_val Double.lit_one (Double.abs_val hx)) (Double.abs_val hx)
  exact Double.mul_nonneg_val ht hmax htNonneg (le_max_of_le_left (le_max_of_le_left (by norm_num)))

theorem abs_sub_self (hx : x.val = .fin q) : (abs (sub x x)).val = .fin 0 := by
  rw [Double.abs_val (Double.sub_self_val hx), abs_zero]

theorem differs_self (hx : x.val = .fin q) : differs x x = false :=
  (tolerance_nonneg hx).not_lt_zero (abs_sub_self hx)

theorem approximatelyEqual_self (hx : x.val = .fin q) : Polar.approximatelyEqual x x = true :=
  (tolerance_nonneg hx).zero_le (abs_sub_self hx)

theorem foldl_min_le (xs : List Double) (hx : isFinite x = true) (hxs : ∀ y ∈ xs, isFinite y = true) :
    isFinite (xs.foldl (fun least y => if lt y least then y else least) x) = true ∧
      (xs.foldl (fun least y => if lt y least then y else least) x).value ≤ x.value := by
  induction xs generalizing x with
  | nil => exact ⟨hx, le_rfl⟩
  | cons y xs ih =>
    rw [List.forall_mem_cons] at hxs
    rw [List.foldl_cons]
    split
    · next hlt =>
      obtain ⟨hfinite, hle⟩ := ih hxs.1 hxs.2
      have hyx := (Double.lt_iff (Double.val_of_finite hxs.1) (Double.val_of_finite hx)).mp hlt
      exact ⟨hfinite, hle.trans hyx.le⟩
    · exact ih hx hxs.2

theorem le_foldl_max (xs : List Double) (hx : isFinite x = true) (hxs : ∀ y ∈ xs, isFinite y = true) :
    isFinite (xs.foldl (fun greatest y => if lt greatest y then y else greatest) x) = true ∧
      x.value ≤ (xs.foldl (fun greatest y => if lt greatest y then y else greatest) x).value := by
  induction xs generalizing x with
  | nil => exact ⟨hx, le_rfl⟩
  | cons y xs ih =>
    rw [List.forall_mem_cons] at hxs
    rw [List.foldl_cons]
    split
    · next hlt =>
      obtain ⟨hfinite, hle⟩ := ih hxs.1 hxs.2
      have hxy := (Double.lt_iff (Double.val_of_finite hx) (Double.val_of_finite hxs.1)).mp hlt
      exact ⟨hfinite, hxy.le.trans hle⟩
    · exact ih hx hxs.2

theorem extremes (hne : values ≠ []) (hfinite : ∀ x ∈ values, isFinite x = true) :
    isFinite (pyMin values) = true ∧ isFinite (pyMax values) = true ∧
      (pyMin values).value ≤ (pyMax values).value := by
  cases values with
  | nil => exact absurd rfl hne
  | cons x xs =>
    rw [List.forall_mem_cons] at hfinite
    obtain ⟨hmin, hle⟩ := foldl_min_le xs hfinite.1 hfinite.2
    obtain ⟨hmax, hge⟩ := le_foldl_max xs hfinite.1 hfinite.2
    exact ⟨hmin, hmax, hle.trans hge⟩

structure ChannelHolds (channel : RansHoldChannelAnalysis) : Prop where
  mean : isFinite channel.mean = true
  minimum : isFinite channel.minValue = true
  maximum : isFinite channel.maxValue = true
  ordered : le channel.minValue channel.maxValue = true
  peak : isFinite channel.peakToPeak = true
  peakNonneg : le (lit 0) channel.peakToPeak = true
  spread : isFinite channel.relativeSpread = true
  spreadNonneg : le (lit 0) channel.relativeSpread = true
  peakEq : channel.peakToPeak = sub channel.maxValue channel.minValue
  spreadEq : channel.relativeSpread =
    div channel.peakToPeak (add (abs channel.mean) ransHoldAbsoluteFloor)
  held : lt ransHoldRelativeTolerance channel.relativeSpread = false

theorem floor_bounds : ∃ f, ransHoldAbsoluteFloor.val = .fin f ∧ (2 : ℚ) ^ (-1074 : ℤ) ≤ f ∧ f ≤ 1 :=
  have ⟨_, _, _, hfinite, _, _, hleast, hle, _⟩ := hold_constants
  ⟨_, Double.val_of_finite hfinite, hleast, hle⟩

theorem finite_of_held (hx : Double.Nonneg x) (hheld : lt ransHoldRelativeTolerance x = false) :
    isFinite x = true ∧ le (lit 0) x = true := by
  rcases hx with hinf | ⟨q, hq, hnonneg⟩
  · exfalso
    have htolerance := Double.val_of_finite tolerance_finite
    have hlt : ransHoldRelativeTolerance.val.lt x.val = true := by
      rw [hinf, htolerance]
      rfl
    have hfalse : ransHoldRelativeTolerance.val.lt x.val = false := hheld
    rw [hlt] at hfalse
    cases hfalse
  · refine ⟨?_, (Double.le_iff Double.lit_zero hq).mpr hnonneg⟩
    show x.val.isFinite = true
    rw [hq]
    rfl

theorem channelHolds_of_finite {runtime : PyRuntime} {channel : RansHoldChannelAnalysis} (hne : values ≠ [])
    (hchannel : holdChannel runtime ransHoldAbsoluteFloor values = some channel)
    (hheld : lt ransHoldRelativeTolerance channel.relativeSpread = false)
    (hmean : isFinite channel.mean = true) : ChannelHolds channel := by
  rw [holdChannel] at hchannel
  split at hchannel
  · cases hchannel
  · next hall =>
    have hfinite : ∀ x ∈ values, isFinite x = true := by simpa using hall
    obtain ⟨hmin, hmax, hle⟩ := extremes hne hfinite
    have hchannel' := Option.some.inj hchannel
    subst hchannel'
    have hminVal := Double.val_of_finite hmin
    have hmaxVal := Double.val_of_finite hmax
    have hpeakSign : Double.Nonneg (sub (pyMax values) (pyMin values)) := by
      have hval : (sub (pyMax values) (pyMin values)).val =
          round64 (.fin ((pyMax values).value - (pyMin values).value)) := by
        show round64 ((pyMax values).val.add (pyMin values).val.neg) = _
        rw [hmaxVal, hminVal, sub_eq_add_neg]
        rfl
      rw [Double.Nonneg, hval]
      exact Double.round64_nonneg (sub_nonneg.mpr hle)
    obtain ⟨f, hf, hfLow, hfHigh⟩ := floor_bounds
    obtain ⟨d, hd, hdpos⟩ := Double.add_small_val (Double.abs_val (Double.val_of_finite hmean)) hf
      (abs_nonneg _) hfLow hfHigh
    have hspreadSign := Double.div_nonneg_val hpeakSign hd hdpos
    obtain ⟨hspread, hspreadNonneg⟩ := finite_of_held hspreadSign hheld
    have hpeak : isFinite (sub (pyMax values) (pyMin values)) = true := by
      rcases hpeakSign with hinf | ⟨r, hr, -⟩
      · -- an infinite peak would leave an infinite spread
        exfalso
        have hdiv : (div (sub (pyMax values) (pyMin values))
            (add (abs (div (runtime.sum values) (lit values.length))) ransHoldAbsoluteFloor)).val = .posInf := by
          show round64 (ExactNum.div _ _) = _
          rw [hinf, hd]
          show round64 (if d < 0 then .negInf else .posInf) = .posInf
          rw [if_neg (not_lt.mpr hdpos.le)]
          rfl
        have hval := Double.val_of_finite hspread
        dsimp only at hval
        rw [hdiv] at hval
        cases hval
      · show (sub (pyMax values) (pyMin values)).val.isFinite = true
        rw [hr]
        rfl
    exact ⟨hmean, hmin, hmax, (Double.le_iff hminVal hmaxVal).mpr hle, hpeak,
      hpeakSign.zero_le Double.lit_zero, hspread, hspreadNonneg, rfl, rfl, hheld⟩

theorem channelProblem_of_holds {channel : RansHoldChannelAnalysis} (h : ChannelHolds channel) :
    channelProblem channel.mean channel.minValue channel.maxValue channel.peakToPeak
      channel.relativeSpread = none := by
  have hdiffers : differs channel.peakToPeak (sub channel.maxValue channel.minValue) = false := by
    rw [← h.peakEq]
    exact differs_self (Double.val_of_finite h.peak)
  have horder : lt channel.maxValue channel.minValue = false :=
    (Double.not_lt_iff h.maximum h.minimum).mpr h.ordered
  simp [channelProblem, h.peakNonneg, h.spreadNonneg, h.mean, h.minimum, h.maximum, h.peak, h.spread, horder,
    hdiffers, pushIf]

theorem finite_of_channelProblem {channel : RansHoldChannelAnalysis}
    (h : channelProblem channel.mean channel.minValue channel.maxValue channel.peakToPeak
      channel.relativeSpread = none) : isFinite channel.mean = true := by
  unfold channelProblem at h
  split at h
  · split at h
    · cases h
    · next hall =>
      rw [Bool.not_eq_true, List.any_eq_false] at hall
      simpa using hall channel.mean List.mem_cons_self
  · cases h

end Channels

/-! ## Iterations -/

section Iterations

/-- The whole numbers from `n` on, `k` of them. -/
def consecutive (n : ℤ) : ℕ → List ℤ
  | 0 => []
  | k + 1 => n :: consecutive (n + 1) k

theorem last_of_increasing (xs : List ℤ) (a : ℤ)
    (h : ((a :: xs).zip xs).any (fun pair => decide (pair.2 ≤ pair.1)) = false) :
    a + xs.length ≤ xs.getLastD a ∧
      (xs.getLastD a = a + xs.length ↔ xs = consecutive (a + 1) xs.length) := by
  induction xs generalizing a with
  | nil => simp [consecutive]
  | cons b xs ih =>
    rw [List.zip_cons_cons, List.any_cons, Bool.or_eq_false_iff] at h
    obtain ⟨hab, hrest⟩ := h
    have hlt : a < b := by simpa using hab
    obtain ⟨hle, hiff⟩ := ih b hrest
    rw [List.getLastD_cons, List.length_cons, consecutive]
    push_cast
    refine ⟨by omega, ?_⟩
    constructor
    · intro hlast
      have hb : b = a + 1 := by omega
      subst hb
      exact congrArg (List.cons (a + 1)) (hiff.mp (by omega))
    · intro hcons
      obtain ⟨hb, hxs⟩ := List.cons.inj hcons
      subst hb
      have hlast := hiff.mpr hxs
      omega

theorem window_iff {iterations : List ℤ} {k : ℕ} (hlength : iterations.length = k + 1)
    (hincreasing : (iterations.zip iterations.tail).any (fun pair => decide (pair.2 ≤ pair.1)) = false) :
    iterations.getLastD 0 - iterations.headD 0 = k ↔
      iterations = consecutive (iterations.headD 0) (k + 1) := by
  cases iterations with
  | nil => simp at hlength
  | cons a xs =>
    obtain ⟨-, hiff⟩ := last_of_increasing xs a hincreasing
    have hk : xs.length = k := by simpa using hlength
    rw [hk] at hiff
    rw [List.getLastD_cons, List.headD_cons, consecutive, List.cons.injEq, ← hiff]
    constructor
    · intro h
      exact ⟨rfl, by omega⟩
    · rintro ⟨-, h⟩
      omega

theorem holdIterations_ok {rawIterations : List Double} {iterations : List ℤ}
    (h : holdIterations rawIterations = some iterations) :
    iterations = rawIterations.map (fun x => roundHalfEven x.value) ∧
      (∀ x ∈ rawIterations, isFinite x = true) ∧
      (iterations.zip iterations.tail).any (fun pair => decide (pair.2 ≤ pair.1)) = false := by
  rw [holdIterations] at h
  split at h
  · cases h
  · next hfinite =>
    split at h
    · cases h
    · split at h
      · cases h
      · next hincreasing =>
        cases h
        exact ⟨rfl, by simpa using hfinite, by simpa using hincreasing⟩

theorem lit_iteration {rawIterations : List Double} {iterations : List ℤ}
    (h : holdIterations rawIterations = some iterations) {n : ℤ} (hn : n ∈ iterations) :
    (lit (n : ℚ) : Double).val = .fin n := by
  obtain ⟨heq, hfinite, -⟩ := holdIterations_ok h
  rw [heq] at hn
  obtain ⟨x, hx, rfl⟩ := List.mem_map.mp hn
  exact Double.lit_roundHalfEven (Double.val_of_finite (hfinite x hx))

theorem holdColumns_length {header : List (List Char)} {rows : List (List Double)} {required : ℕ}
    {columns : HoldColumns} (h : holdColumns header rows required = some columns) :
    columns.rawIterations.length = required ∧ columns.cl.length = required ∧
      columns.cd.length = required ∧ columns.cm.length = required := by
  unfold holdColumns at h
  split at h
  · dsimp only at h
    split at h
    · cases h
    · next hcount =>
      split at h
      · cases h
      · cases h
        simp only [List.length_map, List.length_drop]
        omega
  · cases h

end Iterations

/-! ## Held windows -/

section Held
variable {runtime : PyRuntime} {file : ByteArray} {columns : HoldColumns} {iterations : List ℤ}
  {cl cd cm : RansHoldChannelAnalysis}

structure FinalWindow (runtime : PyRuntime) (file : ByteArray) (columns : HoldColumns)
    (iterations : List ℤ) (cl cd cm : RansHoldChannelAnalysis) : Prop where
  read : ∃ header rows, strictDataRows runtime file = .ok (header, some rows) ∧ rows ≠ [] ∧
    holdColumns (if header.isEmpty then defaultHeader else header) rows 200 = some columns
  iterations : holdIterations columns.rawIterations = some iterations
  cl : holdChannel runtime ransHoldAbsoluteFloor columns.cl = some cl
  cd : holdChannel runtime ransHoldAbsoluteFloor columns.cd = some cd
  cm : holdChannel runtime ransHoldAbsoluteFloor columns.cm = some cm

def Held (cl cd cm : RansHoldChannelAnalysis) : Prop :=
  ∀ channel ∈ [cl, cd, cm], lt ransHoldRelativeTolerance channel.relativeSpread = false

def verdict (iterations : List ℤ) (cl cd cm : RansHoldChannelAnalysis) : RansHoldAnalysis :=
  holdVerdict ransHoldRequiredSamples ransHoldRelativeTolerance ransHoldAbsoluteFloor iterations cl cd cm

theorem certified_iff : (verdict iterations cl cd cm).certified = true ↔ Held cl cd cm := by
  simp only [verdict, holdVerdict, Held, List.isEmpty_iff, List.map_eq_nil_iff, List.filter_eq_nil_iff,
    List.forall_mem_cons, List.not_mem_nil, false_implies, implies_true, and_true, Bool.not_eq_true]

theorem analyze_eq :
    analyzeRansHold runtime file ransHoldRequiredSamples ransHoldRelativeTolerance ransHoldAbsoluteFloor =
      (strictDataRows runtime file).map fun read =>
        match read.2 with
        | none => none
        | some [] => none
        | some rows =>
          reduceRows runtime (if read.1.isEmpty then defaultHeader else read.1) rows
            ransHoldRequiredSamples ransHoldRelativeTolerance ransHoldAbsoluteFloor := by
  obtain ⟨htolerance, -, hpositive, hfloor, -, hfloorPositive, -⟩ := hold_constants
  have hwindow : decide (ransHoldRequiredSamples < 1) = false := by decide
  rw [analyzeRansHold, if_neg (by simp [hwindow, htolerance, hpositive]), if_neg (by simp [hfloor, hfloorPositive])]

theorem analyze_of_rows {header : List (List Char)} {rows : List (List Double)}
    (h : strictDataRows runtime file = .ok (header, some rows)) (hne : rows ≠ []) :
    analyzeRansHold runtime file ransHoldRequiredSamples ransHoldRelativeTolerance ransHoldAbsoluteFloor =
      .ok (reduceRows runtime (if header.isEmpty then defaultHeader else header) rows ransHoldRequiredSamples
        ransHoldRelativeTolerance ransHoldAbsoluteFloor) := by
  rw [analyze_eq, h]
  cases rows with
  | nil => exact absurd rfl hne
  | cons row rows => rfl

theorem reduceRows_eq_some {header : List (List Char)} {rows : List (List Double)}
    {analysis : RansHoldAnalysis} :
    reduceRows runtime header rows ransHoldRequiredSamples ransHoldRelativeTolerance
        ransHoldAbsoluteFloor = some analysis ↔
      ∃ columns iterations cl cd cm, holdColumns header rows 200 = some columns ∧
        holdIterations columns.rawIterations = some iterations ∧
        holdChannel runtime ransHoldAbsoluteFloor columns.cl = some cl ∧
        holdChannel runtime ransHoldAbsoluteFloor columns.cd = some cd ∧
        holdChannel runtime ransHoldAbsoluteFloor columns.cm = some cm ∧
        verdict iterations cl cd cm = analysis := by
  have hrequired : ransHoldRequiredSamples.toNat = 200 := rfl
  simp only [reduceRows, hrequired, Option.bind_eq_some_iff, Option.map_eq_some_iff]
  constructor
  · rintro ⟨columns, hcolumns, iterations, hiterations, cl, hcl, cd, hcd, cm, hcm, hverdict⟩
    exact ⟨columns, iterations, cl, cd, cm, hcolumns, hiterations, hcl, hcd, hcm, hverdict⟩
  · rintro ⟨columns, iterations, cl, cd, cm, hcolumns, hiterations, hcl, hcd, hcm, hverdict⟩
    exact ⟨columns, hcolumns, iterations, hiterations, cl, hcl, cd, hcd, cm, hcm, hverdict⟩

theorem analyze_eq_some {analysis : RansHoldAnalysis} :
    analyzeRansHold runtime file ransHoldRequiredSamples ransHoldRelativeTolerance ransHoldAbsoluteFloor =
        .ok (some analysis) ↔
      ∃ columns iterations cl cd cm, FinalWindow runtime file columns iterations cl cd cm ∧
        verdict iterations cl cd cm = analysis := by
  rw [analyze_eq]
  cases hread : strictDataRows runtime file with
  | error e =>
    constructor
    · intro h
      cases h
    · rintro ⟨columns, iterations, cl, cd, cm, ⟨⟨header, rows, hrows, -⟩, -, -, -, -⟩, -⟩
      rw [hread] at hrows
      cases hrows
  | ok read =>
    obtain ⟨header, found⟩ := read
    constructor
    · intro h
      have hmatch := Except.ok.inj h
      dsimp only at hmatch
      split at hmatch
      · cases hmatch
      · cases hmatch
      · next rows hne =>
        obtain ⟨columns, iterations, cl, cd, cm, hcolumns, hiterations, hcl, hcd, hcm, hverdict⟩ :=
          reduceRows_eq_some.mp hmatch
        exact ⟨columns, iterations, cl, cd, cm,
          ⟨⟨header, rows, hread, fun hnil => hne hnil, hcolumns⟩, hiterations, hcl, hcd, hcm⟩, hverdict⟩
    · rintro ⟨columns, iterations, cl, cd, cm,
        ⟨⟨header', rows, hrows, hne, hcolumns⟩, hiterations, hcl, hcd, hcm⟩, hverdict⟩
      rw [hread] at hrows
      cases hrows
      show Except.ok _ = _
      congr 1
      cases rows with
      | nil => exact absurd rfl hne
      | cons row rows =>
        exact reduceRows_eq_some.mpr
          ⟨columns, iterations, cl, cd, cm, hcolumns, hiterations, hcl, hcd, hcm, hverdict⟩

theorem fromRaw_undecodable (h : file.utf8Decode? = none) :
    ransHoldCertificateFromRaw runtime file = .error .unicodeDecodeError := by
  rw [ransHoldCertificateFromRaw, analyze_eq, strictDataRows, h]
  rfl

theorem fromRaw_held (hwindow : FinalWindow runtime file columns iterations cl cd cm)
    (hheld : Held cl cd cm) :
    ransHoldCertificateFromRaw runtime file =
      (certifyAnalysis (verdict iterations cl cd cm)).map some := by
  have hanalysis := analyze_eq_some.mpr ⟨columns, iterations, cl, cd, cm, hwindow, rfl⟩
  rw [ransHoldCertificateFromRaw, hanalysis]
  show (if !(verdict iterations cl cd cm).certified then _ else _) = _
  rw [if_neg (by simp [certified_iff.mpr hheld])]

theorem fromRaw_not_held {text : Array Char} (hdecode : file.utf8Decode? = some text)
    (hnone : ∀ columns iterations cl cd cm, FinalWindow runtime file columns iterations cl cd cm →
      ¬ Held cl cd cm) : ransHoldCertificateFromRaw runtime file = .ok none := by
  obtain ⟨result, hresult⟩ : ∃ result, analyzeRansHold runtime file ransHoldRequiredSamples
      ransHoldRelativeTolerance ransHoldAbsoluteFloor = .ok result := by
    rw [analyze_eq, strictDataRows, hdecode]
    exact ⟨_, rfl⟩
  rw [ransHoldCertificateFromRaw, hresult]
  cases result with
  | none => rfl
  | some analysis =>
    obtain ⟨columns, iterations, cl, cd, cm, hwindow, rfl⟩ := analyze_eq_some.mp hresult
    have hcertified : (verdict iterations cl cd cm).certified = false := by
      rw [← Bool.not_eq_true, certified_iff]
      exact hnone columns iterations cl cd cm hwindow
    show (if !(verdict iterations cl cd cm).certified then _ else _) = _
    rw [if_pos (by simp [hcertified])]

def ChannelHolds.built {channel : RansHoldChannelAnalysis} (h : ChannelHolds channel) : RansHoldChannel :=
  ⟨channel.mean, channel.minValue, channel.maxValue, channel.peakToPeak, channel.relativeSpread,
    channelProblem_of_holds h⟩

theorem ransHoldChannel_of_holds {channel : RansHoldChannelAnalysis} (h : ChannelHolds channel) :
    ransHoldChannel channel = .ok h.built := by
  unfold ransHoldChannel
  split
  · rfl
  · next hproblem =>
    rw [channelProblem_of_holds h] at hproblem
    cases hproblem

theorem channelProblem_of_ok {channel : RansHoldChannelAnalysis} {built : RansHoldChannel}
    (h : ransHoldChannel channel = .ok built) :
    channelProblem channel.mean channel.minValue channel.maxValue channel.peakToPeak
      channel.relativeSpread = none := by
  unfold ransHoldChannel at h
  split at h
  · next hproblem => exact hproblem
  · cases h

theorem spreadProblem_of_holds {channel : RansHoldChannelAnalysis} (h : ChannelHolds channel) (name : String) :
    spreadProblem name h.built ransHoldRelativeTolerance ransHoldAbsoluteFloor = none := by
  have hdiffers : differs channel.relativeSpread
      (div channel.peakToPeak (add (abs channel.mean) ransHoldAbsoluteFloor)) = false := by
    rw [← h.spreadEq]
    exact differs_self (Double.val_of_finite h.spread)
  have hheld : lt ransHoldRelativeTolerance h.built.relativeSpread = false := h.held
  rw [spreadProblem, if_neg (by rw [Bool.not_eq_true]; exact hdiffers), if_neg (by simp [hheld])]

theorem validateChannel_of_holds {channel : RansHoldChannelAnalysis} (h : ChannelHolds channel) (name : String) :
    Polar.validateChannel h.built.toJson name (.num ransHoldAbsoluteFloor)
      (.num ransHoldRelativeTolerance) = [] := by
  have hfloor : (JsValue.num ransHoldAbsoluteFloor).finite? = some ransHoldAbsoluteFloor :=
    if_pos floor_finite
  have htolerance : (JsValue.num ransHoldRelativeTolerance).finite? = some ransHoldRelativeTolerance :=
    if_pos tolerance_finite
  have hnumbers : Polar.HoldNumbers h.built.toJson channel.mean channel.minValue channel.maxValue
      channel.peakToPeak channel.relativeSpread :=
    ⟨Polar.finite?_eq_some.mpr ⟨rfl, h.mean⟩, Polar.finite?_eq_some.mpr ⟨rfl, h.minimum⟩,
      Polar.finite?_eq_some.mpr ⟨rfl, h.maximum⟩, Polar.finite?_eq_some.mpr ⟨rfl, h.peak⟩,
      Polar.finite?_eq_some.mpr ⟨rfl, h.spread⟩⟩
  have hpeakEq : Polar.approximatelyEqual channel.peakToPeak (sub channel.maxValue channel.minValue) = true := by
    rw [← h.peakEq]
    exact approximatelyEqual_self (Double.val_of_finite h.peak)
  have hspreadEq : Polar.approximatelyEqual channel.relativeSpread
      (div channel.peakToPeak (add (abs channel.mean) ransHoldAbsoluteFloor)) = true := by
    rw [← h.spreadEq]
    exact approximatelyEqual_self (Double.val_of_finite h.spread)
  rw [Polar.validateChannel]
  show Polar.holdChannelErrors _ _ ++ Polar.holdSpreadErrors _ _ _ _ = []
  rw [Polar.holdErrors_iff hnumbers hfloor htolerance]
  exact ⟨rfl, h.ordered, h.peakNonneg, h.spreadNonneg, hpeakEq, hspreadEq,
    (Double.not_lt_iff tolerance_finite h.spread).mp h.held⟩

variable (hcl : ChannelHolds cl) (hcd : ChannelHolds cd) (hcm : ChannelHolds cm)

theorem certificateProblem_of_window {start stop : ℤ} (hstart : 0 ≤ start) (hstop : stop - start = 199) :
    certificateProblem "rans-hold-v1" 200 200 start stop ransHoldRelativeTolerance ransHoldAbsoluteFloor
      hcl.built hcd.built hcm.built = none := by
  obtain ⟨-, htolerance, -, hfloorFinite, hfloor, -⟩ := hold_constants
  have hstart' : ¬ start < 0 := by omega
  have hstop' : ¬ stop < 0 := by omega
  have horder : ¬ stop < start := by omega
  have hlength : stop - start + 1 = 200 := by omega
  simp [certificateProblem, pushIf, hstart', hstop', horder, hlength, htolerance, hfloor,
    tolerance_finite, hfloorFinite, spreadProblem_of_holds]

def builtCertificate {start stop : ℤ} (hstart : 0 ≤ start) (hstop : stop - start = 199) :
    RansHoldCertificate :=
  ⟨"rans-hold-v1", 200, 200, start, stop, ransHoldRelativeTolerance, ransHoldAbsoluteFloor, hcl.built,
    hcd.built, hcm.built, certificateProblem_of_window hcl hcd hcm hstart hstop⟩

theorem certifyAnalysis_of_window (hstart : 0 ≤ iterations.headD 0)
    (hstop : iterations.getLastD 0 - iterations.headD 0 = 199) :
    certifyAnalysis (verdict iterations cl cd cm) =
      .ok (builtCertificate hcl hcd hcm hstart hstop) := by
  unfold certifyAnalysis
  show (ransHoldChannel cl).bind (fun _ => (ransHoldChannel cd).bind fun _ =>
    (ransHoldChannel cm).bind fun _ => _) = _
  rw [ransHoldChannel_of_holds hcl, ransHoldChannel_of_holds hcd, ransHoldChannel_of_holds hcm]
  show ransHoldCertificate (verdict iterations cl cd cm) hcl.built hcd.built hcm.built = _
  unfold ransHoldCertificate
  split
  · rfl
  · next hproblem =>
    have hnone := certificateProblem_of_window hcl hcd hcm hstart hstop
    exact absurd (hproblem.symm.trans hnone) (by simp)

theorem integer?_of_val {x : Double} {n : ℤ} (hx : x.val = .fin n) : Polar.integer? (.num x) = some x := by
  have hfinite : isFinite x = true := by
    show x.val.isFinite = true
    rw [hx]
    rfl
  exact Polar.integer?_of_finite hfinite (Double.integer_iff.mpr ⟨n, hx⟩)

theorem window_length {first last : Double} {start stop : ℤ} (hfirst : first.val = .fin start)
    (hlast : last.val = .fin stop) (hstop : stop - start = 199) :
    (add (sub last first) (lit 1)).val = .fin 200 := by
  have hsub : (sub last first).val = .fin 199 := by
    have hval : (sub last first).val = round64 (.fin ((stop : ℚ) - start)) := by
      show round64 (last.val.add first.val.neg) = _
      rw [hlast, hfirst, sub_eq_add_neg]
      rfl
    have hdiff : (stop : ℚ) - start = 199 := by exact_mod_cast hstop
    rw [hval, hdiff]
    exact_mod_cast Double.lit_natCast (show 199 ≤ 2 ^ 53 by norm_num)
  have hsum : (199 : ℚ) + 1 = (200 : ℕ) := by norm_num
  rw [Double.val_add_one hsub, hsum]
  exact_mod_cast Double.lit_natCast (show 200 ≤ 2 ^ 53 by norm_num)

theorem builtCertificate_accepted {start stop : ℤ} (hstart : 0 ≤ start) (hstop : stop - start = 199)
    (hfirst : (lit (start : ℚ) : Double).val = .fin start)
    (hlast : (lit (stop : ℚ) : Double).val = .fin stop) :
    ∃ accepted, Polar.parseRansHoldCertificate (builtCertificate hcl hcd hcm hstart hstop).toJson =
      .ok accepted := by
  refine ⟨_, (Polar.parseRansHoldCertificate_iff rfl).mpr ⟨rfl, rfl, rfl, ?_, ?_, rfl, ?_⟩⟩
  · have hlit : (lit ((200 : ℤ) : ℚ) : Double).val = .fin (200 : ℤ) := Double.lit_intCast (by norm_num)
    have htwoHundred : Polar.integer? (.num (lit ((200 : ℤ) : ℚ)) : JsValue Double) =
        some (lit ((200 : ℤ) : ℚ)) := integer?_of_val hlit
    have hcount : Polar.integer? ((builtCertificate hcl hcd hcm hstart hstop).toJson.get "sample_count") =
        some (lit ((200 : ℤ) : ℚ)) := htwoHundred
    have hrequired : Polar.integer?
        ((builtCertificate hcl hcd hcm hstart hstop).toJson.get "required_sample_count") =
        some (lit ((200 : ℤ) : ℚ)) := htwoHundred
    have hstartGet : Polar.integer?
        ((builtCertificate hcl hcd hcm hstart hstop).toJson.get "start_iteration") =
        some (lit (start : ℚ)) := integer?_of_val hfirst
    have hstopGet : Polar.integer?
        ((builtCertificate hcl hcd hcm hstart hstop).toJson.get "end_iteration") =
        some (lit (stop : ℚ)) := integer?_of_val hlast
    have hcount' : eq (lit ((200 : ℤ) : ℚ) : Double) (lit 200) = true := (Double.eq_iff hlit hlit).mpr rfl
    have hlength := window_length hfirst hlast hstop
    refine (Polar.holdWindowErrors_iff hcount hcount' hrequired hcount' hstartGet hstopGet ?_ ?_).mpr
      ⟨?_, ?_⟩
    · exact (Double.le_iff Double.lit_zero hfirst).mpr (by exact_mod_cast hstart)
    · exact (Double.le_iff Double.lit_zero hlast).mpr (by exact_mod_cast (by omega : (0 : ℤ) ≤ stop))
    · exact (Double.le_iff hfirst hlast).mpr (by exact_mod_cast (by omega : start ≤ stop))
    · exact (Double.eq_iff hlength hlit).mpr rfl
  · obtain ⟨-, hpositive, -, -, hfloorPositive, -⟩ := hold_constants
    have htolerance : Polar.positiveFinite (.num ransHoldRelativeTolerance) = true := by
      rw [Polar.positiveFinite, JsValue.finiteAnd, JsValue.finite?, if_pos tolerance_finite, Option.any_some, hpositive]
    have hfloor : Polar.positiveFinite (.num ransHoldAbsoluteFloor) = true := by
      rw [Polar.positiveFinite, JsValue.finiteAnd, JsValue.finite?, if_pos floor_finite, Option.any_some, hfloorPositive]
    rw [Polar.eachKey_eq_nil, List.forall_mem_cons, List.forall_mem_singleton]
    exact ⟨htolerance, hfloor⟩
  · rw [List.forall_mem_cons, List.forall_mem_cons, List.forall_mem_singleton]
    exact ⟨validateChannel_of_holds hcl "cl", validateChannel_of_holds hcd "cd",
      validateChannel_of_holds hcm "cm"⟩

omit hcl hcd hcm in
theorem window_of_certificateProblem {version : String} {count required start stop : ℤ}
    {tolerance floor : Double} {builtCl builtCd builtCm : RansHoldChannel}
    (h : certificateProblem version count required start stop tolerance floor builtCl builtCd builtCm = none) :
    0 ≤ start ∧ stop - start + 1 = count := by
  unfold certificateProblem at h
  split at h
  · next htexts =>
    simp only [List.append_eq_nil_iff, pushIf_eq_nil, decide_eq_false_iff_not] at htexts
    split at h
    · cases h
    · split at h
      · cases h
      · split at h
        · cases h
        · next hlength => exact ⟨by omega, by omega⟩
  · cases h

theorem certifyAnalysis_inv {certificate : RansHoldCertificate}
    (h : certifyAnalysis (verdict iterations cl cd cm) = .ok certificate) :
    isFinite cl.mean = true ∧ isFinite cd.mean = true ∧ isFinite cm.mean = true ∧
      0 ≤ iterations.headD 0 ∧ iterations.getLastD 0 - iterations.headD 0 = 199 := by
  obtain ⟨builtCl, hcl, h₁⟩ := bind_eq_ok.mp h
  obtain ⟨builtCd, hcd, h₂⟩ := bind_eq_ok.mp h₁
  obtain ⟨builtCm, hcm, h₃⟩ := bind_eq_ok.mp h₂
  unfold ransHoldCertificate at h₃
  split at h₃
  · next hproblem =>
    obtain ⟨hstart, hlength⟩ := window_of_certificateProblem hproblem
    have hwindow : iterations.getLastD 0 - iterations.headD 0 + 1 = 200 := hlength
    exact ⟨finite_of_channelProblem (channelProblem_of_ok hcl),
      finite_of_channelProblem (channelProblem_of_ok hcd),
      finite_of_channelProblem (channelProblem_of_ok hcm), hstart, by omega⟩
  · cases h₃

end Held

/-! ## The certificate from the raw file -/

/-- The call returns, and a certificate that it returns is accepted by the consumer and spans its
samples. -/
def ReturnsAccepted (runtime : PyRuntime) (file : ByteArray) : Prop :=
  ∃ result, ransHoldCertificateFromRaw runtime file = .ok result ∧
    ∀ certificate, result = some certificate →
      (∃ accepted, Polar.parseRansHoldCertificate certificate.toJson = .ok accepted) ∧
      certificate.endIteration - certificate.startIteration + 1 = certificate.sampleCount

/-- The file is text, and where its final window holds, its iterations are 200 consecutive whole numbers
that are not negative and no channel overflows. -/
def GapFreeWindow (runtime : PyRuntime) (file : ByteArray) : Prop :=
  file.utf8Decode?.isSome = true ∧
    ∀ columns iterations cl cd cm, FinalWindow runtime file columns iterations cl cd cm → Held cl cd cm →
      (∃ n : ℕ, iterations = consecutive n 200) ∧ isFinite cl.mean = true ∧ isFinite cd.mean = true ∧
        isFinite cm.mean = true

section Window
variable {runtime : PyRuntime} {file : ByteArray} {columns : HoldColumns} {iterations : List ℤ}
  {cl cd cm : RansHoldChannelAnalysis}

theorem FinalWindow.length (h : FinalWindow runtime file columns iterations cl cd cm) :
    iterations.length = 199 + 1 := by
  obtain ⟨header, rows, -, -, hcolumns⟩ := h.read
  rw [(holdIterations_ok h.iterations).1, List.length_map, (holdColumns_length hcolumns).1]

theorem FinalWindow.consecutive_iff (h : FinalWindow runtime file columns iterations cl cd cm) :
    (0 ≤ iterations.headD 0 ∧ iterations.getLastD 0 - iterations.headD 0 = 199) ↔
      ∃ n : ℕ, iterations = consecutive n 200 := by
  have hwindow := window_iff h.length (holdIterations_ok h.iterations).2.2
  constructor
  · rintro ⟨hstart, hlength⟩
    refine ⟨(iterations.headD 0).toNat, ?_⟩
    rw [Int.toNat_of_nonneg hstart]
    exact hwindow.mp hlength
  · rintro ⟨n, hn⟩
    have hhead : iterations.headD 0 = n := by
      rw [hn]
      rfl
    refine ⟨by omega, hwindow.mpr ?_⟩
    rw [hhead]
    exact hn

theorem FinalWindow.endpoints (h : FinalWindow runtime file columns iterations cl cd cm) :
    (lit (iterations.headD 0 : ℚ) : Double).val = .fin (iterations.headD 0) ∧
      (lit (iterations.getLastD 0 : ℚ) : Double).val = .fin (iterations.getLastD 0) := by
  have hlength := h.length
  cases hiterations : iterations with
  | nil => simp [hiterations] at hlength
  | cons a rest =>
    rw [hiterations] at h
    refine ⟨lit_iteration h.iterations List.mem_cons_self, lit_iteration h.iterations ?_⟩
    rw [List.getLastD_cons]
    exact List.getLastD_mem_cons

theorem FinalWindow.channels (h : FinalWindow runtime file columns iterations cl cd cm)
    (hheld : Held cl cd cm) (hcl : isFinite cl.mean = true) (hcd : isFinite cd.mean = true)
    (hcm : isFinite cm.mean = true) : ChannelHolds cl ∧ ChannelHolds cd ∧ ChannelHolds cm := by
  obtain ⟨header, rows, -, -, hcolumns⟩ := h.read
  obtain ⟨-, hclLength, hcdLength, hcmLength⟩ := holdColumns_length hcolumns
  have hne : ∀ values : List Double, values.length = 200 → values ≠ [] := by
    rintro values hlength rfl
    cases hlength
  exact ⟨channelHolds_of_finite (hne _ hclLength) h.cl (hheld cl (by simp)) hcl,
    channelHolds_of_finite (hne _ hcdLength) h.cd (hheld cd (by simp)) hcd,
    channelHolds_of_finite (hne _ hcmLength) h.cm (hheld cm (by simp)) hcm⟩

end Window

/-- The call returns an accepted certificate or none exactly on the files whose held final window has
consecutive iterations and finite means. -/
theorem rans_hold_returns_accepted_iff (runtime : PyRuntime) (file : ByteArray) :
    ReturnsAccepted runtime file ↔ GapFreeWindow runtime file := by
  constructor
  · rintro ⟨result, hresult, -⟩
    constructor
    · rw [Option.isSome_iff_ne_none]
      intro hnone
      rw [fromRaw_undecodable hnone] at hresult
      cases hresult
    · intro columns iterations cl cd cm hwindow hheld
      rw [fromRaw_held hwindow hheld] at hresult
      cases hcertificate : certifyAnalysis (verdict iterations cl cd cm) with
      | error e =>
        rw [hcertificate] at hresult
        cases hresult
      | ok certificate =>
        obtain ⟨hcl, hcd, hcm, hstart, hlength⟩ := certifyAnalysis_inv hcertificate
        exact ⟨hwindow.consecutive_iff.mp ⟨hstart, hlength⟩, hcl, hcd, hcm⟩
  · rintro ⟨hdecode, hgapFree⟩
    obtain ⟨text, htext⟩ := Option.isSome_iff_exists.mp hdecode
    by_cases hany : ∃ columns iterations cl cd cm,
        FinalWindow runtime file columns iterations cl cd cm ∧ Held cl cd cm
    · obtain ⟨columns, iterations, cl, cd, cm, hwindow, hheld⟩ := hany
      obtain ⟨hconsecutive, hclMean, hcdMean, hcmMean⟩ := hgapFree _ _ _ _ _ hwindow hheld
      obtain ⟨hstart, hlength⟩ := hwindow.consecutive_iff.mpr hconsecutive
      obtain ⟨hcl, hcd, hcm⟩ := hwindow.channels hheld hclMean hcdMean hcmMean
      refine ⟨some (builtCertificate hcl hcd hcm hstart hlength), ?_, ?_⟩
      · rw [fromRaw_held hwindow hheld, certifyAnalysis_of_window hcl hcd hcm hstart hlength]
        rfl
      · intro certificate hsome
        cases hsome
        refine ⟨builtCertificate_accepted hcl hcd hcm hstart hlength hwindow.endpoints.1
          hwindow.endpoints.2, ?_⟩
        show iterations.getLastD 0 - iterations.headD 0 + 1 = 200
        omega
    · refine ⟨none, fromRaw_not_held htext ?_, ?_⟩
      · intro columns iterations cl cd cm hwindow hheld
        exact hany ⟨columns, iterations, cl, cd, cm, hwindow, hheld⟩
      · intro certificate hsome
        cases hsome

/-! ## Generated text -/

section Text
variable {line word rest acc : List Char} {c : Char}

theorem splitLines_cons (h : ∀ c ∈ line, pyLineBreak c = false) :
    splitLines acc (line ++ '\n' :: rest) = (acc.reverse ++ line) :: splitLines [] rest := by
  induction line generalizing acc with
  | nil =>
    rw [List.nil_append, splitLines, if_pos (by decide), List.append_nil]
    simp
  | cons c line ih =>
    obtain ⟨hc, hline⟩ := List.forall_mem_cons.mp h
    rw [List.cons_append, splitLines, if_neg (by rw [hc]; exact Bool.false_ne_true), ih hline, List.reverse_cons,
      List.append_assoc, List.singleton_append]
    rintro rest' rfl
    cases hc

theorem splitLines_last (h : ∀ c ∈ line, pyLineBreak c = false) (hne : line ≠ []) : splitLines [] line = [line] := by
  have hrun : ∀ (line acc : List Char), (∀ c ∈ line, pyLineBreak c = false) → acc.reverse ++ line ≠ [] →
      splitLines acc line = [acc.reverse ++ line] := by
    intro line
    induction line with
    | nil =>
      intro acc _ hne
      rw [splitLines, if_neg (by simpa using hne), List.append_nil]
    | cons c line ih =>
      intro acc h hne
      obtain ⟨hc, hline⟩ := List.forall_mem_cons.mp h
      rw [splitLines, if_neg (by rw [hc]; exact Bool.false_ne_true), ih _ hline (by simp), List.reverse_cons,
        List.append_assoc, List.singleton_append]
      rintro rest' rfl
      cases hc
  exact hrun line [] h hne

theorem splitWords_cons (h : ∀ c ∈ word, pySpace c = false) (hne : acc.reverse ++ word ≠ []) :
    splitWords acc (word ++ ' ' :: rest) = (acc.reverse ++ word) :: splitWords [] rest := by
  induction word generalizing acc with
  | nil =>
    rw [List.nil_append, splitWords, if_pos (by decide), if_neg (by simpa using hne), List.append_nil]
  | cons c word ih =>
    obtain ⟨hc, hword⟩ := List.forall_mem_cons.mp h
    rw [List.cons_append, splitWords, if_neg (by rw [hc]; exact Bool.false_ne_true), ih hword (by simp),
      List.reverse_cons, List.append_assoc, List.singleton_append]

theorem not_space_of_isDigit (h : c.isDigit = true) : pySpace c = false ∧ pyLineBreak c = false := by
  have hrange : 48 ≤ c.toNat ∧ c.toNat ≤ 57 := by simpa [Char.isDigit, UInt32.le_iff_toNat_le] using h
  obtain ⟨hlow, hhigh⟩ := hrange
  constructor
  · simp [pySpace]
    omega
  · simp [pyLineBreak]
    omega

theorem notMem_of_all {p : Char → Bool} (h : line.all (fun c => !p c) = true) : ∀ c ∈ line, p c = false :=
  fun c hc => (Bool.not_eq_true' _).mp (List.all_eq_true.mp h c hc)

theorem strip_of_ends {d : Char} (hc : pySpace c = false) (hd : pySpace d = false) :
    strip (c :: (line ++ [d])) = c :: (line ++ [d]) := by
  rw [strip, List.dropWhile_cons_of_neg (by rw [hc]; exact Bool.false_ne_true), ← List.cons_append,
    List.reverse_append, List.reverse_singleton, List.singleton_append,
    List.dropWhile_cons_of_neg (by rw [hd]; exact Bool.false_ne_true), List.reverse_cons, List.reverse_reverse]

end Text

theorem digits_isDigit (n : ℕ) : ∀ c ∈ Nat.toDigits 10 n, c.isDigit = true :=
  fun _ hc => Nat.isDigit_of_mem_toDigits (by decide) (by decide) hc

theorem toDigits_isDigits (n : ℕ) :
    ((Nat.toDigits 10 n).isEmpty || (Nat.toDigits 10 n).any fun c => !c.isDigit) = false := by
  rw [Bool.or_eq_false_iff, List.any_eq_false]
  exact ⟨by simp, fun c hc => by simp [digits_isDigit n c hc]⟩

def wholeDouble (n : ℕ) : Double := if h : n ≤ 2 ^ 53 then ⟨.fin n, Double.lit_natCast h⟩ else lit n

def digitsRuntime : PyRuntime where
  float word := if word.isEmpty || word.any (fun c => !c.isDigit) then none
    else some (wholeDouble (Nat.ofDigitChars 10 word 0))
  sum values := values.foldl add (lit 0)

def gappedText : List Char :=
  "# Time Cd Cl Cm\n".toList ++
    (List.range 200).flatMap (fun i => Nat.toDigits 10 (2 * i) ++ " 0 0 0\n".toList)

def zerosLine (n : ℕ) : List Char := Nat.toDigits 10 n ++ " 0 0 0".toList

theorem zerosLine_noBreak (n : ℕ) : ∀ c ∈ zerosLine n, pyLineBreak c = false := by
  intro c hc
  obtain hc | hc := List.mem_append.mp hc
  · exact (not_space_of_isDigit (digits_isDigit n c hc)).2
  · exact notMem_of_all (by decide : (" 0 0 0".toList.all fun c => !pyLineBreak c) = true) c hc

theorem tokensOf_zerosLine (n : ℕ) : tokensOf (zerosLine n) = [Nat.toDigits 10 n, ['0'], ['0'], ['0']] := by
  have hdigits : (Nat.toDigits 10 n).map (fun c => if c = '\t' then ' ' else c) = Nat.toDigits 10 n := by
    refine (List.map_congr_left fun c hc => if_neg ?_).trans (List.map_id' _)
    rintro rfl
    exact absurd (digits_isDigit n _ hc) (by decide)
  have hzeros : " 0 0 0".toList.map (fun c => if c = '\t' then ' ' else c) = ' ' :: "0 0 0".toList := by decide
  have hwords : splitWords [] "0 0 0".toList = [['0'], ['0'], ['0']] := by decide
  rw [tokensOf, zerosLine, List.map_append, hdigits, hzeros,
    splitWords_cons (fun c hc => (not_space_of_isDigit (digits_isDigit n c hc)).1) (by simp), hwords]
  rfl

theorem strip_zerosLine (n : ℕ) : strip (zerosLine n) = zerosLine n ∧ ∃ c rest, zerosLine n = c :: rest ∧ c.isDigit = true := by
  obtain ⟨c, digits, hdigits⟩ := List.exists_cons_of_ne_nil (show Nat.toDigits 10 n ≠ [] by simp)
  have hc : c.isDigit = true := digits_isDigit n c (by rw [hdigits]; exact List.mem_cons_self)
  have hline : zerosLine n = c :: ((digits ++ " 0 0 ".toList) ++ ['0']) := by
    rw [zerosLine, hdigits, List.append_assoc]
    rfl
  refine ⟨?_, c, _, hline, hc⟩
  rw [hline]
  exact strip_of_ends (not_space_of_isDigit hc).1 (by decide)

theorem strictRows_zerosLine (header : List (List Char)) (rows : List (List Double)) (n : ℕ) (rest : List (List Char)) :
    strictRows digitsRuntime header rows (zerosLine n :: rest) =
      strictRows digitsRuntime header (rows ++ [[wholeDouble n, wholeDouble 0, wholeDouble 0, wholeDouble 0]]) rest := by
  obtain ⟨hstrip, c, line, hline, hc⟩ := strip_zerosLine n
  have hvalues : (tokensOf (zerosLine n)).mapM digitsRuntime.float =
      some [wholeDouble n, wholeDouble 0, wholeDouble 0, wholeDouble 0] := by
    have hn : digitsRuntime.float (Nat.toDigits 10 n) = some (wholeDouble n) := by
      show (if _ then none else some _) = _
      rw [toDigits_isDigits, Nat.ofDigitChars_ten_toDigits]
      rfl
    have hzero : digitsRuntime.float ['0'] = some (wholeDouble 0) := rfl
    rw [tokensOf_zerosLine]
    simp only [List.mapM_cons, List.mapM_nil, hn, hzero]
    rfl
  have hcomment : ¬(zerosLine n).head? = some '#' := by
    rw [hline, List.head?_cons]
    rintro ⟨⟩
    exact absurd hc (by decide)
  rw [strictRows, hstrip]
  dsimp only
  rw [if_neg (by rw [hline]; exact Bool.false_ne_true), if_neg hcomment, hvalues]

theorem strictRows_zeros (numbers : List ℕ) (header : List (List Char)) (rows : List (List Double)) :
    strictRows digitsRuntime header rows (numbers.map fun i => zerosLine (2 * i)) =
      (header, some (rows ++ numbers.map fun i => [wholeDouble (2 * i), wholeDouble 0, wholeDouble 0, wholeDouble 0])) := by
  induction numbers generalizing rows with
  | nil => rw [List.map_nil, List.map_nil, List.append_nil, strictRows]
  | cons i numbers ih =>
    rw [List.map_cons, strictRows_zerosLine, ih, List.append_assoc, List.singleton_append, List.map_cons]

theorem splitLines_zeros (numbers : List ℕ) :
    splitLines [] (numbers.flatMap fun i => Nat.toDigits 10 (2 * i) ++ " 0 0 0\n".toList) =
      numbers.map fun i => zerosLine (2 * i) := by
  induction numbers with
  | nil => rfl
  | cons i numbers ih =>
    have hend : " 0 0 0\n".toList = " 0 0 0".toList ++ ['\n'] := by decide
    rw [List.flatMap_cons, List.map_cons, ← ih, hend, ← List.append_assoc, List.append_assoc, List.singleton_append]
    exact splitLines_cons (zerosLine_noBreak _)

theorem gapped_rows :
    strictRows digitsRuntime [] [] (splitLines [] gappedText) =
      (["Time", "Cd", "Cl", "Cm"].map String.toList,
        some ((List.range 200).map (fun i => [wholeDouble (2 * i), wholeDouble 0, wholeDouble 0, wholeDouble 0]))) := by
  have hheader : ∀ rest : List (List Char), strictRows digitsRuntime [] [] ("# Time Cd Cl Cm".toList :: rest) =
      strictRows digitsRuntime (["Time", "Cd", "Cl", "Cm"].map String.toList) [] rest := by
    intro rest
    have hstrip : strip "# Time Cd Cl Cm".toList = "# Time Cd Cl Cm".toList := by decide
    have htokens : tokensOf (strip ("# Time Cd Cl Cm".toList.dropWhile fun c => c == '#')) =
        ["Time", "Cd", "Cl", "Cm"].map String.toList := by decide
    rw [strictRows, hstrip]
    dsimp only
    rw [if_neg (by decide), if_pos (by decide), htokens, if_pos (by decide)]
  have hbreaks : ∀ c ∈ "# Time Cd Cl Cm".toList, pyLineBreak c = false := notMem_of_all (by decide)
  have hend : gappedText = "# Time Cd Cl Cm".toList ++ '\n' ::
      (List.range 200).flatMap fun i => Nat.toDigits 10 (2 * i) ++ " 0 0 0\n".toList := rfl
  have hlines : splitLines [] gappedText = "# Time Cd Cl Cm".toList :: (List.range 200).map fun i => zerosLine (2 * i) :=
    (congrArg _ hend).trans ((splitLines_cons hbreaks).trans (congrArg _ (splitLines_zeros _)))
  exact (congrArg _ hlines).trans ((hheader _).trans (strictRows_zeros _ _ _))

theorem wholeDouble_val {n : ℕ} (h : n ≤ 2 ^ 53) : (wholeDouble n).val = .fin n := by rw [wholeDouble, dif_pos h]

theorem isFinite_wholeDouble {n : ℕ} (h : n ≤ 2 ^ 53) : isFinite (wholeDouble n) = true := by
  show (wholeDouble n).val.isFinite = true
  rw [wholeDouble_val h]
  rfl

theorem holdIterations_whole {numbers : List ℕ} (h : ∀ n ∈ numbers, n ≤ 2 ^ 53)
    (hincreasing : ((numbers.map ((↑) : ℕ → ℤ)).zip (numbers.map ((↑) : ℕ → ℤ)).tail).any
      (fun pair => decide (pair.2 ≤ pair.1)) = false) :
    holdIterations (numbers.map wholeDouble) = some (numbers.map (↑)) := by
  have hround : ∀ n ∈ numbers, roundHalfEven (wholeDouble n).value = n := by
    intro n hn
    rw [Double.value_of_val (wholeDouble_val (h n hn))]
    exact_mod_cast roundHalfEven_intCast n
  have hiterations : (numbers.map wholeDouble).map (fun x => roundHalfEven x.value) = numbers.map (↑) := by
    rw [List.map_map]
    exact List.map_congr_left hround
  have hfinite : (numbers.map wholeDouble).any (fun x => !isFinite x) = false := by
    rw [List.any_map, List.any_eq_false]
    intro n hn
    exact Bool.not_eq_true _ ▸ (by rw [Function.comp_apply, isFinite_wholeDouble (h n hn)]; rfl)
  have hwhole : (numbers.map wholeDouble).any (fun x =>
      lt (lit (1 / 10 ^ 9)) (abs (sub x (lit (roundHalfEven x.value : ℚ))))) = false := by
    rw [List.any_map, List.any_eq_false]
    intro n hn
    have hn' := wholeDouble_val (h n hn)
    have hlit : (lit ((roundHalfEven (wholeDouble n).value : ℤ) : ℚ) : Double).val = .fin n := by
      rw [hround n hn]
      exact_mod_cast Double.lit_natCast (h n hn)
    have hsub : (sub (wholeDouble n) (lit ((roundHalfEven (wholeDouble n).value : ℤ) : ℚ))).val = .fin 0 := by
      show round64 ((wholeDouble n).val.add (lit ((roundHalfEven (wholeDouble n).value : ℤ) : ℚ) : Double).val.neg) = _
      rw [hn', hlit]
      show round64 (.fin ((n : ℚ) + -n)) = _
      rw [add_neg_cancel]
      exact Double.lit_zero
    have habs := Double.abs_val hsub
    rw [abs_zero] at habs
    have hslack : Double.Nonneg (lit (1 / 10 ^ 9)) := Double.round64_nonneg (by norm_num)
    obtain hinf | ⟨q, hq, hnonneg⟩ := hslack
    · show ¬(lit (1 / 10 ^ 9) : Double).val.lt (abs (sub _ _) : Double).val = true
      rw [hinf, habs]
      exact Bool.false_ne_true
    · exact fun hlt => absurd ((Double.lt_iff hq habs).mp hlt) (not_lt.mpr hnonneg)
  rw [holdIterations, hiterations]
  rw [hfinite, hwhole, hincreasing]
  rfl

def zeroChannel (count : ℕ) : RansHoldChannelAnalysis :=
  let mean := div (lit 0) (lit count)
  let peakToPeak := sub (wholeDouble 0) (wholeDouble 0)
  ⟨mean, wholeDouble 0, wholeDouble 0, peakToPeak, div peakToPeak (add (abs mean) ransHoldAbsoluteFloor)⟩

theorem holdChannel_zeros {numbers : List ℕ} (hne : numbers ≠ []) :
    holdChannel digitsRuntime ransHoldAbsoluteFloor (numbers.map fun _ => wholeDouble 0) =
      some (zeroChannel numbers.length) := by
  obtain ⟨n, rest, rfl⟩ := List.exists_cons_of_ne_nil hne
  have hfinite : ((n :: rest).map fun _ => wholeDouble 0).any (fun x => !isFinite x) = false := by
    rw [List.any_map, List.any_eq_false]
    intro _ _
    rw [Function.comp_apply, isFinite_wholeDouble (Nat.zero_le _)]
    exact Bool.false_ne_true
  have hsum : ∀ numbers : List ℕ, (numbers.map fun _ => wholeDouble 0).foldl add (lit 0) = (lit 0 : Double) := by
    have hadd : add (lit 0) (wholeDouble 0) = (lit 0 : Double) := by
      have hval : (add (lit 0) (wholeDouble 0)).val = round64 (.fin (0 + 0)) := by
        show round64 ((lit 0 : Double).val.add (wholeDouble 0).val) = _
        rw [Double.lit_zero, wholeDouble_val (Nat.zero_le _)]
        rfl
      rw [add_zero] at hval
      exact Double.ext_val hval
    intro numbers
    induction numbers with
    | nil => rfl
    | cons n numbers ih => rw [List.map_cons, List.foldl_cons, hadd, ih]
  have hmin : ∀ numbers : List ℕ, (numbers.map fun _ => wholeDouble 0).foldl
      (fun least y => if lt y least then y else least) (wholeDouble 0) = wholeDouble 0 := by
    intro numbers
    induction numbers with
    | nil => rfl
    | cons n numbers ih => rw [List.map_cons, List.foldl_cons, ite_self, ih]
  have hmax : ∀ numbers : List ℕ, (numbers.map fun _ => wholeDouble 0).foldl
      (fun greatest y => if lt greatest y then y else greatest) (wholeDouble 0) = wholeDouble 0 := by
    intro numbers
    induction numbers with
    | nil => rfl
    | cons n numbers ih => rw [List.map_cons, List.foldl_cons, ite_self, ih]
  have hcount : digitsRuntime.sum ((n :: rest).map fun _ => wholeDouble 0) = lit 0 := hsum _
  have hleast : pyMin ((n :: rest).map fun _ => wholeDouble 0) = wholeDouble 0 := hmin rest
  have hgreatest : pyMax ((n :: rest).map fun _ => wholeDouble 0) = wholeDouble 0 := hmax rest
  rw [holdChannel, if_neg (by rw [hfinite]; exact Bool.false_ne_true), hcount, hleast, hgreatest, List.length_map]
  rfl

theorem holdColumns_zeros (numbers : List ℕ) :
    holdColumns (["Time", "Cd", "Cl", "Cm"].map String.toList)
        (numbers.map fun i => [wholeDouble (2 * i), wholeDouble 0, wholeDouble 0, wholeDouble 0]) numbers.length =
      some ⟨numbers.map fun i => wholeDouble (2 * i), numbers.map fun _ => wholeDouble 0,
        numbers.map fun _ => wholeDouble 0, numbers.map fun _ => wholeDouble 0⟩ := by
  have htime : columnIndex (["Time", "Cd", "Cl", "Cm"].map String.toList) "Time" = some 0 := by decide
  have hcl : columnIndex (["Time", "Cd", "Cl", "Cm"].map String.toList) "Cl" = some 2 := by decide
  have hcd : columnIndex (["Time", "Cd", "Cl", "Cm"].map String.toList) "Cd" = some 1 := by decide
  have hcm : cmIndex (["Time", "Cd", "Cl", "Cm"].map String.toList) = some 3 := by decide
  have hshort : (numbers.map fun i => [wholeDouble (2 * i), wholeDouble 0, wholeDouble 0, wholeDouble 0]).any
      (fun row => decide (row.length ≤ (max (max 0 2) (max 1 3) : ℕ))) = false := by
    rw [List.any_map, List.any_eq_false]
    exact fun _ _ => of_decide_eq_true rfl
  rw [holdColumns, htime, hcl, hcd, hcm]
  dsimp only
  rw [List.length_map, Nat.sub_self, List.drop_zero, if_neg (Nat.lt_irrefl _),
    if_neg (by rw [hshort]; exact Bool.false_ne_true), List.map_map, List.map_map, List.map_map, List.map_map]
  rfl

theorem gapped_window_raises :
    ransHoldCertificateFromRaw digitsRuntime gappedText.utf8Encode = .error (.validationError
      ["RANS hold certificate iteration window does not match sample count"]) := by
  have hiterations : holdIterations ((List.range 200).map fun i => wholeDouble (2 * i)) =
      some ((List.range 200).map fun i => ((2 * i : ℕ) : ℤ)) := by
    have hbound : ∀ n ∈ (List.range 200).map fun i => 2 * i, n ≤ 2 ^ 53 := by
      intro n hn
      obtain ⟨i, hi, rfl⟩ := List.mem_map.mp hn
      have hi := List.mem_range.mp hi
      omega
    have hwhole := holdIterations_whole hbound (by decide +kernel)
    rwa [List.map_map, List.map_map] at hwhole
  have hreduced : reduceRows digitsRuntime (["Time", "Cd", "Cl", "Cm"].map String.toList)
      ((List.range 200).map fun i => [wholeDouble (2 * i), wholeDouble 0, wholeDouble 0, wholeDouble 0])
      ransHoldRequiredSamples ransHoldRelativeTolerance ransHoldAbsoluteFloor =
        some (verdict ((List.range 200).map fun i => ((2 * i : ℕ) : ℤ)) (zeroChannel 200) (zeroChannel 200)
          (zeroChannel 200)) := by
    have hcolumns := holdColumns_zeros (List.range 200)
    have hchannel := @holdChannel_zeros (List.range 200) (by decide)
    rw [List.length_range] at hcolumns hchannel
    rw [reduceRows, show ransHoldRequiredSamples.toNat = 200 from rfl, hcolumns, Option.bind_some, hiterations,
      Option.bind_some, hchannel, Option.bind_some, Option.bind_some, Option.map_some]
    rfl
  have hread : strictDataRows digitsRuntime gappedText.utf8Encode = .ok (["Time", "Cd", "Cl", "Cm"].map String.toList,
      some ((List.range 200).map fun i => [wholeDouble (2 * i), wholeDouble 0, wholeDouble 0, wholeDouble 0])) := by
    rw [strictDataRows, List.utf8Decode?_utf8Encode]
    exact congrArg Except.ok gapped_rows
  rw [ransHoldCertificateFromRaw, analyze_of_rows hread (by simp), if_neg (by simp), hreduced]
  decide +kernel

end XFoilFoam.Engine
