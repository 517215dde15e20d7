import XFoilFoam.Polar.Evidence
import XFoilFoam.Foundations.Double
import XFoilFoam.Foundations.JsonText

/-! `parseRansHoldCertificate` of `rans-hold-certificate.ts` beside `ransHoldCertificateReasons` of
`polar-fit.ts`: the classifier restates every check of the parser, binds the window to 200 samples and the
displayed coefficients to its means. -/
namespace XFoilFoam.Polar
open Binary64
set_option autoImplicit false

/-! ## Parser -/

section Parser
variable {F : Type} [Binary64 F]

def ransHoldCertificateVersion : String := "rans-hold-v1"

def ransHoldChannelKeys : List String :=
  ["mean", "min_value", "max_value", "peak_to_peak", "relative_spread"]

def holdChannelErrors (value : JsValue F) (path : String) : List String :=
  exactKeys value ransHoldChannelKeys path " (contract drift)" ++
    eachKey value ransHoldChannelKeys JsValue.finite path "expected finite number" ++
    pushIf ((value.get "min_value").finiteAnd (fun minimum =>
        (value.get "max_value").finiteAnd (fun maximum => lt maximum minimum)))
      (path ++ ": max_value must be >= min_value") ++
    pushIf ((value.get "peak_to_peak").finiteAnd (fun x => lt x (lit 0)))
      (path ++ ".peak_to_peak: expected non-negative number") ++
    pushIf ((value.get "relative_spread").finiteAnd (fun x => lt x (lit 0)))
      (path ++ ".relative_spread: expected non-negative number") ++
    pushIf ((value.get "min_value").finiteAnd (fun minimum =>
        (value.get "max_value").finiteAnd (fun maximum =>
          (value.get "peak_to_peak").finiteAnd (fun peakToPeak =>
            !approximatelyEqual peakToPeak (sub maximum minimum)))))
      (path ++ ".peak_to_peak: must equal max_value - min_value")

def holdSpreadErrors (value absoluteFloor relativeTolerance : JsValue F) (path : String) : List String :=
  match (value.get "mean").finite?, (value.get "peak_to_peak").finite?,
    (value.get "relative_spread").finite?, absoluteFloor.finite?, relativeTolerance.finite? with
  | some mean, some peakToPeak, some relativeSpread, some floor, some tolerance =>
    pushIf (!approximatelyEqual relativeSpread (div peakToPeak (add (abs mean) floor)))
        (path ++ ".relative_spread: does not match the stamped final-window spread") ++
      pushIf (lt tolerance relativeSpread) (path ++ ".relative_spread: exceeds the stamped tolerance")
  | _, _, _, _, _ => []

def validateChannel (value : JsValue F) (channel : String) (absoluteFloor relativeTolerance : JsValue F) :
    List String :=
  let path := "rans_hold_certificate." ++ channel
  if !value.isRecord then [path ++ ": expected object"]
  else holdChannelErrors value path ++ holdSpreadErrors value absoluteFloor relativeTolerance path

def holdWindowErrors (value : JsValue F) : List String :=
  let samples := nonnegativeInteger (value.get "sample_count") 1
  let required := nonnegativeInteger (value.get "required_sample_count") 1
  let start := nonnegativeInteger (value.get "start_iteration") 0
  let stop := nonnegativeInteger (value.get "end_iteration") 0
  pushIf (!samples) "rans_hold_certificate.sample_count: expected positive integer" ++
    pushIf (!required) "rans_hold_certificate.required_sample_count: expected positive integer" ++
    pushIf (samples && required && (value.get "sample_count").finiteAnd (fun count =>
        (value.get "required_sample_count").finiteAnd (fun minimum => lt count minimum)))
      "rans_hold_certificate.sample_count: below required_sample_count" ++
    eachKey value ["start_iteration", "end_iteration"] (fun v => nonnegativeInteger v 0)
      "rans_hold_certificate" "expected non-negative integer" ++
    pushIf (start && stop && (value.get "start_iteration").finiteAnd (fun first =>
        (value.get "end_iteration").finiteAnd (fun last => lt last first)))
      "rans_hold_certificate: iteration window is reversed" ++
    pushIf (samples && start && stop && (value.get "sample_count").finiteAnd (fun count =>
        (value.get "start_iteration").finiteAnd (fun first =>
          (value.get "end_iteration").finiteAnd (fun last =>
            !eq (add (sub last first) (lit 1)) count))))
      "rans_hold_certificate: iteration window length must equal sample_count"

def parseRansHoldCertificate (value : JsValue F) : Except (List String) (JsValue F) :=
  if !value.isRecord then
    .error ["rans_hold_certificate: expected object, got " ++
      (if value.isNull then "null" else value.typeOf)]
  else
    match exactKeys value ransHoldCertificateKeys "rans_hold_certificate" " (contract drift)" ++
      pushIf (!(value.get "reducer_version").isStr ransHoldCertificateVersion)
        ("rans_hold_certificate.reducer_version: expected " ++ ransHoldCertificateVersion) ++
      holdWindowErrors value ++
      eachKey value ["relative_tolerance", "absolute_floor"] positiveFinite "rans_hold_certificate"
        "expected positive finite number" ++
      pushIf (!(value.get "certified").isTrue)
        "rans_hold_certificate.certified: expected true for a proof-bearing certificate" ++
      ["cl", "cd", "cm"].flatMap (fun channel =>
        validateChannel (value.get channel) channel (value.get "absolute_floor")
          (value.get "relative_tolerance")) with
    | [] => .ok value
    | errors => .error errors

end Parser

/-! ## Keys -/

section Keys
variable {F : Type}

theorem keys_nodup {v : JsValue F} (h : v.distinctKeys) : v.keys.Nodup := by
  cases v with
  | obj fields =>
    rw [JsValue.distinctKeys] at h
    exact h.1
  | _ => exact List.nodup_nil

theorem distinctKeys_get {v : JsValue F} (h : v.distinctKeys) (key : String) : (v.get key).distinctKeys := by
  cases v with
  | obj fields =>
    rw [JsValue.distinctKeys, JsValue.distinctKeysFields_iff] at h
    rw [JsValue.get]
    cases hfind : fields.find? (fun field => field.1 == key) with
    | none => simp [JsValue.distinctKeys]
    | some field => exact h.2 field (List.mem_of_find?_eq_some hfind)
  | _ => simp [JsValue.get, JsValue.distinctKeys]

theorem exactKeys_eq_nil_iff {v : JsValue F} {expected : List String} {path suffix : String}
    (hkeys : v.keys.Nodup) (hexpected : expected.Nodup) :
    exactKeys v expected path suffix = [] ↔ hasExactKeys v expected = true := by
  simp only [exactKeys, List.append_eq_nil_iff, List.map_eq_nil_iff, List.filter_eq_nil_iff, hasExactKeys,
    Bool.and_eq_true, beq_iff_eq, List.all_eq_true, JsValue.hasOwn, Bool.not_eq_true, Bool.not_eq_false',
    List.contains_iff_mem]
  constructor
  · rintro ⟨hpresent, hknown⟩
    have hperm : v.keys.Perm expected :=
      (List.perm_ext_iff_of_nodup hkeys hexpected).mpr (fun key => ⟨hknown key, hpresent key⟩)
    exact ⟨hperm.length_eq, hpresent⟩
  · rintro ⟨hlength, hpresent⟩
    refine ⟨hpresent, ?_⟩
    have hperm := (List.subperm_of_subset hexpected hpresent).perm_of_length_le hlength.le
    exact fun key hkey => hperm.mem_iff.mpr hkey

end Keys

/-! ## Channels -/

section Channels
variable {value : JsValue Double} {x y : Double}

theorem finite?_eq_some {F : Type} [Binary64 F] {v : JsValue F} {x : F} :
    v.finite? = some x ↔ v = .num x ∧ isFinite x = true := by
  cases v with
  | num z =>
    rw [JsValue.finite?]
    split
    · next h =>
      constructor
      · intro heq
        cases heq
        exact ⟨rfl, h⟩
      · rintro ⟨heq, -⟩
        cases heq
        rfl
    · next h =>
      constructor
      · intro heq
        cases heq
      · rintro ⟨heq, hfinite⟩
        cases heq
        exact absurd hfinite h
  | _ => simp [JsValue.finite?]

theorem isFinite_of_finite? {F : Type} [Binary64 F] {v : JsValue F} {x : F} (h : v.finite? = some x) :
    isFinite x = true := (finite?_eq_some.mp h).2

theorem isFinite_lit_zero : isFinite (lit 0 : Double) = true := by
  show (lit 0 : Double).val.isFinite = true
  rw [Double.lit_zero]
  rfl

structure HoldNumbers (value : JsValue Double) (mean minimum maximum peakToPeak relativeSpread : Double) :
    Prop where
  mean : (value.get "mean").finite? = some mean
  minimum : (value.get "min_value").finite? = some minimum
  maximum : (value.get "max_value").finite? = some maximum
  peakToPeak : (value.get "peak_to_peak").finite? = some peakToPeak
  relativeSpread : (value.get "relative_spread").finite? = some relativeSpread

def MeanWithin (channel : JsValue Double) : Prop :=
  ∃ mean minimum maximum : Double, channel.get "mean" = .num mean ∧
    channel.get "min_value" = .num minimum ∧ channel.get "max_value" = .num maximum ∧
    le minimum mean = true ∧ le mean maximum = true

def HoldChannelOk (mean minimum maximum peakToPeak relativeSpread floor tolerance : Double) : Prop :=
  le minimum mean = true ∧ le mean maximum = true ∧ le minimum maximum = true ∧
    le (lit 0) peakToPeak = true ∧ le (lit 0) relativeSpread = true ∧
    approximatelyEqual peakToPeak (sub maximum minimum) = true ∧
    approximatelyEqual relativeSpread (div peakToPeak (add (abs mean) floor)) = true ∧
    le relativeSpread tolerance = true

theorem validRansHoldChannel_iff {floor tolerance : Double} :
    validRansHoldChannel value floor tolerance = true ↔
      value.isRecord = true ∧ hasExactKeys value ransHoldChannelKeys = true ∧
        ∃ mean minimum maximum peakToPeak relativeSpread,
          HoldNumbers value mean minimum maximum peakToPeak relativeSpread ∧
          HoldChannelOk mean minimum maximum peakToPeak relativeSpread floor tolerance := by
  unfold validRansHoldChannel
  rw [Bool.and_eq_true, Bool.and_eq_true, and_assoc]
  refine and_congr_right fun _ => and_congr_right fun _ => ?_
  constructor
  · intro h
    split at h
    · next mean minimum maximum peakToPeak relativeSpread hmean hminimum hmaximum hpeak hspread =>
      simp only [Bool.and_eq_true, Bool.not_eq_true'] at h
      obtain ⟨⟨⟨⟨⟨⟨⟨hlow, hhigh⟩, horder⟩, hpeakSign⟩, hspreadSign⟩, hpeakEq⟩, hspreadEq⟩, hheld⟩ := h
      have hm := isFinite_of_finite? hmean
      have hmin := isFinite_of_finite? hminimum
      have hmax := isFinite_of_finite? hmaximum
      exact ⟨mean, minimum, maximum, peakToPeak, relativeSpread,
        ⟨hmean, hminimum, hmaximum, hpeak, hspread⟩,
        (Double.not_lt_iff hm hmin).mp hlow, (Double.not_lt_iff hmax hm).mp hhigh,
        (Double.not_lt_iff hmax hmin).mp horder,
        (Double.not_lt_iff (isFinite_of_finite? hpeak) isFinite_lit_zero).mp hpeakSign,
        (Double.not_lt_iff (isFinite_of_finite? hspread) isFinite_lit_zero).mp hspreadSign,
        hpeakEq, hspreadEq, hheld⟩
    · cases h
  · rintro ⟨mean, minimum, maximum, peakToPeak, relativeSpread, hnumbers, hok⟩
    obtain ⟨hlow, hhigh, horder, hpeakSign, hspreadSign, hpeakEq, hspreadEq, hheld⟩ := hok
    have hm := isFinite_of_finite? hnumbers.mean
    have hmin := isFinite_of_finite? hnumbers.minimum
    have hmax := isFinite_of_finite? hnumbers.maximum
    rw [hnumbers.mean, hnumbers.minimum, hnumbers.maximum, hnumbers.peakToPeak, hnumbers.relativeSpread]
    simp only [Bool.and_eq_true, Bool.not_eq_true']
    exact ⟨⟨⟨⟨⟨⟨⟨(Double.not_lt_iff hm hmin).mpr hlow, (Double.not_lt_iff hmax hm).mpr hhigh⟩,
      (Double.not_lt_iff hmax hmin).mpr horder⟩,
      (Double.not_lt_iff (isFinite_of_finite? hnumbers.peakToPeak) isFinite_lit_zero).mpr hpeakSign⟩,
      (Double.not_lt_iff (isFinite_of_finite? hnumbers.relativeSpread) isFinite_lit_zero).mpr
        hspreadSign⟩, hpeakEq⟩, hspreadEq⟩, hheld⟩

theorem finite_iff_exists {F : Type} [Binary64 F] {v : JsValue F} :
    v.finite = true ↔ ∃ x, v.finite? = some x := by
  rw [JsValue.finite, Option.isSome_iff_exists]

theorem finiteAnd_of {F : Type} [Binary64 F] {v : JsValue F} {x : F} (h : v.finite? = some x) (p : F → Bool) :
    v.finiteAnd p = p x := by
  rw [JsValue.finiteAnd, h, Option.any_some]

theorem holdErrors_iff {mean minimum maximum peakToPeak relativeSpread floor tolerance : Double}
    {absoluteFloor relativeTolerance : JsValue Double} {path : String}
    (hnumbers : HoldNumbers value mean minimum maximum peakToPeak relativeSpread)
    (hfloor : absoluteFloor.finite? = some floor) (htolerance : relativeTolerance.finite? = some tolerance) :
    holdChannelErrors value path ++ holdSpreadErrors value absoluteFloor relativeTolerance path = [] ↔
      exactKeys value ransHoldChannelKeys path " (contract drift)" = [] ∧
        le minimum maximum = true ∧ le (lit 0) peakToPeak = true ∧ le (lit 0) relativeSpread = true ∧
        approximatelyEqual peakToPeak (sub maximum minimum) = true ∧
        approximatelyEqual relativeSpread (div peakToPeak (add (abs mean) floor)) = true ∧
        le relativeSpread tolerance = true := by
  have hspread := isFinite_of_finite? hnumbers.relativeSpread
  have hfinite : ∀ key ∈ ransHoldChannelKeys, (value.get key).finite = true := by
    simp only [ransHoldChannelKeys, List.forall_mem_cons, finite_iff_exists, hnumbers.mean,
      hnumbers.minimum, hnumbers.maximum, hnumbers.peakToPeak, hnumbers.relativeSpread]
    simp
  have heach : eachKey value ransHoldChannelKeys JsValue.finite path "expected finite number" = [] :=
    eachKey_eq_nil.mpr hfinite
  unfold holdChannelErrors holdSpreadErrors
  rw [hnumbers.mean, hnumbers.peakToPeak, hnumbers.relativeSpread, hfloor, htolerance, heach,
    finiteAnd_of hnumbers.minimum, finiteAnd_of hnumbers.maximum, finiteAnd_of hnumbers.peakToPeak,
    finiteAnd_of hnumbers.relativeSpread, finiteAnd_of hnumbers.minimum, finiteAnd_of hnumbers.maximum,
    finiteAnd_of hnumbers.peakToPeak]
  simp only [List.append_eq_nil_iff, pushIf_eq_nil, Bool.not_eq_false', and_assoc, true_and]
  rw [Double.not_lt_iff (isFinite_of_finite? hnumbers.maximum) (isFinite_of_finite? hnumbers.minimum),
    Double.not_lt_iff (isFinite_of_finite? hnumbers.peakToPeak) isFinite_lit_zero,
    Double.not_lt_iff hspread isFinite_lit_zero,
    Double.not_lt_iff (isFinite_of_finite? htolerance) hspread]

theorem validateChannel_iff {channel : String} {floor tolerance : Double}
    {absoluteFloor relativeTolerance : JsValue Double} (hkeys : value.keys.Nodup)
    (hfloor : absoluteFloor.finite? = some floor) (htolerance : relativeTolerance.finite? = some tolerance) :
    (validateChannel value channel absoluteFloor relativeTolerance = [] ∧ MeanWithin value) ↔
      validRansHoldChannel value floor tolerance = true := by
  have hexpected : ransHoldChannelKeys.Nodup := by decide
  rw [validRansHoldChannel_iff, validateChannel]
  constructor
  · rintro ⟨herrors, mean', minimum', maximum', hmean', hminimum', hmaximum', hlow, hhigh⟩
    split at herrors
    · cases herrors
    · next hrecord =>
      have hfinite := (List.append_eq_nil_iff.mp herrors).1
      simp only [holdChannelErrors, List.append_eq_nil_iff, eachKey_eq_nil, ransHoldChannelKeys,
        List.forall_mem_cons, finite_iff_exists] at hfinite
      obtain ⟨⟨⟨⟨⟨-, ⟨mean, hmean⟩, ⟨minimum, hminimum⟩, ⟨maximum, hmaximum⟩, ⟨peak, hpeak⟩,
        ⟨spread, hspread⟩, -⟩, -⟩, -⟩, -⟩, -⟩ := hfinite
      have hnumbers : HoldNumbers value mean minimum maximum peak spread :=
        ⟨hmean, hminimum, hmaximum, hpeak, hspread⟩
      obtain ⟨hexact, hrest⟩ := (holdErrors_iff hnumbers hfloor htolerance).mp herrors
      rw [(finite?_eq_some.mp hmean).1] at hmean'
      rw [(finite?_eq_some.mp hminimum).1] at hminimum'
      rw [(finite?_eq_some.mp hmaximum).1] at hmaximum'
      cases hmean'
      cases hminimum'
      cases hmaximum'
      exact ⟨by simpa using hrecord, (exactKeys_eq_nil_iff hkeys hexpected).mp hexact, _, _, _, _, _,
        hnumbers, hlow, hhigh, hrest⟩
  · rintro ⟨hrecord, hexact, mean, minimum, maximum, peak, spread, hnumbers, hlow, hhigh, hrest⟩
    rw [if_neg (by simp [hrecord]), holdErrors_iff hnumbers hfloor htolerance]
    refine ⟨⟨(exactKeys_eq_nil_iff hkeys hexpected).mpr hexact, hrest⟩, mean, minimum, maximum, ?_⟩
    exact ⟨(finite?_eq_some.mp hnumbers.mean).1, (finite?_eq_some.mp hnumbers.minimum).1,
      (finite?_eq_some.mp hnumbers.maximum).1, hlow, hhigh⟩

end Channels

/-! ## The window -/

section Window
variable {value : JsValue Double}

theorem nonnegativeInteger_iff {F : Type} [Binary64 F] {v : JsValue F} {minimum : ℚ} :
    nonnegativeInteger v minimum = true ↔ ∃ x, integer? v = some x ∧ le (lit minimum) x = true := by
  rw [nonnegativeInteger, JsValue.finiteAnd, Option.any_eq_true]
  simp only [integer?, Option.filter_eq_some_iff, Bool.and_eq_true]
  constructor
  · rintro ⟨x, hx, hinteger, hle⟩
    exact ⟨x, ⟨hx, hinteger⟩, hle⟩
  · rintro ⟨x, ⟨hx, hinteger⟩, hle⟩
    exact ⟨x, hx, hinteger, hle⟩

theorem finite?_of_integer? {F : Type} [Binary64 F] {v : JsValue F} {x : F} (h : integer? v = some x) :
    v.finite? = some x := (Option.filter_eq_some_iff.mp h).1

/-- A window of 200 samples and its tolerances, as both stages read them. -/
structure HoldWindow (value : JsValue Double) (tolerance floor : Double) : Prop where
  count : ∃ x, integer? (value.get "sample_count") = some x ∧ eq x (lit 200) = true ∧
    ∃ first last, integer? (value.get "start_iteration") = some first ∧
      integer? (value.get "end_iteration") = some last ∧ le (lit 0) first = true ∧
      le first last = true ∧ eq (add (sub last first) (lit 1)) x = true
  required : ∃ x, integer? (value.get "required_sample_count") = some x ∧ eq x (lit 200) = true
  tolerance : (value.get "relative_tolerance").finite? = some tolerance ∧ lt (lit 0) tolerance = true
  floor : (value.get "absolute_floor").finite? = some floor ∧ lt (lit 0) floor = true

theorem validRansHoldWindow_iff :
    validRansHoldWindow value = true ↔
      (value.get "reducer_version").isStr "rans-hold-v1" = true ∧ (value.get "certified").isTrue = true ∧
        ∃ tolerance floor, HoldWindow value tolerance floor ∧
          ∀ name ∈ ["cl", "cd", "cm"], validRansHoldChannel (value.get name) floor tolerance = true := by
  unfold validRansHoldWindow
  rw [Bool.and_eq_true, Bool.and_eq_true, and_assoc]
  refine and_congr_right fun _ => and_congr_right fun _ => ?_
  constructor
  · intro h
    split at h
    · next count required first last tolerance floor hcount hrequired hfirst hlast htolerance hfloor =>
      simp only [Bool.and_eq_true, Bool.not_eq_true'] at h
      obtain ⟨⟨⟨⟨⟨⟨⟨⟨⟨hcount', hrequired'⟩, hfirst'⟩, horder⟩, hlength⟩, htolerance'⟩, hfloor'⟩, hcl⟩, hcd⟩,
        hcm⟩ := h
      have hfirstFinite := isFinite_of_finite? (finite?_of_integer? hfirst)
      have hlastFinite := isFinite_of_finite? (finite?_of_integer? hlast)
      refine ⟨tolerance, floor, ⟨⟨count, hcount, hcount', first, last, hfirst, hlast, ?_, ?_, hlength⟩,
        ⟨required, hrequired, hrequired'⟩, ⟨htolerance, ?_⟩, ⟨hfloor, ?_⟩⟩, ?_⟩
      · exact (Double.not_lt_iff hfirstFinite isFinite_lit_zero).mp hfirst'
      · exact (Double.not_lt_iff hlastFinite hfirstFinite).mp horder
      · exact (Double.not_le_iff (isFinite_of_finite? htolerance) isFinite_lit_zero).mp htolerance'
      · exact (Double.not_le_iff (isFinite_of_finite? hfloor) isFinite_lit_zero).mp hfloor'
      · simp [hcl, hcd, hcm]
    · cases h
  · rintro ⟨tolerance, floor, hwindow, hchannels⟩
    obtain ⟨count, hcount, hcount', first, last, hfirst, hlast, hfirst', horder, hlength⟩ := hwindow.count
    obtain ⟨required, hrequired, hrequired'⟩ := hwindow.required
    simp only [List.forall_mem_cons, List.not_mem_nil, false_implies, implies_true, and_true] at hchannels
    have hfirstFinite := isFinite_of_finite? (finite?_of_integer? hfirst)
    have hlastFinite := isFinite_of_finite? (finite?_of_integer? hlast)
    rw [hcount, hrequired, hfirst, hlast, hwindow.tolerance.1, hwindow.floor.1]
    simp only [Bool.and_eq_true, Bool.not_eq_true']
    refine ⟨⟨⟨⟨⟨⟨⟨⟨⟨hcount', hrequired'⟩, ?_⟩, ?_⟩, hlength⟩, ?_⟩, ?_⟩, hchannels.1⟩, hchannels.2.1⟩,
      hchannels.2.2⟩
    · exact (Double.not_lt_iff hfirstFinite isFinite_lit_zero).mpr hfirst'
    · exact (Double.not_lt_iff hlastFinite hfirstFinite).mpr horder
    · exact (Double.not_le_iff (isFinite_of_finite? hwindow.tolerance.1) isFinite_lit_zero).mpr
        hwindow.tolerance.2
    · exact (Double.not_le_iff (isFinite_of_finite? hwindow.floor.1) isFinite_lit_zero).mpr
        hwindow.floor.2

theorem lit_twoHundred : (lit (200 : ℚ) : Double).val = .fin 200 := by
  exact_mod_cast Double.lit_natCast (show 200 ≤ 2 ^ 53 by norm_num)

theorem one_le_of_twoHundred {x : Double} (h : eq x (lit 200) = true) : le (lit 1) x = true := by
  have hone : (lit (1 : ℚ) : Double).val = .fin 1 := Double.lit_one
  exact (Double.le_iff hone (Double.val_of_eq h lit_twoHundred)).mpr (by norm_num)

theorem holdWindowErrors_iff {count required first last : Double}
    (hcount : integer? (value.get "sample_count") = some count) (hcount' : eq count (lit 200) = true)
    (hrequired : integer? (value.get "required_sample_count") = some required)
    (hrequired' : eq required (lit 200) = true)
    (hfirst : integer? (value.get "start_iteration") = some first)
    (hlast : integer? (value.get "end_iteration") = some last)
    (hfirst' : le (lit 0) first = true) (hlast' : le (lit 0) last = true) :
    holdWindowErrors value = [] ↔
      le first last = true ∧ eq (add (sub last first) (lit 1)) count = true := by
  have hsamples : nonnegativeInteger (value.get "sample_count") 1 = true :=
    nonnegativeInteger_iff.mpr ⟨count, hcount, one_le_of_twoHundred hcount'⟩
  have hneeded : nonnegativeInteger (value.get "required_sample_count") 1 = true :=
    nonnegativeInteger_iff.mpr ⟨required, hrequired, one_le_of_twoHundred hrequired'⟩
  have hstart : nonnegativeInteger (value.get "start_iteration") 0 = true :=
    nonnegativeInteger_iff.mpr ⟨first, hfirst, hfirst'⟩
  have hstop : nonnegativeInteger (value.get "end_iteration") 0 = true :=
    nonnegativeInteger_iff.mpr ⟨last, hlast, hlast'⟩
  have henough : lt count required = false := by
    rw [← Bool.not_eq_true, Double.lt_iff (Double.val_of_eq hcount' lit_twoHundred)
      (Double.val_of_eq hrequired' lit_twoHundred)]
    exact lt_irrefl _
  have hcountAnd := finiteAnd_of (finite?_of_integer? hcount)
  have hrequiredAnd := finiteAnd_of (finite?_of_integer? hrequired)
  have hfirstAnd := finiteAnd_of (finite?_of_integer? hfirst)
  have hlastAnd := finiteAnd_of (finite?_of_integer? hlast)
  simp only [holdWindowErrors, eachKey, hsamples, hneeded, hstart, hstop, hcountAnd, hrequiredAnd,
    hfirstAnd, hlastAnd, henough, List.append_eq_nil_iff, pushIf_eq_nil, List.flatMap_cons,
    List.flatMap_nil, Bool.not_true, Bool.true_and, Bool.not_eq_false', and_true, true_and]
  rw [Double.not_lt_iff (isFinite_of_finite? (finite?_of_integer? hlast))
    (isFinite_of_finite? (finite?_of_integer? hfirst))]

theorem le_zero_of_le {first last : Double} (hfirst : isFinite first = true) (hlast : isFinite last = true)
    (hfirst' : le (lit 0) first = true) (horder : le first last = true) : le (lit 0) last = true := by
  have hzero := Double.val_of_finite isFinite_lit_zero
  have hf := Double.val_of_finite hfirst
  have hl := Double.val_of_finite hlast
  exact (Double.le_iff hzero hl).mpr
    (((Double.le_iff hzero hf).mp hfirst').trans ((Double.le_iff hf hl).mp horder))

theorem holdWindow_iff :
    (holdWindowErrors value = [] ∧
      eachKey value ["relative_tolerance", "absolute_floor"] positiveFinite "rans_hold_certificate"
        "expected positive finite number" = [] ∧
      (value.get "sample_count").isLit 200 = true ∧
      (value.get "required_sample_count").isLit 200 = true) ↔
    ∃ tolerance floor, HoldWindow value tolerance floor := by
  constructor
  · rintro ⟨herrors, htolerances, hcount200, hrequired200⟩
    have hintegers := herrors
    simp only [holdWindowErrors, eachKey, List.append_eq_nil_iff, pushIf_eq_nil, List.flatMap_cons,
      List.flatMap_nil, Bool.not_eq_false'] at hintegers
    obtain ⟨⟨⟨⟨⟨hsamples, hneeded⟩, -⟩, hstart, hstop, -⟩, -⟩, -⟩ := hintegers
    obtain ⟨count, hcount, -⟩ := nonnegativeInteger_iff.mp hsamples
    obtain ⟨required, hrequired, -⟩ := nonnegativeInteger_iff.mp hneeded
    obtain ⟨first, hfirst, hfirst'⟩ := nonnegativeInteger_iff.mp hstart
    obtain ⟨last, hlast, hlast'⟩ := nonnegativeInteger_iff.mp hstop
    rw [(finite?_eq_some.mp (finite?_of_integer? hcount)).1] at hcount200
    rw [(finite?_eq_some.mp (finite?_of_integer? hrequired)).1] at hrequired200
    obtain ⟨horder, hlength⟩ := (holdWindowErrors_iff hcount hcount200 hrequired hrequired200 hfirst hlast
      hfirst' hlast').mp herrors
    rw [eachKey_eq_nil, List.forall_mem_cons, List.forall_mem_singleton] at htolerances
    obtain ⟨htolerance, hfloor⟩ := htolerances
    obtain ⟨tolerance, htolerance, htolerance'⟩ := (Option.any_eq_true _ _).mp htolerance
    obtain ⟨floor, hfloor, hfloor'⟩ := (Option.any_eq_true _ _).mp hfloor
    exact ⟨tolerance, floor, ⟨⟨count, hcount, hcount200, first, last, hfirst, hlast, hfirst', horder,
      hlength⟩, ⟨required, hrequired, hrequired200⟩, ⟨htolerance, htolerance'⟩, ⟨hfloor, hfloor'⟩⟩⟩
  · rintro ⟨tolerance, floor, hwindow⟩
    obtain ⟨count, hcount, hcount', first, last, hfirst, hlast, hfirst', horder, hlength⟩ := hwindow.count
    obtain ⟨required, hrequired, hrequired'⟩ := hwindow.required
    have hlast' := le_zero_of_le (isFinite_of_finite? (finite?_of_integer? hfirst))
      (isFinite_of_finite? (finite?_of_integer? hlast)) hfirst' horder
    refine ⟨(holdWindowErrors_iff hcount hcount' hrequired hrequired' hfirst hlast hfirst' hlast').mpr
      ⟨horder, hlength⟩, ?_, ?_, ?_⟩
    · have htolerance : positiveFinite (value.get "relative_tolerance") = true := by
        rw [positiveFinite, finiteAnd_of hwindow.tolerance.1]
        exact hwindow.tolerance.2
      have hfloor : positiveFinite (value.get "absolute_floor") = true := by
        rw [positiveFinite, finiteAnd_of hwindow.floor.1]
        exact hwindow.floor.2
      rw [eachKey_eq_nil, List.forall_mem_cons, List.forall_mem_singleton]
      exact ⟨htolerance, hfloor⟩
    · rw [(finite?_eq_some.mp (finite?_of_integer? hcount)).1]
      exact hcount'
    · rw [(finite?_eq_some.mp (finite?_of_integer? hrequired)).1]
      exact hrequired'

end Window

/-! ## Agreement -/

section Agreement
variable {value : JsValue Double} {p : PolarEvidencePoint Double}

/-- A displayed coefficient equals the mean of its channel up to the shared tolerance. -/
def EqualsMean (coefficient : Option Double) (channel : JsValue Double) : Prop :=
  ∃ x mean : Double, coefficient = some x ∧ isFinite x = true ∧ channel.get "mean" = .num mean ∧
    isFinite mean = true ∧ approximatelyEqual x mean = true

theorem finiteOf_eq_some {x : Option Double} {y : Double} :
    finiteOf x = some y ↔ x = some y ∧ isFinite y = true := Option.filter_eq_some_iff

theorem coefficientsMatch_iff :
    coefficientsMatch p value = true ↔ EqualsMean p.cl (value.get "cl") ∧
      EqualsMean p.cd (value.get "cd") ∧ EqualsMean p.cm (value.get "cm") := by
  unfold coefficientsMatch
  constructor
  · intro h
    split at h
    · next cl cd cm clMean cdMean cmMean hcl hcd hcm hclMean hcdMean hcmMean =>
      simp only [Bool.and_eq_true] at h
      obtain ⟨⟨hclEq, hcdEq⟩, hcmEq⟩ := h
      have hmean : ∀ {x : Option Double} {y mean : Double} {channel : JsValue Double},
          finiteOf x = some y → (channel.get "mean").finite? = some mean →
          approximatelyEqual y mean = true → EqualsMean x channel := by
        intro x y mean channel hx hmean heq
        exact ⟨y, mean, (finiteOf_eq_some.mp hx).1, (finiteOf_eq_some.mp hx).2,
          (finite?_eq_some.mp hmean).1, (finite?_eq_some.mp hmean).2, heq⟩
      exact ⟨hmean hcl hclMean hclEq, hmean hcd hcdMean hcdEq, hmean hcm hcmMean hcmEq⟩
    · cases h
  · rintro ⟨⟨cl, clMean, hcl, hclFinite, hclGet, hclMean, hclEq⟩,
      ⟨cd, cdMean, hcd, hcdFinite, hcdGet, hcdMean, hcdEq⟩,
      ⟨cm, cmMean, hcm, hcmFinite, hcmGet, hcmMean, hcmEq⟩⟩
    rw [finiteOf_eq_some.mpr ⟨hcl, hclFinite⟩, finiteOf_eq_some.mpr ⟨hcd, hcdFinite⟩,
      finiteOf_eq_some.mpr ⟨hcm, hcmFinite⟩, finite?_eq_some.mpr ⟨hclGet, hclMean⟩,
      finite?_eq_some.mpr ⟨hcdGet, hcdMean⟩, finite?_eq_some.mpr ⟨hcmGet, hcmMean⟩]
    simp only [Bool.and_eq_true]
    exact ⟨⟨hclEq, hcdEq⟩, hcmEq⟩

theorem parseRansHoldCertificate_iff {certificate : JsValue Double} (hrecord : value.isRecord = true) :
    parseRansHoldCertificate value = .ok certificate ↔ certificate = value ∧
      exactKeys value ransHoldCertificateKeys "rans_hold_certificate" " (contract drift)" = [] ∧
      (value.get "reducer_version").isStr ransHoldCertificateVersion = true ∧
      holdWindowErrors value = [] ∧
      eachKey value ["relative_tolerance", "absolute_floor"] positiveFinite "rans_hold_certificate"
        "expected positive finite number" = [] ∧
      (value.get "certified").isTrue = true ∧
      ∀ name ∈ ["cl", "cd", "cm"], validateChannel (value.get name) name (value.get "absolute_floor")
        (value.get "relative_tolerance") = [] := by
  rw [parseRansHoldCertificate, if_neg (by simp [hrecord])]
  split
  · next herrors =>
    simp only [List.append_eq_nil_iff, pushIf_eq_nil, Bool.not_eq_false', List.flatMap_eq_nil_iff,
      and_assoc] at herrors
    constructor
    · intro h
      cases h
      exact ⟨rfl, herrors⟩
    · rintro ⟨rfl, -⟩
      rfl
  · next herrors =>
    constructor
    · intro h
      cases h
    · rintro ⟨-, hall⟩
      exfalso
      apply herrors
      simp only [List.append_eq_nil_iff, pushIf_eq_nil, Bool.not_eq_false', List.flatMap_eq_nil_iff,
        and_assoc]
      exact hall

theorem ransHoldCertificateReasons_eq_nil_iff (hsteady : isSteadyRansEvidence p = true)
    (hrecord : p.ransHoldCertificate.isRecord = true) :
    ransHoldCertificateReasons p = [] ↔
      hasExactKeys p.ransHoldCertificate ransHoldCertificateKeys = true ∧
        validRansHoldWindow p.ransHoldCertificate = true ∧
        coefficientsMatch p p.ransHoldCertificate = true := by
  have hundefined : p.ransHoldCertificate.isUndefined = false := by
    cases hvalue : p.ransHoldCertificate <;> simp_all [JsValue.isRecord, JsValue.isUndefined]
  have hnull : p.ransHoldCertificate.isNull = false := by
    cases hvalue : p.ransHoldCertificate <;> simp_all [JsValue.isRecord, JsValue.isNull]
  rw [ransHoldCertificateReasons, hsteady, hundefined, hnull, hrecord]
  cases hasExactKeys p.ransHoldCertificate ransHoldCertificateKeys <;>
    cases validRansHoldWindow p.ransHoldCertificate <;>
    cases coefficientsMatch p p.ransHoldCertificate <;> simp

/-- The classifier gives a steady point no hold reason exactly when the parser accepts its certificate
over 200 samples, the means lie between the extremes, and the point shows these means. -/
theorem hold_reasons_nil_iff_parsed (p : PolarEvidencePoint Double) (hsteady : isSteadyRansEvidence p = true)
    (hrecord : p.ransHoldCertificate.isRecord = true) (hkeys : p.ransHoldCertificate.distinctKeys) :
    ransHoldCertificateReasons p = [] ↔
      ∃ certificate, parseRansHoldCertificate p.ransHoldCertificate = .ok certificate ∧
        (certificate.get "certified").isTrue = true ∧
        (certificate.get "sample_count").isLit 200 = true ∧
        (certificate.get "required_sample_count").isLit 200 = true ∧
        (∀ name ∈ ["cl", "cd", "cm"], MeanWithin (certificate.get name)) ∧
        EqualsMean p.cl (certificate.get "cl") ∧ EqualsMean p.cd (certificate.get "cd") ∧
        EqualsMean p.cm (certificate.get "cm") := by
  have hexpected : ransHoldCertificateKeys.Nodup := by decide
  rw [ransHoldCertificateReasons_eq_nil_iff hsteady hrecord, validRansHoldWindow_iff, coefficientsMatch_iff]
  constructor
  · rintro ⟨hexact, ⟨hversion, hcertified, tolerance, floor, hwindow, hchannels⟩, hmatch⟩
    obtain ⟨hwindowErrors, htolerances, hcount, hrequired⟩ := holdWindow_iff.mpr ⟨tolerance, floor, hwindow⟩
    have hchannel : ∀ name ∈ ["cl", "cd", "cm"],
        validateChannel (p.ransHoldCertificate.get name) name (p.ransHoldCertificate.get "absolute_floor")
          (p.ransHoldCertificate.get "relative_tolerance") = [] ∧
        MeanWithin (p.ransHoldCertificate.get name) := by
      intro name hname
      exact (validateChannel_iff (keys_nodup (distinctKeys_get hkeys name)) hwindow.floor.1
        hwindow.tolerance.1).mpr (hchannels name hname)
    refine ⟨p.ransHoldCertificate, ?_, hcertified, hcount, hrequired, fun name hname =>
      (hchannel name hname).2, hmatch⟩
    exact (parseRansHoldCertificate_iff hrecord).mpr ⟨rfl,
      (exactKeys_eq_nil_iff (keys_nodup hkeys) hexpected).mpr hexact, hversion, hwindowErrors, htolerances,
      hcertified, fun name hname => (hchannel name hname).1⟩
  · rintro ⟨certificate, hparse, hcertified, hcount, hrequired, hmeans, hmatch⟩
    obtain ⟨rfl, hexact, hversion, hwindowErrors, htolerances, -, hchannels⟩ :=
      (parseRansHoldCertificate_iff hrecord).mp hparse
    obtain ⟨tolerance, floor, hwindow⟩ := holdWindow_iff.mp ⟨hwindowErrors, htolerances, hcount, hrequired⟩
    refine ⟨(exactKeys_eq_nil_iff (keys_nodup hkeys) hexpected).mp hexact,
      ⟨hversion, hcertified, tolerance, floor, hwindow, ?_⟩, hmatch⟩
    intro name hname
    exact (validateChannel_iff (keys_nodup (distinctKeys_get hkeys name)) hwindow.floor.1
      hwindow.tolerance.1).mp ⟨hchannels name hname, hmeans name hname⟩

end Agreement

def heldChannel (mean : ℚ) : JsValue Double :=
  .obj [("mean", .num (lit mean)), ("min_value", .num (lit mean)), ("max_value", .num (lit mean)),
    ("peak_to_peak", .num (lit 0)), ("relative_spread", .num (lit 0))]

def heldCertificate : JsValue Double :=
  .obj [("reducer_version", .str "rans-hold-v1"), ("sample_count", .num (lit 200)),
    ("required_sample_count", .num (lit 200)), ("start_iteration", .num (lit 801)),
    ("end_iteration", .num (lit 1000)), ("relative_tolerance", .num (lit (25 / 10000))),
    ("absolute_floor", .num (lit (1 / 1000))), ("certified", .bool true), ("cl", heldChannel (1 / 2)),
    ("cd", heldChannel (1 / 64)), ("cm", heldChannel (-1 / 32))]

def heldPoint : PolarEvidencePoint Double where
  a := lit 4
  cl := some (lit (1 / 2))
  cd := some (lit (1 / 64))
  cm := some (lit (-1 / 32))
  ld := some (lit 32)
  status := "done"
  source := "solved"
  regime := some .rans
  converged := true
  stalled := false
  unsteady := some false
  error := none
  failureDisposition := none
  finalResidual := none
  iterations := some (lit 1000)
  sourceGeometryCompatible := none
  hasForceHistory := false
  hasVideo := false
  frameTrack := .undefined
  uransCycleCertificate := .undefined
  noSheddingCertificate := .undefined
  aperiodicMeanCertificate := .undefined
  ransHoldCertificate := heldCertificate
  fidelity := some "rans"
  steadyHistory := .undefined
  qualityWarnings := none
  selectedArchiveInterpretation := .undefined

theorem heldCertificate_distinctKeys : heldCertificate.distinctKeys := by
  have hchannel : ∀ mean, (heldChannel mean).distinctKeys := by
    intro mean
    refine ⟨?_, trivial, trivial, trivial, trivial, trivial, trivial⟩
    show ["mean", "min_value", "max_value", "peak_to_peak", "relative_spread"].Nodup
    decide
  refine ⟨?_, trivial, trivial, trivial, trivial, trivial, trivial, trivial, trivial, hchannel _, hchannel _,
    hchannel _, trivial⟩
  show ransHoldCertificateKeys.Nodup
  decide

theorem hold_reasons_nil_held :
    ransHoldCertificateReasons heldPoint = [] ∧
      ∃ certificate, parseRansHoldCertificate heldCertificate = .ok certificate ∧
        (certificate.get "certified").isTrue = true ∧
        (certificate.get "sample_count").isLit 200 = true ∧
        (certificate.get "required_sample_count").isLit 200 = true ∧
        (∀ name ∈ ["cl", "cd", "cm"], MeanWithin (certificate.get name)) ∧
        EqualsMean heldPoint.cl (certificate.get "cl") ∧ EqualsMean heldPoint.cd (certificate.get "cd") ∧
        EqualsMean heldPoint.cm (certificate.get "cm") := by
  have hreasons : ransHoldCertificateReasons heldPoint = [] := by decide +kernel
  exact ⟨hreasons, (hold_reasons_nil_iff_parsed heldPoint rfl rfl heldCertificate_distinctKeys).mp hreasons⟩

end XFoilFoam.Polar
