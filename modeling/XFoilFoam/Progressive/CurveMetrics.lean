import XFoilFoam.Foundations.Extended
import XFoilFoam.Foundations.PiecewiseLinear

/-! The figures read off a progressive curve: `packages/core/src/progressive-curve-metrics.ts`. -/
namespace XFoilFoam.Progressive
open Binary64
set_option autoImplicit false

/-! ## The curve and its metrics -/

structure ProgressiveCurveSample (F : Type) where
  alpha : F
  cl : F
  cd : F
  cm : F

structure ProgressiveCurveMetrics (F : Type) where
  alphaMinimum : F
  alphaMaximum : F
  liftToDragMaximum : Option F
  alphaAtLiftToDragMaximum : Option F
  dragMinimum : F
  liftMaximum : F
  alphaAtLiftMaximum : F
  dragAtZeroLift : Option F
  momentAtZeroAlpha : Option F

section Code
variable {F : Type} [Binary64 F]

/-- What the guard refuses at a sample: a number that is not finite, drag that is not positive, an angle that does
not exceed the one before. -/
def refused (previous : Option (ProgressiveCurveSample F)) (sample : ProgressiveCurveSample F) : Bool :=
  !([sample.alpha, sample.cl, sample.cd, sample.cm].all isFinite) || le sample.cd (lit 0) ||
    previous.any fun p => le sample.alpha p.alpha

/-- `samples.some(...)`. -/
def anyRefused (previous : Option (ProgressiveCurveSample F)) : List (ProgressiveCurveSample F) → Bool
  | [] => false
  | sample :: rest => refused previous sample || anyRefused (some sample) rest

structure MetricsScan (F : Type) where
  liftToDragMaximum : Option F
  alphaAtLiftToDragMaximum : Option F
  dragMinimum : F
  liftMaximum : F
  alphaAtLiftMaximum : F
  momentAtZeroAlpha : Option F
  zeroLiftDrag : List F

/-- `-a / (b - a)`. -/
def crossingFraction (a b : F) : F := div (sub (lit 0) a) (sub b a)

/-- `a * (1 - fraction) + b * fraction`. -/
def blend (a b fraction : F) : F := add (mul a (sub (lit 1) fraction)) (mul b fraction)

def scanLiftToDrag (scan : MetricsScan F) (sample : ProgressiveCurveSample F) : MetricsScan F :=
  let ratio := div sample.cl sample.cd
  if lt (lit 0) sample.cl && isFinite ratio && scan.liftToDragMaximum.all (fun best => lt best ratio) then
    { scan with liftToDragMaximum := some ratio, alphaAtLiftToDragMaximum := some sample.alpha }
  else scan

def scanLift (scan : MetricsScan F) (sample : ProgressiveCurveSample F) : MetricsScan F :=
  if lt scan.liftMaximum sample.cl then
    { scan with liftMaximum := sample.cl, alphaAtLiftMaximum := sample.alpha }
  else scan

/-- The drag at the zeros of the lift that a sample ends: at itself, or between it and the one before. -/
def zeroLiftDrags (previous : Option (ProgressiveCurveSample F)) (sample : ProgressiveCurveSample F) : List F :=
  (if eq sample.cl (lit 0) then [sample.cd] else []) ++
    match previous with
    | none => []
    | some p =>
      if (lt p.cl (lit 0) && lt (lit 0) sample.cl) || (lt (lit 0) p.cl && lt sample.cl (lit 0)) then
        [blend p.cd sample.cd (crossingFraction p.cl sample.cl)]
      else []

/-- The moment at zero, when the sample is there or the zero lies between it and the one before. -/
def zeroAlphaMoment (previous : Option (ProgressiveCurveSample F)) (sample : ProgressiveCurveSample F) : Option F :=
  let atSample := if eq sample.alpha (lit 0) then some sample.cm else none
  match previous with
  | none => atSample
  | some p =>
    if lt p.alpha (lit 0) && lt (lit 0) sample.alpha then
      some (blend p.cm sample.cm (crossingFraction p.alpha sample.alpha))
    else atSample

def scanSample (scan : MetricsScan F) (previous : Option (ProgressiveCurveSample F))
    (sample : ProgressiveCurveSample F) : MetricsScan F :=
  let scan := scanLiftToDrag scan sample
  let scan := { scan with dragMinimum := min scan.dragMinimum sample.cd }
  let scan := scanLift scan sample
  { scan with
    momentAtZeroAlpha := (zeroAlphaMoment previous sample).or scan.momentAtZeroAlpha
    zeroLiftDrag := scan.zeroLiftDrag ++ zeroLiftDrags previous sample }

def scanSamples (scan : MetricsScan F) (previous : Option (ProgressiveCurveSample F)) :
    List (ProgressiveCurveSample F) → MetricsScan F
  | [] => scan
  | sample :: rest => scanSamples (scanSample scan previous sample) (some sample) rest

def metricsStart (first : ProgressiveCurveSample F) : MetricsScan F :=
  ⟨none, none, first.cd, first.cl, first.alpha, none, []⟩

/-- `list.length === 1 ? list[0] : null`. -/
def onlyOne : List F → Option F
  | [x] => some x
  | _ => none

def metricsOf (first last : ProgressiveCurveSample F) (scan : MetricsScan F) : ProgressiveCurveMetrics F where
  alphaMinimum := first.alpha
  alphaMaximum := last.alpha
  liftToDragMaximum := scan.liftToDragMaximum
  alphaAtLiftToDragMaximum := scan.alphaAtLiftToDragMaximum
  dragMinimum := scan.dragMinimum
  liftMaximum := scan.liftMaximum
  alphaAtLiftMaximum := scan.alphaAtLiftMaximum
  dragAtZeroLift := onlyOne scan.zeroLiftDrag
  momentAtZeroAlpha := scan.momentAtZeroAlpha

def progressiveCurveMetrics (samples : List (ProgressiveCurveSample F)) : Option (ProgressiveCurveMetrics F) :=
  match samples with
  | first :: second :: rest =>
    if anyRefused none samples then none
    else some (metricsOf first ((second :: rest).getLast (List.cons_ne_nil _ _))
      (scanSamples (metricsStart first) none samples))
  | _ => none

theorem scanSample_eq (scan : MetricsScan F) (previous : Option (ProgressiveCurveSample F))
    (sample : ProgressiveCurveSample F) :
    scanSample scan previous sample = {
      liftToDragMaximum := (scanLiftToDrag scan sample).liftToDragMaximum
      alphaAtLiftToDragMaximum := (scanLiftToDrag scan sample).alphaAtLiftToDragMaximum
      dragMinimum := min scan.dragMinimum sample.cd
      liftMaximum := (scanLift scan sample).liftMaximum
      alphaAtLiftMaximum := (scanLift scan sample).alphaAtLiftMaximum
      momentAtZeroAlpha := (zeroAlphaMoment previous sample).or scan.momentAtZeroAlpha
      zeroLiftDrag := scan.zeroLiftDrag ++ zeroLiftDrags previous sample } := by
  simp only [scanSample, scanLiftToDrag, scanLift]
  split_ifs <;> rfl

end Code

/-! ## Exact numbers -/

section Exact
open PiecewiseLinear
variable {K : Type} [Field K] [LinearOrder K]

def ProgressiveCurveSample.exactly (s : ProgressiveCurveSample K) : ProgressiveCurveSample (Extended K) :=
  ⟨.fin s.alpha, .fin s.cl, .fin s.cd, .fin s.cm⟩

structure Admissible (curve : List (ProgressiveCurveSample K)) : Prop where
  two : 2 ≤ curve.length
  increasing : Increasing ProgressiveCurveSample.alpha curve
  drag : ∀ s ∈ curve, 0 < s.cd

variable [FloorRing K] [IsStrictOrderedRing K] {p s : ProgressiveCurveSample K} {curve : List (ProgressiveCurveSample K)}

omit [IsStrictOrderedRing K] in
theorem refused_exactly (previous : Option (ProgressiveCurveSample K)) (s : ProgressiveCurveSample K) :
    refused (previous.map (·.exactly)) s.exactly = false ↔ 0 < s.cd ∧ ∀ p ∈ previous, p.alpha < s.alpha := by
  cases previous with
  | none => simp [refused, ProgressiveCurveSample.exactly]
  | some p => simp [refused, ProgressiveCurveSample.exactly]

omit [IsStrictOrderedRing K] in
theorem anyRefused_exactly (previous : Option (ProgressiveCurveSample K)) (curve : List (ProgressiveCurveSample K)) :
    anyRefused (previous.map (·.exactly)) (curve.map (·.exactly)) = false ↔
      (previous.toList ++ curve).IsChain (fun p q => p.alpha < q.alpha) ∧ ∀ s ∈ curve, 0 < s.cd := by
  induction curve generalizing previous with
  | nil => cases previous <;> simp [anyRefused]
  | cons s curve ih =>
    have hsome := ih (some s)
    rw [Option.map_some] at hsome
    rw [List.map_cons, anyRefused, Bool.or_eq_false_iff, refused_exactly, hsome, List.forall_mem_cons]
    cases previous with
    | none => simp [and_comm, and_left_comm]
    | some p => simp [List.isChain_cons_cons, and_comm, and_left_comm, and_assoc]

/-! ### Extremes -/

/-- The best samples seen: least drag, greatest lift, and the greatest ratio among those with lift. -/
structure BestSoFar (first : ProgressiveCurveSample K) (seen : List (ProgressiveCurveSample K))
    (scan : MetricsScan (Extended K)) : Prop where
  positive : ∀ q ∈ seen, 0 < q.cd
  drag : ∃ p ∈ first :: seen, scan.dragMinimum = .fin p.cd ∧ ∀ q ∈ first :: seen, p.cd ≤ q.cd
  lift : ∃ p ∈ first :: seen, scan.liftMaximum = .fin p.cl ∧ scan.alphaAtLiftMaximum = .fin p.alpha ∧
    ∀ q ∈ first :: seen, q.cl ≤ p.cl
  ratio : scan.liftToDragMaximum = none ∧ scan.alphaAtLiftToDragMaximum = none ∧ (∀ q ∈ seen, q.cl ≤ 0) ∨
    ∃ p ∈ seen, scan.liftToDragMaximum = some (.fin (p.cl / p.cd)) ∧
      scan.alphaAtLiftToDragMaximum = some (.fin p.alpha) ∧ 0 < p.cl ∧ ∀ q ∈ seen, q.cl / q.cd ≤ p.cl / p.cd

variable {first : ProgressiveCurveSample K} {seen : List (ProgressiveCurveSample K)} {scan : MetricsScan (Extended K)}
  {previous : Option (ProgressiveCurveSample (Extended K))}

omit [FloorRing K] [IsStrictOrderedRing K] in
theorem bestSoFar_start (first : ProgressiveCurveSample K) : BestSoFar first [] (metricsStart first.exactly) :=
  ⟨fun q hq => absurd hq List.not_mem_nil, ⟨first, List.mem_cons_self, rfl, by simp⟩,
    ⟨first, List.mem_cons_self, rfl, rfl, by simp⟩, .inl ⟨rfl, rfl, fun q hq => absurd hq List.not_mem_nil⟩⟩

theorem BestSoFar.next (h : BestSoFar first seen scan) (hs : 0 < s.cd) :
    BestSoFar first (seen ++ [s]) (scanSample scan previous s.exactly) := by
  rw [scanSample_eq]
  have hnew : s ∈ first :: (seen ++ [s]) := by simp
  have hold : ∀ q ∈ first :: seen, q ∈ first :: (seen ++ [s]) := by
    intro q hq
    rw [← List.cons_append]
    exact List.mem_append_left _ hq
  have hall : ∀ P : ProgressiveCurveSample K → Prop, (∀ q ∈ first :: seen, P q) → P s →
      ∀ q ∈ first :: (seen ++ [s]), P q := by
    intro P hseen hlast q hq
    rw [← List.cons_append, List.mem_append, List.mem_singleton] at hq
    obtain hq | rfl := hq
    · exact hseen q hq
    · exact hlast
  have hseen : ∀ P : ProgressiveCurveSample K → Prop, (∀ q ∈ seen, P q) → P s → ∀ q ∈ seen ++ [s], P q := by
    intro P hseen hlast q hq
    rw [List.mem_append, List.mem_singleton] at hq
    obtain hq | rfl := hq
    · exact hseen q hq
    · exact hlast
  refine ⟨hseen _ h.positive hs, ?_, ?_, ?_⟩
  · obtain ⟨p, hp, hval, hleast⟩ := h.drag
    simp only [hval, ProgressiveCurveSample.exactly, Extended.min_fin]
    obtain hle | hlt := le_or_gt p.cd s.cd
    · exact ⟨p, hold p hp, by rw [min_eq_left hle], hall _ hleast hle⟩
    · exact ⟨s, hnew, by rw [min_eq_right hlt.le], hall _ (fun q hq => hlt.le.trans (hleast q hq)) le_rfl⟩
  · obtain ⟨p, hp, hval, halpha, hgreatest⟩ := h.lift
    simp only [scanLift, hval, ProgressiveCurveSample.exactly, Extended.lt_fin, decide_eq_true_eq]
    split
    · next hlt => exact ⟨s, hnew, rfl, rfl, hall _ (fun q hq => (hgreatest q hq).trans hlt.le) le_rfl⟩
    · next hlt => exact ⟨p, hold p hp, hval, halpha, hall _ hgreatest (not_lt.mp hlt)⟩
  · have hlast : s ∈ seen ++ [s] := List.mem_append_right _ List.mem_cons_self
    simp only [scanLiftToDrag, ProgressiveCurveSample.exactly, Extended.div_fin hs.ne', Extended.isFinite_fin,
      Extended.lit_eq, Rat.cast_zero, Extended.lt_fin, Bool.and_true]
    obtain ⟨hnone, halpha, hno⟩ | ⟨p, hp, hsome, halpha, hpos, hbest⟩ := h.ratio
    · rw [hnone, Option.all_none, Bool.and_true]
      split
      · next hlift =>
        have hlift := of_decide_eq_true hlift
        refine .inr ⟨s, hlast, rfl, rfl, hlift, hseen _ (fun q hq => ?_) le_rfl⟩
        exact (div_nonpos_of_nonpos_of_nonneg (hno q hq) (h.positive q hq).le).trans (div_pos hlift hs).le
      · next hlift => exact .inl ⟨hnone, halpha, hseen _ hno (not_lt.mp fun hlt => hlift (decide_eq_true hlt))⟩
    · rw [hsome, Option.all_some, Extended.lt_fin]
      split
      · next hbetter =>
        rw [Bool.and_eq_true, decide_eq_true_eq, decide_eq_true_eq] at hbetter
        exact .inr ⟨s, hlast, rfl, rfl, hbetter.1, hseen _ (fun q hq => (hbest q hq).trans hbetter.2.le) le_rfl⟩
      · next hworse =>
        rw [Bool.and_eq_true, decide_eq_true_eq, decide_eq_true_eq, not_and_or, not_lt, not_lt] at hworse
        refine .inr ⟨p, List.mem_append_left _ hp, hsome, halpha, hpos, hseen _ hbest ?_⟩
        obtain hlift | hratio := hworse
        · exact (div_nonpos_of_nonpos_of_nonneg hlift hs.le).trans (div_pos hpos (h.positive p hp)).le
        · exact hratio

theorem BestSoFar.run (h : BestSoFar first seen scan) (hdrag : ∀ s ∈ curve, 0 < s.cd)
    (previous : Option (ProgressiveCurveSample (Extended K))) :
    BestSoFar first (seen ++ curve) (scanSamples scan previous (curve.map (·.exactly))) := by
  induction curve generalizing seen scan previous with
  | nil =>
    rw [List.append_nil]
    exact h
  | cons s curve ih =>
    obtain ⟨hs, hrest⟩ := List.forall_mem_cons.mp hdrag
    rw [List.append_cons]
    exact ih (h.next hs) hrest _

/-! ### Zeros -/

omit [IsStrictOrderedRing K] in
theorem blend_exactly (a b c d : K) (h : d - c ≠ 0) :
    blend (Extended.fin a) (.fin b) (crossingFraction (.fin c) (.fin d)) =
      .fin (a * (1 - -c / (d - c)) + b * (-c / (d - c))) := by
  simp only [blend, crossingFraction, Extended.lit_eq, Rat.cast_zero, Rat.cast_one, Extended.sub_fin, zero_sub,
    Extended.div_fin h, Extended.mul_fin, Extended.add_fin]

theorem zeroLiftDrags_exactly (hlt : p.alpha < s.alpha) :
    zeroLiftDrags (some p.exactly) s.exactly =
      ((if s.cl = 0 then [s.alpha] else if Opposite p.cl s.cl then
        [crossing ProgressiveCurveSample.alpha ProgressiveCurveSample.cl p s] else []).map fun x =>
          Extended.fin (between ProgressiveCurveSample.alpha ProgressiveCurveSample.cd p s x)) := by
  have hcondition : (lt (Extended.fin p.cl) (.fin 0) && lt (.fin 0) (Extended.fin s.cl) ||
      lt (.fin 0) (Extended.fin p.cl) && lt (Extended.fin s.cl) (.fin 0)) = decide (Opposite p.cl s.cl) := by
    rw [Bool.eq_iff_iff, decide_eq_true_iff]
    simp [PiecewiseLinear.Opposite]
  rw [zeroLiftDrags]
  simp only [ProgressiveCurveSample.exactly, Extended.lit_eq, Rat.cast_zero, hcondition, Extended.eq_fin,
    decide_eq_true_eq]
  by_cases hzero : s.cl = 0
  · have hnone : ¬Opposite p.cl s.cl := by
      rw [hzero]
      rintro (⟨-, hpos⟩ | ⟨-, hneg⟩)
      · exact lt_irrefl _ hpos
      · exact lt_irrefl _ hneg
    rw [if_pos hzero, if_neg hnone, if_pos hzero, List.map_singleton, between_right hlt]
    rfl
  · rw [if_neg hzero, if_neg hzero, List.nil_append]
    split
    · next hopposite =>
      rw [List.map_singleton, between_crossing hlt, blend_exactly _ _ _ _ hopposite.sub_ne_zero]
    · rfl

theorem scan_zeroLiftDrag (h : Increasing ProgressiveCurveSample.alpha (p :: curve)) :
    (scanSamples scan (some p.exactly) (curve.map (·.exactly))).zeroLiftDrag =
      scan.zeroLiftDrag ++ (zerosAfter ProgressiveCurveSample.alpha ProgressiveCurveSample.cl p curve).map fun x =>
        Extended.fin (interpolate ProgressiveCurveSample.alpha ProgressiveCurveSample.cd (p :: curve) x) := by
  induction curve generalizing p scan with
  | nil => exact (List.append_nil _).symm
  | cons s curve ih =>
    obtain ⟨hp, hrest⟩ := List.pairwise_cons.mp h
    have hlt := hp s List.mem_cons_self
    rw [List.map_cons, scanSamples, ih hrest, scanSample_eq, zeroLiftDrags_exactly hlt, List.append_assoc, zerosAfter,
      List.map_append]
    congr 2
    · -- at the end of the segment and inside it
      refine List.map_congr_left fun x hx => ?_
      rw [interpolate_between]
      split at hx
      · rw [List.mem_singleton.mp hx]
      · split at hx
        · next hopposite =>
          rw [List.mem_singleton.mp hx]
          exact (crossing_mem hlt hopposite).2.le
        · cases hx
    · refine List.map_congr_left fun x hx => ?_
      rw [interpolate_tail h (zerosAfter_isZero hrest hx).1.le]

theorem zeroAlphaMoment_exactly (hlt : p.alpha < s.alpha) :
    zeroAlphaMoment (some p.exactly) s.exactly = if p.alpha < 0 ∧ 0 ≤ s.alpha then
      some (Extended.fin (between ProgressiveCurveSample.alpha ProgressiveCurveSample.cm p s 0))
    else if s.alpha = 0 then some (Extended.fin s.cm) else none := by
  have hblend : blend (Extended.fin p.cm) (.fin s.cm) (crossingFraction (.fin p.alpha) (.fin s.alpha)) =
      Extended.fin (between ProgressiveCurveSample.alpha ProgressiveCurveSample.cm p s 0) := by
    rw [blend_exactly _ _ _ _ (sub_pos.mpr hlt).ne', between, zero_sub]
    congr 1
    ring
  rw [zeroAlphaMoment]
  simp only [ProgressiveCurveSample.exactly, Extended.lit_eq, Rat.cast_zero, Extended.lt_fin, Extended.eq_fin,
    decide_eq_true_eq, Bool.and_eq_true, hblend]
  by_cases hzero : s.alpha = 0
  · have hneg : p.alpha < 0 := by
      rw [← hzero]
      exact hlt
    have hright : between ProgressiveCurveSample.alpha ProgressiveCurveSample.cm p s 0 = s.cm := by
      have hend := between_right (f := ProgressiveCurveSample.cm) hlt
      rwa [hzero] at hend
    rw [if_neg (by rw [hzero]; exact fun hboth => lt_irrefl _ hboth.2), if_pos hzero,
      if_pos ⟨hneg, hzero.ge⟩, hright]
  · rw [if_neg hzero]
    by_cases hboth : p.alpha < 0 ∧ 0 < s.alpha
    · rw [if_pos hboth, if_pos ⟨hboth.1, hboth.2.le⟩]
    · rw [if_neg hboth, if_neg fun hle => hboth ⟨hle.1, lt_of_le_of_ne hle.2 (Ne.symm hzero)⟩]

theorem scan_momentAtZeroAlpha (h : Increasing ProgressiveCurveSample.alpha (p :: curve)) :
    (scanSamples scan (some p.exactly) (curve.map (·.exactly))).momentAtZeroAlpha =
      if p.alpha < 0 ∧ ∃ q ∈ curve, 0 ≤ q.alpha then
        some (Extended.fin (interpolate ProgressiveCurveSample.alpha ProgressiveCurveSample.cm (p :: curve) 0))
      else scan.momentAtZeroAlpha := by
  induction curve generalizing p scan with
  | nil =>
    rw [if_neg (by simp)]
    rfl
  | cons s curve ih =>
    obtain ⟨hp, hrest⟩ := List.pairwise_cons.mp h
    have hlt := hp s List.mem_cons_self
    rw [List.map_cons, scanSamples, ih hrest, scanSample_eq, zeroAlphaMoment_exactly hlt]
    obtain hneg | hnonneg := lt_or_ge s.alpha 0
    · -- zero lies behind `s`
      have hexists : (∃ q ∈ s :: curve, 0 ≤ q.alpha) ↔ ∃ q ∈ curve, 0 ≤ q.alpha := by
        simp [hneg.not_ge]
      simp only [hexists, hneg, hlt.trans hneg, hneg.not_ge, hneg.ne, true_and, and_false, if_false, Option.none_or]
      rw [interpolate_tail h hneg.le]
    · rw [if_neg fun hboth => hnonneg.not_gt hboth.1]
      by_cases hp0 : p.alpha < 0
      · rw [if_pos ⟨hp0, hnonneg⟩, if_pos ⟨hp0, s, List.mem_cons_self, hnonneg⟩, interpolate_between hnonneg]
        rfl
      · have hpos : 0 < s.alpha := (not_lt.mp hp0).trans_lt hlt
        rw [if_neg fun hboth => hp0 hboth.1, if_neg hpos.ne', if_neg fun hboth => hp0 hboth.1]
        rfl

theorem scan_zeroLiftDrag_all (h : Increasing ProgressiveCurveSample.alpha (first :: curve)) :
    (scanSamples (metricsStart first.exactly) none ((first :: curve).map (·.exactly))).zeroLiftDrag =
      (zeros ProgressiveCurveSample.alpha ProgressiveCurveSample.cl (first :: curve)).map fun x =>
        Extended.fin (interpolate ProgressiveCurveSample.alpha ProgressiveCurveSample.cd (first :: curve) x) := by
  have hfirst : zeroLiftDrags none first.exactly = (if first.cl = 0 then [first.alpha] else []).map fun x =>
      Extended.fin (interpolate ProgressiveCurveSample.alpha ProgressiveCurveSample.cd (first :: curve) x) := by
    rw [zeroLiftDrags, List.append_nil]
    simp only [ProgressiveCurveSample.exactly, Extended.lit_eq, Rat.cast_zero, Extended.eq_fin, decide_eq_true_eq]
    split
    · rw [List.map_singleton, interpolate_first h]
    · rfl
  rw [List.map_cons, scanSamples, scan_zeroLiftDrag h, scanSample_eq, hfirst, metricsStart, List.nil_append,
    ← List.map_append]
  rfl

theorem scan_momentAtZeroAlpha_all (h : Increasing ProgressiveCurveSample.alpha (first :: curve)) :
    (scanSamples (metricsStart first.exactly) none ((first :: curve).map (·.exactly))).momentAtZeroAlpha =
      if first.alpha ≤ 0 ∧ ∃ q ∈ first :: curve, 0 ≤ q.alpha then
        some (Extended.fin (interpolate ProgressiveCurveSample.alpha ProgressiveCurveSample.cm (first :: curve) 0))
      else none := by
  have hfirst : zeroAlphaMoment none first.exactly = if first.alpha = 0 then some (Extended.fin first.cm) else none := by
    simp only [zeroAlphaMoment, ProgressiveCurveSample.exactly, Extended.lit_eq, Rat.cast_zero, Extended.eq_fin,
      decide_eq_true_eq]
  rw [List.map_cons, scanSamples, scan_momentAtZeroAlpha h, scanSample_eq, hfirst, metricsStart, Option.or_none]
  obtain hneg | hzero | hpos := lt_trichotomy first.alpha 0
  · have hexists : (∃ q ∈ first :: curve, 0 ≤ q.alpha) ↔ ∃ q ∈ curve, 0 ≤ q.alpha := by simp [hneg.not_ge]
    simp only [hneg, hneg.le, hneg.ne, hexists, true_and, if_false]
  · have hinterpolate : interpolate ProgressiveCurveSample.alpha ProgressiveCurveSample.cm (first :: curve) 0 =
        first.cm := by
      rw [← hzero, interpolate_first h]
    rw [if_neg fun hboth => hboth.1.ne hzero, if_pos hzero, if_pos ⟨hzero.le, first, List.mem_cons_self, hzero.ge⟩,
      hinterpolate]
  · rw [if_neg fun hboth => hboth.1.not_gt hpos, if_neg hpos.ne', if_neg fun hboth => hboth.1.not_gt hpos]

/-! ### The metrics -/

omit [IsStrictOrderedRing K] in
theorem admissible_iff : Admissible curve ↔
    2 ≤ curve.length ∧ anyRefused none (curve.map (·.exactly)) = false := by
  have hguard := anyRefused_exactly none curve
  rw [Option.map_none, Option.toList_none, List.nil_append, List.isChain_iff_pairwise] at hguard
  rw [hguard]
  exact ⟨fun h => ⟨h.two, h.increasing, h.drag⟩, fun h => ⟨h.1, h.2.1, h.2.2⟩⟩

def ProgressiveCurveMetrics.exactly (m : ProgressiveCurveMetrics K) : ProgressiveCurveMetrics (Extended K) :=
  ⟨.fin m.alphaMinimum, .fin m.alphaMaximum, m.liftToDragMaximum.map .fin, m.alphaAtLiftToDragMaximum.map .fin,
    .fin m.dragMinimum, .fin m.liftMaximum, .fin m.alphaAtLiftMaximum, m.dragAtZeroLift.map .fin,
    m.momentAtZeroAlpha.map .fin⟩

/-- The metrics are those of the curve: its ends, extremes that some sample attains and none beats, the drag at the
only zero of the lift, and the moment at zero. -/
structure Describes (curve : List (ProgressiveCurveSample K)) (m : ProgressiveCurveMetrics K) : Prop where
  ends : curve.head?.map ProgressiveCurveSample.alpha = some m.alphaMinimum ∧
    curve.getLast?.map ProgressiveCurveSample.alpha = some m.alphaMaximum
  drag : ∃ p ∈ curve, m.dragMinimum = p.cd ∧ ∀ q ∈ curve, p.cd ≤ q.cd
  lift : ∃ p ∈ curve, m.liftMaximum = p.cl ∧ m.alphaAtLiftMaximum = p.alpha ∧ ∀ q ∈ curve, q.cl ≤ p.cl
  ratio : m.liftToDragMaximum = none ∧ m.alphaAtLiftToDragMaximum = none ∧ (∀ q ∈ curve, q.cl ≤ 0) ∨
    ∃ p ∈ curve, m.liftToDragMaximum = some (p.cl / p.cd) ∧ m.alphaAtLiftToDragMaximum = some p.alpha ∧
      0 < p.cl ∧ ∀ q ∈ curve, q.cl / q.cd ≤ p.cl / p.cd
  zeroLift : ∀ d, m.dragAtZeroLift = some d ↔
    ∃ x, IsZero ProgressiveCurveSample.alpha ProgressiveCurveSample.cl curve x ∧
      (∀ y, IsZero ProgressiveCurveSample.alpha ProgressiveCurveSample.cl curve y → y = x) ∧
      d = interpolate ProgressiveCurveSample.alpha ProgressiveCurveSample.cd curve x
  zeroAlpha : ∀ v, m.momentAtZeroAlpha = some v ↔ Spans ProgressiveCurveSample.alpha curve 0 ∧
    v = interpolate ProgressiveCurveSample.alpha ProgressiveCurveSample.cm curve 0

omit [FloorRing K] in
theorem dragAtZeroLift_iff (h : Increasing ProgressiveCurveSample.alpha curve) {drags : List (Extended K)}
    (hdrags : drags = (zeros ProgressiveCurveSample.alpha ProgressiveCurveSample.cl curve).map fun x =>
      Extended.fin (interpolate ProgressiveCurveSample.alpha ProgressiveCurveSample.cd curve x)) :
    ∃ z : Option K, onlyOne drags = z.map .fin ∧
      ∀ d, z = some d ↔ ∃ x, IsZero ProgressiveCurveSample.alpha ProgressiveCurveSample.cl curve x ∧
        (∀ y, IsZero ProgressiveCurveSample.alpha ProgressiveCurveSample.cl curve y → y = x) ∧
        d = interpolate ProgressiveCurveSample.alpha ProgressiveCurveSample.cd curve x := by
  have hiff := fun x => zeros_eq_singleton_iff (f := ProgressiveCurveSample.cl) (x := x) h
  subst hdrags
  generalize zeros ProgressiveCurveSample.alpha ProgressiveCurveSample.cl curve = listed at *
  have hnone : (∀ x, listed ≠ [x]) → ∀ d, none = some d ↔
      ∃ x, IsZero ProgressiveCurveSample.alpha ProgressiveCurveSample.cl curve x ∧
        (∀ y, IsZero ProgressiveCurveSample.alpha ProgressiveCurveSample.cl curve y → y = x) ∧
        d = interpolate ProgressiveCurveSample.alpha ProgressiveCurveSample.cd curve x := by
    intro hne d
    refine ⟨fun hd => (Option.some_ne_none d hd.symm).elim, fun hd => ?_⟩
    obtain ⟨x, hx, hunique, -⟩ := hd
    exact absurd ((hiff x).mpr ⟨hx, hunique⟩) (hne x)
  match listed with
  | [] => exact ⟨none, rfl, hnone fun x hx => nomatch hx⟩
  | [x] =>
    refine ⟨some (interpolate _ _ curve x), rfl, fun d => ?_⟩
    obtain ⟨hx, hunique⟩ := (hiff x).mp rfl
    rw [Option.some.injEq]
    constructor
    · rintro rfl
      exact ⟨x, hx, hunique, rfl⟩
    · rintro ⟨y, hy, -, rfl⟩
      rw [hunique y hy]
  | x :: y :: rest => exact ⟨none, rfl, hnone fun x hx => nomatch hx⟩

theorem metricsOf_describes {last : ProgressiveCurveSample K}
    (h : Increasing ProgressiveCurveSample.alpha (first :: curve)) (hdrag : ∀ s ∈ first :: curve, 0 < s.cd)
    (hlast : (first :: curve).getLast? = some last) :
    ∃ m : ProgressiveCurveMetrics K, metricsOf first.exactly last.exactly
      (scanSamples (metricsStart first.exactly) none ((first :: curve).map (·.exactly))) = m.exactly ∧
      Describes (first :: curve) m := by
  have hbest := (bestSoFar_start first).run hdrag none
  obtain ⟨z, hz, hzero⟩ := dragAtZeroLift_iff h (scan_zeroLiftDrag_all h)
  have hmoment := scan_momentAtZeroAlpha_all h
  rw [List.nil_append] at hbest
  generalize scanSamples (metricsStart first.exactly) none ((first :: curve).map (·.exactly)) = scan at *
  have hmem : ∀ q ∈ first :: first :: curve, q ∈ first :: curve := by
    intro q hq
    obtain rfl | hq := List.mem_cons.mp hq
    · exact List.mem_cons_self
    · exact hq
  obtain ⟨p, hp, hcd, hleast⟩ := hbest.drag
  obtain ⟨l, hl, hcl, halpha, hgreatest⟩ := hbest.lift
  obtain ⟨r, a, hr, ha, hratio⟩ : ∃ r a : Option K, scan.liftToDragMaximum = r.map .fin ∧
      scan.alphaAtLiftToDragMaximum = a.map .fin ∧ (r = none ∧ a = none ∧ (∀ q ∈ first :: curve, q.cl ≤ 0) ∨
        ∃ p ∈ first :: curve, r = some (p.cl / p.cd) ∧ a = some p.alpha ∧
          0 < p.cl ∧ ∀ q ∈ first :: curve, q.cl / q.cd ≤ p.cl / p.cd) := by
    obtain ⟨hr, ha, hno⟩ | ⟨p, hp, hr, ha, hpos, hbetter⟩ := hbest.ratio
    · exact ⟨none, none, hr, ha, .inl ⟨rfl, rfl, hno⟩⟩
    · exact ⟨some _, some _, hr, ha, .inr ⟨p, hp, rfl, rfl, hpos, hbetter⟩⟩
  obtain ⟨v, hv, hzeroAlpha⟩ : ∃ v : Option K, scan.momentAtZeroAlpha = v.map .fin ∧
      ∀ w, v = some w ↔ Spans ProgressiveCurveSample.alpha (first :: curve) 0 ∧
        w = interpolate ProgressiveCurveSample.alpha ProgressiveCurveSample.cm (first :: curve) 0 := by
    have hspans : Spans ProgressiveCurveSample.alpha (first :: curve) 0 ↔
        first.alpha ≤ 0 ∧ ∃ q ∈ first :: curve, 0 ≤ q.alpha := by
      refine and_congr_left fun _ => ⟨?_, fun hle => ⟨first, List.mem_cons_self, hle⟩⟩
      rintro ⟨q, hq, hle⟩
      obtain rfl | hq := List.mem_cons.mp hq
      · exact hle
      · exact (List.rel_of_pairwise_cons h hq).le.trans hle
    by_cases hspan : Spans ProgressiveCurveSample.alpha (first :: curve) 0
    · rw [if_pos (hspans.mp hspan)] at hmoment
      exact ⟨some _, hmoment, fun w => by simp [hspan, eq_comm]⟩
    · rw [if_neg (mt hspans.mpr hspan)] at hmoment
      exact ⟨none, hmoment, fun w => by simp [hspan]⟩
  refine ⟨⟨first.alpha, last.alpha, r, a, p.cd, l.cl, l.alpha, z, v⟩, ?_, ?_⟩
  · rw [metricsOf, hr, ha, hcd, hcl, halpha, hz, hv]
    rfl
  · refine ⟨⟨rfl, by rw [hlast]; rfl⟩, ?_, ?_, hratio, hzero, ?_⟩
    · exact ⟨p, hmem p hp, rfl, fun q hq => hleast q (List.mem_cons_of_mem _ hq)⟩
    · exact ⟨l, hmem l hl, rfl, rfl, fun q hq => hgreatest q (List.mem_cons_of_mem _ hq)⟩
    · exact hzeroAlpha

/-- A curve of at least two samples with increasing angles and positive drag gets the metrics that describe it; any
other curve gets none. -/
theorem metrics_describe (curve : List (ProgressiveCurveSample K)) :
    (Admissible curve → ∃ m : ProgressiveCurveMetrics K,
      progressiveCurveMetrics (curve.map (·.exactly)) = some m.exactly ∧ Describes curve m) ∧
    (¬Admissible curve → progressiveCurveMetrics (curve.map (·.exactly)) = none) := by
  rw [admissible_iff]
  match curve with
  | [] => exact ⟨fun h => absurd h.1 (by simp), fun _ => rfl⟩
  | [p] => exact ⟨fun h => absurd h.1 (by simp), fun _ => rfl⟩
  | first :: second :: rest =>
    constructor
    · intro hguard
      have hcurve := admissible_iff.mpr hguard
      have hlast : (first :: second :: rest).getLast? = some ((second :: rest).getLast (List.cons_ne_nil _ _)) := by
        rw [List.getLast?_cons_cons, List.getLast?_eq_some_getLast]
      obtain ⟨m, hm, hdescribes⟩ := metricsOf_describes hcurve.increasing hcurve.drag hlast
      refine ⟨m, ?_, hdescribes⟩
      rw [← hm]
      have hend : ((second :: rest).map (·.exactly)).getLast (List.cons_ne_nil _ _) =
          ((second :: rest).getLast (List.cons_ne_nil _ _)).exactly := List.getLast_map _
      rw [← hend]
      exact if_neg (Bool.eq_false_iff.mp hguard.2)
    · intro hguard
      have hrefused : anyRefused none ((first :: second :: rest).map (·.exactly)) = true := by
        rw [← Bool.not_eq_false]
        exact fun hfalse => hguard ⟨by simp, hfalse⟩
      exact if_pos hrefused

end Exact

/-- A curve whose lift crosses zero between its samples. -/
theorem rising_described : ∃ m : ProgressiveCurveMetrics ℚ,
    progressiveCurveMetrics ([⟨-1, -1, 1, 0⟩, ⟨1, 1, 1, 2⟩].map (ProgressiveCurveSample.exactly (K := ℚ))) =
      some m.exactly ∧ Describes [⟨-1, -1, 1, 0⟩, ⟨1, 1, 1, 2⟩] m := by
  refine (metrics_describe [⟨-1, -1, 1, 0⟩, ⟨1, 1, 1, 2⟩]).1 ⟨le_rfl, ?_, ?_⟩
  · simp [PiecewiseLinear.Increasing]
  · simp

/-- The same angles the other way round get no metrics. -/
theorem falling_refused : ¬∀ curve : List (ProgressiveCurveSample ℚ),
    curve ≠ [] → (curve.map ProgressiveCurveSample.alpha).Nodup →
      ∃ m, progressiveCurveMetrics (curve.map (·.exactly)) = some m.exactly ∧ Describes curve m := by
  intro h
  obtain ⟨m, hm, -⟩ := h [⟨1, 1, 1, 2⟩, ⟨-1, -1, 1, 0⟩] (List.cons_ne_nil _ _) (by decide +kernel)
  have hnone : (progressiveCurveMetrics ([⟨1, 1, 1, 2⟩, ⟨-1, -1, 1, 0⟩].map
      (ProgressiveCurveSample.exactly (K := ℚ)))).isNone = true := by decide +kernel
  rw [hm] at hnone
  cases hnone

end XFoilFoam.Progressive
