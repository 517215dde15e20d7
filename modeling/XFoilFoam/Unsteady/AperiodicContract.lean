import XFoilFoam.Unsteady.AperiodicMean
import XFoilFoam.Foundations.ExceptLists
import Mathlib.Analysis.Real.Sqrt

/-! What the reduction of an aperiodic mean returns: it raises exactly on evidence that it would certify and whose
times start below zero, and what it certifies is accepted by `parseAperiodicMeanCertificate`. -/
namespace XFoilFoam.Unsteady.Aperiodic
open Sampling
open Binary64 (lit lt le sub isFinite)
set_option autoImplicit false

variable {K : Type} [Field K] [LinearOrder K] [IsStrictOrderedRing K]

/-! ## Channels -/

theorem channelProblems_statisticsOf (root : SquareRoot K) {floor : K} (hfloor : 0 < floor)
    (values means : List K) {deviations : List K} (hdeviations : ∀ x ∈ deviations, 0 ≤ x) :
    channelProblems (statisticsOf root floor values means deviations) = [] := by
  have hscale : 0 < max (max |mean means| (std root values)) floor := lt_max_of_lt_right hfloor
  have hwidth : 0 ≤ ((196 / 100 : ℚ) : K) * sampleStd root means / root.sqrt (effectiveBlocks means) := by
    refine div_nonneg (mul_nonneg ?_ (root.nonneg _)) (root.nonneg _)
    exact_mod_cast (by norm_num : (0 : ℚ) ≤ 196 / 100)
  have hgrowth : 0 ≤ mean (deviations.drop (deviations.length - blockCount / 2)) /
      max (mean (deviations.take (blockCount / 2))) floor :=
    div_nonneg (mean_nonneg fun x hx => hdeviations x (List.mem_of_mem_drop hx))
      (hfloor.le.trans (le_max_right _ _))
  have hblocks : 1 ≤ effectiveBlocks means := le_max_left _ _
  simp only [channelProblems, List.append_eq_nil_iff, pushIf_eq_nil, decide_eq_false_iff_not,
    not_lt, not_le]
  exact ⟨⟨⟨⟨⟨⟨⟨⟨root.nonneg _, hscale⟩, hwidth⟩, div_nonneg hwidth hscale.le⟩,
    div_nonneg (abs_nonneg _) hscale.le⟩, div_nonneg (abs_nonneg _) hscale.le⟩,
    div_nonneg (peakToPeak_nonneg _) hscale.le⟩, hblocks⟩, hgrowth⟩

/-! ## Blocks of an even grid -/

theorem inBlock_of_index {start stop : K} (h : start < stop) {n k i : ℕ} (hn : 2 ≤ n)
    (hlow : k * (n - 1) ≤ 10 * i) (hhigh : 10 * i < (k + 1) * (n - 1)) :
    inBlock start stop k (start + i * ((stop - start) / ((n - 1 : ℕ) : K))) = true := by
  have hm : (0 : K) < ((n - 1 : ℕ) : K) := Nat.cast_pos.mpr (by omega)
  have hw : 0 < stop - start := sub_pos.mpr h
  have hlow' : (k : K) * ((n - 1 : ℕ) : K) ≤ 10 * i := by exact_mod_cast hlow
  have hhigh' : (10 : K) * i < (k + 1) * ((n - 1 : ℕ) : K) := by exact_mod_cast hhigh
  have hleft : edge start stop k ≤ start + i * ((stop - start) / ((n - 1 : ℕ) : K)) := by
    have hratio : (k : K) / 10 ≤ i / ((n - 1 : ℕ) : K) := by
      rw [div_le_div_iff₀ (by norm_num) hm]
      linarith
    have hmul := mul_le_mul_of_nonneg_right hratio hw.le
    rw [edge, show ((blockCount : ℕ) : K) = 10 by norm_num [blockCount]]
    calc start + k * ((stop - start) / 10) = start + k / 10 * (stop - start) := by ring
      _ ≤ start + i / ((n - 1 : ℕ) : K) * (stop - start) := by linarith
      _ = start + i * ((stop - start) / ((n - 1 : ℕ) : K)) := by ring
  have hright : start + i * ((stop - start) / ((n - 1 : ℕ) : K)) < edge start stop (k + 1) := by
    have hratio : (i : K) / ((n - 1 : ℕ) : K) < (k + 1) / 10 := by
      rw [div_lt_div_iff₀ hm (by norm_num)]
      linarith
    have hmul := mul_lt_mul_of_pos_right hratio hw
    rw [edge, show ((blockCount : ℕ) : K) = 10 by norm_num [blockCount], Nat.cast_add, Nat.cast_one]
    calc start + i * ((stop - start) / ((n - 1 : ℕ) : K)) =
          start + i / ((n - 1 : ℕ) : K) * (stop - start) := by ring
      _ < start + (k + 1) / 10 * (stop - start) := by linarith
      _ = start + (k + 1) * ((stop - start) / 10) := by ring
  rw [inBlock, decide_eq_true hleft, Bool.true_and]
  split_ifs
  · exact decide_eq_true hright.le
  · exact decide_eq_true hright

theorem exists_two_in_block {start stop : K} (h : start < stop) {n k : ℕ} (hn : resampledMin ≤ n)
    (hk : k < blockCount) :
    ∃ x ∈ linspace start stop n, ∃ y ∈ linspace start stop n,
      x < y ∧ inBlock start stop k x = true ∧ inBlock start stop k y = true := by
  have hn' : 800 ≤ n := hn
  have hk' : k < 10 := hk
  obtain ⟨i, hi⟩ : ∃ i, i = (k * (n - 1) + 9) / 10 := ⟨_, rfl⟩
  have hkn : (k + 1) * (n - 1) = k * (n - 1) + (n - 1) := by ring
  have hmax : (k + 1) * (n - 1) ≤ 10 * (n - 1) := Nat.mul_le_mul_right _ (by omega)
  have hstep : 0 < (stop - start) / ((n - 1 : ℕ) : K) :=
    div_pos (sub_pos.mpr h) (Nat.cast_pos.mpr (by omega))
  refine ⟨_, mem_linspace.mpr ⟨i, by omega, rfl⟩, _, mem_linspace.mpr ⟨i + 1, by omega, rfl⟩, ?_,
    inBlock_of_index h (by omega) (by omega) (by omega), inBlock_of_index h (by omega) (by omega) (by omega)⟩
  rw [Nat.cast_add, Nat.cast_one]
  linarith

theorem blockMean_of_pair {rows : List (K × K)} (hrows : (rows.map Prod.fst).Pairwise (· < ·)) {x y : K}
    (hx : x ∈ rows.map Prod.fst) (hy : y ∈ rows.map Prod.fst) (hxy : x < y) :
    ∃ p ps, rows = p :: ps ∧
      0 < ((p :: ps).getLast (List.cons_ne_nil _ _)).1 - p.1 ∧
      blockMean rows = .ok (trapezoid rows / (((p :: ps).getLast (List.cons_ne_nil _ _)).1 - p.1)) := by
  cases rows with
  | nil => cases hx
  | cons p ps =>
    have hpos : 0 < ((p :: ps).getLast (List.cons_ne_nil _ _)).1 - p.1 := by
      have hends := head_lt_getLast hrows hx hy hxy (by simp)
      rw [List.getLast_map] at hends
      exact sub_pos.mpr hends
    exact ⟨p, ps, rfl, hpos, if_neg hpos.ne'⟩

def gridRows (start stop : K) (n : ℕ) (f : K → K) : List (K × K) :=
  (linspace start stop n).map fun x => (x, f x)

omit [IsStrictOrderedRing K] in
theorem map_fst_blockRows (start stop : K) (n : ℕ) (f : K → K) (k : ℕ) :
    (blockRows start stop (gridRows start stop n f) k).map Prod.fst =
      (linspace start stop n).filter (inBlock start stop k) := by
  rw [blockRows, gridRows, List.filter_map, List.map_map]
  exact List.map_id _

theorem blockMean_grid {start stop : K} (h : start < stop) {n k : ℕ} (hn : resampledMin ≤ n)
    (hk : k < blockCount) (f : K → K) :
    ∃ p ps, blockRows start stop (gridRows start stop n f) k = p :: ps ∧
      0 < ((p :: ps).getLast (List.cons_ne_nil _ _)).1 - p.1 ∧
      blockMean (blockRows start stop (gridRows start stop n f) k) =
        .ok (trapezoid (p :: ps) / (((p :: ps).getLast (List.cons_ne_nil _ _)).1 - p.1)) := by
  obtain ⟨x, hx, y, hy, hxy, hxin, hyin⟩ := exists_two_in_block h hn hk
  have hn2 : 2 ≤ n := le_trans (by decide) hn
  have hsorted : ((blockRows start stop (gridRows start stop n f) k).map Prod.fst).Pairwise (· < ·) := by
    rw [map_fst_blockRows]
    exact (linspace_increasing h hn2).filter _
  obtain ⟨p, ps, hrows, hpos, hmean⟩ := blockMean_of_pair hsorted
    (by rw [map_fst_blockRows]; exact List.mem_filter.mpr ⟨hx, hxin⟩)
    (by rw [map_fst_blockRows]; exact List.mem_filter.mpr ⟨hy, hyin⟩) hxy
  refine ⟨p, ps, hrows, hpos, ?_⟩
  rw [hmean, hrows]

theorem channelCertificate_grid (root : SquareRoot K) {floor start stop : K} (hfloor : 0 < floor)
    (h : start < stop) {n : ℕ} (hn : resampledMin ≤ n) (f : K → K) {P : K → Prop}
    (hP : ∀ k < blockCount, ∀ m,
      blockMean (blockRows start stop (gridRows start stop n f) k) = .ok m → P m) :
    ∃ certificate means, channelCertificate root floor start stop (gridRows start stop n f) =
        .ok certificate ∧
      means.length = blockCount ∧ (∀ m ∈ means, P m) ∧
      certificate.statistics = statisticsOf root floor ((gridRows start stop n f).map Prod.snd) means
        (((List.range blockCount).map (blockRows start stop (gridRows start stop n f))).map
          fun rows => std root (rows.map Prod.snd)) := by
  have hblocks : ∀ block ∈ (List.range blockCount).map (blockRows start stop (gridRows start stop n f)),
      ∃ m, blockMean block = .ok m ∧ P m := by
    intro block hblock
    obtain ⟨k, hk, rfl⟩ := List.mem_map.mp hblock
    obtain ⟨p, ps, -, -, hmean⟩ := blockMean_grid h hn (List.mem_range.mp hk) f
    exact ⟨_, hmean, hP k (List.mem_range.mp hk) _ hmean⟩
  obtain ⟨means, hmeans, hlength, hall⟩ := mapM_of_forall hblocks
  have hdeviations : ∀ x ∈ ((List.range blockCount).map (blockRows start stop (gridRows start stop n f))).map
      (fun rows => std root (rows.map Prod.snd)), 0 ≤ x := by
    intro x hx
    obtain ⟨rows, -, rfl⟩ := List.mem_map.mp hx
    exact root.nonneg _
  have hvalid := channelProblems_statisticsOf root hfloor ((gridRows start stop n f).map Prod.snd) means
    hdeviations
  refine ⟨⟨_, hvalid⟩, means, ?_, ?_, hall, rfl⟩
  · rw [channelCertificate, hmeans]
    exact dif_pos hvalid
  · rw [hlength, List.length_map, List.length_range]

/-! ## Checked inputs -/

structure Checked (i : Input K) : Prop where
  samples : minSourceSamples ≤ i.t.length
  increasing : i.times.IsChain (· < ·)
  speed : 0 < number i.speed
  chord : 0 < number i.chord
  frames : minFieldFrames ≤ i.fieldFrameCount
  period : 0 < number i.period
  cycles : minPeriodicityCycles ≤ i.periodicityCyclesObserved
  nonrepeatable : i.periodicityNonrepeatableCycles ≤ i.periodicityCyclesObserved
  fraction : (minNonrepeatableFraction : K) ≤ i.nonrepeatableFraction

namespace Checked
variable {i : Input K}

omit [IsStrictOrderedRing K] in
theorem start_lt_stop (h : Checked i) : i.start < i.stop := by
  have hlength : 400 ≤ i.times.length := by
    rw [Input.times, List.length_map]
    exact h.samples
  have hpair : i.times.Pairwise (· < ·) := List.isChain_iff_pairwise.mp h.increasing
  rw [Input.start, Input.stop]
  match hxs : i.times, hpair with
  | [], _ => rw [hxs] at hlength; cases hlength
  | [x], _ => rw [hxs] at hlength; norm_num at hlength
  | x :: y :: rest, hpair =>
    have hends := head_lt_getLast hpair List.mem_cons_self (List.mem_cons_of_mem _ List.mem_cons_self)
      (List.rel_of_pairwise_cons hpair List.mem_cons_self) (List.cons_ne_nil _ _)
    rw [List.getLastD_cons, ← List.getLast_eq_getLastD]
    exact hends

theorem duration_pos (h : Checked i) : 0 < i.duration := sub_pos.mpr h.start_lt_stop

theorem convectiveTimes_pos (h : Checked i) : 0 < i.convectiveTimes :=
  div_pos (mul_pos h.duration_pos h.speed) h.chord

omit [IsStrictOrderedRing K] in
theorem observed_pos (h : Checked i) : 0 < i.periodicityCyclesObserved :=
  lt_of_lt_of_le (by decide) h.cycles

omit [IsStrictOrderedRing K] in
theorem nonrepeatableFraction_eq (h : Checked i) :
    i.nonrepeatableFraction = (i.periodicityNonrepeatableCycles : K) / (i.periodicityCyclesObserved : K) :=
  if_pos h.observed_pos

theorem nonrepeatableFraction_pos (h : Checked i) : 0 < i.nonrepeatableFraction :=
  lt_of_lt_of_le (by norm_num [minNonrepeatableFraction]) h.fraction

theorem nonrepeatableFraction_le_one (h : Checked i) : i.nonrepeatableFraction ≤ 1 := by
  rw [h.nonrepeatableFraction_eq, div_le_one (by exact_mod_cast h.observed_pos)]
  exact_mod_cast h.nonrepeatable

theorem one_le_nonrepeatable (h : Checked i) : 1 ≤ i.periodicityNonrepeatableCycles := by
  have hpos := h.nonrepeatableFraction_pos
  have hobserved : (0 : K) < (i.periodicityCyclesObserved : K) := by exact_mod_cast h.observed_pos
  rw [h.nonrepeatableFraction_eq, div_pos_iff_of_pos_right hobserved] at hpos
  have hcast : 0 < i.periodicityNonrepeatableCycles := by exact_mod_cast hpos
  omega

theorem periodicityProblems_eq_nil (h : Checked i) (digest : InputDigest K) (cl cd cm : ChannelCertificate K) :
    periodicityProblems (evidenceOf digest i cl cd cm) = [] := by
  have hclose : |(i.periodicityNonrepeatableCycles : K) / (i.periodicityCyclesObserved : K) -
      i.nonrepeatableFraction| ≤ ((1 / 10 ^ 12 : ℚ) : K) := by
    rw [h.nonrepeatableFraction_eq, sub_self, abs_zero]
    exact_mod_cast (by norm_num : (0 : ℚ) ≤ 1 / 10 ^ 12)
  have hobserved := h.observed_pos
  simp only [periodicityProblems, List.append_eq_nil_iff, pushIf_eq_nil, Bool.or_eq_false_iff,
    decide_eq_false_iff_not, not_lt, not_le]
  exact ⟨⟨⟨⟨⟨h.period, by exact h.observed_pos⟩, h.one_le_nonrepeatable⟩,
    h.nonrepeatableFraction_pos, h.nonrepeatableFraction_le_one⟩, h.nonrepeatable⟩, hclose⟩

theorem evidenceProblems_eq_nil_iff (h : Checked i) (digest : InputDigest K) (cl cd cm : ChannelCertificate K) :
    evidenceProblems (evidenceOf digest i cl cd cm) = [] ↔ 0 ≤ i.start := by
  have hspan : |i.stop - i.start - i.duration| ≤
      ((1 / 10 ^ 10 : ℚ) : K) * max (max 1 |i.stop - i.start|) |i.duration| := by
    rw [Input.duration, sub_self, abs_zero]
    refine mul_nonneg ?_ ((abs_nonneg _).trans (le_max_right _ _))
    exact_mod_cast (by norm_num : (0 : ℚ) ≤ 1 / 10 ^ 10)
  have hsamples : 400 ≤ i.t.length := h.samples
  have hgrid : 800 ≤ i.gridSize := le_min (by decide) (le_max_left _ _)
  have hframes : (40 : ℤ) ≤ i.fieldFrameCount := h.frames
  have hthresholds : thresholdProblems = [] := by decide +kernel
  simp only [evidenceProblems, hthresholds, h.periodicityProblems_eq_nil, List.append_eq_nil_iff,
    pushIf_eq_nil, Bool.not_eq_false', decide_eq_false_iff_not, not_lt, not_le, true_and]
  constructor
  · intro hproblems
    exact hproblems.1.1.1.1.1.2
  · intro hstart
    exact ⟨⟨⟨⟨⟨⟨⟨⟨⟨digest.hex i, show 1 ≤ i.t.length by omega⟩, show 1 ≤ i.gridSize by omega⟩,
      show 1 ≤ i.fieldFrameCount by omega⟩, hstart⟩, hstart.trans_lt h.start_lt_stop⟩, h.duration_pos⟩,
      h.convectiveTimes_pos⟩, h.start_lt_stop⟩, hspan⟩

end Checked

variable [FloorRing K]

omit [IsStrictOrderedRing K] in
theorem number_pos {x : Extended K} (h : notPositive x = false) : 0 < number x := by
  rw [notPositive, Bool.or_eq_false_iff, Bool.not_eq_false'] at h
  cases x with
  | fin x =>
    have hle := h.2
    rw [Extended.lit_eq, Extended.le_fin, decide_eq_false_iff_not, Rat.cast_zero, not_le] at hle
    exact hle
  | nan => cases h.1
  | posInf => cases h.1
  | negInf => cases h.1

theorem isChain_of_stepsBack {xs : List (Extended K)} (hfinite : ∀ x ∈ xs, isFinite x = true)
    (h : stepsBack xs = false) : (xs.map number).IsChain (· < ·) := by
  induction xs with
  | nil => exact .nil
  | cons s xs ih =>
    cases xs with
    | nil => exact .singleton _
    | cons t rest =>
      rw [stepsBack, Bool.or_eq_false_iff] at h
      have hs := hfinite s List.mem_cons_self
      have ht := hfinite t (List.mem_cons_of_mem _ List.mem_cons_self)
      have hrest := ih (fun x hx => hfinite x (List.mem_cons_of_mem _ hx)) h.2
      refine List.isChain_cons_cons.mpr ⟨?_, hrest⟩
      cases s with
      | fin s =>
        cases t with
        | fin t =>
          have hstep := h.1
          rw [Extended.sub_fin, Extended.lit_eq, Extended.le_fin, decide_eq_false_iff_not, Rat.cast_zero,
            not_le] at hstep
          exact sub_pos.mp hstep
        | _ => cases ht
      | _ => cases hs

theorem checked_of_inputReasons {i : Input K} (h : inputReasons i = []) : Checked i := by
  simp only [inputReasons, List.append_eq_nil_iff, pushIf_eq_nil] at h
  obtain ⟨⟨⟨⟨⟨⟨⟨⟨⟨⟨⟨-, hsamples⟩, hfinite⟩, hsteps⟩, hspeed⟩, hchord⟩, hframes⟩, hperiod⟩, hcycles⟩,
    hcount⟩, hfraction⟩, -⟩ := h
  have hsamples' : minSourceSamples ≤ i.t.length := not_lt.mp (of_decide_eq_false hsamples)
  have hcycles' : minPeriodicityCycles ≤ i.periodicityCyclesObserved :=
    not_lt.mp (of_decide_eq_false hcycles)
  have htimes : ∀ x ∈ i.t, isFinite x = true := by
    intro x hx
    simp only [List.any_cons, Bool.or_eq_false_iff, List.any_eq_false] at hfinite
    simpa using hfinite.1 x hx
  have hback : stepsBack i.t = false := by
    rw [decide_eq_true (le_trans (by decide) hsamples'), Bool.true_and] at hsteps
    exact hsteps
  rw [decide_eq_true hcycles', Bool.true_and] at hfraction
  rw [Bool.or_eq_false_iff] at hcount
  exact
    { samples := hsamples'
      increasing := isChain_of_stepsBack htimes hback
      speed := number_pos hspeed
      chord := number_pos hchord
      frames := not_lt.mp (of_decide_eq_false hframes)
      period := number_pos hperiod
      cycles := hcycles'
      nonrepeatable := not_lt.mp (of_decide_eq_false hcount.2)
      fraction := not_lt.mp (of_decide_eq_false hfraction) }

/-! ## The parser -/

open Polar

omit [IsStrictOrderedRing K] in
theorem channelErrors_toJson (c : ChannelCertificate K)
    (heffective : (minEffectiveBlocks : K) ≤ c.statistics.effectiveBlocks) (path : String) :
    channelErrors c.toJson path = [] := by
  have hvalid := c.valid
  simp only [channelProblems, List.append_eq_nil_iff, pushIf_eq_nil, decide_eq_false_iff_not,
    not_lt, not_le] at hvalid
  obtain ⟨⟨⟨⟨⟨⟨⟨⟨hdeviation, hscale⟩, hwidth⟩, hci⟩, htrend⟩, hdrift⟩, hrange⟩, -⟩, hgrowth⟩ := hvalid
  have hkeys : c.toJson.keys = aperiodicChannelKeys := rfl
  have heffective' : ((aperiodicMinEffectiveBlocks : ℚ) : K) ≤ c.statistics.effectiveBlocks := heffective
  rw [channelErrors, if_neg (by simp [ChannelCertificate.toJson, JsValue.isRecord]), exactKeys_of_keys hkeys]
  simp only [eachKey_eq_nil, List.append_eq_nil_iff, pushIf_eq_nil]
  refine ⟨⟨⟨⟨trivial, ?_⟩, ?_⟩, ?_⟩, ?_⟩
  · simp [aperiodicChannelKeys, ChannelCertificate.toJson, JsValue.get]
  · simp [ChannelCertificate.toJson, JsValue.get, *]
  · simp [ChannelCertificate.toJson, JsValue.get, *]
  · simp [ChannelCertificate.toJson, JsValue.get, *]

omit [IsStrictOrderedRing K] in
theorem channelLimitErrors_toJson (c : Channel) {certificate : ChannelCertificate K}
    (h : channelReasons c certificate.statistics = []) :
    channelLimitErrors certificate.toJson c.name c.multiplier = [] := by
  simp only [channelReasons, List.append_eq_nil_iff, pushIf_eq_nil, decide_eq_false_iff_not, not_lt] at h
  obtain ⟨⟨⟨⟨hci, htrend⟩, hdrift⟩, -⟩, hgrowth⟩ := h
  rw [channelLimitErrors, if_neg (by simp [ChannelCertificate.toJson, JsValue.isRecord])]
  simp only [List.append_eq_nil_iff, pushIf_eq_nil]
  rw [Rat.cast_mul] at hci htrend hdrift
  refine ⟨⟨⟨decide_eq_false (not_lt.mpr hci), decide_eq_false (not_lt.mpr htrend)⟩,
    decide_eq_false (not_lt.mpr hdrift)⟩, decide_eq_false (not_lt.mpr hgrowth)⟩

omit [IsStrictOrderedRing K] in
theorem aperiodicThresholdErrors_thresholdsJson :
    aperiodicThresholdErrors (thresholdsJson : JsValue (Extended K)) = [] := by
  have hkeys : (thresholdsJson : JsValue (Extended K)).keys = aperiodicThresholds.map Prod.fst := rfl
  rw [aperiodicThresholdErrors, if_neg (by simp [thresholdsJson, JsValue.isRecord]), exactKeys_of_keys hkeys,
    List.nil_append, List.flatMap_eq_nil_iff]
  simp only [exactNumber, pushIf_eq_nil, Bool.not_eq_false', aperiodicThresholds, List.forall_mem_cons]
  refine ⟨?_, ?_, ?_, ?_, ?_, ?_, ?_, ?_, ?_, ?_, ?_, ?_, ?_, List.forall_mem_nil _⟩ <;> exact decide_eq_true rfl

theorem belowInteger_intCast {n : ℤ} {minimum : ℚ} (h : minimum ≤ n) :
    belowInteger (.num (Extended.fin (n : K))) minimum = false := by
  have hcast : ((minimum : ℚ) : K) ≤ n := by exact_mod_cast h
  rw [belowInteger, Extended.finiteAnd_num, Extended.isInteger_intCast, Bool.true_and, Extended.lit_eq, Extended.lt_fin,
    Bool.not_not, decide_eq_false (not_lt.mpr hcast)]

theorem belowInteger_natCast {n : ℕ} {minimum : ℚ} (h : minimum ≤ n) :
    belowInteger (.num (Extended.fin (n : K))) minimum = false := by
  rw [← Int.cast_natCast (R := K) n]
  exact belowInteger_intCast (by rwa [Int.cast_natCast])

theorem aperiodicPeriodicityErrors_toJson {i : Input K} (h : Checked i) (digest : InputDigest K)
    (cl cd cm : ChannelCertificate K) :
    aperiodicPeriodicityErrors (evidenceOf digest i cl cd cm).periodicityJson = [] := by
  have hkeys : (evidenceOf digest i cl cd cm).periodicityJson.keys = aperiodicPeriodicityKeys := rfl
  have hcycles : aperiodicMinPeriodicityCycles ≤ (i.periodicityCyclesObserved : ℚ) := by
    have hsix : (6 : ℤ) ≤ i.periodicityCyclesObserved := h.cycles
    rw [aperiodicMinPeriodicityCycles]
    exact_mod_cast hsix
  have hone : (1 : ℚ) ≤ (i.periodicityNonrepeatableCycles : ℚ) := by exact_mod_cast h.one_le_nonrepeatable
  have hcount : (i.periodicityNonrepeatableCycles : K) ≤ (i.periodicityCyclesObserved : K) := by
    exact_mod_cast h.nonrepeatable
  have hobserved : (i.periodicityCyclesObserved : K) ≠ 0 := by exact_mod_cast h.observed_pos.ne'
  have hfraction : ((aperiodicMinNonrepeatableFraction : ℚ) : K) ≤ i.nonrepeatableFraction := h.fraction
  rw [aperiodicPeriodicityErrors, if_neg (by simp [Evidence.periodicityJson, JsValue.isRecord])]
  simp only [exactKeys_of_keys hkeys, eachKey_eq_nil, List.append_eq_nil_iff, pushIf_eq_nil]
  refine ⟨⟨⟨⟨⟨⟨trivial, ?_⟩, ?_⟩, ?_⟩, ?_⟩, ?_⟩, ?_⟩
  · simp [aperiodicPeriodicityKeys, Evidence.periodicityJson, JsValue.get]
  · exact belowInteger_intCast hcycles
  · have hbelow : belowInteger ((evidenceOf digest i cl cd cm).periodicityJson.get "nonrepeatable_cycles") 1 = false :=
      belowInteger_intCast hone
    rw [hbelow, Bool.false_or]
    exact decide_eq_false (not_lt.mpr hcount)
  · simp [Evidence.periodicityJson, JsValue.get, evidenceOf, hfraction, h.nonrepeatableFraction_le_one]
  · simp [Evidence.periodicityJson, JsValue.get, evidenceOf, hobserved, h.nonrepeatableFraction_eq]
  · simp [Evidence.periodicityJson, JsValue.get, evidenceOf, h.period]

theorem aperiodicWindowErrors_toJson {i : Input K} (h : Checked i) (digest : InputDigest K)
    (cl cd cm : ChannelCertificate K) :
    aperiodicWindowErrors (evidenceOf digest i cl cd cm).toJson = [] := by
  have hstart : ((evidenceOf digest i cl cd cm).toJson.get "observation_start_time").finite? =
      some (.fin i.start) := rfl
  have hstop : ((evidenceOf digest i cl cd cm).toJson.get "observation_end_time").finite? =
      some (.fin i.stop) := rfl
  have hduration : ((evidenceOf digest i cl cd cm).toJson.get "observed_duration_s").finite? =
      some (.fin i.duration) := rfl
  rw [aperiodicWindowErrors, hstart, hstop, hduration]
  simp [pushIf_eq_nil, Input.duration, h.start_lt_stop]

omit [IsStrictOrderedRing K] [FloorRing K] in
theorem minEffectiveBlocks_le {c : Channel} {s : ChannelStatistics K} (h : channelReasons c s = []) :
    (minEffectiveBlocks : K) ≤ s.effectiveBlocks := by
  simp only [channelReasons, List.append_eq_nil_iff, pushIf_eq_nil, decide_eq_false_iff_not, not_lt] at h
  exact h.1.2

theorem parse_toJson {i : Input K} (h : Checked i) (hobservation : observationReasons i = []) (digest : InputDigest K)
    {cl cd cm : ChannelCertificate K} (hreasons : statisticsReasons cl cd cm = []) :
    parseAperiodicMeanCertificate (evidenceOf digest i cl cd cm).toJson =
      .ok (evidenceOf digest i cl cd cm).toJson := by
  have hconvective : ((aperiodicMinConvectiveTimes : ℚ) : K) ≤ i.convectiveTimes := by
    simp only [observationReasons, List.append_eq_nil_iff, pushIf_eq_nil, decide_eq_false_iff_not,
      not_lt] at hobservation
    exact hobservation.1.1.1.1
  rw [statisticsReasons, List.append_eq_nil_iff, List.append_eq_nil_iff] at hreasons
  obtain ⟨⟨hcl, hcd⟩, hcm⟩ := hreasons
  have hkeys : (evidenceOf digest i cl cd cm).toJson.keys = aperiodicRootKeys := rfl
  have hsamples : aperiodicMinSourceSamples ≤ (i.t.length : ℚ) := by
    have hcount : 400 ≤ i.t.length := h.samples
    rw [aperiodicMinSourceSamples]
    exact_mod_cast hcount
  have hgrid : (1 : ℚ) ≤ (i.gridSize : ℚ) := by
    have hcount : 800 ≤ i.gridSize := le_min (by decide) (le_max_left _ _)
    exact_mod_cast (le_trans (by decide) hcount : 1 ≤ i.gridSize)
  have hframes : aperiodicMinFieldFrames ≤ (i.fieldFrameCount : ℚ) := by
    have hcount : (40 : ℤ) ≤ i.fieldFrameCount := h.frames
    rw [aperiodicMinFieldFrames]
    exact_mod_cast hcount
  rw [parseAperiodicMeanCertificate, if_neg (by simp [Evidence.toJson, JsValue.isRecord])]
  split
  · rfl
  rename_i hnot
  refine absurd ?_ hnot
  simp only [exactKeys_of_keys hkeys, eachKey_eq_nil, List.append_eq_nil_iff, pushIf_eq_nil,
    aperiodicWindowErrors_toJson h]
  refine ⟨⟨⟨⟨⟨⟨⟨⟨⟨⟨⟨⟨⟨⟨⟨trivial, ?_⟩, ?_⟩, ?_⟩, ?_⟩, ?_⟩, ?_⟩, ?_⟩, ?_⟩, trivial⟩, ?_⟩, ?_⟩, ?_⟩, ?_⟩, ?_⟩, ?_⟩
  · simp [Evidence.toJson, JsValue.get, JsValue.isStr, aperiodicMeanCertificateVersion]
  · simp [Evidence.toJson, JsValue.get, JsValue.isTrue]
  · rw [Bool.not_eq_false']
    exact digest.hex i
  · simp [Evidence.toJson, JsValue.get]
  · exact belowInteger_natCast hsamples
  · exact belowInteger_natCast hgrid
  · exact belowInteger_intCast hframes
  · exact decide_eq_false (not_lt.mpr hconvective)
  · exact aperiodicThresholdErrors_thresholdsJson
  · exact aperiodicPeriodicityErrors_toJson h digest cl cd cm
  · simp only [List.flatMap_cons, List.flatMap_nil, List.append_eq_nil_iff]
    exact ⟨channelErrors_toJson cl (minEffectiveBlocks_le hcl) _, channelErrors_toJson cd (minEffectiveBlocks_le hcd) _,
      channelErrors_toJson cm (minEffectiveBlocks_le hcm) _, trivial⟩
  · exact channelLimitErrors_toJson .cl hcl
  · exact channelLimitErrors_toJson .cd hcd
  · exact channelLimitErrors_toJson .cm hcm

/-! ## The reduction -/

omit [FloorRing K] in
theorem Checked.certificateOf_ok (root : SquareRoot K) {i : Input K} (h : Checked i) (c : Channel) :
    ∃ certificate, i.certificateOf root c = .ok certificate := by
  have hfloor : (0 : K) < (c.absoluteFloor : K) := by
    have hrat : 0 < c.absoluteFloor := by cases c <;> norm_num [Channel.absoluteFloor]
    exact_mod_cast hrat
  have hgrid : resampledMin ≤ i.gridSize := le_min (by decide) (le_max_left _ _)
  obtain ⟨certificate, -, hcertificate, -⟩ := channelCertificate_grid root hfloor h.start_lt_stop hgrid
    (fun x => interp x (i.times.zip ((i.channel c).map number))) (P := fun _ => True) (fun _ _ _ _ => trivial)
  exact ⟨certificate, hcertificate⟩

def Refused (root : SquareRoot K) (i : Input K) : Prop :=
  inputReasons i ≠ [] ∨ observationReasons i ≠ [] ∨
    ∃ c certificate, i.certificateOf root c = .ok certificate ∧ channelReasons c certificate.statistics ≠ []

/-- The reduction returns, and the parser accepts what it certifies. -/
def ReturnsAccepted (root : SquareRoot K) (digest : InputDigest K) (i : Input K) : Prop :=
  ∃ reduction, reduceAperiodicMean root digest i = .ok reduction ∧
    ∀ certificate ∈ reduction.certificate,
      parseAperiodicMeanCertificate certificate.evidence.toJson = .ok certificate.evidence.toJson

omit [IsStrictOrderedRing K] in
theorem returnsAccepted_of_none {root : SquareRoot K} {digest : InputDigest K} {i : Input K}
    {reasons : List String} {observed additional : Option K}
    (h : reduceAperiodicMean root digest i = .ok ⟨none, reasons, observed, additional⟩) :
    ReturnsAccepted root digest i := by
  refine ⟨_, h, ?_⟩
  intro certificate hcertificate
  cases hcertificate

theorem reduce_checked (root : SquareRoot K) (digest : InputDigest K) {i : Input K} (hinput : inputReasons i = [])
    (hobservation : observationReasons i = []) {cl cd cm : ChannelCertificate K}
    (hcl : i.certificateOf root .cl = .ok cl) (hcd : i.certificateOf root .cd = .ok cd)
    (hcm : i.certificateOf root .cm = .ok cm) :
    ReturnsAccepted root digest i ↔ (0 ≤ i.start ∨ statisticsReasons cl cd cm ≠ []) := by
  have hchecked := checked_of_inputReasons hinput
  have hreduce : reduceAperiodicMean root digest i =
      if statisticsReasons cl cd cm ≠ [] then
        .ok ⟨none, statisticsReasons cl cd cm, some i.convectiveTimes, some 0⟩
      else if h : evidenceProblems (evidenceOf digest i cl cd cm) = [] then
        .ok ⟨some ⟨evidenceOf digest i cl cd cm, h⟩, [], some i.convectiveTimes, some 0⟩
      else .error (.validationError (evidenceProblems (evidenceOf digest i cl cd cm))) := by
    rw [reduceAperiodicMean, if_neg (not_not.mpr hinput), if_neg (not_not.mpr hobservation), hcl, hcd, hcm]
  by_cases hreasons : statisticsReasons cl cd cm = []
  · rw [if_neg (not_not.mpr hreasons)] at hreduce
    by_cases hstart : 0 ≤ i.start
    · have hvalid := (hchecked.evidenceProblems_eq_nil_iff digest cl cd cm).mpr hstart
      rw [dif_pos hvalid] at hreduce
      refine iff_of_true ⟨_, hreduce, ?_⟩ (.inl hstart)
      intro certificate hcertificate
      obtain rfl := Option.mem_some_iff.mp hcertificate
      exact parse_toJson hchecked hobservation digest hreasons
    · have hproblems : evidenceProblems (evidenceOf digest i cl cd cm) ≠ [] := fun hvalid =>
        hstart ((hchecked.evidenceProblems_eq_nil_iff digest cl cd cm).mp hvalid)
      rw [dif_neg hproblems] at hreduce
      refine iff_of_false ?_ ?_
      · rintro ⟨reduction, hok, -⟩
        rw [hreduce] at hok
        cases hok
      · rintro (hle | hne)
        · exact hstart hle
        · exact hne hreasons
  · rw [if_pos hreasons] at hreduce
    exact iff_of_true (returnsAccepted_of_none hreduce) (.inr hreasons)

omit [IsStrictOrderedRing K] [FloorRing K] in
theorem statisticsReasons_ne_nil_iff {root : SquareRoot K} {i : Input K} {cl cd cm : ChannelCertificate K}
    (hcl : i.certificateOf root .cl = .ok cl) (hcd : i.certificateOf root .cd = .ok cd)
    (hcm : i.certificateOf root .cm = .ok cm) :
    statisticsReasons cl cd cm ≠ [] ↔
      ∃ c certificate, i.certificateOf root c = .ok certificate ∧ channelReasons c certificate.statistics ≠ [] := by
  constructor
  · intro h
    by_contra hnone
    push Not at hnone
    apply h
    rw [statisticsReasons, hnone .cl cl hcl, hnone .cd cd hcd, hnone .cm cm hcm]
    rfl
  · rintro ⟨c, certificate, hcertificate, hreasons⟩ hnil
    rw [statisticsReasons, List.append_eq_nil_iff, List.append_eq_nil_iff] at hnil
    cases c with
    | cl =>
      rw [hcl] at hcertificate
      cases hcertificate
      exact hreasons hnil.1.1
    | cd =>
      rw [hcd] at hcertificate
      cases hcertificate
      exact hreasons hnil.1.2
    | cm =>
      rw [hcm] at hcertificate
      cases hcertificate
      exact hreasons hnil.2

theorem returnsAccepted_iff (root : SquareRoot K) (digest : InputDigest K) (i : Input K) :
    ReturnsAccepted root digest i ↔ (0 ≤ i.start ∨ Refused root i) := by
  by_cases hinput : inputReasons i = []
  · by_cases hobservation : observationReasons i = []
    · have hchecked := checked_of_inputReasons hinput
      obtain ⟨cl, hcl⟩ := hchecked.certificateOf_ok root .cl
      obtain ⟨cd, hcd⟩ := hchecked.certificateOf_ok root .cd
      obtain ⟨cm, hcm⟩ := hchecked.certificateOf_ok root .cm
      rw [reduce_checked root digest hinput hobservation hcl hcd hcm,
        statisticsReasons_ne_nil_iff hcl hcd hcm, Refused]
      simp only [ne_eq, hinput, hobservation, not_true_eq_false, false_or]
    · have hreduce : reduceAperiodicMean root digest i = .ok ⟨none, observationReasons i, some i.convectiveTimes,
          some (max 0 ((minConvectiveTimes : K) - i.convectiveTimes))⟩ := by
        rw [reduceAperiodicMean, if_neg (not_not.mpr hinput), if_pos hobservation]
      exact iff_of_true (returnsAccepted_of_none hreduce) (.inr (.inr (.inl hobservation)))
  · have hreduce : reduceAperiodicMean root digest i = .ok ⟨none, inputReasons i, none, none⟩ := by
      rw [reduceAperiodicMean, if_pos hinput]
    exact iff_of_true (returnsAccepted_of_none hreduce) (.inr (.inl hinput))

noncomputable def realRoot : SquareRoot ℝ where
  sqrt := Real.sqrt
  nonneg := Real.sqrt_nonneg
  sq _ hx := Real.mul_self_sqrt hx

/-- The reduction returns, with a certificate that the parser accepts if any, exactly when the times do not start
below zero or the evidence is refused: `observation_start_time` is the one bound of the model that no check of the
reducer implies. -/
theorem reduction_returns_accepted_iff (digest : InputDigest ℝ) (i : Input ℝ) :
    ReturnsAccepted realRoot digest i ↔ (0 ≤ i.start ∨ Refused realRoot i) :=
  returnsAccepted_iff realRoot digest i

/-! ## A signal that starts before zero -/

omit [FloorRing K] in
theorem effectiveBlocks_const {c : K} {means : List K} (hne : means ≠ []) (h : ∀ m ∈ means, m = c) :
    effectiveBlocks means = (blockCount : K) := by
  have hrho : lagCorrelation means = 0 := by
    have hlimit : (0 : K) ≤ ((9 / 10 : ℚ) : K) := by exact_mod_cast (by norm_num : (0 : ℚ) ≤ 9 / 10)
    rw [lagCorrelation, deviation_const hne h, if_neg (lt_irrefl _), min_eq_right hlimit,
      max_eq_right (neg_nonpos.mpr hlimit)]
  have hcount : (1 : K) ≤ (blockCount : K) := by norm_num [blockCount]
  rw [effectiveBlocks, hrho, sub_zero, add_zero, mul_one, div_one, min_self, max_eq_right hcount]

omit [FloorRing K] in
theorem channelReasons_const (root : SquareRoot K) (channel : Channel) {floor c : K} (values : List K)
    {means deviations : List K} (hlength : means.length = blockCount) (hmeans : ∀ m ∈ means, m = c)
    (hdeviations : ∀ x ∈ deviations, x = 0) (hdeviationsLength : deviations.length = blockCount) :
    channelReasons channel (statisticsOf root floor values means deviations) = [] := by
  have hne : means ≠ [] := by
    rintro rfl
    cases hlength
  have hmultiplier : (0 : ℚ) ≤ channel.multiplier := by
    cases channel <;> norm_num [Channel.multiplier, cmToleranceMultiplier]
  have hfirst : mean (means.take (blockCount / 2)) = c := by
    refine mean_const ?_ fun m hm => hmeans m (List.mem_of_mem_take hm)
    apply List.ne_nil_of_length_pos
    rw [List.length_take, hlength]
    decide
  have hsecond : mean (means.drop (means.length - blockCount / 2)) = c := by
    refine mean_const ?_ fun m hm => hmeans m (List.mem_of_mem_drop hm)
    apply List.ne_nil_of_length_pos
    rw [List.length_drop, hlength]
    decide
  have hgrowth : mean (deviations.drop (deviations.length - blockCount / 2)) = 0 := by
    refine mean_const ?_ fun x hx => hdeviations x (List.mem_of_mem_drop hx)
    apply List.ne_nil_of_length_pos
    rw [List.length_drop, hdeviationsLength]
    decide
  simp only [channelReasons, List.append_eq_nil_iff, pushIf_eq_nil, decide_eq_false_iff_not, not_lt]
  simp only [statisticsOf, sampleStd_const root hne hmeans, Sampling.slope, crossDeviation_const hne hmeans, hfirst,
    hsecond, hgrowth, effectiveBlocks_const hne hmeans, mul_zero, zero_div, zero_mul, sub_self, abs_zero]
  refine ⟨⟨⟨⟨?_, ?_⟩, ?_⟩, ?_⟩, ?_⟩
  · exact_mod_cast mul_nonneg (by norm_num [maxCi95Fraction]) hmultiplier
  · exact_mod_cast mul_nonneg (by norm_num [maxTrendFraction]) hmultiplier
  · exact_mod_cast mul_nonneg (by norm_num [maxHalfDriftFraction]) hmultiplier
  · norm_num [minEffectiveBlocks, blockCount]
  · norm_num [maxAmplitudeGrowth]

omit [FloorRing K] in
theorem blockMean_grid_const {start stop : K} (h : start < stop) {n k : ℕ} (hn : resampledMin ≤ n)
    (hk : k < blockCount) {f : K → K} {c : K} (hf : ∀ x, f x = c) {m : K}
    (hm : blockMean (blockRows start stop (gridRows start stop n f) k) = .ok m) : m = c := by
  obtain ⟨p, ps, hrows, hpos, hmean⟩ := blockMean_grid h hn hk f
  have hconst : ∀ q ∈ p :: ps, q.2 = c := by
    intro q hq
    rw [← hrows] at hq
    obtain ⟨x, -, rfl⟩ := List.mem_map.mp (List.mem_filter.mp hq).1
    exact hf x
  rw [hmean, trapezoid_const hconst, mul_div_cancel_right₀ c hpos.ne'] at hm
  cases hm
  rfl

omit [FloorRing K] in
theorem std_grid_const (root : SquareRoot K) {start stop : K} (h : start < stop) {n k : ℕ} (hn : resampledMin ≤ n)
    (hk : k < blockCount) {f : K → K} {c : K} (hf : ∀ x, f x = c) :
    std root ((blockRows start stop (gridRows start stop n f) k).map Prod.snd) = 0 := by
  obtain ⟨p, ps, hrows, -, -⟩ := blockMean_grid h hn hk f
  refine std_const root (by rw [hrows]; exact List.cons_ne_nil _ _) (c := c) ?_
  intro y hy
  obtain ⟨q, hq, rfl⟩ := List.mem_map.mp hy
  obtain ⟨x, -, rfl⟩ := List.mem_map.mp (List.mem_filter.mp hq).1
  exact hf x

omit [FloorRing K] in
theorem channelReasons_grid_const (root : SquareRoot K) (channel : Channel) {floor start stop : K} (hfloor : 0 < floor)
    (h : start < stop) {n : ℕ} (hn : resampledMin ≤ n) {f : K → K} {c : K} (hf : ∀ x, f x = c)
    {certificate : ChannelCertificate K}
    (hcertificate : channelCertificate root floor start stop (gridRows start stop n f) = .ok certificate) :
    channelReasons channel certificate.statistics = [] := by
  obtain ⟨found, means, hfound, hlength, hmeans, hstatistics⟩ := channelCertificate_grid root hfloor h hn f
    (P := fun m => m = c) fun k hk m hm => blockMean_grid_const h hn hk hf hm
  rw [hcertificate] at hfound
  cases hfound
  rw [hstatistics]
  apply channelReasons_const root channel _ hlength hmeans
  · intro x hx
    obtain ⟨rows, hrows, rfl⟩ := List.mem_map.mp hx
    obtain ⟨k, hk, rfl⟩ := List.mem_map.mp hrows
    exact std_grid_const root h hn (List.mem_range.mp hk) hf
  · rw [List.length_map, List.length_map, List.length_range]

def steady {K : Type} (c : K) : List (Extended K) := List.replicate 400 (.fin c)

theorem mem_steady {K : Type} {c : K} {x : Extended K} (hx : x ∈ steady c) : x = .fin c := List.eq_of_mem_replicate hx

theorem length_steady {K : Type} (c : K) : (steady c).length = 400 := List.length_replicate

def earlyWake (K : Type) [Field K] : Input K where
  t := (List.range 400).map fun (i : ℕ) => .fin ((i : K) - 1)
  cl := steady 1
  cd := steady 1
  cm := steady 0
  speed := .fin 1
  chord := .fin 1
  fieldFrameCount := 40
  priorDiagnostic := ""
  candidatePeriodS := some (.fin 1)
  periodicityCyclesObserved := 6
  periodicityNonrepeatableCycles := 6
  periodicityContaminated := false

theorem stepsBack_map_fin {xs : List K} (h : xs.IsChain (· < ·)) :
    stepsBack (xs.map Extended.fin) = false := by
  induction xs with
  | nil => rfl
  | cons x xs ih =>
    cases xs with
    | nil => rfl
    | cons y rest =>
      obtain ⟨hxy, hrest⟩ := List.isChain_cons_cons.mp h
      rw [List.map_cons, List.map_cons, stepsBack, ← List.map_cons, ih hrest, Bool.or_false, Extended.sub_fin,
        Extended.lit_eq, Extended.le_fin, Rat.cast_zero]
      exact decide_eq_false (not_le.mpr (sub_pos.mpr hxy))

theorem earlyWake_times : (earlyWake ℝ).times = (List.range 400).map fun (i : ℕ) => (i : ℝ) - 1 := by
  rw [Input.times, earlyWake, List.map_map]
  rfl

theorem earlyWake_start : (earlyWake ℝ).start = -1 := by
  rw [Input.start, earlyWake_times, List.headD_eq_head?_getD, List.head?_map, List.head?_range]
  norm_num

theorem earlyWake_stop : (earlyWake ℝ).stop = 398 := by
  rw [Input.stop, earlyWake_times, List.getLastD_eq_getLast?, List.getLast?_map, List.getLast?_range]
  norm_num

theorem earlyWake_duration : (earlyWake ℝ).duration = 399 := by
  rw [Input.duration, earlyWake_start, earlyWake_stop]
  norm_num

theorem earlyWake_convectiveTimes : (earlyWake ℝ).convectiveTimes = 399 := by
  show (earlyWake ℝ).duration * 1 / 1 = 399
  rw [earlyWake_duration]
  norm_num

theorem earlyWake_increasing : (earlyWake ℝ).times.IsChain (· < ·) := by
  rw [earlyWake_times]
  apply List.Pairwise.isChain
  rw [List.pairwise_map]
  exact List.pairwise_lt_range.imp fun hij => sub_lt_sub_right (Nat.cast_lt.mpr hij) 1

theorem earlyWake_inputReasons : inputReasons (earlyWake ℝ) = [] := by
  have ht : (earlyWake ℝ).t = (earlyWake ℝ).times.map Extended.fin := by
    rw [earlyWake_times, List.map_map]
    rfl
  have hsteps : stepsBack (earlyWake ℝ).t = false := by
    rw [ht]
    exact stepsBack_map_fin earlyWake_increasing
  have hfinite : ([(earlyWake ℝ).t, (earlyWake ℝ).cl, (earlyWake ℝ).cd, (earlyWake ℝ).cm].any
      fun values => values.any fun x => !isFinite x) = false := by
    have hsteady : ∀ c : ℝ, ((steady c).any fun x => !isFinite x) = false := by
      intro c
      rw [List.any_eq_false]
      intro x hx
      rw [mem_steady hx]
      exact Bool.false_ne_true
    have htimes : ((earlyWake ℝ).t.any fun x => !isFinite x) = false := by
      rw [ht, List.any_map, List.any_eq_false]
      intro x _
      exact Bool.false_ne_true
    have hcl : ((earlyWake ℝ).cl.any fun x => !isFinite x) = false := hsteady 1
    have hcd : ((earlyWake ℝ).cd.any fun x => !isFinite x) = false := hsteady 1
    have hcm : ((earlyWake ℝ).cm.any fun x => !isFinite x) = false := hsteady 0
    simp only [List.any_cons, List.any_nil, htimes, hcl, hcd, hcm, Bool.or_self]
  have hlength : (earlyWake ℝ).t.length = 400 := by
    rw [ht, List.length_map, earlyWake_times, List.length_map, List.length_range]
  have hcl : (earlyWake ℝ).cl.length = 400 := length_steady 1
  have hcd : (earlyWake ℝ).cd.length = 400 := length_steady 1
  have hcm : (earlyWake ℝ).cm.length = 400 := length_steady 0
  simp only [inputReasons, hsteps, hfinite, hlength, hcl, hcd, hcm, List.append_eq_nil_iff, pushIf_eq_nil]
  simp [earlyWake, notPositive, minSourceSamples, minFieldFrames, minPeriodicityCycles, Input.period,
    Input.nonrepeatableFraction, minNonrepeatableFraction]
  norm_num

theorem earlyWake_observationReasons : observationReasons (earlyWake ℝ) = [] := by
  have hgap : (earlyWake ℝ).gapFraction ≤ ((maxSourceGapFraction : ℚ) : ℝ) := by
    have hsteps : ∀ d ∈ differences (earlyWake ℝ).times, d = 1 := by
      apply differences_const
      rw [earlyWake_times, List.isChain_map, List.isChain_range]
      intro m _
      rw [Nat.cast_succ]
      ring
    have hhead : (differences (earlyWake ℝ).times).headD 0 = 1 := by
      rw [earlyWake_times, show 400 = 398 + 1 + 1 from rfl, List.range_succ_eq_map, List.range_succ_eq_map,
        List.map_cons, List.map_cons, List.map_cons, differences, List.headD_cons]
      norm_num
    rw [Input.gapFraction, hhead, foldl_const (max_self _) hsteps, earlyWake_duration]
    norm_num [blockCount, maxSourceGapFraction]
  simp only [observationReasons, List.append_eq_nil_iff, pushIf_eq_nil, decide_eq_false_iff_not, not_lt,
    earlyWake_convectiveTimes]
  refine ⟨⟨⟨⟨?_, hgap⟩, ?_⟩, ?_⟩, rfl⟩
  · norm_num [minConvectiveTimes]
  · rw [List.any_map, List.any_eq_false]
    intro x hx
    rw [Function.comp_apply, mem_steady hx]
    norm_num [number]
  · have hcl : ((earlyWake ℝ).cl.map number).any (fun x => decide (10 < |x|)) = false := by
      rw [List.any_map, List.any_eq_false]
      intro x hx
      rw [Function.comp_apply, mem_steady hx]
      norm_num [number]
    have hcm : ((earlyWake ℝ).cm.map number).any (fun x => decide (10 < |x|)) = false := by
      rw [List.any_map, List.any_eq_false]
      intro x hx
      rw [Function.comp_apply, mem_steady hx]
      norm_num [number]
    rw [hcl, hcm, Bool.or_self]

theorem earlyWake_channelReasons (root : SquareRoot ℝ) (c : Channel) {certificate : ChannelCertificate ℝ}
    (hcertificate : (earlyWake ℝ).certificateOf root c = .ok certificate) :
    channelReasons c certificate.statistics = [] := by
  have hchecked := checked_of_inputReasons earlyWake_inputReasons
  obtain ⟨value, hvalue⟩ : ∃ value : ℝ, (earlyWake ℝ).channel c = steady value := by
    cases c
    · exact ⟨1, rfl⟩
    · exact ⟨1, rfl⟩
    · exact ⟨0, rfl⟩
  have hfloor : (0 : ℝ) < (c.absoluteFloor : ℝ) := by
    cases c <;> norm_num [Channel.absoluteFloor]
  have hgrid : resampledMin ≤ (earlyWake ℝ).gridSize := le_min (by decide) (le_max_left _ _)
  have hsome : ((earlyWake ℝ).times.zip (((earlyWake ℝ).channel c).map number)) ≠ [] := by
    apply List.ne_nil_of_length_pos
    rw [hvalue, List.length_zip, List.length_map, length_steady, earlyWake_times, List.length_map,
      List.length_range]
    norm_num
  have hconst : ∀ x, interp x ((earlyWake ℝ).times.zip (((earlyWake ℝ).channel c).map number)) = value := by
    intro x
    apply interp_const x hsome
    intro p hp
    have hp2 := (List.of_mem_zip hp).2
    rw [hvalue] at hp2
    obtain ⟨y, hy, hnumber⟩ := List.mem_map.mp hp2
    rw [← hnumber, mem_steady hy]
    rfl
  exact channelReasons_grid_const root c hfloor hchecked.start_lt_stop hgrid hconst hcertificate

/-- The reduction raises on the steady signal before time zero. -/
theorem early_wake_raises : ¬∃ digest : InputDigest ℝ, ReturnsAccepted realRoot digest (earlyWake ℝ) := by
  rintro ⟨digest, haccepted⟩
  revert haccepted
  rw [returnsAccepted_iff, imp_false, not_or]
  refine ⟨by rw [earlyWake_start]; norm_num, ?_⟩
  rintro (hinput | hobservation | ⟨c, certificate, hcertificate, hreasons⟩)
  · exact hinput earlyWake_inputReasons
  · exact hobservation earlyWake_observationReasons
  · exact hreasons (earlyWake_channelReasons realRoot c hcertificate)

end XFoilFoam.Unsteady.Aperiodic
