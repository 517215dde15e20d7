import XFoilFoam.Foundations.Sampling
import Mathlib.Algebra.Order.Archimedean.Basic
import Mathlib.Analysis.Real.Sqrt
import Mathlib.Tactic.LinearCombination
import Mathlib.Topology.Order.IntermediateValue

/-! The line searches of `packages/core/src/polar-fit.ts` in exact arithmetic: `goldenSectionMax` and `bisectRoot`. -/
namespace XFoilFoam.LineSearch
open Sampling (SquareRoot)
set_option autoImplicit false

/-! ## `goldenSectionMax` -/

section Golden
variable {K : Type} [Field K] [LinearOrder K]

structure Bracket (K : Type) where
  a : K
  b : K
  c : K
  d : K
  fc : K
  fd : K

def invPhi (root : SquareRoot K) : K := (root.sqrt 5 - 1) / 2

def goldenStep (ratio : K) (f : K → K) (s : Bracket K) : Bracket K :=
  if s.fd < s.fc then
    let c := s.d - ratio * (s.d - s.a)
    { s with b := s.d, d := s.c, fd := s.fc, c := c, fc := f c }
  else
    let d := s.c + ratio * (s.b - s.c)
    { s with a := s.c, c := s.d, fc := s.fd, d := d, fd := f d }

/-- `while (b - a > 1e-5)`. -/
def goldenLoop (ratio : K) (f : K → K) : ℕ → Bracket K → Option (Bracket K)
  | 0, _ => none
  | fuel + 1, s => if 1 / 10 ^ 5 < s.b - s.a then goldenLoop ratio f fuel (goldenStep ratio f s) else some s

def goldenStart (ratio : K) (f : K → K) (lo hi : K) : Bracket K :=
  let c := hi - ratio * (hi - lo)
  let d := lo + ratio * (hi - lo)
  ⟨lo, hi, c, d, f c, f d⟩

def goldenSectionMax (root : SquareRoot K) (fuel : ℕ) (f : K → K) (lo hi : K) : Option K :=
  (goldenLoop (invPhi root) f fuel (goldenStart (invPhi root) f lo hi)).map fun s => (s.a + s.b) / 2

/-- The inner points divide the bracket by the ratio, and their values are those of the function. -/
structure Bracket.Divided (ratio : K) (f : K → K) (s : Bracket K) : Prop where
  c : s.c = s.b - ratio * (s.b - s.a)
  d : s.d = s.a + ratio * (s.b - s.a)
  fc : s.fc = f s.c
  fd : s.fd = f s.d

omit [LinearOrder K] in
theorem goldenStart_divided (ratio : K) (f : K → K) (lo hi : K) : (goldenStart ratio f lo hi).Divided ratio f :=
  ⟨rfl, rfl, rfl, rfl⟩

/-- The ratio of the golden section: its square is what it leaves of the whole. -/
structure IsGolden (ratio : K) : Prop where
  square : ratio * ratio = 1 - ratio
  half_lt : 1 / 2 < ratio
  lt_one : ratio < 1

theorem goldenStep_divided {ratio : K} (hratio : IsGolden ratio) {f : K → K} {s : Bracket K} (h : s.Divided ratio f) :
    (goldenStep ratio f s).Divided ratio f := by
  have hsquare := hratio.square
  unfold goldenStep
  split
  · refine ⟨rfl, ?_, rfl, h.fc⟩
    show s.c = s.a + ratio * (s.d - s.a)
    rw [h.c, h.d]
    linear_combination (-(s.b - s.a)) * hsquare
  · refine ⟨?_, rfl, h.fd, rfl⟩
    show s.d = s.b - ratio * (s.b - s.c)
    rw [h.c, h.d]
    linear_combination (s.b - s.a) * hsquare

theorem goldenStep_width {ratio : K} {f : K → K} {s : Bracket K} (h : s.Divided ratio f) :
    (goldenStep ratio f s).b - (goldenStep ratio f s).a = ratio * (s.b - s.a) := by
  unfold goldenStep
  split
  · show s.d - s.a = _
    rw [h.d]
    ring
  · show s.b - s.c = _
    rw [h.c]
    ring

/-- `m` is the maximiser: the function rises strictly up to it and falls strictly after it. -/
structure StrictlyUnimodal (f : K → K) (lo hi m : K) : Prop where
  mem : m ∈ Set.Icc lo hi
  rises : StrictMonoOn f (Set.Icc lo m)
  falls : StrictAntiOn f (Set.Icc m hi)

variable [IsStrictOrderedRing K]

theorem invPhi_golden (root : SquareRoot K) : IsGolden (invPhi root) := by
  have hsq : root.sqrt 5 * root.sqrt 5 = 5 := root.sq 5 (by norm_num)
  have hnonneg := root.nonneg 5
  have htwo : 2 < root.sqrt 5 := by nlinarith
  have hthree : root.sqrt 5 < 3 := by nlinarith
  refine ⟨?_, ?_, ?_⟩ <;> unfold invPhi
  · linear_combination hsq / 4
  · linarith
  · linarith

theorem Bracket.Divided.inner {ratio : K} (hratio : IsGolden ratio) {f : K → K} {s : Bracket K}
    (h : s.Divided ratio f) (hlt : s.a < s.b) : s.a < s.c ∧ s.c < s.d ∧ s.d < s.b := by
  have hwidth : 0 < s.b - s.a := sub_pos.mpr hlt
  have hhalf := hratio.half_lt
  have hone := hratio.lt_one
  rw [h.c, h.d]
  refine ⟨?_, ?_, ?_⟩ <;> nlinarith

theorem goldenStep_within {ratio : K} (hratio : IsGolden ratio) {f : K → K} {s : Bracket K} (h : s.Divided ratio f)
    (hlt : s.a < s.b) :
    s.a ≤ (goldenStep ratio f s).a ∧ (goldenStep ratio f s).a < (goldenStep ratio f s).b ∧
      (goldenStep ratio f s).b ≤ s.b := by
  obtain ⟨hc, hcd, hd⟩ := h.inner hratio hlt
  unfold goldenStep
  split
  · exact ⟨le_rfl, hc.trans hcd, hd.le⟩
  · exact ⟨hc.le, hcd.trans hd, le_rfl⟩

theorem goldenStep_keeps {ratio : K} (hratio : IsGolden ratio) {f : K → K} {s : Bracket K} (h : s.Divided ratio f)
    {lo hi m : K} (hm : StrictlyUnimodal f lo hi m) (hlo : lo ≤ s.a) (hhi : s.b ≤ hi) (hlt : s.a < s.b)
    (hmem : s.a ≤ m ∧ m ≤ s.b) : (goldenStep ratio f s).a ≤ m ∧ m ≤ (goldenStep ratio f s).b := by
  obtain ⟨hc, hcd, hd⟩ := h.inner hratio hlt
  unfold goldenStep
  split
  · next hgreater =>
    rw [h.fc, h.fd] at hgreater
    refine ⟨hmem.1, not_lt.mp fun hright => ?_⟩
    -- both points on the rising side
    exact hgreater.not_gt (hm.rises ⟨hlo.trans hc.le, (hcd.trans hright).le⟩
      ⟨hlo.trans (hc.trans hcd).le, hright.le⟩ hcd)
  · next hgreater =>
    rw [h.fc, h.fd] at hgreater
    refine ⟨not_lt.mp fun hleft => ?_, hmem.2⟩
    exact hgreater (hm.falls ⟨hleft.le, (hcd.trans hd).le.trans hhi⟩ ⟨(hleft.trans hcd).le, hd.le.trans hhi⟩ hcd)

theorem goldenLoop_spec {ratio : K} (hratio : IsGolden ratio) {f : K → K} {n : ℕ} {s : Bracket K}
    (h : s.Divided ratio f) (hlt : s.a ≤ s.b) (hwidth : ratio ^ n * (s.b - s.a) ≤ 1 / 10 ^ 5) :
    ∃ t, (∀ fuel, n < fuel → goldenLoop ratio f fuel s = some t) ∧ s.a ≤ t.a ∧ t.a ≤ t.b ∧ t.b ≤ s.b ∧
      t.b - t.a ≤ 1 / 10 ^ 5 ∧
      ∀ lo hi m, StrictlyUnimodal f lo hi m → lo ≤ s.a → s.b ≤ hi → s.a ≤ m ∧ m ≤ s.b → t.a ≤ m ∧ m ≤ t.b := by
  induction n generalizing s with
  | zero =>
    rw [pow_zero, one_mul] at hwidth
    refine ⟨s, fun fuel hfuel => ?_, le_rfl, hlt, le_rfl, hwidth, fun _ _ _ _ _ _ hmem => hmem⟩
    obtain ⟨fuel, rfl⟩ := Nat.exists_eq_succ_of_ne_zero hfuel.ne'
    exact if_neg (not_lt.mpr hwidth)
  | succ n ih =>
    by_cases hwide : 1 / 10 ^ 5 < s.b - s.a
    · have hlt' : s.a < s.b := by
        have hpos : (0 : K) < 1 / 10 ^ 5 := by positivity
        linarith
      obtain ⟨ha, hab, hb⟩ := goldenStep_within hratio h hlt'
      have hnext : ratio ^ n * ((goldenStep ratio f s).b - (goldenStep ratio f s).a) ≤ 1 / 10 ^ 5 := by
        rw [goldenStep_width h, ← mul_assoc, ← pow_succ]
        exact hwidth
      obtain ⟨t, hloop, hta, htab, htb, hsmall, hkeeps⟩ := ih (goldenStep_divided hratio h) hab.le hnext
      refine ⟨t, fun fuel hfuel => ?_, ha.trans hta, htab, htb.trans hb, hsmall, ?_⟩
      · obtain ⟨fuel, rfl⟩ := Nat.exists_eq_succ_of_ne_zero (by omega : fuel ≠ 0)
        rw [goldenLoop, if_pos hwide]
        exact hloop fuel (by omega)
      · intro lo hi m hm hlo hhi hmem
        exact hkeeps lo hi m hm (hlo.trans ha) (hb.trans hhi) (goldenStep_keeps hratio h hm hlo hhi hlt' hmem)
    · refine ⟨s, fun fuel hfuel => ?_, le_rfl, hlt, le_rfl, not_lt.mp hwide, fun _ _ _ _ _ _ hmem => hmem⟩
      obtain ⟨fuel, rfl⟩ := Nat.exists_eq_succ_of_ne_zero (by omega : fuel ≠ 0)
      exact if_neg hwide

theorem goldenSectionMax_spec [Archimedean K] (root : SquareRoot K) (f : K → K) {lo hi : K} (h : lo ≤ hi) :
    ∃ n x, (∀ fuel, n < fuel → goldenSectionMax root fuel f lo hi = some x) ∧ x ∈ Set.Icc lo hi ∧
      ∀ m, StrictlyUnimodal f lo hi m → |x - m| ≤ 1 / 10 ^ 5 := by
  have hgolden := invPhi_golden root
  have hpositive : 0 ≤ invPhi root := by linarith [hgolden.half_lt]
  obtain ⟨n, hn⟩ : ∃ n : ℕ, invPhi root ^ n * (hi - lo) ≤ 1 / 10 ^ 5 := by
    obtain heq | hlt := h.eq_or_lt
    · exact ⟨0, by rw [heq, sub_self, mul_zero]; positivity⟩
    · have hwidth : 0 < hi - lo := sub_pos.mpr hlt
      obtain ⟨n, hn⟩ := exists_pow_lt_of_lt_one (div_pos (by positivity : (0 : K) < 1 / 10 ^ 5) hwidth) hgolden.lt_one
      exact ⟨n, ((lt_div_iff₀ hwidth).mp hn).le⟩
  obtain ⟨t, hloop, hta, htab, htb, hsmall, hkeeps⟩ :=
    goldenLoop_spec hgolden (goldenStart_divided (invPhi root) f lo hi) h hn
  refine ⟨n, (t.a + t.b) / 2, fun fuel hfuel => ?_, ⟨?_, ?_⟩, fun m hm => ?_⟩
  · rw [goldenSectionMax, hloop fuel hfuel, Option.map_some]
  · have hlo : lo ≤ t.a := hta
    linarith
  · have hhi : t.b ≤ hi := htb
    linarith
  · obtain ⟨hleft, hright⟩ := hkeeps lo hi m hm le_rfl le_rfl hm.mem
    rw [abs_le]
    constructor <;> linarith

end Golden

/-! ## `bisectRoot` -/

section Bisect
variable {K : Type} [Field K] [LinearOrder K]

def bisectLoop (f : K → K) : ℕ → K → K → K → K
  | 0, a, b, _ => (a + b) / 2
  | rounds + 1, a, b, fa =>
    if 1 / 10 ^ 7 < b - a then
      let mid := (a + b) / 2
      let fm := f mid
      if fm = 0 then mid
      else if (fa < 0 ∧ fm < 0) ∨ (0 < fa ∧ 0 < fm) then bisectLoop f rounds mid b fm
      else bisectLoop f rounds a mid fa
    else (a + b) / 2

def bisectRoot (f : K → K) (lo hi : K) : K := if f lo = 0 then lo else bisectLoop f 80 lo hi (f lo)

end Bisect

section Roots
variable {f : ℝ → ℝ} {a b : ℝ}

theorem exists_root (hab : a ≤ b) (hf : ContinuousOn f (Set.Icc a b)) (h : f a * f b ≤ 0) :
    ∃ r ∈ Set.Icc a b, f r = 0 := by
  obtain ⟨ha, hb⟩ | ⟨ha, hb⟩ := mul_nonpos_iff.mp h
  · exact intermediate_value_Icc' hab hf ⟨hb, ha⟩
  · exact intermediate_value_Icc hab hf ⟨ha, hb⟩

theorem middle_near_root {width : ℝ} (hab : a ≤ b) (hf : ContinuousOn f (Set.Icc a b)) (h : f a * f b ≤ 0)
    (hwidth : b - a ≤ width) : ∃ r ∈ Set.Icc a b, f r = 0 ∧ |(a + b) / 2 - r| ≤ width := by
  obtain ⟨r, hr, hroot⟩ := exists_root hab hf h
  refine ⟨r, hr, hroot, ?_⟩
  have hlo := hr.1
  have hhi := hr.2
  rw [abs_le]
  constructor <;> linarith

theorem bisectLoop_near_root {rounds : ℕ} (hab : a ≤ b) (hf : ContinuousOn f (Set.Icc a b)) (hne : f a ≠ 0)
    (h : f a * f b ≤ 0) (hwidth : b - a ≤ 2 ^ rounds * (1 / 10 ^ 7)) :
    ∃ r ∈ Set.Icc a b, f r = 0 ∧ |bisectLoop f rounds a b (f a) - r| ≤ 1 / 10 ^ 7 := by
  induction rounds generalizing a b with
  | zero =>
    rw [pow_zero, one_mul] at hwidth
    exact middle_near_root hab hf h hwidth
  | succ rounds ih =>
    rw [bisectLoop]
    split
    · have hleft : a ≤ (a + b) / 2 := by linarith
      have hright : (a + b) / 2 ≤ b := by linarith
      have hhalf : (b - a) / 2 ≤ 2 ^ rounds * (1 / 10 ^ 7) := by
        rw [pow_succ] at hwidth
        linarith
      dsimp only
      split
      · next hzero => exact ⟨(a + b) / 2, ⟨hleft, hright⟩, hzero, by rw [sub_self, abs_zero]; positivity⟩
      · next hmid =>
        split
        · next hsame =>
          -- the values at the left end and at the middle have one sign, so the right half has the change
          have hchange : f ((a + b) / 2) * f b ≤ 0 := by
            obtain ⟨ha, hm⟩ | ⟨ha, hm⟩ := hsame
            · have hb : 0 ≤ f b := by
                by_contra hb
                exact absurd h (not_le.mpr (mul_pos_of_neg_of_neg ha (not_le.mp hb)))
              exact mul_nonpos_of_nonpos_of_nonneg hm.le hb
            · have hb : f b ≤ 0 := by
                by_contra hb
                exact absurd h (not_le.mpr (mul_pos ha (not_le.mp hb)))
              exact mul_nonpos_of_nonneg_of_nonpos hm.le hb
          obtain ⟨r, hr, hroot, hnear⟩ := ih hright (hf.mono (Set.Icc_subset_Icc_left hleft)) hmid hchange
            (by linarith)
          exact ⟨r, ⟨hleft.trans hr.1, hr.2⟩, hroot, hnear⟩
        · next hdiffer =>
          have hchange : f a * f ((a + b) / 2) ≤ 0 := by
            obtain ha | ha := hne.lt_or_gt
            · have hm : 0 ≤ f ((a + b) / 2) := not_lt.mp fun hm => hdiffer (.inl ⟨ha, hm⟩)
              exact mul_nonpos_of_nonpos_of_nonneg ha.le hm
            · have hm : f ((a + b) / 2) ≤ 0 := not_lt.mp fun hm => hdiffer (.inr ⟨ha, hm⟩)
              exact mul_nonpos_of_nonneg_of_nonpos ha.le hm
          obtain ⟨r, hr, hroot, hnear⟩ := ih hleft (hf.mono (Set.Icc_subset_Icc_right hright)) hne hchange
            (by linarith)
          exact ⟨r, ⟨hr.1, hr.2.trans hright⟩, hroot, hnear⟩
    · next hshort => exact middle_near_root hab hf h (not_lt.mp hshort)

theorem bisectRoot_near {lo hi : ℝ} (h : lo ≤ hi) (hf : ContinuousOn f (Set.Icc lo hi)) (hsigns : f lo * f hi < 0)
    (hwidth : hi - lo ≤ 2 ^ 80 * (1 / 10 ^ 7)) :
    ∃ r ∈ Set.Icc lo hi, f r = 0 ∧ |bisectRoot f lo hi - r| ≤ 1 / 10 ^ 7 := by
  have hne : f lo ≠ 0 := fun hzero => by
    rw [hzero, zero_mul] at hsigns
    exact lt_irrefl _ hsigns
  rw [bisectRoot, if_neg hne]
  exact bisectLoop_near_root h hf hne hsigns.le hwidth

noncomputable def realRoot : SquareRoot ℝ where
  sqrt := Real.sqrt
  nonneg := Real.sqrt_nonneg
  sq _ hx := Real.mul_self_sqrt hx

theorem line_searches (f : ℝ → ℝ) {lo hi : ℝ} (h : lo ≤ hi) :
    (∃ n x, (∀ fuel, n < fuel → goldenSectionMax realRoot fuel f lo hi = some x) ∧ x ∈ Set.Icc lo hi ∧
        ∀ m, StrictlyUnimodal f lo hi m → |x - m| ≤ 1 / 10 ^ 5) ∧
      (ContinuousOn f (Set.Icc lo hi) → f lo * f hi < 0 → hi - lo ≤ 2 ^ 80 * (1 / 10 ^ 7) →
        ∃ r ∈ Set.Icc lo hi, f r = 0 ∧ |bisectRoot f lo hi - r| ≤ 1 / 10 ^ 7) :=
  ⟨goldenSectionMax_spec realRoot f h, bisectRoot_near h⟩

/-- A parabola with its top at zero, which crosses the axis twice in the interval, and its rising half. -/
theorem line_searches_parabola :
    (∃ n x, (∀ fuel, n < fuel → goldenSectionMax realRoot fuel (fun x => 1 - x ^ 2) (-2) 2 = some x) ∧
        x ∈ Set.Icc (-2) 2 ∧ |x - 0| ≤ 1 / 10 ^ 5) ∧
      ∃ r ∈ Set.Icc (-2) 0, 1 - r ^ 2 = 0 ∧ |bisectRoot (fun x : ℝ => 1 - x ^ 2) (-2) 0 - r| ≤ 1 / 10 ^ 7 := by
  have hunimodal : StrictlyUnimodal (fun x : ℝ => 1 - x ^ 2) (-2) 2 0 := by
    refine ⟨by norm_num, fun x hx y hy hxy => ?_, fun x hx y hy hxy => ?_⟩
    · show 1 - x ^ 2 < 1 - y ^ 2
      nlinarith [hy.2]
    · show 1 - y ^ 2 < 1 - x ^ 2
      nlinarith [hx.1]
  obtain ⟨n, x, hloop, hmem, hnear⟩ := (line_searches (fun x => 1 - x ^ 2) (by norm_num : (-2 : ℝ) ≤ 2)).1
  refine ⟨⟨n, x, hloop, hmem, hnear 0 hunimodal⟩, ?_⟩
  exact (line_searches (fun x => 1 - x ^ 2) (by norm_num : (-2 : ℝ) ≤ 0)).2 (by fun_prop) (by norm_num) (by norm_num)

end Roots

end XFoilFoam.LineSearch
