import XFoilFoam.Foundations.Bisection
import Mathlib.Algebra.Field.GeomSum
import Mathlib.Topology.Order.IntermediateValue
import Mathlib.Topology.Algebra.Monoid
import Mathlib.Topology.Instances.Real.Lemmas

/-! `solve_expansion` of `meshing/blockmesh.py` in exact arithmetic: the cell-to-cell ratio of a geometric edge
by bisection. -/
namespace XFoilFoam.Meshing
open Bisection
set_option autoImplicit false

/-! ## The source -/

section Source
variable {K : Type} [Field K] [LinearOrder K]

def ratioTolerance : K := 1 / 10 ^ 12

/-- `total`: the length of `n` cells in first cells. -/
def total (n : ℕ) (r : K) : K := if |r - 1| < ratioTolerance then n else (r ^ n - 1) / (r - 1)

/-- `while total(hi) < target and hi < 100.0: hi *= 1.2`. -/
def growUpper (n : ℕ) (target : K) : ℕ → K → Option K
  | 0, _ => none
  | fuel + 1, hi => if total n hi < target ∧ hi < 100 then growUpper n target fuel (hi * (6 / 5)) else some hi

def solveExpansion (fuel : ℕ) (firstCell length : K) (n : ℕ) : Option K :=
  if n ≤ 1 then some 1
  else
    let target := length / firstCell
    let ends := if target < total n 1 then some (3 / 10, 1)
      else (growUpper n target fuel (21 / 20)).map fun hi => (1, hi)
    ends.map fun ends =>
      let last := (halve fun r => total n r < target)^[200] ends
      (1 / 2 * (last.1 + last.2)) ^ (n - 1)

end Source

/-! ## Geometric sums -/

section Sums
variable {K : Type} [Field K] [LinearOrder K] [IsStrictOrderedRing K] {n : ℕ}

/-- `1 + r + ... + r^(n-1)`. -/
def geometricSum (n : ℕ) (r : K) : K := ∑ i ∈ Finset.range n, r ^ i

omit [LinearOrder K] [IsStrictOrderedRing K] in
theorem geometricSum_one (n : ℕ) : geometricSum n (1 : K) = n := by simp [geometricSum]

theorem geometricSum_lt (hn : 2 ≤ n) {a b : K} (ha : 0 ≤ a) (hab : a < b) :
    geometricSum n a < geometricSum n b := by
  refine Finset.sum_lt_sum (fun i _ => pow_le_pow_left₀ ha hab.le i) ⟨1, Finset.mem_range.mpr (by omega), ?_⟩
  simpa using hab

theorem geometricSum_lt_iff (hn : 2 ≤ n) {a b : K} (ha : 0 ≤ a) (hb : 0 ≤ b) :
    geometricSum n a < geometricSum n b ↔ a < b := by
  refine ⟨fun h => ?_, geometricSum_lt hn ha⟩
  by_contra hnot
  obtain hlt | rfl := (not_lt.mp hnot).lt_or_eq
  · exact absurd (geometricSum_lt hn hb hlt) h.not_gt
  · exact lt_irrefl _ h

theorem ratioTolerance_pos : (0 : K) < ratioTolerance := by
  unfold ratioTolerance
  positivity

theorem total_far {r : K} (h : ratioTolerance ≤ |r - 1|) (n : ℕ) : total n r = geometricSum n r := by
  have hne : r ≠ 1 := by
    rintro rfl
    rw [sub_self, abs_zero] at h
    exact absurd ratioTolerance_pos h.not_gt
  rw [total, if_neg h.not_gt, geometricSum, geom_sum_eq hne]

omit [IsStrictOrderedRing K] in
theorem total_near {r : K} (h : |r - 1| < ratioTolerance) (n : ℕ) : total n r = n := if_pos h

theorem total_one (n : ℕ) : total n (1 : K) = n := total_near (by simp [ratioTolerance_pos]) n

/-! ## The growing bracket -/

theorem growUpper_spec (n : ℕ) (target : K) (k : ℕ) :
    ∀ hi : K, 1 ≤ hi → hi ≤ 120 → 100 ≤ hi * (6 / 5) ^ k →
      ∃ upper, (∀ fuel, k < fuel → growUpper n target fuel hi = some upper) ∧ hi ≤ upper ∧ upper ≤ 120 ∧
        (target ≤ total n upper ∨ 100 ≤ upper) := by
  induction k with
  | zero =>
    intro hi hone hle hreach
    rw [pow_zero, mul_one] at hreach
    refine ⟨hi, fun fuel hfuel => ?_, le_rfl, hle, .inr hreach⟩
    obtain ⟨fuel, rfl⟩ := Nat.exists_eq_succ_of_ne_zero (by omega : fuel ≠ 0)
    rw [growUpper, if_neg fun h => absurd h.2 hreach.not_gt]
  | succ k ih =>
    intro hi hone hle hreach
    by_cases hgrow : total n hi < target ∧ hi < 100
    · have hreach' : 100 ≤ hi * (6 / 5) * (6 / 5) ^ k := by rw [mul_assoc, ← pow_succ']; exact hreach
      obtain ⟨upper, hrun, hupper, hupper120, hstop⟩ := ih (hi * (6 / 5)) (by linarith) (by linarith) hreach'
      refine ⟨upper, fun fuel hfuel => ?_, by linarith, hupper120, hstop⟩
      obtain ⟨fuel, rfl⟩ := Nat.exists_eq_succ_of_ne_zero (by omega : fuel ≠ 0)
      rw [growUpper, if_pos hgrow]
      exact hrun fuel (by omega)
    · refine ⟨hi, fun fuel hfuel => ?_, le_rfl, hle, ?_⟩
      · obtain ⟨fuel, rfl⟩ := Nat.exists_eq_succ_of_ne_zero (by omega : fuel ≠ 0)
        rw [growUpper, if_neg hgrow]
      · by_contra hnot
        push Not at hnot
        exact hgrow hnot

/-! ## The point the bisection keeps

A test in the band around one compares `n` and not the sum there, so for a ratio in the band the bracket closes
on the end of the band and not on the ratio. -/

theorem keeps_shrinking (hn : 2 ≤ n) {ρ target : K} (hρ : 0 < ρ) (hroot : geometricSum n ρ = target)
    (htarget : target < n) :
    Keeps (fun r => total n r < target) (min ρ (1 - ratioTolerance)) (3 / 10) 1 := by
  intro mid hlo hhi
  beta_reduce
  by_cases hband : |mid - 1| < ratioTolerance
  · rw [total_near hband]
    have hmid := (abs_lt.mp hband).1
    exact ⟨fun h => absurd htarget h.not_gt, fun _ => (min_le_right _ _).trans (by linarith)⟩
  · rw [total_far (not_lt.mp hband), ← hroot, geometricSum_lt_iff hn (by linarith) hρ.le]
    have hmid : mid ≤ 1 - ratioTolerance := by
      rw [abs_of_neg (by linarith)] at hband
      linarith
    exact ⟨fun h => le_min h.le hmid, fun h => (min_le_left _ _).trans (not_lt.mp h)⟩

theorem keeps_growing (hn : 2 ≤ n) {ρ target hi : K} (hρ : 1 < ρ) (hroot : geometricSum n ρ = target) :
    Keeps (fun r => total n r < target) (max ρ (1 + ratioTolerance)) 1 hi := by
  have htarget : (n : K) < target := by
    rw [← geometricSum_one n, ← hroot]
    exact geometricSum_lt hn zero_le_one hρ
  intro mid hlo hhi
  beta_reduce
  by_cases hband : |mid - 1| < ratioTolerance
  · rw [total_near hband]
    have hmid := (abs_lt.mp hband).2
    exact ⟨fun _ => (by linarith : mid ≤ 1 + ratioTolerance).trans (le_max_right _ _), fun h => absurd htarget h⟩
  · rw [total_far (not_lt.mp hband), ← hroot, geometricSum_lt_iff hn (by linarith) (by linarith)]
    have hmid : 1 + ratioTolerance ≤ mid := by
      rw [abs_of_pos (by linarith)] at hband
      linarith
    exact ⟨fun h => h.le.trans (le_max_left _ _), fun h => max_le (not_lt.mp h) hmid⟩

theorem keeps_uniform (hn : 2 ≤ n) {hi : K} : Keeps (fun r => total n r < (n : K)) 1 1 hi := by
  intro mid hlo hhi
  refine ⟨fun h => ?_, fun _ => hlo.le⟩
  beta_reduce at h
  by_cases hband : |mid - 1| < ratioTolerance
  · rw [total_near hband] at h
    exact absurd h (lt_irrefl _)
  · rw [total_far (not_lt.mp hband), ← geometricSum_one n, geometricSum_lt_iff hn (by linarith) zero_le_one] at h
    exact h.le

theorem near_of_keeps {below : K → Prop} [DecidablePred below] {point ρ lo hi : K}
    (hkeeps : Keeps below point lo hi) (hlt : lo < hi) (hpoint : lo ≤ point ∧ point ≤ hi) (hwidth : hi - lo ≤ 120)
    (hnear : |point - ρ| ≤ ratioTolerance) :
    |1 / 2 * (((halve below)^[200] (lo, hi)).1 + ((halve below)^[200] (lo, hi)).2) - ρ| ≤ 2 / 10 ^ 12 := by
  have hmiddle := middle_near hkeeps hlt hpoint 200
  have hsmall : (hi - lo) / 2 ^ (200 + 1) ≤ ratioTolerance := by
    rw [div_le_iff₀ (by positivity), ratioTolerance]
    refine hwidth.trans ?_
    norm_num
  have hband : (ratioTolerance : K) = 1 / 10 ^ 12 := rfl
  have htriangle := abs_sub_le (1 / 2 * (((halve below)^[200] (lo, hi)).1 + ((halve below)^[200] (lo, hi)).2))
    point ρ
  rw [hband] at hnear hsmall
  linarith

end Sums

/-! ## The ratio -/

theorem exists_ratio {n : ℕ} (hn : 2 ≤ n) {target : ℝ} (hlow : geometricSum n (3 / 10) ≤ target)
    (hhigh : target ≤ geometricSum n 100) :
    ∃ ρ : ℝ, 3 / 10 ≤ ρ ∧ ρ ≤ 100 ∧ geometricSum n ρ = target ∧
      ∀ σ, 0 < σ → geometricSum n σ = target → σ = ρ := by
  have hcontinuous : ContinuousOn (geometricSum n : ℝ → ℝ) (Set.Icc (3 / 10) 100) :=
    (continuous_finsetSum _ fun i _ => continuous_pow i).continuousOn
  obtain ⟨ρ, ⟨hρlow, hρhigh⟩, hroot⟩ :=
    intermediate_value_Icc (by norm_num) hcontinuous ⟨hlow, hhigh⟩
  refine ⟨ρ, hρlow, hρhigh, hroot, fun σ hσ hσroot => ?_⟩
  obtain hlt | heq | hlt := lt_trichotomy σ ρ
  · exact absurd (hσroot.trans hroot.symm) (geometricSum_lt hn hσ.le hlt).ne
  · exact heq
  · exact absurd (hσroot.trans hroot.symm) (geometricSum_lt hn (by linarith) hlt).ne'

theorem growUpper_covers {n : ℕ} (hn : 2 ≤ n) {ρ target : ℝ} (hρhigh : ρ ≤ 100)
    (hroot : geometricSum n ρ = target) :
    ∃ upper, (∀ fuel, 25 < fuel → growUpper n target fuel (21 / 20) = some upper) ∧ 21 / 20 ≤ upper ∧
      upper ≤ 120 ∧ ρ ≤ upper := by
  obtain ⟨upper, hrun, hlow, hle, hstop⟩ :=
    growUpper_spec n target 25 (21 / 20) (by norm_num) (by norm_num) (by norm_num)
  refine ⟨upper, hrun, hlow, hle, ?_⟩
  obtain hreached | hcapped := hstop
  · have hfar : ratioTolerance ≤ |upper - 1| := by
      rw [abs_of_pos (by linarith), ratioTolerance]
      linarith
    rw [total_far hfar, ← hroot] at hreached
    by_contra hnot
    exact hreached.not_gt (geometricSum_lt hn (by linarith) (not_le.mp hnot))
  · exact hρhigh.trans hcapped

/-- With a target between the sums at 0.3 and 100 the routine returns, and what it returns is the last power of
a ratio within 2e-12 of the one that fills the length. -/
theorem solveExpansion_near {n : ℕ} (hn : 2 ≤ n) {firstCell length : ℝ} (hfirst : 0 < firstCell)
    (hlow : geometricSum n (3 / 10) ≤ length / firstCell) (hhigh : length / firstCell ≤ geometricSum n 100) :
    ∃ ρ : ℝ, 0 < ρ ∧ firstCell * geometricSum n ρ = length ∧
      (∀ σ, 0 < σ → firstCell * geometricSum n σ = length → σ = ρ) ∧
      ∃ r : ℝ, (∀ fuel, 25 < fuel → solveExpansion fuel firstCell length n = some (r ^ (n - 1))) ∧
        |r - ρ| ≤ 2 / 10 ^ 12 := by
  obtain ⟨ρ, hρlow, hρhigh, hroot, hunique⟩ := exists_ratio hn hlow hhigh
  have hscale {σ : ℝ} : firstCell * geometricSum n σ = length ↔ geometricSum n σ = length / firstCell := by
    rw [eq_div_iff hfirst.ne', mul_comm]
  have hρ : 0 < ρ := by linarith
  refine ⟨ρ, hρ, hscale.mpr hroot, fun σ hσ hσroot => hunique σ hσ (hscale.mp hσroot), ?_⟩
  have hn' : ¬ n ≤ 1 := by omega
  by_cases hshrink : length / firstCell < n
  · have hρone : ρ < 1 := by
      rw [← geometricSum_lt_iff hn hρ.le zero_le_one, hroot, geometricSum_one]
      exact hshrink
    have hpoint : 3 / 10 ≤ min ρ (1 - ratioTolerance) ∧ min ρ (1 - ratioTolerance) ≤ 1 := by
      have hband : (ratioTolerance : ℝ) = 1 / 10 ^ 12 := rfl
      exact ⟨le_min hρlow (by rw [hband]; norm_num), (min_le_left _ _).trans hρone.le⟩
    have hnear : |min ρ (1 - ratioTolerance) - ρ| ≤ (ratioTolerance : ℝ) := by
      have hpos := ratioTolerance_pos (K := ℝ)
      obtain hmin | hmin := min_choice ρ (1 - ratioTolerance)
      · rw [hmin, sub_self, abs_zero]
        exact hpos.le
      · have hle := min_le_left ρ (1 - ratioTolerance)
        rw [hmin] at hle ⊢
        rw [abs_of_nonpos (by linarith)]
        linarith
    refine ⟨_, fun fuel _ => ?_, near_of_keeps (keeps_shrinking hn hρ hroot hshrink) (by norm_num) hpoint
      (by norm_num) hnear⟩
    simp only [solveExpansion, if_neg hn', total_one, if_pos hshrink, Option.map_some]
  · obtain ⟨upper, hrun, hupper, hupper120, hcovers⟩ := growUpper_covers hn hρhigh hroot
    have hlt : (1 : ℝ) < upper := by linarith
    have hsolve (fuel : ℕ) (hfuel : 25 < fuel) : solveExpansion fuel firstCell length n = some
        ((1 / 2 * (((halve fun r => total n r < length / firstCell)^[200] (1, upper)).1 +
          ((halve fun r => total n r < length / firstCell)^[200] (1, upper)).2)) ^ (n - 1)) := by
      simp only [solveExpansion, if_neg hn', total_one, if_neg hshrink, hrun fuel hfuel, Option.map_some]
    refine ⟨_, hsolve, ?_⟩
    have hρone : 1 ≤ ρ := by
      by_contra hnot
      rw [not_le, ← geometricSum_lt_iff hn hρ.le zero_le_one, hroot, geometricSum_one] at hnot
      exact hshrink hnot
    obtain hgrow | heq := hρone.lt_or_eq
    · have hband : (ratioTolerance : ℝ) = 1 / 10 ^ 12 := rfl
      have hpoint : 1 ≤ max ρ (1 + ratioTolerance) ∧ max ρ (1 + ratioTolerance) ≤ upper :=
        ⟨hρone.trans (le_max_left _ _), max_le hcovers (by rw [hband]; linarith)⟩
      have hnear : |max ρ (1 + ratioTolerance) - ρ| ≤ (ratioTolerance : ℝ) := by
        have hpos := ratioTolerance_pos (K := ℝ)
        obtain hmax | hmax := max_choice ρ (1 + ratioTolerance)
        · rw [hmax, sub_self, abs_zero]
          exact hpos.le
        · have hle := le_max_left ρ (1 + ratioTolerance)
          rw [hmax] at hle ⊢
          rw [abs_of_nonneg (by linarith)]
          linarith
      exact near_of_keeps (keeps_growing hn hgrow hroot) hlt hpoint (by linarith) hnear
    · have hcells : length / firstCell = n := by rw [← hroot, ← heq, geometricSum_one]
      rw [hcells, ← heq]
      refine near_of_keeps (keeps_uniform hn) hlt ⟨le_rfl, hlt.le⟩ (by linarith) ?_
      rw [sub_self, abs_zero]
      exact ratioTolerance_pos.le

/-- Two cells of a unit edge whose first cell is a third: the second cell is twice as long. -/
theorem solveExpansion_near_doubling :
    ∃ ρ : ℝ, 0 < ρ ∧ (1 / 3 : ℝ) * geometricSum 2 ρ = 1 ∧
      (∀ σ, 0 < σ → (1 / 3 : ℝ) * geometricSum 2 σ = 1 → σ = ρ) ∧
      ∃ r : ℝ, (∀ fuel, 25 < fuel → solveExpansion fuel (1 / 3 : ℝ) 1 2 = some (r ^ (2 - 1))) ∧
        |r - ρ| ≤ 2 / 10 ^ 12 := by
  refine solveExpansion_near le_rfl (by norm_num) ?_ ?_
  · norm_num [geometricSum, Finset.sum_range_succ]
  · norm_num [geometricSum, Finset.sum_range_succ]

end XFoilFoam.Meshing
