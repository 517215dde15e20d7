import XFoilFoam.Foundations.Literals
import Mathlib.Algebra.Order.Field.Basic
import Mathlib.Logic.Function.Iterate
import Mathlib.Tactic.Linarith
import Mathlib.Tactic.Ring
import Mathlib.Tactic.FieldSimp

/-! Halving a bracket: a point that every test leaves on the kept side stays in the bracket, and the bracket
shrinks by half at each step. -/
namespace XFoilFoam.Bisection
set_option autoImplicit false

section Halving
variable {K : Type} [Field K] [LinearOrder K] {below : K → Prop} [DecidablePred below]

def halve (below : K → Prop) [DecidablePred below] (ends : K × K) : K × K :=
  let mid := 1 / 2 * (ends.1 + ends.2)
  if below mid then (mid, ends.2) else (ends.1, mid)

/-- The test keeps a point: what it finds below is at most the point, what it does not is at least it. -/
def Keeps (below : K → Prop) (point lo hi : K) : Prop :=
  ∀ mid, lo < mid → mid < hi → (below mid → mid ≤ point) ∧ (¬ below mid → point ≤ mid)

variable [IsStrictOrderedRing K] {point lo hi : K}

theorem mid_between {ends : K × K} (h : ends.1 < ends.2) :
    ends.1 < 1 / 2 * (ends.1 + ends.2) ∧ 1 / 2 * (ends.1 + ends.2) < ends.2 :=
  ⟨by linarith, by linarith⟩

theorem halve_spec (hkeeps : Keeps below point lo hi) {ends : K × K} (hlt : ends.1 < ends.2)
    (hlo : lo ≤ ends.1) (hhi : ends.2 ≤ hi) (hpoint : ends.1 ≤ point ∧ point ≤ ends.2) :
    (halve below ends).1 < (halve below ends).2 ∧ lo ≤ (halve below ends).1 ∧ (halve below ends).2 ≤ hi ∧
      ((halve below ends).1 ≤ point ∧ point ≤ (halve below ends).2) ∧
      (halve below ends).2 - (halve below ends).1 = (ends.2 - ends.1) / 2 := by
  obtain ⟨hleft, hright⟩ := mid_between hlt
  obtain ⟨hbelow, habove⟩ := hkeeps _ (hlo.trans_lt hleft) (hright.trans_le hhi)
  simp only [halve]
  split
  · next h => exact ⟨hright, hlo.trans hleft.le, hhi, ⟨hbelow h, hpoint.2⟩, by ring⟩
  · next h => exact ⟨hleft, hlo, hright.le.trans hhi, ⟨hpoint.1, habove h⟩, by ring⟩

theorem iterate_halve_spec (hkeeps : Keeps below point lo hi) (hlt : lo < hi)
    (hpoint : lo ≤ point ∧ point ≤ hi) (n : ℕ) :
    ((halve below)^[n] (lo, hi)).1 < ((halve below)^[n] (lo, hi)).2 ∧
      lo ≤ ((halve below)^[n] (lo, hi)).1 ∧ ((halve below)^[n] (lo, hi)).2 ≤ hi ∧
      (((halve below)^[n] (lo, hi)).1 ≤ point ∧ point ≤ ((halve below)^[n] (lo, hi)).2) ∧
      ((halve below)^[n] (lo, hi)).2 - ((halve below)^[n] (lo, hi)).1 = (hi - lo) / 2 ^ n := by
  induction n with
  | zero => exact ⟨hlt, le_rfl, le_rfl, hpoint, by simp⟩
  | succ n ih =>
    obtain ⟨hends, hlo, hhi, hin, hwidth⟩ := ih
    obtain ⟨hends', hlo', hhi', hin', hwidth'⟩ := halve_spec hkeeps hends hlo hhi hin
    rw [Function.iterate_succ_apply']
    refine ⟨hends', hlo', hhi', hin', ?_⟩
    rw [hwidth', hwidth, pow_succ, div_div]

theorem middle_near (hkeeps : Keeps below point lo hi) (hlt : lo < hi) (hpoint : lo ≤ point ∧ point ≤ hi) (n : ℕ) :
    |1 / 2 * (((halve below)^[n] (lo, hi)).1 + ((halve below)^[n] (lo, hi)).2) - point| ≤
      (hi - lo) / 2 ^ (n + 1) := by
  obtain ⟨-, -, -, ⟨hbelow, habove⟩, hwidth⟩ := iterate_halve_spec hkeeps hlt hpoint n
  rw [pow_succ, ← div_div, ← hwidth, abs_le]
  exact ⟨by linarith, by linarith⟩

end Halving

end XFoilFoam.Bisection
