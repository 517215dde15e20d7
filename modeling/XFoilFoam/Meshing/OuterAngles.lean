import XFoilFoam.Foundations.Sampling
import Mathlib.Algebra.Order.Floor.Ring
import Mathlib.Data.List.GetD
import Mathlib.Tactic.FieldSimp
import Mathlib.Tactic.Positivity

/-! The outer interfaces of a segmented passage and their check, `meshing/blockmesh.py` in exact arithmetic:
`_normal_aligned_outer_angles`, `_bilinear_corner_jacobians` and `_preflight_segmented_passage`. -/
namespace XFoilFoam.Meshing
open Sampling
set_option autoImplicit false

structure Plane (K : Type) where
  pi : K
  cos : K → K
  sin : K → K
  atan2 : K → K → K
  hypot : K → K → K

structure SurfacePath (K : Type) where
  points : List (K × K)
  nonempty : points ≠ []

/-! ## The outer angles -/

section Angles
variable {K : Type} [Field K] [LinearOrder K]

/-- Python's `round`: to the nearest integer, ties to the even one. -/
def pyRound [FloorRing K] (x : K) : ℤ :=
  if x - ⌊x⌋ < 1 / 2 then ⌊x⌋
  else if 1 / 2 < x - ⌊x⌋ then ⌊x⌋ + 1
  else if ⌊x⌋ % 2 = 0 then ⌊x⌋ else ⌊x⌋ + 1

/-- What `np.unwrap` adds to the values from a step on: nothing for a step below half a turn, else what brings the
step into half a turn, a half turn up staying one. -/
def unwrapCorrection [FloorRing K] (pi step : K) : K :=
  let wrapped := step + pi - 2 * pi * ⌊(step + pi) / (2 * pi)⌋ - pi
  let wrapped := if wrapped = -pi ∧ 0 < step then pi else wrapped
  if |step| < pi then 0 else wrapped - step

def unwrapFrom [FloorRing K] (pi : K) : K → K → List K → List K
  | _, _, [] => []
  | before, offset, x :: xs =>
    let offset := offset + unwrapCorrection pi (x - before)
    (x + offset) :: unwrapFrom pi x offset xs

/-- `np.unwrap`. -/
def unwrap [FloorRing K] (pi : K) : List K → List K
  | [] => []
  | x :: xs => x :: unwrapFrom pi x 0 xs

/-- The outward normal angle at a cut; where the tangent vanishes, the angle before it. -/
def rawAngle (plane : Plane K) (path : SurfacePath K) (startAngle : K) (raw : List K) (cut : ℤ) : List K :=
  let last := path.points.length - 1
  let index := (min (max cut 0) (last : ℤ)).toNat
  let before := path.points.getD (index - 1) (0, 0)
  let after := path.points.getD (min last (index + 1)) (0, 0)
  let outward : K × K := (after.2 - before.2, -(after.1 - before.1))
  if plane.hypot outward.1 outward.2 ≤ 1 / 10 ^ 14 then raw ++ [raw.getLastD startAngle]
  else raw ++ [plane.atan2 outward.2 outward.1]

/-- `for i in range(1, n - 1)`: each angle at least a step above the one before it. -/
def raiseAngles (step : K) (k : ℕ) (angles : ℕ → K) : ℕ → K :=
  (List.range' 1 k).foldl (fun angles i => Function.update angles i (max (angles i) (angles (i - 1) + step))) angles

/-- `for i in range(n - 2, 0, -1)`: each angle at least a step below the one after it. -/
def lowerAngles (step : K) (k : ℕ) (angles : ℕ → K) : ℕ → K :=
  (List.range' 1 k).reverse.foldl
    (fun angles i => Function.update angles i (min (angles i) (angles (i + 1) - step))) angles

/-- An array of length `n` with its two ends set. -/
def setEnds (n : ℕ) (startAngle endAngle : K) (angles : ℕ → K) : ℕ → K :=
  Function.update (Function.update angles 0 startAngle) (n - 1) endAngle

def normalAlignedOuterAngles [FloorRing K] (plane : Plane K) (path : SurfacePath K) (cuts : List ℤ)
    (startAngle endAngle : K) : List K :=
  if cuts.length < 2 then [startAngle, endAngle]
  else
    let unwrapped := unwrap plane.pi (cuts.foldl (rawAngle plane path startAngle) [])
    let n := unwrapped.length
    let targetMid := 1 / 2 * (startAngle + endAngle)
    let turns := pyRound ((targetMid - mean unwrapped) / (2 * plane.pi))
    let shifted : ℕ → K := fun i => unwrapped.getD i 0 + 2 * plane.pi * turns
    let borrowed :=
      if 2 < n then
        let first := Function.update shifted 0 (shifted 1)
        Function.update first (n - 1) (first (n - 2))
      else shifted
    let corrected : ℕ → K := fun i =>
      borrowed i + (linspace (startAngle - borrowed 0) (endAngle - borrowed (n - 1)) n).getD i 0
    let minStep := (endAngle - startAngle) / max 1 (20 * ((n : K) - 1))
    let raised := raiseAngles minStep (n - 2) (setEnds n startAngle endAngle corrected)
    let lowered := lowerAngles minStep (n - 2) raised
    (List.range n).map (setEnds n startAngle endAngle lowered)

theorem length_unwrapFrom [FloorRing K] (pi : K) (xs : List K) :
    ∀ before offset, (unwrapFrom pi before offset xs).length = xs.length := by
  induction xs with
  | nil => simp [unwrapFrom]
  | cons x xs ih => simp [unwrapFrom, ih]

theorem length_unwrap [FloorRing K] (pi : K) (xs : List K) : (unwrap pi xs).length = xs.length := by
  cases xs with
  | nil => rfl
  | cons x xs => simp [unwrap, length_unwrapFrom]

theorem length_rawAngles (plane : Plane K) (path : SurfacePath K) (startAngle : K) (cuts : List ℤ) :
    (cuts.foldl (rawAngle plane path startAngle) []).length = cuts.length := by
  induction cuts using List.reverseRecOn with
  | nil => rfl
  | append_singleton cuts cut ih =>
    rw [List.foldl_append, List.foldl_cons, List.foldl_nil, List.length_append, List.length_singleton, ← ih]
    simp only [rawAngle]
    split <;> simp

variable [IsStrictOrderedRing K] {n : ℕ} {startAngle endAngle step : K}

/-- The ends are set and every index up to `k` has room for the steps below it. -/
structure Raised (n : ℕ) (startAngle endAngle step : K) (k : ℕ) (angles : ℕ → K) : Prop where
  start : angles 0 = startAngle
  finish : angles (n - 1) = endAngle
  room : ∀ j ≤ k, startAngle + j * step ≤ angles j

theorem raiseAngles_spec {k : ℕ} (hk : k + 1 < n) {angles : ℕ → K}
    (h : Raised n startAngle endAngle step 0 angles) :
    Raised n startAngle endAngle step k (raiseAngles step k angles) := by
  induction k with
  | zero => exact h
  | succ k ih =>
    have hbefore := ih (by omega)
    have hlast : raiseAngles step (k + 1) angles = Function.update (raiseAngles step k angles) (k + 1)
        (max (raiseAngles step k angles (k + 1)) (raiseAngles step k angles k + step)) := by
      rw [raiseAngles, List.range'_1_concat, List.foldl_append, ← raiseAngles, Nat.add_comm 1 k]
      rfl
    rw [hlast]
    refine ⟨?_, ?_, fun j hj => ?_⟩
    · rw [Function.update_of_ne (by omega)]
      exact hbefore.start
    · rw [Function.update_of_ne (by omega)]
      exact hbefore.finish
    · by_cases hjk : j = k + 1
      · subst hjk
        have hroom := hbefore.room k le_rfl
        rw [Function.update_self]
        refine le_trans ?_ (le_max_right _ _)
        push_cast
        linarith
      · rw [Function.update_of_ne hjk]
        exact hbefore.room j (by omega)

/-- The indices above `k` are a step below their successors, and all keep their room. -/
structure Lowered (n : ℕ) (startAngle endAngle step : K) (k : ℕ) (angles : ℕ → K) : Prop where
  start : angles 0 = startAngle
  finish : angles (n - 1) = endAngle
  room : ∀ j < n, startAngle + j * step ≤ angles j
  apart : ∀ j, k < j → j + 1 < n → angles j + step ≤ angles (j + 1)

theorem lowerAngles_spec {k : ℕ} (hk : k + 1 < n) {angles : ℕ → K}
    (h : Lowered n startAngle endAngle step k angles) :
    Lowered n startAngle endAngle step 0 (lowerAngles step k angles) := by
  induction k generalizing angles with
  | zero => exact h
  | succ k ih =>
    have hfirst : lowerAngles step (k + 1) angles = lowerAngles step k
        (Function.update angles (k + 1) (min (angles (k + 1)) (angles (k + 1 + 1) - step))) := by
      rw [lowerAngles, List.range'_1_concat, List.reverse_append, List.reverse_singleton, List.singleton_append,
        List.foldl_cons, ← lowerAngles, Nat.add_comm 1 k]
    rw [hfirst]
    refine ih (by omega) ⟨?_, ?_, fun j hj => ?_, fun j hkj hj => ?_⟩
    · rw [Function.update_of_ne (by omega)]
      exact h.start
    · rw [Function.update_of_ne (by omega)]
      exact h.finish
    · by_cases hjk : j = k + 1
      · subst hjk
        have hnext := h.room (k + 1 + 1) (by omega)
        rw [Function.update_self]
        refine le_min (h.room (k + 1) hj) ?_
        push_cast at hnext ⊢
        linarith
      · rw [Function.update_of_ne hjk]
        exact h.room j hj
    · rw [Function.update_of_ne (by omega : j + 1 ≠ k + 1)]
      by_cases hjk : j = k + 1
      · subst hjk
        rw [Function.update_self]
        linarith [min_le_right (angles (k + 1)) (angles (k + 1 + 1) - step)]
      · rw [Function.update_of_ne hjk]
        exact h.apart j (by omega) hj

theorem passes_spec (hn : 2 ≤ n) (hspan : startAngle + ((n : K) - 1) * step ≤ endAngle) (angles : ℕ → K) :
    Lowered n startAngle endAngle step 0
      (lowerAngles step (n - 2) (raiseAngles step (n - 2) (setEnds n startAngle endAngle angles))) := by
  have hends : Raised n startAngle endAngle step 0 (setEnds n startAngle endAngle angles) := by
    have hstart : setEnds n startAngle endAngle angles 0 = startAngle := by
      rw [setEnds, Function.update_of_ne (by omega), Function.update_self]
    refine ⟨hstart, Function.update_self _ _ _, fun j hj => ?_⟩
    rw [Nat.le_zero.mp hj, hstart, Nat.cast_zero, zero_mul, add_zero]
  obtain ⟨hstart, hfinish, hroom⟩ := raiseAngles_spec (k := n - 2) (by omega) hends
  refine lowerAngles_spec (by omega) ⟨hstart, hfinish, fun j hj => ?_, fun j hlow hhigh => by omega⟩
  by_cases hlast : j = n - 1
  · rw [hlast, hfinish, Nat.cast_sub (by omega), Nat.cast_one]
    exact hspan
  · exact hroom j (by omega)

variable [FloorRing K]

theorem normalAlignedOuterAngles_spec (plane : Plane K) (path : SurfacePath K) {cuts : List ℤ}
    (hcuts : 2 ≤ cuts.length) (hspan : startAngle < endAngle) :
    (normalAlignedOuterAngles plane path cuts startAngle endAngle).length = cuts.length ∧
      (normalAlignedOuterAngles plane path cuts startAngle endAngle).getD 0 0 = startAngle ∧
      (normalAlignedOuterAngles plane path cuts startAngle endAngle).getD (cuts.length - 1) 0 = endAngle ∧
      ∀ i, i + 1 < cuts.length →
        (normalAlignedOuterAngles plane path cuts startAngle endAngle).getD i 0 +
            (endAngle - startAngle) / (20 * ((cuts.length : K) - 1)) ≤
          (normalAlignedOuterAngles plane path cuts startAngle endAngle).getD (i + 1) 0 := by
  have hcount : (unwrap plane.pi (cuts.foldl (rawAngle plane path startAngle) [])).length = cuts.length := by
    rw [length_unwrap, length_rawAngles]
  have hcast : (1 : K) ≤ (cuts.length : K) - 1 := by
    have htwo : (2 : K) ≤ (cuts.length : K) := by exact_mod_cast hcuts
    linarith
  have hstep : max 1 (20 * ((cuts.length : K) - 1)) = 20 * ((cuts.length : K) - 1) := max_eq_right (by linarith)
  have hroom : startAngle + ((cuts.length : K) - 1) *
      ((endAngle - startAngle) / (20 * ((cuts.length : K) - 1))) ≤ endAngle := by
    have hpart : ((cuts.length : K) - 1) * ((endAngle - startAngle) / (20 * ((cuts.length : K) - 1))) =
        (endAngle - startAngle) / 20 := by
      have hne : (cuts.length : K) - 1 ≠ 0 := by linarith
      field_simp
    rw [hpart]
    linarith
  unfold normalAlignedOuterAngles
  rw [if_neg (by omega)]
  simp only [hcount, hstep]
  generalize hpasses : (lowerAngles _ _ _ : ℕ → K) = lowered
  have hlowered := hpasses ▸ passes_spec (n := cuts.length) hcuts hroom _
  have hends : setEnds cuts.length startAngle endAngle lowered = lowered := by
    rw [setEnds, ← hlowered.start, Function.update_eq_self, ← hlowered.finish, Function.update_eq_self]
  have hget (i : ℕ) (hi : i < cuts.length) : ((List.range cuts.length).map lowered).getD i 0 = lowered i := by
    rw [List.getD_eq_getElem _ _ (by simpa using hi), List.getElem_map, List.getElem_range]
  rw [hends]
  refine ⟨by simp, ?_, ?_, fun i hi => ?_⟩
  · rw [hget 0 (by omega), hlowered.start]
  · rw [hget _ (by omega), hlowered.finish]
  · rw [hget i (by omega), hget (i + 1) hi]
    obtain rfl | hpos := Nat.eq_zero_or_pos i
    · have hone := hlowered.room 1 hi
      rw [Nat.cast_one, one_mul] at hone
      rw [hlowered.start]
      exact hone
    · exact hlowered.apart i hpos hi

end Angles

end XFoilFoam.Meshing
