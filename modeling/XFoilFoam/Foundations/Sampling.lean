import XFoilFoam.Foundations.Literals
import Mathlib.Algebra.Order.Field.Basic
import Mathlib.Algebra.Order.BigOperators.Group.List
import Mathlib.Algebra.Order.Ring.Abs
import Mathlib.Tactic.FieldSimp
import Mathlib.Tactic.Linarith
import Mathlib.Tactic.Positivity
import Mathlib.Tactic.Ring

/-! Sampled signals over an ordered field, with the exact meaning of the array routines: an even grid, linear
interpolation, the trapezoid rule, moments and the least-squares slope. -/
namespace XFoilFoam.Sampling
set_option autoImplicit false

structure SquareRoot (K : Type) [Field K] [LinearOrder K] where
  sqrt : K → K
  nonneg : ∀ x, 0 ≤ sqrt x
  sq : ∀ x, 0 ≤ x → sqrt x * sqrt x = x

variable {K : Type} [Field K] [LinearOrder K]

/-- `np.linspace(start, stop, n)`. -/
def linspace (start stop : K) (n : ℕ) : List K :=
  (List.range n).map fun (i : ℕ) => start + i * ((stop - start) / ((n - 1 : ℕ) : K))

/-- `np.interp` at one point, on increasing abscissae. -/
def interp (x : K) : List (K × K) → K
  | [] => 0
  | [p] => p.2
  | p :: q :: rest =>
    if x ≤ p.1 then p.2
    else if x < q.1 then p.2 + (q.2 - p.2) / (q.1 - p.1) * (x - p.1)
    else interp x (q :: rest)

/-- `np.trapezoid` of a sampled signal. -/
def trapezoid : List (K × K) → K
  | p :: q :: rest => (p.2 + q.2) / 2 * (q.1 - p.1) + trapezoid (q :: rest)
  | _ => 0

/-- `np.mean`. -/
def mean (xs : List K) : K := xs.sum / xs.length

def deviation (xs : List K) : K := (xs.map fun x => (x - mean xs) * (x - mean xs)).sum

/-- `np.std`. -/
def std (root : SquareRoot K) (xs : List K) : K := root.sqrt (deviation xs / xs.length)

/-- `np.std` with `ddof=1`. -/
def sampleStd (root : SquareRoot K) (xs : List K) : K := root.sqrt (deviation xs / ((xs.length - 1 : ℕ) : K))

def lagSum : List K → K
  | x :: y :: rest => x * y + lagSum (y :: rest)
  | _ => 0

/-- The sum of `(i - mean of the indices) * (y i - mean of the values)`. -/
def crossDeviation (ys : List K) : K :=
  (ys.zipIdx.map fun y => ((y.2 : K) - ((ys.length : K) - 1) / 2) * (y.1 - mean ys)).sum

/-- The leading coefficient of `np.polyfit(np.arange(n), ys, 1)`. -/
def slope (ys : List K) : K :=
  crossDeviation ys / ((List.range ys.length).map fun (i : ℕ) =>
    ((i : K) - ((ys.length : K) - 1) / 2) * ((i : K) - ((ys.length : K) - 1) / 2)).sum

/-- `np.ptp`. -/
def peakToPeak (xs : List K) : K := xs.foldl max (xs.headD 0) - xs.foldl min (xs.headD 0)

/-- `np.diff`. -/
def differences : List K → List K
  | x :: y :: rest => (y - x) :: differences (y :: rest)
  | _ => []

/-! ## Signs -/

theorem SquareRoot.pos (root : SquareRoot K) {x : K} (hx : 0 < x) : 0 < root.sqrt x := by
  apply lt_of_le_of_ne (root.nonneg x)
  intro hzero
  have hsq := root.sq x hx.le
  rw [← hzero, mul_zero] at hsq
  exact hx.ne hsq

variable [IsStrictOrderedRing K]

theorem SquareRoot.zero (root : SquareRoot K) : root.sqrt 0 = 0 := mul_self_eq_zero.mp (root.sq 0 le_rfl)

theorem mean_nonneg {xs : List K} (h : ∀ x ∈ xs, 0 ≤ x) : 0 ≤ mean xs :=
  div_nonneg (List.sum_nonneg h) (Nat.cast_nonneg _)

omit [Field K] [IsStrictOrderedRing K] in
theorem foldl_min_le_max (xs : List K) {low high : K} (h : low ≤ high) :
    xs.foldl min low ≤ xs.foldl max high := by
  induction xs generalizing low high with
  | nil => exact h
  | cons x xs ih => exact ih ((min_le_left low x).trans (h.trans (le_max_left high x)))

theorem peakToPeak_nonneg (xs : List K) : 0 ≤ peakToPeak xs :=
  sub_nonneg.mpr (foldl_min_le_max xs le_rfl)

/-! ## Constant signals -/

omit [IsStrictOrderedRing K] in
theorem interp_const {c : K} (x : K) {ps : List (K × K)} (hne : ps ≠ []) (h : ∀ p ∈ ps, p.2 = c) :
    interp x ps = c := by
  induction ps with
  | nil => exact absurd rfl hne
  | cons p rest ih =>
    have hp : p.2 = c := h p List.mem_cons_self
    cases rest with
    | nil => exact hp
    | cons q rest =>
      have hq : q.2 = c := h q (List.mem_cons_of_mem _ List.mem_cons_self)
      rw [interp]
      split_ifs
      · exact hp
      · rw [hp, hq, sub_self, zero_div, zero_mul, add_zero]
      · exact ih (List.cons_ne_nil _ _) fun r hr => h r (List.mem_cons_of_mem _ hr)

theorem trapezoid_const {c : K} {p : K × K} {ps : List (K × K)} (h : ∀ q ∈ p :: ps, q.2 = c) :
    trapezoid (p :: ps) = c * (((p :: ps).getLast (List.cons_ne_nil _ _)).1 - p.1) := by
  induction ps generalizing p with
  | nil =>
    rw [List.getLast_singleton, sub_self, mul_zero]
    rfl
  | cons q rest ih =>
    have hp : p.2 = c := h p List.mem_cons_self
    have hq : q.2 = c := h q (List.mem_cons_of_mem _ List.mem_cons_self)
    rw [trapezoid, ih fun r hr => h r (List.mem_cons_of_mem _ hr), hp, hq,
      List.getLast_cons (List.cons_ne_nil _ _)]
    ring

omit [LinearOrder K] [IsStrictOrderedRing K] in
theorem sum_of_forall_eq {c : K} {xs : List K} (h : ∀ x ∈ xs, x = c) : xs.sum = xs.length * c := by
  rw [List.eq_replicate_of_mem h, List.sum_replicate, List.length_replicate, nsmul_eq_mul]

theorem mean_const {c : K} {xs : List K} (hne : xs ≠ []) (h : ∀ x ∈ xs, x = c) : mean xs = c := by
  have hlength : (xs.length : K) ≠ 0 := Nat.cast_ne_zero.mpr (List.length_pos_of_ne_nil hne).ne'
  rw [mean, sum_of_forall_eq h, mul_div_cancel_left₀ c hlength]

theorem deviation_const {c : K} {xs : List K} (hne : xs ≠ []) (h : ∀ x ∈ xs, x = c) : deviation xs = 0 := by
  have hzero : ∀ y ∈ xs.map fun x => (x - mean xs) * (x - mean xs), y = 0 := by
    intro y hy
    obtain ⟨x, hx, rfl⟩ := List.mem_map.mp hy
    rw [mean_const hne h, h x hx, sub_self, mul_zero]
  rw [deviation, sum_of_forall_eq hzero, mul_zero]

theorem std_const (root : SquareRoot K) {c : K} {xs : List K} (hne : xs ≠ []) (h : ∀ x ∈ xs, x = c) :
    std root xs = 0 := by
  rw [std, deviation_const hne h, zero_div, root.zero]

theorem sampleStd_const (root : SquareRoot K) {c : K} {xs : List K} (hne : xs ≠ []) (h : ∀ x ∈ xs, x = c) :
    sampleStd root xs = 0 := by
  rw [sampleStd, deviation_const hne h, zero_div, root.zero]

theorem crossDeviation_const {c : K} {ys : List K} (hne : ys ≠ []) (h : ∀ y ∈ ys, y = c) :
    crossDeviation ys = 0 := by
  have hzero : ∀ z ∈ ys.zipIdx.map fun y => ((y.2 : K) - ((ys.length : K) - 1) / 2) * (y.1 - mean ys),
      z = 0 := by
    intro z hz
    obtain ⟨y, hy, rfl⟩ := List.mem_map.mp hz
    rw [mean_const hne h, h y.1 (List.fst_mem_of_mem_zipIdx hy), sub_self, mul_zero]
  rw [crossDeviation, sum_of_forall_eq hzero, mul_zero]

omit [Field K] [LinearOrder K] [IsStrictOrderedRing K] in
theorem foldl_const {f : K → K → K} {c : K} (hf : f c c = c) {xs : List K} (h : ∀ x ∈ xs, x = c) :
    xs.foldl f c = c := by
  induction xs with
  | nil => rfl
  | cons x xs ih =>
    rw [List.foldl_cons, h x List.mem_cons_self, hf]
    exact ih fun y hy => h y (List.mem_cons_of_mem _ hy)

omit [LinearOrder K] [IsStrictOrderedRing K] in
theorem differences_const {c : K} {xs : List K} (h : xs.IsChain fun x y => y - x = c) :
    ∀ d ∈ differences xs, d = c := by
  induction xs with
  | nil => exact List.forall_mem_nil _
  | cons x xs ih =>
    cases xs with
    | nil => exact List.forall_mem_nil _
    | cons y rest =>
      obtain ⟨hxy, hrest⟩ := List.isChain_cons_cons.mp h
      exact List.forall_mem_cons.mpr ⟨hxy, ih hrest⟩

/-! ## Even grids -/

omit [LinearOrder K] [IsStrictOrderedRing K] in
theorem mem_linspace {start stop x : K} {n : ℕ} :
    x ∈ linspace start stop n ↔ ∃ i < n, start + i * ((stop - start) / ((n - 1 : ℕ) : K)) = x := by
  simp only [linspace, List.mem_map, List.mem_range]

theorem linspace_increasing {start stop : K} (h : start < stop) {n : ℕ} (hn : 2 ≤ n) :
    (linspace start stop n).Pairwise (· < ·) := by
  have hstep : 0 < (stop - start) / ((n - 1 : ℕ) : K) :=
    div_pos (sub_pos.mpr h) (Nat.cast_pos.mpr (by omega))
  rw [linspace, List.pairwise_map]
  refine List.pairwise_lt_range.imp fun {i j} hij => ?_
  have hcast : (i : K) < j := Nat.cast_lt.mpr hij
  have hmul := mul_lt_mul_of_pos_right hcast hstep
  linarith

omit [Field K] [IsStrictOrderedRing K] in
theorem head_lt_getLast {xs : List K} (hxs : xs.Pairwise (· < ·)) {x y : K} (hx : x ∈ xs) (hy : y ∈ xs)
    (hxy : x < y) (hne : xs ≠ []) : xs.head hne < xs.getLast hne := by
  have hhead : xs.head hne ≤ x := by
    obtain ⟨first, rest, rfl⟩ := List.exists_cons_of_ne_nil hne
    obtain rfl | hrest := List.mem_cons.mp hx
    · exact le_rfl
    · exact (List.rel_of_pairwise_cons hxs hrest).le
  have hlast : y ≤ xs.getLast hne := by
    rw [← List.dropLast_append_getLast hne, List.pairwise_append] at hxs
    rw [← List.dropLast_append_getLast hne] at hy
    obtain hy | hy := List.mem_append.mp hy
    · exact (hxs.2.2 y hy _ (List.mem_singleton.mpr rfl)).le
    · exact (List.mem_singleton.mp hy).le
  exact hhead.trans_lt (hxy.trans_le hlast)

end XFoilFoam.Sampling
