import XFoilFoam.Foundations.ExceptLists
import XFoilFoam.Meshing.OuterAngles
import Mathlib.Analysis.SpecialFunctions.Complex.Arg
import Mathlib.Tactic.LinearCombination

/-! The check of a segmented passage before its dictionary is written, `meshing/blockmesh.py`:
`_bilinear_corner_jacobians` and `_preflight_segmented_passage`. -/
namespace XFoilFoam.Meshing
set_option autoImplicit false

section Quads
variable {K : Type} [Field K] [LinearOrder K]

/-- `quad = [p00, p10, p11, p01]`. -/
structure Quad (K : Type) where
  p00 : K × K
  p10 : K × K
  p11 : K × K
  p01 : K × K

def cross (a b : K × K) : K := a.1 * b.2 - a.2 * b.1

namespace Quad
variable (quad : Quad K)

def map (u v : K) : K × K :=
  ((1 - u) * (1 - v)) • quad.p00 + (u * (1 - v)) • quad.p10 + (u * v) • quad.p11 + ((1 - u) * v) • quad.p01

def du (v : K) : K × K := (1 - v) • (quad.p10 - quad.p00) + v • (quad.p11 - quad.p01)

def dv (u : K) : K × K := (1 - u) • (quad.p01 - quad.p00) + u • (quad.p11 - quad.p10)

def jacobian (u v : K) : K := cross (quad.du v) (quad.dv u)

def bilinearCornerJacobians : List K :=
  [(0, 0), (1, 0), (1, 1), (0, 1)].map fun corner => quad.jacobian corner.1 corner.2

/-- `_signed_area` of the four points. -/
def signedArea : K :=
  1 / 2 * (cross quad.p00 quad.p10 + cross quad.p10 quad.p11 + cross quad.p11 quad.p01 + cross quad.p01 quad.p00)

omit [LinearOrder K] in
theorem jacobian_eq (u v : K) :
    quad.jacobian u v = (1 - u) * (1 - v) * quad.jacobian 0 0 + u * (1 - v) * quad.jacobian 1 0 +
      u * v * quad.jacobian 1 1 + (1 - u) * v * quad.jacobian 0 1 := by
  simp only [jacobian, cross, du, dv, Prod.fst_add, Prod.snd_add, Prod.fst_sub, Prod.snd_sub, Prod.smul_fst,
    Prod.smul_snd, smul_eq_mul]
  ring

def Regular : Prop :=
  (∀ u v, 0 ≤ u → u ≤ 1 → 0 ≤ v → v ≤ 1 → 0 < quad.jacobian u v) ∨
    ∀ u v, 0 ≤ u → u ≤ 1 → 0 ≤ v → v ≤ 1 → quad.jacobian u v < 0

end Quad

theorem lt_mix [IsStrictOrderedRing K] {bound a b w : K} (hw : 0 ≤ w) (hw' : w ≤ 1) (ha : bound < a)
    (hb : bound < b) : bound < (1 - w) * a + w * b := by
  have hleft := mul_le_mul_of_nonneg_left (min_le_left a b) (sub_nonneg.mpr hw')
  have hright := mul_le_mul_of_nonneg_left (min_le_right a b) hw
  have hmin := lt_min ha hb
  linarith

theorem lt_weighted [IsStrictOrderedRing K] {bound a b c d u v : K} (hu : 0 ≤ u) (hu' : u ≤ 1) (hv : 0 ≤ v)
    (hv' : v ≤ 1) (ha : bound < a) (hb : bound < b) (hc : bound < c) (hd : bound < d) :
    bound < (1 - u) * (1 - v) * a + u * (1 - v) * b + u * v * c + (1 - u) * v * d := by
  have hmix := lt_mix hv hv' (lt_mix hu hu' ha hb) (lt_mix hu hu' hd hc)
  linear_combination hmix

theorem Quad.regular_of_corners [IsStrictOrderedRing K] {quad : Quad K} {orientation bound : K}
    (horientation : orientation = 1 ∨ orientation = -1) (hbound : 0 ≤ bound)
    (h : ∀ value ∈ quad.bilinearCornerJacobians, bound < orientation * value) : quad.Regular := by
  simp only [bilinearCornerJacobians, List.map_cons, List.map_nil, List.forall_mem_cons] at h
  obtain ⟨h00, h10, h11, h01, -⟩ := h
  have hmean {u v : K} (hu : 0 ≤ u) (hu' : u ≤ 1) (hv : 0 ≤ v) (hv' : v ≤ 1) :
      bound < orientation * quad.jacobian u v := by
    have hweighted := lt_weighted hu hu' hv hv' h00 h10 h11 h01
    rw [quad.jacobian_eq u v]
    linear_combination hweighted
  obtain rfl | rfl := horientation
  · refine .inl fun u v hu hu' hv hv' => ?_
    linarith [hmean hu hu' hv hv']
  · refine .inr fun u v hu hu' hv hv' => ?_
    linarith [hmean hu hu' hv hv']

end Quads

/-! ## The passage -/

/-- The ways a passage is refused; an index beyond the path is an `IndexError`. -/
inductive PreflightError (K : Type) where
  | interfaceCount
  | interfaceOrder
  | indexError
  | folded (segment : ℕ) (jacobians : List K)

/-- The text of the refusal, with `format(value, ".6g")` as a parameter. -/
def PreflightError.message {K : Type} (formatG6 : K → String) (passage : String) : PreflightError K → String
  | interfaceCount => "segmented topology preflight failed for " ++ passage ++
      ": outer-interface count does not match surface cuts"
  | interfaceOrder => "segmented topology preflight failed for " ++ passage ++
      ": outer interfaces are not strictly ordered"
  | indexError => "index out of bounds"
  | folded segment jacobians => "segmented topology preflight failed for " ++ passage ++ " segment " ++
      toString segment ++ ": non-convex/folded bilinear block (corner Jacobians " ++
      ", ".intercalate (jacobians.map formatG6) ++ ")"

section Passage
variable {K : Type} [Field K] [LinearOrder K]

def segmentedPreflightEpsilon : K := 1 / 10 ^ 10

/-- `surface_path[index]`; a negative index counts from the end. -/
def SurfacePath.row (path : SurfacePath K) (index : ℤ) : Option (K × K) :=
  if 0 ≤ index then path.points[index.toNat]?
  else if 0 ≤ index + path.points.length then path.points[(index + path.points.length).toNat]? else none

def outerPoint (plane : Plane K) (radius centerX angle : K) : K × K :=
  (centerX + radius * plane.cos angle, radius * plane.sin angle)

/-- `any(b <= a for a, b in zip(outer_angles, outer_angles[1:]))`. -/
def unordered (outerAngles : List K) : Bool := (outerAngles.zip outerAngles.tail).any fun pair => pair.2 ≤ pair.1

def segmentQuad (path : SurfacePath K) (cuts : List ℤ) (outer : List (K × K)) (segment : ℕ) : Option (Quad K) := do
  let start ← cuts[segment]?
  let stop ← cuts[segment + 1]?
  let first ← path.row start
  let outerFirst ← outer[segment]?
  let outerLast ← outer[segment + 1]?
  let last ← path.row stop
  return ⟨first, outerFirst, outerLast, last⟩

def acceptable (quad : Quad K) : Bool :=
  let orientation : K := if 0 < quad.signedArea then 1 else -1
  decide (segmentedPreflightEpsilon < |quad.signedArea|) &&
    quad.bilinearCornerJacobians.all fun value => segmentedPreflightEpsilon < orientation * value

def checkSegment (path : SurfacePath K) (cuts : List ℤ) (outer : List (K × K)) (segment : ℕ) :
    Except (PreflightError K) Unit :=
  match segmentQuad path cuts outer segment with
  | none => .error .indexError
  | some quad => if acceptable quad then .ok () else .error (.folded segment quad.bilinearCornerJacobians)

/-- `_preflight_segmented_passage`; the loop stops at the first refused segment. -/
def preflightSegmentedPassage (plane : Plane K) (path : SurfacePath K) (cuts : List ℤ) (outerAngles : List K)
    (radius centerX : K) : Except (PreflightError K) Unit :=
  if outerAngles.length ≠ cuts.length then .error .interfaceCount
  else if unordered outerAngles then .error .interfaceOrder
  else (List.range (cuts.length - 1)).forM
    (checkSegment path cuts (outerAngles.map (outerPoint plane radius centerX)))

theorem unordered_eq_false {outerAngles : List K}
    (h : ∀ i, i + 1 < outerAngles.length → outerAngles.getD i 0 < outerAngles.getD (i + 1) 0) :
    unordered outerAngles = false := by
  rw [unordered, List.any_eq_false]
  intro pair hpair
  obtain ⟨i, hi⟩ := List.getElem?_of_mem hpair
  rw [List.getElem?_zip_eq_some, List.getElem?_tail] at hi
  obtain ⟨hlt, hnext⟩ := List.getElem?_eq_some_iff.mp hi.2
  obtain ⟨hlt', hfirst⟩ := List.getElem?_eq_some_iff.mp hi.1
  have horder := h i hlt
  rw [List.getD_eq_getElem _ _ hlt', List.getD_eq_getElem _ _ hlt, hfirst, hnext] at horder
  simpa using horder

theorem checkSegment_error {path : SurfacePath K} {cuts : List ℤ} {outer : List (K × K)} {segment : ℕ}
    {refused : PreflightError K} (h : checkSegment path cuts outer segment = .error refused) :
    refused = .indexError ∨ ∃ jacobians, refused = .folded segment jacobians := by
  unfold checkSegment at h
  split at h
  · cases h
    exact .inl rfl
  · split at h
    · cases h
    · cases h
      exact .inr ⟨_, rfl⟩

variable [IsStrictOrderedRing K]

theorem acceptable_regular {quad : Quad K} (h : acceptable quad = true) : quad.Regular := by
  simp only [acceptable, Bool.and_eq_true, List.all_eq_true, decide_eq_true_eq] at h
  refine Quad.regular_of_corners ?_ (by unfold segmentedPreflightEpsilon; positivity) h.2
  split
  · exact .inl rfl
  · exact .inr rfl

theorem preflight_regular {plane : Plane K} {path : SurfacePath K} {cuts : List ℤ} {outerAngles : List K}
    {radius centerX : K} (h : preflightSegmentedPassage plane path cuts outerAngles radius centerX = .ok ()) :
    ∀ segment, segment + 1 < cuts.length → ∃ quad,
      segmentQuad path cuts (outerAngles.map (outerPoint plane radius centerX)) segment = some quad ∧
        quad.Regular := by
  intro segment hsegment
  unfold preflightSegmentedPassage at h
  split at h
  · cases h
  · split at h
    · cases h
    · have hcheck := forM_eq_ok.mp h segment (List.mem_range.mpr (by omega))
      unfold checkSegment at hcheck
      split at hcheck
      · cases hcheck
      · next quad hquad =>
        split at hcheck
        · next hacceptable => exact ⟨quad, hquad, acceptable_regular hacceptable⟩
        · cases hcheck

variable [FloorRing K]

/-- The outer angles of a passage come one for each cut, from end to end and spaced, so neither the count nor the
order is refused; and a passage that goes through has a regular mapping in every segment. -/
theorem outer_angles_and_preflight (plane : Plane K) (path : SurfacePath K) (cuts : List ℤ) :
    (∀ startAngle endAngle : K, 2 ≤ cuts.length → startAngle < endAngle →
        ((normalAlignedOuterAngles plane path cuts startAngle endAngle).length = cuts.length ∧
          (normalAlignedOuterAngles plane path cuts startAngle endAngle).getD 0 0 = startAngle ∧
          (normalAlignedOuterAngles plane path cuts startAngle endAngle).getD (cuts.length - 1) 0 = endAngle ∧
          ∀ i, i + 1 < cuts.length →
            (normalAlignedOuterAngles plane path cuts startAngle endAngle).getD i 0 +
                (endAngle - startAngle) / (20 * ((cuts.length : K) - 1)) ≤
              (normalAlignedOuterAngles plane path cuts startAngle endAngle).getD (i + 1) 0) ∧
        ∀ radius centerX : K, ∀ refused,
          preflightSegmentedPassage plane path cuts
              (normalAlignedOuterAngles plane path cuts startAngle endAngle) radius centerX = .error refused →
            refused = .indexError ∨ ∃ segment jacobians, refused = .folded segment jacobians) ∧
      ∀ (outerAngles : List K) (radius centerX : K),
        preflightSegmentedPassage plane path cuts outerAngles radius centerX = .ok () →
          ∀ segment, segment + 1 < cuts.length → ∃ quad,
            segmentQuad path cuts (outerAngles.map (outerPoint plane radius centerX)) segment = some quad ∧
              quad.Regular := by
  refine ⟨fun startAngle endAngle hcuts hspan => ?_, fun outerAngles radius centerX h => preflight_regular h⟩
  obtain ⟨hcount, hstart, hend, hspaced⟩ := normalAlignedOuterAngles_spec plane path hcuts hspan
  refine ⟨⟨hcount, hstart, hend, hspaced⟩, fun radius centerX refused hrefused => ?_⟩
  have hcast : (0 : K) < (cuts.length : K) - 1 := by
    have htwo : (2 : K) ≤ (cuts.length : K) := by exact_mod_cast hcuts
    linarith
  have hpos : 0 < (endAngle - startAngle) / (20 * ((cuts.length : K) - 1)) :=
    div_pos (by linarith) (by linarith)
  have hordered : unordered (normalAlignedOuterAngles plane path cuts startAngle endAngle) = false := by
    refine unordered_eq_false fun i hi => ?_
    rw [hcount] at hi
    linarith [hspaced i hi]
  unfold preflightSegmentedPassage at hrefused
  rw [if_neg (not_not.mpr hcount), hordered, if_neg Bool.false_ne_true] at hrefused
  obtain ⟨segment, -, hcheck⟩ := forM_eq_error hrefused
  exact (checkSegment_error hcheck).imp_right fun hfolded => ⟨segment, hfolded⟩

end Passage

/-! ## A quarter of a ring -/

noncomputable def realPlane : Plane ℝ where
  pi := Real.pi
  cos := Real.cos
  sin := Real.sin
  atan2 := fun y x => Complex.arg ⟨x, y⟩
  hypot := fun x y => Real.sqrt (x ^ 2 + y ^ 2)

def quarterPath : SurfacePath ℝ := ⟨[(1, 0), (0, 1)], List.cons_ne_nil _ _⟩

theorem quarter_ring_accepted :
    preflightSegmentedPassage realPlane quarterPath [0, 1] [0, Real.pi / 2] 2 0 = .ok () := by
  have hquad : segmentQuad quarterPath [0, 1]
      ([0, Real.pi / 2].map (outerPoint realPlane 2 0)) 0 = some ⟨(1, 0), (2, 0), (0, 2), (0, 1)⟩ := by
    simp [segmentQuad, SurfacePath.row, quarterPath, outerPoint, realPlane]
  have haccept : acceptable (⟨(1, 0), (2, 0), (0, 2), (0, 1)⟩ : Quad ℝ) = true := by
    norm_num [acceptable, Quad.signedArea, Quad.bilinearCornerJacobians, Quad.jacobian, Quad.du, Quad.dv, cross,
      segmentedPreflightEpsilon]
  have hordered : unordered [0, Real.pi / 2] = false := by
    simp [unordered, Real.pi_pos]
  rw [preflightSegmentedPassage, if_neg (by simp), hordered, if_neg Bool.false_ne_true, forM_eq_ok]
  intro segment hsegment
  obtain rfl : segment = 0 := by simpa using hsegment
  rw [checkSegment, hquad]
  simp [haccept]

theorem outer_angles_and_preflight_quarter_ring :
    (normalAlignedOuterAngles realPlane quarterPath [0, 1] 0 (Real.pi / 2)).getD 0 0 = 0 ∧
      ∃ quad, segmentQuad quarterPath [0, 1] ([0, Real.pi / 2].map (outerPoint realPlane 2 0)) 0 = some quad ∧
        quad.Regular :=
  ⟨((outer_angles_and_preflight realPlane quarterPath [0, 1]).1 0 (Real.pi / 2) le_rfl
      (div_pos Real.pi_pos two_pos)).1.2.1,
    (outer_angles_and_preflight realPlane quarterPath [0, 1]).2 [0, Real.pi / 2] 2 0 quarter_ring_accepted 0
      (by decide)⟩

end XFoilFoam.Meshing
