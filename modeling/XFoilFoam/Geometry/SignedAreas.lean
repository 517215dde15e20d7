import XFoilFoam.Foundations.KeyOrder
import XFoilFoam.Foundations.Literals
import Mathlib.Algebra.Order.Field.Basic
import Mathlib.Analysis.SpecialFunctions.Trigonometric.Arctan
import Mathlib.Tactic.FieldSimp
import Mathlib.Tactic.Linarith
import Mathlib.Tactic.Positivity
import Mathlib.Tactic.Ring

/-! The area metrics of `packages/core/src/geometry.ts` in exact arithmetic: `trapParts`, `buildNaca4` and
`deriveGeometry`. -/
namespace XFoilFoam.SignedAreas
set_option autoImplicit false

/-! ## One panel -/

section Panels
variable {K : Type} [Field K] [LinearOrder K]

structure SignedAreaParts (K : Type) where
  signed : K
  positive : K
  negative : K

def trapParts (dx y0 y1 : K) : SignedAreaParts K :=
  let signed := dx * (y0 + y1) / 2
  if 0 ≤ y0 ∧ 0 ≤ y1 then ⟨signed, signed, 0⟩
  else if y0 ≤ 0 ∧ y1 ≤ 0 then ⟨signed, 0, signed⟩
  else
    let f := -y0 / (y1 - y0)
    let first := dx * f * y0 / 2
    let second := dx * (1 - f) * y1 / 2
    ⟨signed, max 0 first + max 0 second, min 0 first + min 0 second⟩

structure SignedAreaParts.Split (parts : SignedAreaParts K) : Prop where
  positive : 0 ≤ parts.positive
  negative : parts.negative ≤ 0
  sum : parts.positive + parts.negative = parts.signed

variable [IsStrictOrderedRing K]

theorem trapParts_split {dx : K} (hdx : 0 ≤ dx) (y0 y1 : K) : (trapParts dx y0 y1).Split := by
  unfold trapParts
  split
  · next h => exact ⟨div_nonneg (mul_nonneg hdx (add_nonneg h.1 h.2)) two_pos.le, le_rfl, add_zero _⟩
  · next hpositive =>
    split
    · next h =>
      exact ⟨le_rfl, div_nonpos_of_nonpos_of_nonneg
        (mul_nonpos_of_nonneg_of_nonpos hdx (add_nonpos h.1 h.2)) two_pos.le, zero_add _⟩
    · next hnegative =>
      refine ⟨add_nonneg (le_max_left _ _) (le_max_left _ _), add_nonpos (min_le_left _ _) (min_le_left _ _), ?_⟩
      have hne : y1 - y0 ≠ 0 := by
        intro hzero
        have heq : y1 = y0 := sub_eq_zero.mp hzero
        obtain hle | hle := le_total 0 y0
        · exact hpositive ⟨hle, heq ▸ hle⟩
        · exact hnegative ⟨hle, heq ▸ hle⟩
      -- the crossing point divides the panel, and each half is its own positive and negative part
      have hfirst := max_add_min 0 (dx * (-y0 / (y1 - y0)) * y0 / 2)
      have hsecond := max_add_min 0 (dx * (1 - -y0 / (y1 - y0)) * y1 / 2)
      have hcross : dx * (-y0 / (y1 - y0)) * y0 / 2 + dx * (1 - -y0 / (y1 - y0)) * y1 / 2 =
          dx * (y0 + y1) / 2 := by
        field_simp
        ring
      dsimp only
      linarith

end Panels

/-! ## The sums -/

section Sums
variable {K : Type} [Field K] [LinearOrder K]

structure Accumulators (K : Type) where
  areaU : SignedAreaParts K
  areaL : SignedAreaParts K
  areaC : SignedAreaParts K
  areaProfile : K
  lastx : K
  lastyu : K
  lastyl : K
  lastyc : K

def Accumulators.zero : Accumulators K := ⟨⟨0, 0, 0⟩, ⟨0, 0, 0⟩, ⟨0, 0, 0⟩, 0, 0, 0, 0, 0⟩

def SignedAreaParts.add (parts panel : SignedAreaParts K) : SignedAreaParts K :=
  ⟨parts.signed + panel.signed, parts.positive + panel.positive, parts.negative + panel.negative⟩

/-- A station of the loop: from the second one on, the panel that ends there is added. -/
def Accumulators.station (sums : Accumulators K) (i : ℕ) (x yu yl yc : K) : Accumulators K :=
  let dx := x - sums.lastx
  let panels :=
    if 0 < i then
      { sums with
        areaU := sums.areaU.add (trapParts dx sums.lastyu yu)
        areaL := sums.areaL.add (trapParts dx sums.lastyl yl)
        areaC := sums.areaC.add (trapParts dx sums.lastyc yc)
        areaProfile := sums.areaProfile + dx * (yu - yl + sums.lastyu - sums.lastyl) / 2 }
    else sums
  { panels with lastx := x, lastyu := yu, lastyl := yl, lastyc := yc }

structure Accumulators.Consistent (sums : Accumulators K) : Prop where
  upper : sums.areaU.Split
  lower : sums.areaL.Split
  camber : sums.areaC.Split
  profile : sums.areaProfile = sums.areaU.signed - sums.areaL.signed

variable [IsStrictOrderedRing K]

theorem SignedAreaParts.Split.add {parts panel : SignedAreaParts K} (h : parts.Split) (h' : panel.Split) :
    (parts.add panel).Split := by
  refine ⟨add_nonneg h.positive h'.positive, add_nonpos h.negative h'.negative, ?_⟩
  simp only [SignedAreaParts.add]
  linarith [h.sum, h'.sum]

omit [IsStrictOrderedRing K] in
theorem trapParts_signed (dx y0 y1 : K) : (trapParts dx y0 y1).signed = dx * (y0 + y1) / 2 := by
  unfold trapParts
  split
  · rfl
  · split <;> rfl

omit [IsStrictOrderedRing K] in
theorem Accumulators.zero_consistent : (Accumulators.zero : Accumulators K).Consistent :=
  have hzero : (⟨0, 0, 0⟩ : SignedAreaParts K).Split := ⟨le_rfl, le_rfl, add_zero 0⟩
  ⟨hzero, hzero, hzero, (sub_self 0).symm⟩

theorem Accumulators.Consistent.station {sums : Accumulators K} (h : sums.Consistent) {i : ℕ} {x : K}
    (hx : 0 < i → sums.lastx ≤ x) (yu yl yc : K) : (sums.station i x yu yl yc).Consistent := by
  unfold Accumulators.station
  split
  · next hi =>
    have hdx : 0 ≤ x - sums.lastx := sub_nonneg.mpr (hx hi)
    refine ⟨h.upper.add (trapParts_split hdx _ _), h.lower.add (trapParts_split hdx _ _),
      h.camber.add (trapParts_split hdx _ _), ?_⟩
    simp only [SignedAreaParts.add, trapParts_signed, h.profile]
    ring
  · exact ⟨h.upper, h.lower, h.camber, h.profile⟩

end Sums

/-! ## Stations -/

/-- The functions of `Math` on the reals; of the cosine, that it falls over a half turn. -/
structure MathFunctions (K : Type) [Field K] [LinearOrder K] where
  pi : K
  cos : K → K
  sin : K → K
  atan : K → K
  sqrt : K → K
  pi_pos : 0 < pi
  cos_antitone : ∀ a b, 0 ≤ a → a ≤ b → b ≤ pi → cos b ≤ cos a

noncomputable def realMath : MathFunctions ℝ where
  pi := Real.pi
  cos := Real.cos
  sin := Real.sin
  atan := Real.arctan
  sqrt := Real.sqrt
  pi_pos := Real.pi_pos
  cos_antitone _ _ ha hab hb := Real.cos_le_cos_of_nonneg_of_le_pi ha hb hab

section Stations
variable {K : Type} [Field K] [LinearOrder K] (math : MathFunctions K)

def stationX (n i : ℕ) : K := (1 - math.cos (math.pi * i / n)) / 2

theorem stationX_mono [IsStrictOrderedRing K] {n i : ℕ} (hi : i + 1 ≤ n) :
    stationX math n i ≤ stationX math n (i + 1) := by
  have hn : (0 : K) < n := by exact_mod_cast (by omega : 0 < n)
  have hlast : ((i + 1 : ℕ) : K) ≤ n := by exact_mod_cast hi
  have hstep : (i : K) ≤ ((i + 1 : ℕ) : K) := by exact_mod_cast Nat.le_succ i
  have hcos := math.cos_antitone (math.pi * i / n) (math.pi * (i + 1 : ℕ) / n)
    (div_nonneg (mul_nonneg math.pi_pos.le (Nat.cast_nonneg i)) hn.le)
    (div_le_div_of_nonneg_right (mul_le_mul_of_nonneg_left hstep math.pi_pos.le) hn.le)
    (by
      rw [div_le_iff₀ hn]
      exact mul_le_mul_of_nonneg_left hlast math.pi_pos.le)
  unfold stationX
  linarith

def sumsOver (n : ℕ) (yu yl yc : ℕ → K) (count : ℕ) : Accumulators K :=
  (List.range count).foldl (fun sums i => sums.station i (stationX math n i) (yu i) (yl i) (yc i)) .zero

theorem sumsOver_succ (n : ℕ) (yu yl yc : ℕ → K) (count : ℕ) :
    sumsOver math n yu yl yc (count + 1) =
      (sumsOver math n yu yl yc count).station count (stationX math n count) (yu count) (yl count) (yc count) := by
  rw [sumsOver, List.range_succ, List.foldl_append]
  rfl

theorem sumsOver_last (n : ℕ) (yu yl yc : ℕ → K) (count : ℕ) :
    (sumsOver math n yu yl yc (count + 1)).lastx = stationX math n count ∧
      (sumsOver math n yu yl yc (count + 1)).lastyu = yu count ∧
      (sumsOver math n yu yl yc (count + 1)).lastyl = yl count ∧
      (sumsOver math n yu yl yc (count + 1)).lastyc = yc count := by
  rw [sumsOver_succ]
  exact ⟨rfl, rfl, rfl, rfl⟩

variable [IsStrictOrderedRing K]

theorem sumsOver_consistent (n : ℕ) (yu yl yc : ℕ → K) {count : ℕ} (hcount : count ≤ n + 1) :
    (sumsOver math n yu yl yc count).Consistent := by
  induction count with
  | zero => exact Accumulators.zero_consistent
  | succ count ih =>
    rw [sumsOver_succ]
    refine (ih (by omega)).station (fun hpos => ?_) _ _ _
    obtain ⟨before, rfl⟩ := Nat.exists_eq_succ_of_ne_zero hpos.ne'
    rw [(sumsOver_last math n yu yl yc before).1]
    exact stationX_mono math (by omega)

theorem sumsOver_mean (n : ℕ) (yu yl : ℕ → K) (count : ℕ) :
    (sumsOver math n yu yl (fun i => (yu i + yl i) / 2) count).areaC.signed =
      ((sumsOver math n yu yl (fun i => (yu i + yl i) / 2) count).areaU.signed +
        (sumsOver math n yu yl (fun i => (yu i + yl i) / 2) count).areaL.signed) / 2 := by
  induction count with
  | zero => simp [sumsOver, Accumulators.zero]
  | succ count ih =>
    rw [sumsOver_succ]
    unfold Accumulators.station
    split
    · next hpos =>
      obtain ⟨before, rfl⟩ := Nat.exists_eq_succ_of_ne_zero hpos.ne'
      obtain ⟨-, hyu, hyl, hyc⟩ := sumsOver_last math n yu yl (fun i => (yu i + yl i) / 2) before
      simp only [SignedAreaParts.add, trapParts_signed, ih, Nat.succ_eq_add_one, hyu, hyl, hyc]
      ring
    · exact ih

end Stations

/-! ## `buildNaca4` -/

structure Point (K : Type) where
  x : K
  y : K

structure NacaParams (K : Type) where
  t : K
  m : K
  p : K

structure Areas (K : Type) where
  profile : K
  upper : K
  lower : K
  camber : K
  upperPositive : K
  upperNegative : K
  lowerPositive : K
  lowerNegative : K
  camberPositive : K
  camberNegative : K

structure RawNaca (K : Type) where
  contour : List (Point K)
  camber : List (Point K)
  areas : Areas K
  leRadius : K

section Areas
variable {K : Type} [Field K] [LinearOrder K]

def Accumulators.areas (sums : Accumulators K) : Areas K where
  profile := sums.areaProfile
  upper := sums.areaU.signed
  lower := sums.areaL.signed
  camber := sums.areaC.signed
  upperPositive := sums.areaU.positive
  upperNegative := sums.areaU.negative
  lowerPositive := sums.areaL.positive
  lowerNegative := sums.areaL.negative
  camberPositive := sums.areaC.positive
  camberNegative := sums.areaC.negative

structure Areas.Consistent (areas : Areas K) : Prop where
  upper : SignedAreaParts.Split ⟨areas.upper, areas.upperPositive, areas.upperNegative⟩
  lower : SignedAreaParts.Split ⟨areas.lower, areas.lowerPositive, areas.lowerNegative⟩
  camber : SignedAreaParts.Split ⟨areas.camber, areas.camberPositive, areas.camberNegative⟩
  profile : areas.profile = areas.upper - areas.lower

theorem Accumulators.Consistent.areas {sums : Accumulators K} (h : sums.Consistent) : sums.areas.Consistent :=
  ⟨h.upper, h.lower, h.camber, h.profile⟩

end Areas

section Naca
variable {K : Type} [Field K] [LinearOrder K] (math : MathFunctions K)

/-- The camber line and its slope; behind the last digit's place `1 - p` is zero only for `p = 1`, which no
NACA designation has. -/
def camberLine (params : NacaParams K) (x : K) : K × K :=
  if 0 < params.p ∧ 0 < params.m then
    if x < params.p then
      (params.m / (params.p * params.p) * (2 * params.p * x - x * x),
        2 * params.m / (params.p * params.p) * (params.p - x))
    else
      (params.m / ((1 - params.p) * (1 - params.p)) * (1 - 2 * params.p + 2 * params.p * x - x * x),
        2 * params.m / ((1 - params.p) * (1 - params.p)) * (params.p - x))
  else (0, 0)

def halfThickness (params : NacaParams K) (x : K) : K :=
  5 * params.t *
    (2969 / 10000 * math.sqrt x - 126 / 1000 * x - 3516 / 10000 * x * x + 2843 / 10000 * x * x * x -
      1015 / 10000 * x * x * x * x)

def nacaStation (params : NacaParams K) (x : K) : Point K × Point K × Point K :=
  let yt := halfThickness math params x
  let yc := (camberLine params x).1
  let th := math.atan (camberLine params x).2
  (⟨x - yt * math.sin th, yc + yt * math.cos th⟩, ⟨x + yt * math.sin th, yc - yt * math.cos th⟩, ⟨x, yc⟩)

def buildNaca4 (params : NacaParams K) (n : ℕ) : RawNaca K :=
  let stations := (List.range (n + 1)).map fun i => nacaStation math params (stationX math n i)
  let sums := sumsOver math n (fun i => (nacaStation math params (stationX math n i)).1.y)
    (fun i => (nacaStation math params (stationX math n i)).2.1.y)
    (fun i => (nacaStation math params (stationX math n i)).2.2.y) (n + 1)
  { contour := (stations.map fun s => s.1).reverse ++ stations.map fun s => s.2.1
    camber := stations.map fun s => s.2.2
    areas := sums.areas
    leRadius := 11019 / 10000 * params.t * params.t }

end Naca

/-! ## `deriveGeometry` -/

structure AirfoilGeometry (K : Type) where
  contour : List (Point K)
  camber : List (Point K)
  thicknessPct : K
  thicknessXPct : K
  camberPct : K
  camberXPct : K
  leRadiusPct : K
  teThicknessPct : K
  areas : Areas K

section Derive
variable {K : Type} [Field K] [LinearOrder K] (math : MathFunctions K)

/-- The first point of least abscissa, from the candidate `leIdx` of abscissa `least` on. -/
def leadingIndex (least : K) (leIdx i : ℕ) : List (Point K) → ℕ
  | [] => leIdx
  | p :: rest => if p.x < least then leadingIndex p.x i (i + 1) rest else leadingIndex least leIdx (i + 1) rest

def splitSurfaces : List (Point K) → List (Point K) × List (Point K)
  | [] => ([], [])
  | first :: rest =>
    let leIdx := leadingIndex first.x 0 1 rest
    (((first :: rest).take (leIdx + 1)).reverse, (first :: rest).drop leIdx)

/-- The first segment whose abscissae enclose `x`, of a surface whose end has the ordinate `last`. -/
def segmentY (x last : K) : List (Point K) → K
  | a :: b :: rest =>
    if a.x ≤ x ∧ x ≤ b.x then
      let dx := b.x - a.x
      let f := if dx = 0 then 0 else (x - a.x) / dx
      a.y + (b.y - a.y) * f
    else segmentY x last (b :: rest)
  | _ => last

def interpY (surf : List (Point K)) (x : K) : K :=
  match surf with
  | [] => 0
  | first :: rest =>
    let last := rest.getLastD first
    if x ≤ first.x then first.y else if last.x ≤ x then last.y else segmentY x last.y (first :: rest)

/-- The largest of the values `f`, by `above`, with its station; the value zero comes first. -/
def extremum (above : K → K → Bool) (f : K → K) (stations : List K) : K × K :=
  stations.foldl (fun best x => if above (f x) best.1 then (f x, x) else best) (0, 0)

def deriveGeometry (contour : List (Point K)) (n : ℕ) : AirfoilGeometry K :=
  let us := KeyOrder.sortBy (fun p => p.x) (splitSurfaces contour).1
  let ls := KeyOrder.sortBy (fun p => p.x) (splitSurfaces contour).2
  let stations := (List.range (n + 1)).map (stationX math n)
  let th := fun x => interpY us x - interpY ls x
  let cm := fun x => (interpY us x + interpY ls x) / 2
  let (tMax, tx) := extremum (fun value best => decide (best < value)) th stations
  let (cMax, cx) := extremum (fun value best => decide (|best| < |value|)) cm stations
  let sums := sumsOver math n (fun i => interpY us (stationX math n i)) (fun i => interpY ls (stationX math n i))
    (fun i => cm (stationX math n i)) (n + 1)
  { contour
    camber := stations.map fun x => ⟨x, cm x⟩
    thicknessPct := tMax * 100
    thicknessXPct := tx * 100
    camberPct := cMax * 100
    camberXPct := cx * 100
    leRadiusPct := 11019 / 10000 * tMax * tMax * 100
    teThicknessPct := (interpY us 1 - interpY ls 1) * 100
    areas := sums.areas }

variable [IsStrictOrderedRing K]

theorem buildNaca4_areas (params : NacaParams K) (n : ℕ) : (buildNaca4 math params n).areas.Consistent :=
  (sumsOver_consistent math n _ _ _ le_rfl).areas

theorem deriveGeometry_areas (contour : List (Point K)) (n : ℕ) :
    (deriveGeometry math contour n).areas.Consistent :=
  (sumsOver_consistent math n _ _ _ le_rfl).areas

theorem deriveGeometry_camber (contour : List (Point K)) (n : ℕ) :
    (deriveGeometry math contour n).areas.camber =
      ((deriveGeometry math contour n).areas.upper + (deriveGeometry math contour n).areas.lower) / 2 :=
  sumsOver_mean math n _ _ (n + 1)

theorem geometry_areas_consistent (contour : List (Point K)) (params : NacaParams K) (n : ℕ) :
    (deriveGeometry math contour n).areas.Consistent ∧ (buildNaca4 math params n).areas.Consistent ∧
      (deriveGeometry math contour n).areas.camber =
        ((deriveGeometry math contour n).areas.upper + (deriveGeometry math contour n).areas.lower) / 2 :=
  ⟨deriveGeometry_areas math contour n, buildNaca4_areas math params n, deriveGeometry_camber math contour n⟩

/-- A wedge and the profile NACA 2412. -/
theorem geometry_areas_consistent_wedge :
    (deriveGeometry realMath [⟨1, 1 / 10⟩, ⟨0, 0⟩, ⟨1, -1 / 10⟩] 8).areas.Consistent ∧
      (buildNaca4 realMath ⟨12 / 100, 2 / 100, 4 / 10⟩ 8).areas.Consistent := by
  have h := geometry_areas_consistent realMath [⟨1, 1 / 10⟩, ⟨0, 0⟩, ⟨1, -1 / 10⟩] ⟨12 / 100, 2 / 100, 4 / 10⟩ 8
  exact ⟨h.1, h.2.1⟩

theorem deriveGeometry_profile_real (contour : List (Point ℝ)) (n : ℕ) :
    (deriveGeometry realMath contour n).areas.profile =
      (deriveGeometry realMath contour n).areas.upper - (deriveGeometry realMath contour n).areas.lower :=
  (deriveGeometry_areas realMath contour n).profile

end Derive

end XFoilFoam.SignedAreas
