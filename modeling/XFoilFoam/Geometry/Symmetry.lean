import XFoilFoam.Foundations.Bytes
import XFoilFoam.Foundations.Sampling
import XFoilFoam.Geometry.SignedAreas

/-! `isAirfoilSymmetric` of `packages/core/src/symmetry.ts` in exact arithmetic. -/
namespace XFoilFoam.Symmetry
open Sampling (SquareRoot)
open SignedAreas (Point MathFunctions stationX splitSurfaces interpY segmentY leadingIndex)
set_option autoImplicit false

/-! ## The code -/

section Code
variable {K : Type} [Field K] [LinearOrder K]

def distSq (p te : Point K) : K := (p.x - te.x) ^ 2 + (p.y - te.y) ^ 2

/-- The first of the points farthest from `te`, with its squared distance. -/
def farthest (te le : Point K) (best : K) : List (Point K) → Point K × K
  | [] => (le, best)
  | p :: rest => if best < distSq p te then farthest te p (distSq p te) rest else farthest te le best rest

def chordOf (first : Point K) (rest : List (Point K)) : Point K × Point K × K :=
  let last := rest.getLastD first
  let te : Point K := ⟨(first.x + last.x) / 2, (first.y + last.y) / 2⟩
  (te, farthest te first (distSq first te) rest)

def onChord (te le : Point K) (chord : K) (p : Point K) : Point K :=
  let cos := (te.x - le.x) / chord
  let sin := (te.y - le.y) / chord
  let dx := p.x - le.x
  let dy := p.y - le.y
  ⟨(dx * cos + dy * sin) / chord, (dy * cos - dx * sin) / chord⟩

def normalizeChord (root : SquareRoot K) : List (Point K) → List (Point K)
  | [] => []
  | first :: rest =>
    let (te, le, best) := chordOf first rest
    let chord := root.sqrt best
    if 0 < chord then (first :: rest).map (onChord te le chord) else first :: rest

def symmetryToleranceChord : K := 1 / 10 ^ 4

def symmetryStations : ℕ := 100

def isAirfoilSymmetric (root : SquareRoot K) (math : MathFunctions K) (points : List (Point K)) : Bool :=
  if points.length < 5 then false
  else
    let (upper, lower) := splitSurfaces (normalizeChord root points)
    if upper.length < 2 ∨ lower.length < 2 then false
    else
      let us := KeyOrder.sortBy (fun p => p.x) upper
      let ls := KeyOrder.sortBy (fun p => p.x) lower
      (List.range (symmetryStations + 1)).all fun i =>
        decide (|interpY us (stationX math symmetryStations i) + interpY ls (stationX math symmetryStations i)| ≤
          symmetryToleranceChord)

end Code

/-! ## The point of least abscissa -/

section Least
variable {K : Type} [LinearOrder K] {o : Point K}

theorem leadingIndex_stays {least : K} {leIdx i : ℕ} {rest : List (Point K)} (h : ∀ p ∈ rest, least ≤ p.x) :
    leadingIndex least leIdx i rest = leIdx := by
  induction rest generalizing i with
  | nil => rfl
  | cons p rest ih =>
    obtain ⟨hp, hrest⟩ := List.forall_mem_cons.mp h
    rw [leadingIndex, if_neg (not_lt.mpr hp)]
    exact ih hrest

theorem leadingIndex_least {least : K} {leIdx i : ℕ} {upper rest : List (Point K)} (hleast : o.x < least)
    (hupper : ∀ p ∈ upper, o.x < p.x) (hrest : ∀ p ∈ rest, o.x ≤ p.x) :
    leadingIndex least leIdx i (upper ++ o :: rest) = i + upper.length := by
  induction upper generalizing least leIdx i with
  | nil =>
    rw [List.nil_append, leadingIndex, if_pos hleast, leadingIndex_stays hrest]
    rfl
  | cons p upper ih =>
    obtain ⟨hp, hupper'⟩ := List.forall_mem_cons.mp hupper
    rw [List.cons_append, leadingIndex, List.length_cons]
    split_ifs
    · rw [ih hp hupper']
      omega
    · rw [ih hleast hupper']
      omega

theorem splitSurfaces_least {upper rest : List (Point K)} (hne : upper ≠ []) (hupper : ∀ p ∈ upper, o.x < p.x)
    (hrest : ∀ p ∈ rest, o.x ≤ p.x) :
    splitSurfaces (upper ++ o :: rest) = (o :: upper.reverse, o :: rest) := by
  obtain ⟨first, upper, rfl⟩ := List.exists_cons_of_ne_nil hne
  obtain ⟨hfirst, hupper'⟩ := List.forall_mem_cons.mp hupper
  rw [List.cons_append, splitSurfaces, leadingIndex_least hfirst hupper' hrest]
  have hlength : 1 + upper.length = (first :: upper).length := by
    rw [List.length_cons]
    omega
  have htake : (first :: (upper ++ o :: rest)).take ((first :: upper).length + 1) = (first :: upper) ++ [o] := by
    rw [← List.cons_append, List.take_length_add_append]
    rfl
  have hdrop : (first :: (upper ++ o :: rest)).drop (first :: upper).length = o :: rest := by
    rw [← List.cons_append, List.drop_left]
  rw [hlength, htake, hdrop, List.reverse_append]
  rfl

theorem sortBy_cons_least {points : List (Point K)} (h : ∀ p ∈ points, o.x ≤ p.x) :
    KeyOrder.sortBy (fun p : Point K => p.x) (o :: points) = o :: KeyOrder.sortBy (fun p => p.x) points := by
  have hsorted : ∀ p ∈ KeyOrder.sortBy (fun p : Point K => p.x) points, o.x ≤ p.x :=
    fun p hp => h p ((KeyOrder.mem_sortBy _).mp hp)
  show List.orderedInsert _ o (KeyOrder.sortBy (fun p : Point K => p.x) points) = _
  cases hpoints : KeyOrder.sortBy (fun p : Point K => p.x) points with
  | nil => rfl
  | cons p rest =>
    rw [hpoints] at hsorted
    exact List.orderedInsert_cons_of_le _ _ (hsorted p List.mem_cons_self)

theorem sortBy_replicate {points : List (Point K)} (h : ∀ p ∈ points, o.x ≤ p.x) (copies : ℕ) :
    KeyOrder.sortBy (fun p : Point K => p.x) (List.replicate copies o ++ points) =
      List.replicate copies o ++ KeyOrder.sortBy (fun p => p.x) points := by
  induction copies with
  | zero => rfl
  | succ copies ih =>
    rw [List.replicate_succ, List.cons_append, sortBy_cons_least, ih, List.cons_append]
    intro p hp
    rcases List.mem_append.mp hp with hp | hp
    · rw [List.eq_of_mem_replicate hp]
    · exact h p hp

end Least

/-! ## Surfaces that mirror each other -/

section Surfaces
variable {K : Type} [Field K] [LinearOrder K] {o : Point K}

def mirror (p : Point K) : Point K := ⟨p.x, -p.y⟩

def mirrored (contour : List (Point K)) : List (Point K) := (contour.map mirror).reverse

omit [LinearOrder K] in
theorem mirror_mirror (p : Point K) : mirror (mirror p) = p := by
  simp [mirror]

omit [LinearOrder K] in
theorem mirrored_append (xs ys : List (Point K)) : mirrored (xs ++ ys) = mirrored ys ++ mirrored xs := by
  rw [mirrored, List.map_append, List.reverse_append, mirrored, mirrored]

theorem sortBy_mirror (points : List (Point K)) :
    KeyOrder.sortBy (fun p => p.x) (points.map mirror) = (KeyOrder.sortBy (fun p => p.x) points).map mirror :=
  (List.map_insertionSort _ _ mirror points fun _ _ _ _ => Iff.rfl).symm

theorem segmentY_mirror (x last : K) (surf : List (Point K)) :
    segmentY x (-last) (surf.map mirror) = -segmentY x last surf := by
  induction surf with
  | nil => rfl
  | cons a surf ih =>
    cases surf with
    | nil => rfl
    | cons b rest =>
      rw [List.map_cons, List.map_cons, segmentY, segmentY]
      have hx : (mirror a).x = a.x ∧ (mirror b).x = b.x := ⟨rfl, rfl⟩
      rw [hx.1, hx.2]
      split_ifs with hinside
      · simp only [mirror]
        ring
      · exact ih

theorem replicate_swap {T : Type} (o : T) (rest : List T) (copies : ℕ) :
    List.replicate copies o ++ o :: rest = o :: (List.replicate copies o ++ rest) := by
  rw [List.append_cons, ← List.replicate_succ', List.replicate_succ, List.cons_append]

theorem segmentY_replicate {x last : K} (hx : o.x < x) (surf : List (Point K)) (copies : ℕ) :
    segmentY x last (List.replicate copies o ++ o :: surf) = segmentY x last (o :: surf) := by
  induction copies with
  | zero => rfl
  | succ copies ih =>
    rw [List.replicate_succ, List.cons_append, replicate_swap, segmentY, if_neg (fun h => not_lt.mpr h.2 hx), ← replicate_swap]
    exact ih

theorem getLastD_replicate {T : Type} (o : T) (rest : List T) (copies : ℕ) :
    (List.replicate copies o ++ rest).getLastD o = rest.getLastD o := by
  rw [List.getLastD_eq_getLast?, List.getLastD_eq_getLast?, List.getLast?_append, List.getLast?_replicate]
  cases rest.getLast? with
  | some last => rfl
  | none =>
    split_ifs
    · rfl
    · rfl

/-- The two surfaces of a mirrored contour have opposite ordinates at every abscissa, also when the front point stands
there several times. -/
theorem interpY_mirror (ho : mirror o = o) (surf : List (Point K)) (copies : ℕ) (x : K) :
    interpY (List.replicate copies o ++ o :: surf.map mirror) x = -interpY (o :: surf) x := by
  have hlast : (List.replicate copies o ++ surf.map mirror).getLastD o = mirror (surf.getLastD o) := by
    rw [getLastD_replicate, List.getLastD_eq_getLast?, List.getLastD_eq_getLast?, List.getLast?_map]
    cases surf.getLast? with
    | none => exact ho.symm
    | some last => rfl
  have hy : o.y = -o.y := (congrArg Point.y ho).symm
  have hsegment := segmentY_mirror x (surf.getLastD o).y (o :: surf)
  rw [List.map_cons, ho] at hsegment
  have hx : (mirror (surf.getLastD o)).x = (surf.getLastD o).x := rfl
  rw [replicate_swap, interpY, interpY, hlast, hx, ← replicate_swap]
  split_ifs with hfirst hend
  · exact hy
  · rfl
  · rw [segmentY_replicate (not_le.mp hfirst)]
    exact hsegment

end Surfaces

/-! ## The chord -/

section Chord
variable {K : Type} [Field K] [LinearOrder K]

theorem farthest_spec (te le : Point K) {best : K} (hbest : best = distSq le te) (rest : List (Point K)) :
    (farthest te le best rest).2 = distSq (farthest te le best rest).1 te ∧ best ≤ (farthest te le best rest).2 ∧
      ∀ p ∈ rest, distSq p te ≤ (farthest te le best rest).2 := by
  induction rest generalizing le best with
  | nil => exact ⟨hbest, le_rfl, by simp⟩
  | cons p rest ih =>
    rw [farthest]
    split_ifs with hfarther
    · obtain ⟨hdist, hle, hall⟩ := ih p rfl
      exact ⟨hdist, hfarther.le.trans hle, List.forall_mem_cons.mpr ⟨hle, hall⟩⟩
    · obtain ⟨hdist, hle, hall⟩ := ih le hbest
      exact ⟨hdist, hle, List.forall_mem_cons.mpr ⟨(not_lt.mp hfarther).trans hle, hall⟩⟩

theorem chordOf_spec {first te le : Point K} {rest : List (Point K)} {best : K} (h : chordOf first rest = (te, le, best)) :
    best = distSq le te ∧ ∀ p ∈ first :: rest, distSq p te ≤ best := by
  unfold chordOf at h
  dsimp only at h
  simp only [Prod.mk.injEq] at h
  obtain ⟨rfl, hfarthest⟩ := h
  obtain ⟨hdist, hfirst, hall⟩ := farthest_spec _ first rfl rest
  rw [hfarthest] at hdist hfirst hall
  exact ⟨hdist, List.forall_mem_cons.mpr ⟨hfirst, hall⟩⟩

variable [IsStrictOrderedRing K]

theorem trailing_edge {first : Point K} {rest : List (Point K)} (h : mirrored (first :: rest) = first :: rest) :
    (chordOf first rest).1 = ⟨first.x, 0⟩ := by
  have hlast : mirror (rest.getLastD first) = first := by
    have hhead := congrArg List.head? h
    rw [mirrored, List.head?_reverse, List.getLast?_map, List.getLast?_cons, List.head?_cons, Option.map_some] at hhead
    rw [List.getLastD_eq_getLast?]
    exact Option.some.inj hhead
  obtain ⟨hx, hy⟩ : (mirror (rest.getLastD first)).x = first.x ∧ (mirror (rest.getLastD first)).y = first.y := by
    rw [hlast]
    exact ⟨rfl, rfl⟩
  simp only [mirror] at hx hy
  show (⟨(first.x + (rest.getLastD first).x) / 2, (first.y + (rest.getLastD first).y) / 2⟩ : Point K) = _
  rw [hx, ← hy, neg_add_cancel, zero_div, add_self_div_two]

structure AxisChord (te le : Point K) (chord : K) : Prop where
  te_y : te.y = 0
  le_y : le.y = 0
  pos : 0 < chord
  length : chord * chord = distSq le te

variable {te le p : Point K} {chord : K}

omit [IsStrictOrderedRing K] in
theorem AxisChord.onChord (h : AxisChord te le chord) (p : Point K) :
    onChord te le chord p = ⟨(p.x - le.x) * ((te.x - le.x) / chord) / chord, p.y * ((te.x - le.x) / chord) / chord⟩ := by
  simp [Symmetry.onChord, h.te_y, h.le_y]

theorem AxisChord.mirror (h : AxisChord te le chord) (p : Point K) :
    Symmetry.onChord te le chord (mirror p) = Symmetry.mirror (Symmetry.onChord te le chord p) := by
  rw [h.onChord, h.onChord]
  simp only [Symmetry.mirror, Point.mk.injEq, true_and]
  ring

theorem AxisChord.direction (h : AxisChord te le chord) :
    ((te.x - le.x) / chord) * ((te.x - le.x) / chord) = 1 := by
  have hlength := h.length
  rw [distSq, h.te_y, h.le_y] at hlength
  rw [div_mul_div_comm, div_eq_one_iff_eq (mul_pos h.pos h.pos).ne', hlength]
  ring

theorem AxisChord.behind (h : AxisChord te le chord) (hp : distSq p te ≤ chord * chord) :
    0 ≤ (Symmetry.onChord te le chord p).x ∧ ((Symmetry.onChord te le chord p).x = 0 → p = le) := by
  have hdirection := h.direction
  rw [h.onChord]
  dsimp only
  set c := (te.x - le.x) / chord with hc
  have hte : te.x - le.x = c * chord := by rw [hc, div_mul_cancel₀ _ h.pos.ne']
  have hoffset : p.x - le.x = (p.x - le.x) * c / chord * chord * c := by
    rw [div_mul_cancel₀ _ h.pos.ne', mul_assoc, hdirection, mul_one]
  set u := (p.x - le.x) * c / chord with hu
  have hsquare : chord * chord * ((u - 1) * (u - 1)) + p.y * p.y ≤ chord * chord := by
    have hx : p.x - te.x = c * chord * (u - 1) := by linear_combination hoffset - hte
    have hexpand : distSq p te = chord * chord * ((u - 1) * (u - 1)) + p.y * p.y := by
      rw [distSq, hx, h.te_y]
      linear_combination chord * chord * (u - 1) * (u - 1) * hdirection
    rwa [← hexpand]
  have hpos := mul_pos h.pos h.pos
  constructor
  · by_contra hneg
    rw [not_le] at hneg
    have hfar : 1 < (u - 1) * (u - 1) := by nlinarith
    have hgreater := mul_lt_mul_of_pos_left hfar hpos
    have hy := mul_self_nonneg p.y
    linarith
  · intro hzero
    rw [hzero] at hsquare hoffset
    have hy : p.y = 0 := by
      have hle : p.y * p.y ≤ 0 := by linarith
      exact mul_self_eq_zero.mp (le_antisymm hle (mul_self_nonneg p.y))
    have hx : p.x = le.x := by linear_combination hoffset
    obtain ⟨px, py⟩ := p
    obtain ⟨lx, ly⟩ := le
    have hly : ly = 0 := h.le_y
    exact congr (congrArg Point.mk hx) (hy.trans hly.symm)

def PassesOnce (point : Point K) (contour : List (Point K)) : Prop :=
  ∃ upper copies lower, contour = upper ++ point :: (List.replicate copies point ++ lower) ∧ point ∉ upper ∧ point ∉ lower

omit [LinearOrder K] [IsStrictOrderedRing K] in
theorem mirrored_halves {contour upper lower : List (Point K)} {copies : ℕ} (h : mirrored contour = contour)
    (hle : mirror le = le) (hcontour : contour = upper ++ le :: (List.replicate copies le ++ lower)) (hupper : le ∉ upper)
    (hlower : le ∉ lower) : lower = mirrored upper := by
  have hreplicate : mirrored (List.replicate (copies + 1) le) = List.replicate (copies + 1) le := by
    rw [mirrored, List.map_replicate, hle, List.reverse_replicate]
  have hcontour' : contour = upper ++ List.replicate (copies + 1) le ++ lower := by
    rw [hcontour, List.replicate_succ, List.append_assoc, List.cons_append]
  have hmirror : contour = mirrored lower ++ le :: (List.replicate copies le ++ mirrored upper) := by
    rw [← h, hcontour', mirrored_append, mirrored_append, hreplicate, List.replicate_succ, List.cons_append]
  have hlower' : le ∉ mirrored lower := by
    intro hmem
    rw [mirrored, List.mem_reverse] at hmem
    obtain ⟨p, hp, heq⟩ := List.mem_map.mp hmem
    have hsame : p = le := by rw [← mirror_mirror p, heq, hle]
    exact hlower (hsame ▸ hp)
  have hhalves := append_end_inj hupper hlower' (hcontour.symm.trans hmirror)
  exact List.append_cancel_left hhalves.2

omit [IsStrictOrderedRing K] in
theorem surfaces_opposite {o : Point K} {upper : List (Point K)} (ho : mirror o = o) (hne : upper ≠ [])
    (hupper : ∀ p ∈ upper, o.x < p.x) (copies : ℕ) :
    ∃ us ls, splitSurfaces (upper ++ o :: (List.replicate copies o ++ mirrored upper)) = (us, ls) ∧
      2 ≤ us.length ∧ 2 ≤ ls.length ∧
      ∀ x, interpY (KeyOrder.sortBy (fun p => p.x) us) x + interpY (KeyOrder.sortBy (fun p => p.x) ls) x = 0 := by
  have hpos := List.length_pos_of_ne_nil hne
  have hreverse : ∀ p ∈ upper.reverse, o.x ≤ p.x := fun p hp => (hupper p (List.mem_reverse.mp hp)).le
  have hmirrored : mirrored upper = upper.reverse.map mirror := by rw [mirrored, List.map_reverse]
  have hmapped : ∀ p ∈ upper.reverse.map mirror, o.x ≤ p.x := by
    intro p hp
    obtain ⟨q, hq, rfl⟩ := List.mem_map.mp hp
    exact hreverse q hq
  have hrest : ∀ p ∈ List.replicate copies o ++ mirrored upper, o.x ≤ p.x := by
    intro p hp
    rcases List.mem_append.mp hp with hp | hp
    · rw [List.eq_of_mem_replicate hp]
    · exact hmapped p (hmirrored ▸ hp)
  refine ⟨_, _, splitSurfaces_least hne hupper hrest, ?_, ?_, fun x => ?_⟩
  · rw [List.length_cons, List.length_reverse]
    omega
  · rw [List.length_cons, List.length_append, hmirrored, List.length_map, List.length_reverse]
    omega
  · have hfront : ∀ p ∈ o :: upper.reverse.map mirror, o.x ≤ p.x := List.forall_mem_cons.mpr ⟨le_rfl, hmapped⟩
    rw [hmirrored, ← replicate_swap, sortBy_replicate hfront, sortBy_cons_least hmapped, sortBy_cons_least hreverse,
      sortBy_mirror, interpY_mirror ho]
    exact add_neg_cancel _

end Chord

/-! ## Two contours -/

noncomputable def realRoot : SquareRoot ℝ := ⟨Real.sqrt, Real.sqrt_nonneg, fun _ h => Real.mul_self_sqrt h⟩

noncomputable def bluntContour : List (Point ℝ) :=
  [⟨399, 0⟩, ⟨200, 40⟩, ⟨0, 40⟩, ⟨0, -40⟩, ⟨200, -40⟩, ⟨399, 0⟩]

theorem bluntContour_normalized : normalizeChord realRoot bluntContour =
    [⟨1, 0⟩, ⟨79800 / 160801, 8000 / 160801⟩, ⟨0, 0⟩, ⟨3200 / 160801, -31920 / 160801⟩,
      ⟨83000 / 160801, -23920 / 160801⟩, ⟨1, 0⟩] := by
  have hroot : realRoot.sqrt 160801 = 401 := by
    show Real.sqrt 160801 = 401
    rw [show (160801 : ℝ) = 401 ^ 2 by norm_num]
    exact Real.sqrt_sq (by norm_num)
  have hchord : chordOf (⟨399, 0⟩ : Point ℝ) [⟨200, 40⟩, ⟨0, 40⟩, ⟨0, -40⟩, ⟨200, -40⟩, ⟨399, 0⟩] =
      (⟨399, 0⟩, ⟨0, 40⟩, 160801) := by
    norm_num [chordOf, farthest, distSq]
  rw [bluntContour, normalizeChord, hchord]
  dsimp only
  rw [hroot, if_pos (by norm_num)]
  norm_num [onChord]

end XFoilFoam.Symmetry
