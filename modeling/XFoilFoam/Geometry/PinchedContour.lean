import XFoilFoam.Geometry.CurvatureParity

/-! Where the two put a contour on its chord.  Both turn and scale it alike; the control plane then moves the two ends
and the foremost point, the engine moves none. -/
namespace XFoilFoam.Geometry
set_option autoImplicit false

section Definitions
variable {K : Type} [Field K] [LinearOrder K]

def chordVector (first : PlanePoint K) (rest : List (PlanePoint K)) : PlanePoint K :=
  let le := leftmost first rest
  let last := rest.getLastD first
  ⟨1 / 2 * (first.x + last.x) - le.x, 1 / 2 * (first.y + last.y) - le.y⟩

def along (le te point : PlanePoint K) : K := (point.x - le.x) * te.x + (point.y - le.y) * te.y

def chordSquared (te : PlanePoint K) : K := te.x * te.x + te.y * te.y

def placed (le te point : PlanePoint K) : PlanePoint K :=
  ⟨along le te point / chordSquared te, ((point.y - le.y) * te.x - (point.x - le.x) * te.y) / chordSquared te⟩

def placedContour (first : PlanePoint K) (rest : List (PlanePoint K)) : List (PlanePoint K) :=
  (first :: rest).map (placed (leftmost first rest) (chordVector first rest))

/-- A contour with its ends moved to the trailing edge and its foremost point to the leading edge. -/
def pinched (contour : List (PlanePoint K)) : List (PlanePoint K) :=
  let ends := (contour.set 0 ⟨1, 0⟩).set (contour.length - 1) ⟨1, 0⟩
  ends.set (leftmostIndex ends) ⟨0, 0⟩

/-- The contour is closed at its trailing edge, and its leading edge is the first of the points least far along. -/
def KeepsEnds (first : PlanePoint K) (rest : List (PlanePoint K)) : Prop :=
  let le := leftmost first rest
  let te := chordVector first rest
  rest.getLastD first = first ∧ (∀ point ∈ first :: rest, 0 ≤ along le te point) ∧
    (first :: rest).find? (fun point => decide (along le te point ≤ 0)) = some le

end Definitions

/-! ## Turning and scaling -/

theorem cos_sin_turned {te : PlanePoint ℝ} (hchord : 0 < chordSquared te) :
    Real.cos (-Complex.arg ⟨te.x, te.y⟩) = te.x / √(chordSquared te) ∧
      Real.sin (-Complex.arg ⟨te.x, te.y⟩) = -te.y / √(chordSquared te) := by
  have hne : (⟨te.x, te.y⟩ : ℂ) ≠ 0 := fun hzero => by
    have hx : te.x = 0 := congrArg Complex.re hzero
    have hy : te.y = 0 := congrArg Complex.im hzero
    rw [chordSquared, hx, hy] at hchord
    norm_num at hchord
  have hnorm : ‖(⟨te.x, te.y⟩ : ℂ)‖ = √(chordSquared te) := by
    rw [Complex.norm_def, Complex.normSq_mk, chordSquared]
  rw [Real.cos_neg, Real.sin_neg, Complex.cos_arg hne, Complex.sin_arg, hnorm, neg_div]
  exact ⟨rfl, rfl⟩

section Placed
variable {first : PlanePoint ℝ} {rest : List (PlanePoint ℝ)}

theorem turned_chord {te : PlanePoint ℝ} (hchord : 0 < chordSquared te) :
    te.x * (te.x / √(chordSquared te)) + te.y * -(-te.y / √(chordSquared te)) = √(chordSquared te) := by
  have hroot := Real.sqrt_pos.mpr hchord
  have hsquare := Real.mul_self_sqrt hchord.le
  field_simp
  rw [sq (√_), hsquare, chordSquared]
  ring

theorem turned_point {le te : PlanePoint ℝ} (hchord : 0 < chordSquared te) (p : PlanePoint ℝ) :
    (⟨((p.x - le.x) * (te.x / √(chordSquared te)) + (p.y - le.y) * -(-te.y / √(chordSquared te))) / √(chordSquared te),
        ((p.x - le.x) * (-te.y / √(chordSquared te)) + (p.y - le.y) * (te.x / √(chordSquared te))) /
          √(chordSquared te)⟩ : PlanePoint ℝ) = placed le te p := by
  have hroot := Real.sqrt_pos.mpr hchord
  have hsquare := Real.mul_self_sqrt hchord.le
  have hdivided (a : ℝ) : a / √(chordSquared te) / √(chordSquared te) = a / chordSquared te := by
    rw [div_div, hsquare]
  rw [placed, ← hdivided, ← hdivided, along, PlanePoint.mk.injEq]
  constructor <;> ring

theorem fromContour_placed (hcount : 5 ≤ (first :: rest).length) (hchord : 0 < chordSquared (chordVector first rest)) :
    ∃ gap, fromContour planeReals (first :: rest) = .ok { contour := placedContour first rest, teGapOriginal := gap } := by
  refine ⟨|first.y - (rest.getLastD first).y| / √(chordSquared (chordVector first rest)), ?_⟩
  rw [fromContour, if_neg (not_lt.mpr hcount)]
  extract_lets le last te theta c s chord
  have hchord : 0 < chordSquared te := hchord
  obtain ⟨hcos, hsin⟩ : c = te.x / √(chordSquared te) ∧ s = -te.y / √(chordSquared te) := cos_sin_turned hchord
  have hlength : chord = √(chordSquared te) := by
    rw [← turned_chord hchord, ← hcos, ← hsin]
  have hpoint := funext (@turned_point le _ hchord)
  rw [if_neg (not_le.mpr (hlength ▸ Real.sqrt_pos.mpr hchord)), hlength, hcos, hsin, hpoint]
  rfl

theorem middle_eq : (first.x + (rest.getLastD first).x) / 2 - (leftmost first rest).x = (chordVector first rest).x ∧
    (first.y + (rest.getLastD first).y) / 2 - (leftmost first rest).y = (chordVector first rest).y := by
  constructor <;> simp only [chordVector] <;> ring

theorem normalizedContour_placed (hchord : 0 < chordSquared (chordVector first rest)) :
    normalizedContour planeReals first rest = some (pinched (placedContour first rest)) := by
  unfold normalizedContour
  extract_lets leading last trailing angle cosine sine chord normalized ends
  have hmiddle : trailing.x - leading.x = (chordVector first rest).x ∧
      trailing.y - leading.y = (chordVector first rest).y := middle_eq
  obtain ⟨hcos, hsin⟩ : cosine = (chordVector first rest).x / √(chordSquared (chordVector first rest)) ∧
      sine = -(chordVector first rest).y / √(chordSquared (chordVector first rest)) := by
    have hangle : angle = -Complex.arg ⟨(chordVector first rest).x, (chordVector first rest).y⟩ := by
      rw [← hmiddle.1, ← hmiddle.2]
      rfl
    rw [← (cos_sin_turned hchord).1, ← (cos_sin_turned hchord).2, ← hangle]
    exact ⟨rfl, rfl⟩
  have hlength : chord = √(chordSquared (chordVector first rest)) := by
    rw [← turned_chord hchord, ← hcos, ← hsin, ← hmiddle.1, ← hmiddle.2]
    simp only [chord]
    ring
  have hplaced : normalized = placedContour first rest := by
    simp only [normalized, placedContour]
    refine List.map_congr_left fun point _ => ?_
    rw [← turned_point hchord, hlength, hcos, hsin, mul_neg, ← sub_eq_add_neg]
  rw [if_neg (not_not.mpr (hlength ▸ Real.sqrt_pos.mpr hchord))]
  simp only [ends, hplaced]
  rfl

theorem chord_of_normalized {contour : List (PlanePoint ℝ)}
    (hcontour : normalizedContour planeReals first rest = some contour) : 0 < chordSquared (chordVector first rest) := by
  rw [normalizedContour] at hcontour
  dsimp only at hcontour
  rw [middle_eq.1, middle_eq.2] at hcontour
  by_contra hflat
  have hsum : chordSquared (chordVector first rest) = 0 :=
    le_antisymm (not_lt.mp hflat) (add_nonneg (mul_self_nonneg _) (mul_self_nonneg _))
  obtain ⟨hx, hy⟩ := (mul_self_add_mul_self_eq_zero).mp hsum
  rw [hx, hy, zero_mul, zero_mul, sub_zero, if_pos (lt_irrefl 0)] at hcontour
  exact absurd hcontour.symm (Option.some_ne_none contour)

end Placed

/-! ## Pinching -/

theorem foldl_leftmost {points rest : List (PlanePoint ℝ)} (m k : ℕ) (hk : k + rest.length = points.length)
    (hrest : points.drop k = rest) (hm : m < points.length)
    (hleast : ∀ i < k, (points.getD m ⟨0, 0⟩).x ≤ (points.getD i ⟨0, 0⟩).x)
    (hfirst : ∀ i < m, (points.getD m ⟨0, 0⟩).x < (points.getD i ⟨0, 0⟩).x) :
    let found := (rest.zipIdx k).foldl
      (fun minimum point => if point.1.x < (points.getD minimum ⟨0, 0⟩).x then point.2 else minimum) m
    found < points.length ∧ (∀ i < points.length, (points.getD found ⟨0, 0⟩).x ≤ (points.getD i ⟨0, 0⟩).x) ∧
      ∀ i < found, (points.getD found ⟨0, 0⟩).x < (points.getD i ⟨0, 0⟩).x := by
  induction rest generalizing m k with
  | nil =>
    rw [List.length_nil, add_zero] at hk
    exact ⟨hm, hk ▸ hleast, hfirst⟩
  | cons point rest ih =>
    have hlt : k < points.length := by rw [← hk, List.length_cons]; omega
    have hpoint : points.getD k ⟨0, 0⟩ = point := by
      rw [List.getD_eq_getElem _ _ hlt]
      rw [List.drop_eq_getElem_cons hlt] at hrest
      exact (List.cons.inj hrest).1
    have hdrop : points.drop (k + 1) = rest := by
      rw [← List.tail_drop, hrest, List.tail_cons]
    have hlength : k + 1 + rest.length = points.length := by rw [← hk, List.length_cons]; omega
    rw [List.zipIdx_cons, List.foldl_cons]
    split
    · rename_i hbetter
      rw [← hpoint] at hbetter
      refine ih k (k + 1) hlength hdrop hlt (fun i hi => ?_) fun i hi => hbetter.trans_le (hleast i hi)
      obtain rfl | hik := (Nat.le_of_lt_succ hi).eq_or_lt
      · exact le_rfl
      · exact hbetter.le.trans (hleast i hik)
    · rename_i hworse
      rw [← hpoint] at hworse
      refine ih m (k + 1) hlength hdrop hm (fun i hi => ?_) hfirst
      obtain rfl | hik := (Nat.le_of_lt_succ hi).eq_or_lt
      · exact not_lt.mp hworse
      · exact hleast i hik

theorem leftmostIndex_first {points : List (PlanePoint ℝ)} (hne : points ≠ []) :
    leftmostIndex points < points.length ∧
      (∀ i < points.length, (points.getD (leftmostIndex points) ⟨0, 0⟩).x ≤ (points.getD i ⟨0, 0⟩).x) ∧
      ∀ i < leftmostIndex points, (points.getD (leftmostIndex points) ⟨0, 0⟩).x < (points.getD i ⟨0, 0⟩).x :=
  foldl_leftmost 0 0 (zero_add _) List.drop_zero (List.length_pos_iff.mpr hne) (fun _ h => absurd h (Nat.not_lt_zero _))
    fun _ h => absurd h (Nat.not_lt_zero _)

theorem pinched_eq_iff {contour : List (PlanePoint ℝ)} (hcount : 1 < contour.length)
    (hends : (contour.getD 0 ⟨0, 0⟩).x + (contour.getD (contour.length - 1) ⟨0, 0⟩).x = 2) :
    pinched contour = contour ↔ contour.getD 0 ⟨0, 0⟩ = ⟨1, 0⟩ ∧ contour.getD (contour.length - 1) ⟨0, 0⟩ = ⟨1, 0⟩ ∧
      contour.getD (leftmostIndex contour) ⟨0, 0⟩ = ⟨0, 0⟩ := by
  have hlast : contour.length - 1 < contour.length := by omega
  have hset {i : ℕ} {p : PlanePoint ℝ} (hi : i < contour.length) (hp : contour.getD i ⟨0, 0⟩ = p) :
      contour.set i p = contour := by
    rw [← hp, List.getD_eq_getElem _ _ hi, List.set_getElem_self]
  have hleft := (@leftmostIndex_first contour (List.ne_nil_of_length_pos (by omega))).1
  constructor
  · intro hsame
    obtain ⟨m, hm⟩ : ∃ m, m = leftmostIndex ((contour.set 0 ⟨1, 0⟩).set (contour.length - 1) ⟨1, 0⟩) := ⟨_, rfl⟩
    rw [pinched, ← hm] at hsame
    have hat {i : ℕ} (hi : i < contour.length) : contour.getD i ⟨0, 0⟩ = if m = i then ⟨0, 0⟩ else
        if contour.length - 1 = i then ⟨1, 0⟩ else if 0 = i then ⟨1, 0⟩ else contour.getD i ⟨0, 0⟩ := by
      have hget := congrArg (fun points => points.getD i ⟨0, 0⟩) hsame
      rw [List.getD_eq_getElem _ _ (by rwa [List.length_set, List.length_set, List.length_set]), List.getElem_set,
        List.getElem_set, List.getElem_set, ← List.getD_eq_getElem _ ⟨0, 0⟩ hi] at hget
      exact hget.symm
    have hfirst := hat (Nat.zero_lt_of_lt hcount)
    have hend := hat hlast
    rw [if_neg (by omega : ¬contour.length - 1 = 0), if_pos rfl] at hfirst
    rw [if_pos rfl] at hend
    -- an end that is the foremost point would stand at 0 and the other at 1
    have hnot_first : m ≠ 0 := by
      rintro rfl
      rw [if_neg (by omega : ¬0 = contour.length - 1)] at hend
      rw [hfirst, hend, if_pos rfl] at hends
      norm_num at hends
    have hnot_last : m ≠ contour.length - 1 := by
      intro hmlast
      rw [if_pos hmlast] at hend
      rw [hfirst, hend, if_neg hnot_first] at hends
      norm_num at hends
    rw [if_neg hnot_first] at hfirst
    rw [if_neg hnot_last] at hend
    have hkept : (contour.set 0 ⟨1, 0⟩).set (contour.length - 1) ⟨1, 0⟩ = contour := by
      rw [hset (by omega) hfirst, hset hlast hend]
    rw [hkept] at hm
    have hforemost := hat (hm ▸ hleft)
    rw [if_pos rfl, hm] at hforemost
    exact ⟨hfirst, hend, hforemost⟩
  · rintro ⟨hfirst, hend, hforemost⟩
    have hkept : (contour.set 0 ⟨1, 0⟩).set (contour.length - 1) ⟨1, 0⟩ = contour := by
      rw [hset (by omega) hfirst, hset hlast hend]
    rw [pinched, hkept, hset hleft hforemost]

section Pinched
variable {le te : PlanePoint ℝ}

theorem placed_injective (hchord : 0 < chordSquared te) : Function.Injective (placed le te) := by
  intro p q heq
  obtain ⟨hx, hy⟩ := PlanePoint.mk.inj heq
  have hx : along le te p = along le te q := (div_left_inj' hchord.ne').mp hx
  have hy := (div_left_inj' hchord.ne').mp hy
  have hsame : chordSquared te * (p.x - q.x) = 0 ∧ chordSquared te * (p.y - q.y) = 0 := by
    rw [along, along] at hx
    rw [chordSquared]
    constructor
    · linear_combination te.x * hx - te.y * hy
    · linear_combination te.y * hx + te.x * hy
  have hpx := (mul_eq_zero.mp hsame.1).resolve_left hchord.ne'
  have hpy := (mul_eq_zero.mp hsame.2).resolve_left hchord.ne'
  exact PlanePoint.ext (sub_eq_zero.mp hpx) (sub_eq_zero.mp hpy)

theorem placed_leading : placed le te le = ⟨0, 0⟩ := by simp [placed, along]

end Pinched

section Ends
variable {first : PlanePoint ℝ} {rest : List (PlanePoint ℝ)}

theorem placed_ends (hchord : 0 < chordSquared (chordVector first rest)) :
    (placed (leftmost first rest) (chordVector first rest) first).x +
        (placed (leftmost first rest) (chordVector first rest) (rest.getLastD first)).x = 2 ∧
      (placed (leftmost first rest) (chordVector first rest) first).y +
        (placed (leftmost first rest) (chordVector first rest) (rest.getLastD first)).y = 0 := by
  have hx : first.x + (rest.getLastD first).x = 2 * ((chordVector first rest).x + (leftmost first rest).x) := by
    rw [← middle_eq.1]
    ring
  have hy : first.y + (rest.getLastD first).y = 2 * ((chordVector first rest).y + (leftmost first rest).y) := by
    rw [← middle_eq.2]
    ring
  simp only [placed]
  rw [← add_div, ← add_div, div_eq_iff hchord.ne', div_eq_iff hchord.ne', along, along, chordSquared]
  constructor
  · linear_combination (chordVector first rest).x * hx + (chordVector first rest).y * hy
  · linear_combination (chordVector first rest).x * hy - (chordVector first rest).y * hx

theorem getD_placedContour {i : ℕ} (hi : i < (first :: rest).length) :
    (placedContour first rest).getD i ⟨0, 0⟩ =
      placed (leftmost first rest) (chordVector first rest) ((first :: rest).getD i ⟨0, 0⟩) := by
  rw [placedContour, List.getD_eq_getElem _ _ (by rwa [List.length_map]), List.getElem_map, List.getD_eq_getElem _ _ hi]

theorem getD_last : (first :: rest).getD ((first :: rest).length - 1) ⟨0, 0⟩ = rest.getLastD first := by
  rw [List.getD_eq_getElem _ _ (by rw [List.length_cons]; omega), ← List.getLast_eq_getElem (List.cons_ne_nil _ _),
    List.getLast_eq_getLastD]

/-- The foremost placed point is the leading edge where no point lies behind the leading edge along the chord and none
before it lies as far forward. -/
theorem foremost_placed_iff (hchord : 0 < chordSquared (chordVector first rest)) :
    (placedContour first rest).getD (leftmostIndex (placedContour first rest)) ⟨0, 0⟩ = ⟨0, 0⟩ ↔
      (∀ point ∈ first :: rest, 0 ≤ along (leftmost first rest) (chordVector first rest) point) ∧
        (first :: rest).find? (fun point => decide (along (leftmost first rest) (chordVector first rest) point ≤ 0)) =
          some (leftmost first rest) := by
  have hlength : (placedContour first rest).length = (first :: rest).length := List.length_map _
  obtain ⟨hm, hleast, hfirst⟩ := @leftmostIndex_first (placedContour first rest)
    (List.ne_nil_of_length_pos (by rw [hlength]; exact Nat.succ_pos _))
  set m := leftmostIndex (placedContour first rest)
  rw [hlength] at hm hleast
  rw [getD_placedContour hm] at hleast hfirst ⊢
  rw [List.find?_eq_some_iff_getElem]
  have hbefore {i j : ℕ} (hi : i < (first :: rest).length) (hj : j < (first :: rest).length) :
      (placed (leftmost first rest) (chordVector first rest) ((first :: rest).getD i ⟨0, 0⟩)).x ≤
          (placed (leftmost first rest) (chordVector first rest) ((first :: rest).getD j ⟨0, 0⟩)).x ↔
        along (leftmost first rest) (chordVector first rest) (first :: rest)[i] ≤
          along (leftmost first rest) (chordVector first rest) (first :: rest)[j] := by
    rw [List.getD_eq_getElem _ _ hi, List.getD_eq_getElem _ _ hj]
    exact div_le_div_iff_of_pos_right hchord
  have hzero : along (leftmost first rest) (chordVector first rest) (leftmost first rest) = 0 := by
    rw [along, sub_self, sub_self, zero_mul, zero_mul, add_zero]
  constructor
  · intro hplaced
    have hpoint : (first :: rest)[m] = leftmost first rest := by
      rw [← List.getD_eq_getElem _ ⟨0, 0⟩ hm]
      exact placed_injective hchord (hplaced.trans placed_leading.symm)
    have hnonneg : ∀ point ∈ first :: rest, 0 ≤ along (leftmost first rest) (chordVector first rest) point := by
      intro point hpoint'
      obtain ⟨i, hi, rfl⟩ := List.getElem_of_mem hpoint'
      have hi' := hleast i hi
      rw [getD_placedContour hi, hbefore hm hi, hpoint, hzero] at hi'
      exact hi'
    refine ⟨hnonneg, decide_eq_true hzero.le, m, hm, hpoint, fun i hi => ?_⟩
    have hi' := hfirst i hi
    rw [getD_placedContour (hi.trans hm), ← not_le, hbefore (hi.trans hm) hm, hpoint, hzero] at hi'
    rw [decide_eq_false hi']
    rfl
  · rintro ⟨hnonneg, -, i, hi, hpoint, hearlier⟩
    have hfound : along (leftmost first rest) (chordVector first rest) (first :: rest)[m] ≤ 0 := by
      have hi' := hleast i hi
      rw [getD_placedContour hi, hbefore hm hi, hpoint, hzero] at hi'
      exact hi'
    obtain hlt | rfl | hgt := lt_trichotomy m i
    · have hnot := hearlier m hlt
      rw [decide_eq_true hfound] at hnot
      exact absurd hnot Bool.false_ne_true
    · rw [List.getD_eq_getElem _ _ hm, hpoint, placed_leading]
    · have hgt' := hfirst i hgt
      rw [getD_placedContour hi, ← not_le, hbefore hi hm, hpoint, hzero] at hgt'
      exact absurd (hnonneg _ (List.getElem_mem hm)) hgt'

theorem pinched_placed_iff (hcount : 5 ≤ (first :: rest).length)
    (hchord : 0 < chordSquared (chordVector first rest)) :
    pinched (placedContour first rest) = placedContour first rest ↔ KeepsEnds first rest := by
  have hlength : (placedContour first rest).length = (first :: rest).length := List.length_map _
  obtain ⟨hx, hy⟩ := placed_ends hchord
  have hzero := @getD_placedContour first rest 0 (by omega)
  have hlast := @getD_placedContour first rest ((first :: rest).length - 1) (by omega)
  rw [getD_last] at hlast
  rw [List.getD_cons_zero] at hzero
  rw [pinched_eq_iff (by omega) (by rw [hlength, hlast, hzero, hx]), hlength, hlast, hzero, foremost_placed_iff hchord,
    KeepsEnds]
  have hclosed : (placed (leftmost first rest) (chordVector first rest) first = ⟨1, 0⟩ ∧
      placed (leftmost first rest) (chordVector first rest) (rest.getLastD first) = ⟨1, 0⟩) ↔
        rest.getLastD first = first := by
    constructor
    · rintro ⟨hfirst, hend⟩
      exact placed_injective hchord (hend.trans hfirst.symm)
    · intro hsame
      rw [hsame] at hx hy ⊢
      have hfirst : placed (leftmost first rest) (chordVector first rest) first = ⟨1, 0⟩ := by
        refine PlanePoint.ext ?_ ?_
        · show (placed (leftmost first rest) (chordVector first rest) first).x = 1
          linarith
        · show (placed (leftmost first rest) (chordVector first rest) first).y = 0
          linarith
      exact ⟨hfirst, hfirst⟩
  rw [← hclosed, and_assoc]

/-- A contour that keeps its ends has one curvature; and the contour measured is the contour meshed exactly where the
ends are kept. -/
theorem curvature_of_kept_ends (first : PlanePoint ℝ) (rest : List (PlanePoint ℝ)) {v : ℝ}
    (hvalue : airfoilConcaveCurvature planeReals (first :: rest) = some v) :
    ∃ airfoil, fromContour planeReals (first :: rest) = .ok airfoil ∧
      (KeepsEnds first rest → maxConcaveCurvature planeReals airfoil.contour = v) ∧
        (normalizedContour planeReals first rest = some airfoil.contour ↔ KeepsEnds first rest) := by
  have hcount : 5 ≤ (first :: rest).length := by
    by_contra hshort
    rw [airfoilConcaveCurvature, if_pos (Or.inl (not_le.mp hshort))] at hvalue
    exact absurd hvalue.symm (Option.some_ne_none v)
  have hbound : ¬((first :: rest).length < 5 ∨ 4096 < (first :: rest).length) := by
    intro hbad
    rw [airfoilConcaveCurvature, if_pos hbad] at hvalue
    exact absurd hvalue.symm (Option.some_ne_none v)
  rw [airfoilConcaveCurvature, if_neg hbound] at hvalue
  have hchord : 0 < chordSquared (chordVector first rest) := by
    cases hnormalized : normalizedContour planeReals first rest with
    | none =>
      rw [hnormalized] at hvalue
      exact absurd hvalue.symm (Option.some_ne_none v)
    | some contour => exact chord_of_normalized hnormalized
  obtain ⟨gap, hengine⟩ := fromContour_placed hcount hchord
  rw [normalizedContour_placed hchord] at hvalue ⊢
  refine ⟨_, hengine, fun hkeeps => ?_, ?_⟩
  · rw [(pinched_placed_iff hcount hchord).mpr hkeeps, placedContour, List.map_cons] at hvalue
    rw [placedContour, List.map_cons]
    dsimp only at hvalue ⊢
    split at hvalue
    · exact absurd hvalue.symm (Option.some_ne_none v)
    · rename_i hextent
      exact maxConcaveCurvature_of_walked (by simpa using hcount) (not_not.mp hextent) hvalue
  · rw [Option.some.injEq]
    exact pinched_placed_iff hcount hchord

end Ends

/-! ## Two contours -/

section Contours
variable {points : List (PlanePoint ℝ)}

theorem lt_hypot_iff {x y : ℝ} : 1 / 10000000000 < planeReals.hypot x y ↔ (1 / 10000000000) ^ 2 < x ^ 2 + y ^ 2 :=
  Real.lt_sqrt (by norm_num)

theorem hypot_le_iff {x y : ℝ} : planeReals.hypot x y ≤ 1 / 10000000000 ↔ x ^ 2 + y ^ 2 ≤ (1 / 10000000000) ^ 2 :=
  Real.sqrt_le_left (by norm_num)

theorem airfoilConcaveCurvature_some {first p : PlanePoint ℝ} {rest ps : List (PlanePoint ℝ)}
    (hbound : 5 ≤ (first :: rest).length ∧ (first :: rest).length ≤ 4096)
    (hchord : 0 < chordSquared (chordVector first rest)) (hpinched : pinched (placedContour first rest) = p :: ps)
    (hextent : maxX p ps - minX p ps = 1) (hdistinct : distinctPoints planeReals 1 (p :: ps) = points)
    (hcount : 5 ≤ points.length) (harea : 1 / 10 ^ 12 < |signedArea points|) (htotal : 0 < (edgeLengths points).sum) :
    airfoilConcaveCurvature planeReals (first :: rest) = some (unitContourCurvature planeReals points) := by
  rw [airfoilConcaveCurvature, if_neg (by omega), normalizedContour_placed hchord, hpinched]
  dsimp only
  rw [hextent, if_neg (not_not.mpr one_pos), hdistinct, walkedCurvature_some hcount harea htotal]

noncomputable def keptDiamond : List (PlanePoint ℝ) := [⟨1 / 2, 1 / 4⟩, ⟨0, 0⟩, ⟨1 / 2, -1 / 4⟩, ⟨3 / 4, -1 / 8⟩, ⟨1, 0⟩]

/-- The diamond is closed and stands on its chord. -/
theorem curvature_of_kept_diamond : ∃ v airfoil,
    airfoilConcaveCurvature planeReals (⟨1, 0⟩ :: keptDiamond) = some v ∧
      fromContour planeReals (⟨1, 0⟩ :: keptDiamond) = .ok airfoil ∧ maxConcaveCurvature planeReals airfoil.contour = v := by
  have hleft : leftmost ⟨1, 0⟩ keptDiamond = ⟨0, 0⟩ := by norm_num [leftmost, keptDiamond]
  have hvector : chordVector ⟨1, 0⟩ keptDiamond = ⟨1, 0⟩ := by
    rw [chordVector, hleft]
    norm_num [keptDiamond]
  have hkeeps : KeepsEnds ⟨1, 0⟩ keptDiamond := by
    rw [KeepsEnds, hleft, hvector]
    norm_num [along, keptDiamond]
  have hchord : 0 < chordSquared (chordVector ⟨1, 0⟩ keptDiamond) := by
    rw [hvector]
    norm_num [chordSquared]
  have hplaced : pinched (placedContour ⟨1, 0⟩ keptDiamond) = ⟨1, 0⟩ :: keptDiamond := by
    rw [(pinched_placed_iff (by norm_num [keptDiamond]) hchord).mpr hkeeps, placedContour, hleft, hvector]
    norm_num [placed, along, chordSquared, keptDiamond]
  have hdistinct : distinctPoints planeReals 1 (⟨1, 0⟩ :: keptDiamond) = ⟨1, 0⟩ :: keptDiamond.dropLast := by
    norm_num [distinctPoints, keepDistinct, lt_hypot_iff, hypot_le_iff, keptDiamond]
  have hvalue := airfoilConcaveCurvature_some (by norm_num [keptDiamond]) hchord hplaced (by norm_num [maxX, minX, keptDiamond])
    hdistinct (by norm_num [keptDiamond]) (by norm_num [signedArea, List.rotate, keptDiamond])
    (by norm_num [edgeLengths, norm, planeReals, List.rotate, keptDiamond]; positivity)
  obtain ⟨airfoil, hengine, hsame, -⟩ := curvature_of_kept_ends _ _ hvalue
  exact ⟨_, airfoil, hvalue, hengine, hsame hkeeps⟩

theorem foldl_engineStep_pos {seg cum : List ℝ} {area total window : ℝ} {entries : List (PlanePoint ℝ × ℕ)}
    {entry : PlanePoint ℝ × ℕ} (hentry : entry ∈ entries)
    (hcorner : ∀ maximum, 0 < engineStep planeReals points seg cum area total window maximum entry) :
    0 < entries.foldl (engineStep planeReals points seg cum area total window) 0 := by
  obtain ⟨before, after, rfl⟩ := List.append_of_mem hentry
  rw [List.foldl_append, List.foldl_cons]
  exact (hcorner _).trans_le (le_foldl_engineStep _ _ _ _ _ _ _)

theorem engineStep_right_angle {seg cum : List ℝ} {area total window : ℝ} {k : ℕ} {x y : ℝ} (hwindow : 1 / 10 ^ 12 < window)
    (harea : 0 < area) (hprevious : enginePointAt points seg cum total (cum.getD k 0 - window) = ⟨x, y + window⟩)
    (hnext : enginePointAt points seg cum total (cum.getD k 0 + window) = ⟨x - window, y⟩) (maximum : ℝ) :
    0 < engineStep planeReals points seg cum area total window maximum (⟨x, y⟩, k) := by
  have hpos : 0 < window := lt_trans (by norm_num) hwindow
  have hnorm : ¬(norm planeReals ⟨0, -window⟩ ≤ 1 / 10 ^ 12 ∨ norm planeReals ⟨-window, 0⟩ ≤ 1 / 10 ^ 12) := by
    have hside : √(window * window) = window := Real.sqrt_mul_self hpos.le
    simp only [norm, planeReals, mul_zero, zero_add, add_zero, neg_mul_neg, hside, or_self]
    exact not_le.mpr hwindow
  have hangle : Complex.arg ⟨0, -(window * window)⟩ = -(Real.pi / 2) := by
    rw [Complex.arg_eq_neg_pi_div_two_iff]
    exact ⟨rfl, neg_neg_of_pos (mul_pos hpos hpos)⟩
  have hcurvature : 0 < -(Real.pi / 2) / window * -1 := by
    rw [mul_neg_one, neg_div, neg_neg]
    exact div_pos (div_pos Real.pi_pos two_pos) hpos
  have habs : 0 < |-(Real.pi / 2) / window| := abs_pos.mpr (left_ne_zero_of_mul hcurvature.ne')
  simp only [engineStep, hprevious, hnext, sub_self, sub_add_cancel_left, sub_sub_cancel_left, if_neg hnorm,
    if_pos harea]
  simp only [zero_mul, mul_zero, zero_sub, neg_mul_neg, add_zero, planeReals, hangle]
  rw [if_pos hcurvature]
  exact lt_max_of_lt_right habs

noncomputable def bluntBody : List (PlanePoint ℝ) :=
  [⟨1, 1 / 2⟩, ⟨1 / 2, 1 / 2⟩, ⟨1 / 2, 1 / 4⟩, ⟨1 / 4, 1 / 4⟩, ⟨0, 0⟩]

/-- With its ends apart the contour has no area.  With the ends pinched it has one, and a concave corner. -/
theorem blunt_contour_differs : ∃ v airfoil,
    airfoilConcaveCurvature planeReals (⟨1, -11 / 16⟩ :: (bluntBody ++ [⟨1, 11 / 16⟩])) = some v ∧
      fromContour planeReals (⟨1, -11 / 16⟩ :: (bluntBody ++ [⟨1, 11 / 16⟩])) = .ok airfoil ∧
        maxConcaveCurvature planeReals airfoil.contour ≠ v := by
  have hleft : leftmost ⟨1, -11 / 16⟩ (bluntBody ++ [⟨1, 11 / 16⟩]) = ⟨0, 0⟩ := by norm_num [leftmost, bluntBody]
  have hvector : chordVector ⟨1, -11 / 16⟩ (bluntBody ++ [⟨1, 11 / 16⟩]) = ⟨1, 0⟩ := by
    rw [chordVector, hleft]
    norm_num [bluntBody]
  have hchord : 0 < chordSquared (chordVector ⟨1, -11 / 16⟩ (bluntBody ++ [⟨1, 11 / 16⟩])) := by
    rw [hvector]
    norm_num [chordSquared]
  have hplaced : placedContour ⟨1, -11 / 16⟩ (bluntBody ++ [⟨1, 11 / 16⟩]) =
      ⟨1, -11 / 16⟩ :: (bluntBody ++ [⟨1, 11 / 16⟩]) := by
    rw [placedContour, hleft, hvector]
    norm_num [placed, along, chordSquared, bluntBody]
  have hpinched : pinched (placedContour ⟨1, -11 / 16⟩ (bluntBody ++ [⟨1, 11 / 16⟩])) =
      ⟨1, 0⟩ :: (bluntBody ++ [⟨1, 0⟩]) := by
    rw [hplaced]
    norm_num [pinched, leftmostIndex, bluntBody]
  have harea : signedArea (⟨1, 0⟩ :: bluntBody) = 11 / 32 := by norm_num [signedArea, List.rotate, bluntBody]
  have hedges : edgeLengths (⟨1, 0⟩ :: bluntBody) = [1 / 2, 1 / 2, 1 / 4, 1 / 4, √(1 / 8), 1] := by
    have hquarter : √(4 : ℝ) = 2 := by
      rw [Real.sqrt_eq_iff_mul_self_eq (by norm_num) (by norm_num)]
      norm_num
    have hsixteenth : √(16 : ℝ) = 4 := by
      rw [Real.sqrt_eq_iff_mul_self_eq (by norm_num) (by norm_num)]
      norm_num
    norm_num [edgeLengths, norm, planeReals, List.rotate, bluntBody, hquarter, hsixteenth]
  have htotal : (5 : ℝ) / 2 ≤ ([1 / 2, 1 / 2, 1 / 4, 1 / 4, √(1 / 8), 1] : List ℝ).sum := by
    have hroot : 0 ≤ √(1 / 8 : ℝ) := Real.sqrt_nonneg _
    simp only [List.sum_cons, List.sum_nil]
    linarith
  have hpos : 0 < unitContourCurvature planeReals (⟨1, 0⟩ :: bluntBody) := by
    have hfar : 1 / 10 ^ 12 < |signedArea (⟨1, 0⟩ :: bluntBody)| := by
      rw [harea]
      norm_num
    have hwindow : min (max (25 / 1000) (1 / 10 ^ 4))
        (2 / 10 * ([1 / 2, 1 / 2, 1 / 4, 1 / 4, √(1 / 8), 1] : List ℝ).sum) = 1 / 40 := by
      rw [min_eq_left]
      · norm_num
      · refine le_trans ?_ (mul_le_mul_of_nonneg_left htotal (by norm_num))
        norm_num
    rw [unitContourCurvature, if_neg (by norm_num [bluntBody])]
    dsimp only
    rw [if_neg (not_le.mpr hfar), ← edgeLengths, hedges, if_neg (by linarith), hwindow]
    -- the corner at (1/2, 1/4), with an edge of a quarter on either side
    refine @foldl_engineStep_pos _ _ _ _ _ _ _ (⟨1 / 2, 1 / 4⟩, 3) (by simp [List.zipIdx, bluntBody]) ?_
    refine engineStep_right_angle (by norm_num) (by rw [harea]; norm_num) ?_ ?_
    · rw [← hedges, enginePointAt_edge (k := 2) (by norm_num [bluntBody])] <;> rw [hedges] <;>
        norm_num [cumulativeFrom, bluntBody]
    · rw [← hedges, enginePointAt_edge (k := 3) (by norm_num [bluntBody])] <;> rw [hedges] <;>
        norm_num [cumulativeFrom, bluntBody]
  have hzero : maxConcaveCurvature planeReals (⟨1, -11 / 16⟩ :: (bluntBody ++ [⟨1, 11 / 16⟩])) = 0 := by
    have hflat : signedArea (⟨1, -11 / 16⟩ :: (bluntBody ++ [⟨1, 11 / 16⟩])) = 0 := by
      norm_num [signedArea, List.rotate, bluntBody]
    have hextent : maxX ⟨1, -11 / 16⟩ (bluntBody ++ [⟨1, 11 / 16⟩]) -
        minX ⟨1, -11 / 16⟩ (bluntBody ++ [⟨1, 11 / 16⟩]) = 1 := by
      norm_num [maxX, minX, bluntBody]
    have hdistinct : distinctPoints planeReals 1 (⟨1, -11 / 16⟩ :: (bluntBody ++ [⟨1, 11 / 16⟩])) =
        ⟨1, -11 / 16⟩ :: (bluntBody ++ [⟨1, 11 / 16⟩]) := by
      norm_num [distinctPoints, keepDistinct, lt_hypot_iff, hypot_le_iff, bluntBody]
    rw [maxConcaveCurvature, unitChordContour_eq (by norm_num [bluntBody]) (by rw [hextent]; norm_num), hextent, hdistinct,
      if_pos (by norm_num [bluntBody]), unitContourCurvature, if_neg (by norm_num [bluntBody])]
    dsimp only
    rw [hflat, abs_zero, if_pos (by norm_num)]
  have hdistinct : distinctPoints planeReals 1 (⟨1, 0⟩ :: (bluntBody ++ [⟨1, 0⟩])) = ⟨1, 0⟩ :: bluntBody := by
    norm_num [distinctPoints, keepDistinct, lt_hypot_iff, hypot_le_iff, bluntBody]
  obtain ⟨gap, hengine⟩ := fromContour_placed (by norm_num [bluntBody]) hchord
  have hvalue := airfoilConcaveCurvature_some (by norm_num [bluntBody]) hchord hpinched
    (by norm_num [maxX, minX, bluntBody]) hdistinct (by norm_num [bluntBody]) (by rw [harea]; norm_num)
    (by rw [hedges]; linarith)
  refine ⟨_, _, hvalue, hengine, ?_⟩
  rw [hplaced, hzero]
  exact hpos.ne

end Contours

end XFoilFoam.Geometry
