import XFoilFoam.Geometry.ConcaveCurvature
import Mathlib.Analysis.SpecialFunctions.Complex.Arg
import Mathlib.Analysis.SpecialFunctions.Pow.Real
import Mathlib.Data.List.GetD

/-! The two curvatures in exact reals.  The walks around a contour agree; the contours they walk agree where pinching
the ends changes nothing. -/
namespace XFoilFoam.Geometry
set_option autoImplicit false

noncomputable def planeReals : PlaneFunctions ℝ where
  cos := Real.cos
  sin := Real.sin
  atan2 y x := Complex.arg ⟨x, y⟩
  hypot x y := √(x ^ 2 + y ^ 2)
  sqrt := Real.sqrt

theorem norm_eq_hypot (v : PlanePoint ℝ) : norm planeReals v = planeReals.hypot v.x v.y := by
  show √(v.x * v.x + v.y * v.y) = √(v.x ^ 2 + v.y ^ 2)
  rw [sq, sq]

/-! ## Cumulative lengths -/

section Cumulative
variable {start : ℝ} {lengths : List ℝ}

theorem length_cumulativeFrom (start : ℝ) (lengths : List ℝ) :
    (cumulativeFrom start lengths).length = lengths.length + 1 := by
  induction lengths generalizing start with
  | nil => rfl
  | cons length lengths ih => rw [cumulativeFrom, List.length_cons, ih, List.length_cons]

theorem getD_cumulativeFrom (start : ℝ) (lengths : List ℝ) {i : ℕ} (hi : i ≤ lengths.length) :
    (cumulativeFrom start lengths).getD i 0 = start + (lengths.take i).sum := by
  induction lengths generalizing start i with
  | nil =>
    obtain rfl : i = 0 := Nat.le_zero.mp hi
    simp [cumulativeFrom]
  | cons length lengths ih =>
    cases i with
    | zero => simp [cumulativeFrom]
    | succ i =>
      rw [cumulativeFrom, List.getD_cons_succ, ih (start + length) (Nat.le_of_succ_le_succ hi), List.take_succ_cons,
        List.sum_cons, add_assoc]

theorem getLastD_cumulativeFrom (start : ℝ) (lengths : List ℝ) :
    (cumulativeFrom start lengths).getLastD 0 = start + lengths.sum := by
  induction lengths generalizing start with
  | nil => simp [cumulativeFrom]
  | cons length lengths ih =>
    have hne : cumulativeFrom (start + length) lengths ≠ [] := fun hnil => by
      have hlength := length_cumulativeFrom (start + length) lengths
      rw [hnil] at hlength
      exact absurd hlength (Nat.succ_ne_zero _).symm
    obtain ⟨c, rest, hcons⟩ := List.exists_cons_of_ne_nil hne
    have hlast := ih (start + length)
    rw [hcons] at hlast
    rw [cumulativeFrom, hcons, List.sum_cons, ← add_assoc, ← hlast]
    simp [List.getLastD_eq_getLast?]

theorem sorted_cumulativeFrom (hlengths : ∀ l ∈ lengths, 0 ≤ l) :
    (cumulativeFrom start lengths).Pairwise (· ≤ ·) := by
  rw [List.pairwise_iff_getElem]
  intro i j hi hj hij
  rw [length_cumulativeFrom] at hi hj
  have hget (k : ℕ) (hk : k < (cumulativeFrom start lengths).length) :
      (cumulativeFrom start lengths)[k] = start + (lengths.take k).sum := by
    rw [← getD_cumulativeFrom start lengths (by rw [length_cumulativeFrom] at hk; omega), List.getD_eq_getElem]
  rw [hget, hget, add_le_add_iff_left]
  have hsplit : lengths.take j = lengths.take i ++ (lengths.drop i).take (j - i) := by
    rw [← List.take_append_drop i (lengths.take j), List.take_take, min_eq_left hij.le, List.drop_take]
  have hmore : 0 ≤ ((lengths.drop i).take (j - i)).sum :=
    List.sum_nonneg fun l hl => hlengths l (List.mem_of_mem_drop (List.mem_of_mem_take hl))
  rw [hsplit, List.sum_append]
  linarith

end Cumulative

/-! ## Looking up a length -/

theorem wrapped_eq {total : ℝ} (htotal : 0 < total) (distance : ℝ) :
    jsRemainder (jsRemainder distance total + total) total = pyModulo distance total ∧
      0 ≤ pyModulo distance total ∧ pyModulo distance total < total := by
  have hfloor := Int.floor_le (distance / total)
  have hsucc := Int.lt_floor_add_one (distance / total)
  have hmod : pyModulo distance total = total * (distance / total - ⌊distance / total⌋) := by
    rw [pyModulo, mul_sub, mul_div_cancel₀ _ htotal.ne']
  have hnonneg : 0 ≤ pyModulo distance total := by
    rw [hmod]
    exact mul_nonneg htotal.le (by linarith)
  have hlt : pyModulo distance total < total := by
    rw [hmod]
    exact mul_lt_of_lt_one_right htotal (by linarith)
  refine ⟨?_, hnonneg, hlt⟩
  -- the inner remainder is the modulo, or lies one turn below it
  obtain ⟨n, hn, hlow, hhigh⟩ : ∃ n : ℤ, jsRemainder distance total + total = pyModulo distance total + total * n ∧
      0 ≤ pyModulo distance total + total * n ∧ n ≤ 1 := by
    unfold jsRemainder
    split
    · rename_i hpos
      exact ⟨1, by rw [pyModulo]; push_cast; ring, by push_cast; linarith, le_rfl⟩
    · rename_i hneg
      by_cases hint : (⌊distance / total⌋ : ℝ) = distance / total
      · have hceil : ⌈distance / total⌉ = ⌊distance / total⌋ := by
          rw [← hint, Int.ceil_intCast, Int.floor_intCast]
        exact ⟨1, by rw [hceil, pyModulo]; push_cast; ring, by push_cast; linarith, le_rfl⟩
      · have hceil : ⌈distance / total⌉ = ⌊distance / total⌋ + 1 := by
          rw [Int.ceil_eq_iff]
          push_cast
          have hstrict := lt_of_le_of_ne hfloor hint
          constructor <;> linarith
        exact ⟨0, by rw [hceil, pyModulo]; push_cast; ring, by push_cast; linarith, by omega⟩
  have hdivided : (pyModulo distance total + total * n) / total = pyModulo distance total / total + n := by
    rw [add_div, mul_div_cancel_left₀ _ htotal.ne']
  have hquotient : ⌊(pyModulo distance total + total * n) / total⌋ = n := by
    have hbelow : pyModulo distance total / total < 1 := (div_lt_one htotal).mpr hlt
    have habove : 0 ≤ pyModulo distance total / total := div_nonneg hnonneg htotal.le
    rw [hdivided, Int.floor_eq_iff]
    constructor <;> linarith
  rw [hn, jsRemainder, if_pos (div_nonneg hlow htotal.le), hquotient]
  ring

theorem bisect_between {cumulative : List ℝ} {wrapped : ℝ} (lower upper : ℕ) (hlt : lower < upper)
    (hlow : cumulative.getD lower 0 ≤ wrapped) (hhigh : wrapped < cumulative.getD upper 0) :
    lower ≤ bisectCumulative cumulative wrapped lower upper ∧ bisectCumulative cumulative wrapped lower upper < upper ∧
      cumulative.getD (bisectCumulative cumulative wrapped lower upper) 0 ≤ wrapped ∧
        wrapped < cumulative.getD (bisectCumulative cumulative wrapped lower upper + 1) 0 := by
  induction lower, upper using bisectCumulative.induct cumulative wrapped with
  | case1 lower upper hwide middle hbelow ih =>
    have hmiddle : lower < (lower + upper) / 2 ∧ (lower + upper) / 2 < upper := by omega
    rw [bisectCumulative, if_pos hwide]
    dsimp only
    rw [if_pos hbelow]
    obtain ⟨hge, hrest⟩ := ih hmiddle.2 hbelow hhigh
    exact ⟨hmiddle.1.le.trans hge, hrest⟩
  | case2 lower upper hwide middle habove ih =>
    have hmiddle : lower < (lower + upper) / 2 ∧ (lower + upper) / 2 < upper := by omega
    rw [bisectCumulative, if_pos hwide]
    dsimp only
    rw [if_neg habove]
    obtain ⟨hge, hless, hrest⟩ := ih hmiddle.1 hlow (not_le.mp habove)
    exact ⟨hge, hless.trans hmiddle.2, hrest⟩
  | case3 lower upper hnarrow =>
    rw [bisectCumulative, if_neg hnarrow]
    obtain rfl : upper = lower + 1 := by omega
    exact ⟨le_rfl, hlt, hlow, hhigh⟩

theorem countP_between {cumulative : List ℝ} {wrapped : ℝ} (hsorted : cumulative.Pairwise (· ≤ ·)) {k : ℕ}
    (hk : k + 1 < cumulative.length) (hlow : cumulative.getD k 0 ≤ wrapped) (hhigh : wrapped < cumulative.getD (k + 1) 0) :
    cumulative.countP (fun c => decide (c ≤ wrapped)) = k + 1 := by
  rw [List.pairwise_iff_getElem] at hsorted
  rw [List.getD_eq_getElem _ _ (by omega)] at hlow
  rw [List.getD_eq_getElem _ _ hk] at hhigh
  have hfront : (cumulative.take (k + 1)).countP (fun c => decide (c ≤ wrapped)) = k + 1 := by
    have hlength : (cumulative.take (k + 1)).length = k + 1 := by rw [List.length_take]; omega
    rw [List.countP_eq_length.mpr, hlength]
    intro c hc
    obtain ⟨i, hi, rfl⟩ := List.getElem_of_mem hc
    rw [List.getElem_take, decide_eq_true_eq]
    obtain rfl | hik := (by omega : i ≤ k).eq_or_lt
    · exact hlow
    · exact (hsorted i k (by omega) (by omega) hik).trans hlow
  have hback : (cumulative.drop (k + 1)).countP (fun c => decide (c ≤ wrapped)) = 0 := by
    rw [List.countP_eq_zero]
    intro c hc
    obtain ⟨i, hi, rfl⟩ := List.getElem_of_mem hc
    rw [List.length_drop] at hi
    rw [List.getElem_drop, decide_eq_true_eq, not_le]
    obtain rfl | hpos := i.eq_zero_or_pos
    · exact hhigh
    · exact hhigh.trans_le (hsorted (k + 1) (k + 1 + i) (by omega) (by omega) (by omega))
  rw [← List.take_append_drop (k + 1) cumulative, List.countP_append, hfront, hback, add_zero]

/-! ## One walk -/

section Edges
variable {points : List (PlanePoint ℝ)}

noncomputable def edgeLengths (points : List (PlanePoint ℝ)) : List ℝ :=
  List.zipWith (fun p q => norm planeReals ⟨q.x - p.x, q.y - p.y⟩) points (points.rotate 1)

theorem length_edgeLengths (points : List (PlanePoint ℝ)) : (edgeLengths points).length = points.length := by
  rw [edgeLengths, List.length_zipWith, List.length_rotate, min_self]

theorem edgeLengths_nonneg {l : ℝ} (hl : l ∈ edgeLengths points) : 0 ≤ l := by
  rw [edgeLengths, ← List.map_uncurry_zip_eq_zipWith, List.mem_map] at hl
  obtain ⟨edge, -, rfl⟩ := hl
  exact Real.sqrt_nonneg _

theorem map_next (points : List (PlanePoint ℝ)) :
    points.zipIdx.map (fun entry => (entry.1, points.getD ((entry.2 + 1) % points.length) ⟨0, 0⟩)) =
      points.zip (points.rotate 1) := by
  refine List.ext_getElem (by simp) fun i hi hi' => ?_
  have hlt : i < points.length := by simpa using hi
  have hmod : (i + 1) % points.length < points.length := Nat.mod_lt _ (by omega)
  simp [List.getElem_rotate, List.getElem?_eq_getElem hmod]

noncomputable def edgeStep (walk : Walk ℝ) (edge : PlanePoint ℝ × PlanePoint ℝ) : Walk ℝ where
  area := walk.area + (edge.1.x * edge.2.y - edge.2.x * edge.1.y)
  cumulative := walk.cumulative ++
    [walk.cumulative.getLastD 0 + norm planeReals ⟨edge.2.x - edge.1.x, edge.2.y - edge.1.y⟩]

theorem foldl_edgeStep (edges : List (PlanePoint ℝ × PlanePoint ℝ)) (area start : ℝ) (front : List ℝ) :
    edges.foldl edgeStep ⟨area, front ++ [start]⟩ =
      ⟨area + (edges.map fun e => e.1.x * e.2.y - e.2.x * e.1.y).sum,
        front ++ cumulativeFrom start
          (edges.map fun e => norm planeReals ⟨e.2.x - e.1.x, e.2.y - e.1.y⟩)⟩ := by
  induction edges generalizing area start front with
  | nil => simp [cumulativeFrom]
  | cons edge edges ih =>
    have hstep : edgeStep ⟨area, front ++ [start]⟩ edge =
        ⟨area + (edge.1.x * edge.2.y - edge.2.x * edge.1.y),
          (front ++ [start]) ++ [start + norm planeReals ⟨edge.2.x - edge.1.x, edge.2.y - edge.1.y⟩]⟩ := by
      rw [edgeStep, List.getLastD_concat]
    rw [List.foldl_cons, hstep, ih]
    simp [cumulativeFrom, add_assoc]

theorem walk_eq (points : List (PlanePoint ℝ)) :
    points.zipIdx.foldl (walkStep planeReals points) ⟨0, [0]⟩ =
      ⟨2 * signedArea points, cumulativeFrom 0 (edgeLengths points)⟩ := by
  have hstep : walkStep planeReals points = fun walk entry =>
      edgeStep walk (entry.1, points.getD ((entry.2 + 1) % points.length) ⟨0, 0⟩) := by
    funext walk entry
    rw [edgeStep, norm_eq_hypot]
    rfl
  rw [hstep, ← List.foldl_map (f := fun entry : PlanePoint ℝ × ℕ =>
    (entry.1, points.getD ((entry.2 + 1) % points.length) ⟨0, 0⟩)) (g := edgeStep), map_next]
  have hfold := foldl_edgeStep (points.zip (points.rotate 1)) 0 0 []
  rw [List.nil_append, List.nil_append] at hfold
  have htwice : (2 : ℝ) * (1 / 2 * (List.zipWith (fun p q => p.x * q.y - q.x * p.y) points (points.rotate 1)).sum) =
      0 + (List.zipWith (fun p q => p.x * q.y - q.x * p.y) points (points.rotate 1)).sum := by ring
  rw [hfold, signedArea, htwice, edgeLengths, ← List.map_uncurry_zip_eq_zipWith, ← List.map_uncurry_zip_eq_zipWith]
  rfl

theorem pointAt_eq (htotal : 0 < (edgeLengths points).sum) (distance : ℝ) :
    pointAt points (cumulativeFrom 0 (edgeLengths points)) (edgeLengths points).sum distance =
      enginePointAt points (edgeLengths points) (cumulativeFrom 0 (edgeLengths points)) (edgeLengths points).sum
        distance := by
  obtain ⟨hwrapped, hnonneg, hlt⟩ := wrapped_eq htotal distance
  rw [pointAt, enginePointAt, hwrapped]
  set wrapped := pyModulo distance (edgeLengths points).sum
  set cumulative := cumulativeFrom 0 (edgeLengths points) with hcumulative
  have hlength := length_edgeLengths points
  have hget {i : ℕ} (hi : i ≤ points.length) : cumulative.getD i 0 = ((edgeLengths points).take i).sum := by
    rw [hcumulative, getD_cumulativeFrom _ _ (hi.trans hlength.ge), zero_add]
  have hpos : 0 < points.length := by
    rw [← hlength, List.length_pos_iff]
    intro hnil
    rw [hnil, List.sum_nil] at htotal
    exact lt_irrefl _ htotal
  obtain ⟨-, hbelow, hlow, hhigh⟩ := @bisect_between cumulative wrapped 0 points.length
    hpos (by rw [hget (Nat.zero_le _), List.take_zero, List.sum_nil]; exact hnonneg)
    (by rw [hget le_rfl, ← hlength, List.take_length]; exact hlt)
  set k := bisectCumulative cumulative wrapped 0 points.length
  have hcount : cumulative.countP (fun c => decide (c ≤ wrapped)) = k + 1 :=
    countP_between (sorted_cumulativeFrom fun l hl => edgeLengths_nonneg hl)
      (by rw [length_cumulativeFrom, hlength]; omega) hlow hhigh
  have hedge : cumulative.getD (k + 1) 0 - cumulative.getD k 0 = (edgeLengths points).getD k 0 := by
    have hk : k < (edgeLengths points).length := by rw [hlength]; exact hbelow
    rw [hget hbelow, hget hbelow.le, List.sum_take_succ _ _ hk, List.getD_eq_getElem _ _ hk, add_sub_cancel_left]
  rw [hcount, Nat.add_sub_cancel, if_neg (not_le.mpr hbelow), hedge]

theorem curvatureStep_eq (htotal : 0 < (edgeLengths points).sum) (window maximum : ℝ) (entry : PlanePoint ℝ × ℕ) :
    curvatureStep planeReals points ⟨2 * signedArea points, cumulativeFrom 0 (edgeLengths points)⟩
        (edgeLengths points).sum window maximum entry =
      engineStep planeReals points (edgeLengths points) (cumulativeFrom 0 (edgeLengths points)) (signedArea points)
        (edgeLengths points).sum window maximum entry := by
  have hsign : (0 < 2 * signedArea points) ↔ 0 < signedArea points := mul_pos_iff_of_pos_left two_pos
  simp only [curvatureStep, engineStep, pointAt_eq htotal, norm_eq_hypot, hsign]

theorem walkedCurvature_some (hcount : 5 ≤ points.length) (harea : 1 / 10 ^ 12 < |signedArea points|)
    (htotal : 0 < (edgeLengths points).sum) :
    walkedCurvature planeReals points = some (unitContourCurvature planeReals points) := by
  have hwindow : max (25 / 1000 : ℝ) (1 / 10 ^ 4) = 25 / 1000 := max_eq_left (by norm_num)
  have hstep := funext₂ (curvatureStep_eq htotal (min (25 / 1000) (2 / 10 * (edgeLengths points).sum)))
  have hgood : ¬(|signedArea points| ≤ 1 / 10 ^ 12 ∨ ¬0 < (edgeLengths points).sum) :=
    not_or.mpr ⟨not_le.mpr harea, not_not.mpr htotal⟩
  rw [walkedCurvature, if_neg (not_lt.mpr hcount), walk_eq]
  dsimp only
  rw [getLastD_cumulativeFrom, zero_add, mul_div_cancel_left₀ _ two_ne_zero, if_neg hgood, hstep,
    unitContourCurvature, if_neg (not_lt.mpr hcount)]
  dsimp only
  rw [if_neg (not_le.mpr harea), ← edgeLengths, if_neg (not_le.mpr htotal), hwindow]

theorem unitContourCurvature_of_walked {v : ℝ} (hvalue : walkedCurvature planeReals points = some v) :
    unitContourCurvature planeReals points = v := by
  have hcount : 5 ≤ points.length := by
    by_contra hshort
    rw [walkedCurvature, if_pos (not_le.mp hshort)] at hvalue
    exact absurd hvalue.symm (Option.some_ne_none v)
  have hgood : ¬(|signedArea points| ≤ 1 / 10 ^ 12 ∨ ¬0 < (edgeLengths points).sum) := by
    intro hbad
    rw [walkedCurvature, if_neg (not_lt.mpr hcount), walk_eq] at hvalue
    dsimp only at hvalue
    rw [getLastD_cumulativeFrom, zero_add, mul_div_cancel_left₀ _ two_ne_zero, if_pos hbad] at hvalue
    exact absurd hvalue.symm (Option.some_ne_none v)
  obtain ⟨harea, htotal⟩ := not_or.mp hgood
  rw [walkedCurvature_some hcount (not_le.mp harea) (not_not.mp htotal)] at hvalue
  exact Option.some.inj hvalue

theorem enginePointAt_edge {k : ℕ} {distance : ℝ} (hk : k < points.length)
    (hlow : ((edgeLengths points).take k).sum ≤ distance) (hhigh : distance < ((edgeLengths points).take (k + 1)).sum)
    (hlong : 1 / 10 ^ 12 < (edgeLengths points).getD k 0) :
    enginePointAt points (edgeLengths points) (cumulativeFrom 0 (edgeLengths points)) (edgeLengths points).sum distance =
      let t := (distance - ((edgeLengths points).take k).sum) / (edgeLengths points).getD k 0
      let point := points.getD k ⟨0, 0⟩
      let next := points.getD ((k + 1) % points.length) ⟨0, 0⟩
      ⟨(1 - t) * point.x + t * next.x, (1 - t) * point.y + t * next.y⟩ := by
  have hlength := length_edgeLengths points
  have hget {i : ℕ} (hi : i ≤ points.length) :
      (cumulativeFrom 0 (edgeLengths points)).getD i 0 = ((edgeLengths points).take i).sum := by
    rw [getD_cumulativeFrom _ _ (hi.trans hlength.ge), zero_add]
  have hnonneg (i : ℕ) : 0 ≤ ((edgeLengths points).take i).sum :=
    List.sum_nonneg fun l hl => edgeLengths_nonneg (List.mem_of_mem_take hl)
  have hrest : 0 ≤ ((edgeLengths points).drop (k + 1)).sum :=
    List.sum_nonneg fun l hl => edgeLengths_nonneg (List.mem_of_mem_drop hl)
  have hwhole : (edgeLengths points).sum =
      ((edgeLengths points).take (k + 1)).sum + ((edgeLengths points).drop (k + 1)).sum := by
    rw [← List.sum_append, List.take_append_drop]
  have htotal : 0 < (edgeLengths points).sum := by linarith [hnonneg k]
  have hwrapped : pyModulo distance (edgeLengths points).sum = distance := by
    have hfloor : ⌊distance / (edgeLengths points).sum⌋ = 0 := by
      rw [Int.floor_eq_zero_iff]
      exact ⟨div_nonneg (by linarith [hnonneg k]) htotal.le, (div_lt_one htotal).mpr (by linarith)⟩
    rw [pyModulo, hfloor, Int.cast_zero, mul_zero, sub_zero]
  have hcount : (cumulativeFrom 0 (edgeLengths points)).countP (fun c => decide (c ≤ distance)) = k + 1 :=
    countP_between (sorted_cumulativeFrom fun l hl => edgeLengths_nonneg hl)
      (by rw [length_cumulativeFrom, hlength]; omega) (by rw [hget hk.le]; exact hlow) (by rw [hget hk]; exact hhigh)
  rw [enginePointAt, hwrapped, hcount, Nat.add_sub_cancel, if_neg (not_le.mpr hk), hget hk.le,
    if_neg (not_le.mpr hlong)]

theorem le_foldl_engineStep (seg cum : List ℝ) (area total window : ℝ) (entries : List (PlanePoint ℝ × ℕ))
    (maximum : ℝ) :
    maximum ≤ entries.foldl (engineStep planeReals points seg cum area total window) maximum := by
  induction entries generalizing maximum with
  | nil => exact le_rfl
  | cons entry entries ih =>
    refine le_trans ?_ (ih _)
    unfold engineStep
    extract_lets point s prev nxt v1 v2
    split
    · exact le_rfl
    · split
      · exact le_max_left _ _
      · exact le_rfl

end Edges

/-! ## Distinct points -/

theorem cleanedStep_eq (extent : ℝ) (points : List (PlanePoint ℝ)) (point : PlanePoint ℝ) :
    keepDistinct planeReals extent points point = cleanedStep planeReals points ⟨point.x / extent, point.y / extent⟩ := by
  simp only [keepDistinct, cleanedStep, norm_eq_hypot]

theorem unitChordContour_eq {first : PlanePoint ℝ} {rest : List (PlanePoint ℝ)} (hcount : 5 ≤ (first :: rest).length)
    (hextent : 0 < maxX first rest - minX first rest) :
    unitChordContour planeReals (first :: rest) =
      if 5 ≤ (distinctPoints planeReals (maxX first rest - minX first rest) (first :: rest)).length then
        distinctPoints planeReals (maxX first rest - minX first rest) (first :: rest)
      else [] := by
  have hfold (extent : ℝ) : ((first :: rest).map fun p => (⟨p.x / extent, p.y / extent⟩ : PlanePoint ℝ)).foldl
      (cleanedStep planeReals) [] = (first :: rest).foldl (keepDistinct planeReals extent) [] := by
    rw [List.foldl_map]
    congr 1
    funext points point
    rw [cleanedStep_eq]
  simp only [unitChordContour, distinctPoints, if_neg (not_lt.mpr hcount), if_neg (not_le.mpr hextent), hfold,
    norm_eq_hypot]
  rfl

theorem maxConcaveCurvature_of_walked {first : PlanePoint ℝ} {rest : List (PlanePoint ℝ)} {v : ℝ}
    (hcount : 5 ≤ (first :: rest).length) (hextent : 0 < maxX first rest - minX first rest)
    (hvalue : walkedCurvature planeReals
      (distinctPoints planeReals (maxX first rest - minX first rest) (first :: rest)) = some v) :
    maxConcaveCurvature planeReals (first :: rest) = v := by
  have hlength : 5 ≤ (distinctPoints planeReals (maxX first rest - minX first rest) (first :: rest)).length := by
    by_contra hshort
    rw [walkedCurvature, if_pos (not_le.mp hshort)] at hvalue
    exact absurd hvalue.symm (Option.some_ne_none v)
  rw [maxConcaveCurvature, unitChordContour_eq hcount hextent, if_pos hlength]
  exact unitContourCurvature_of_walked hvalue

end XFoilFoam.Geometry
