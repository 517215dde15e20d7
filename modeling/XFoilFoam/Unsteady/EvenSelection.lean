import XFoilFoam.Foundations.Double
import XFoilFoam.Foundations.KeyOrder
import Mathlib.Tactic.FieldSimp

/-! Even selections from a long list: `_evenly_capped_times` of `postprocess/unsteady.py` and `_downsample_indices` of
`postprocess/forces.py`, with an exact step. -/
namespace XFoilFoam.Unsteady
set_option autoImplicit false

/-! ## Positions -/

/-- The place `pos` of `m` even ones from `0` to `n - 1`: `np.linspace(0, n - 1, m)[pos]`, or `pos * step`. -/
def evenPosition (n m pos : ℕ) : ℚ := pos * (((n - 1 : ℕ) : ℚ) / ((m - 1 : ℕ) : ℚ))

def roundedPosition (n m pos : ℕ) : ℕ := (roundHalfEven (evenPosition n m pos)).toNat

theorem evenPosition_nonneg (n m pos : ℕ) : 0 ≤ evenPosition n m pos := by
  unfold evenPosition
  positivity

theorem roundedPosition_cast (n m pos : ℕ) : (roundedPosition n m pos : ℤ) = roundHalfEven (evenPosition n m pos) :=
  Int.toNat_of_nonneg (le_roundHalfEven (by exact_mod_cast evenPosition_nonneg n m pos))

theorem roundedPosition_zero (n m : ℕ) : roundedPosition n m 0 = 0 := by
  have hzero : evenPosition n m 0 = ((0 : ℤ) : ℚ) := by simp [evenPosition]
  have hcast := roundedPosition_cast n m 0
  rw [hzero, roundHalfEven_intCast] at hcast
  exact_mod_cast hcast

theorem roundedPosition_last {n m : ℕ} (hm : 2 ≤ m) : roundedPosition n m (m - 1) = n - 1 := by
  have hne : ((m - 1 : ℕ) : ℚ) ≠ 0 := by exact_mod_cast (by omega : m - 1 ≠ 0)
  have hlast : evenPosition n m (m - 1) = (((n - 1 : ℕ) : ℤ) : ℚ) := by
    rw [evenPosition, Int.cast_natCast]
    field_simp
  have hcast := roundedPosition_cast n m (m - 1)
  rw [hlast, roundHalfEven_intCast] at hcast
  exact_mod_cast hcast

theorem roundHalfEven_lt {x y : ℚ} (h : x + 1 < y) : roundHalfEven x < roundHalfEven y := by
  have hx := (abs_le.mp (abs_sub_roundHalfEven x)).1
  have hy := (abs_le.mp (abs_sub_roundHalfEven y)).2
  have hcast : (roundHalfEven x : ℚ) < roundHalfEven y := by linarith
  exact_mod_cast hcast

theorem roundedPosition_lt {n m i j : ℕ} (hm : 2 ≤ m) (hn : m < n) (hij : i < j) :
    roundedPosition n m i < roundedPosition n m j := by
  have hpos : (0 : ℚ) < ((m - 1 : ℕ) : ℚ) := by exact_mod_cast (by omega : 0 < m - 1)
  have hstep : (1 : ℚ) < ((n - 1 : ℕ) : ℚ) / ((m - 1 : ℕ) : ℚ) := by
    rw [lt_div_iff₀ hpos, one_mul]
    exact_mod_cast (by omega : m - 1 < n - 1)
  have hgap : (i : ℚ) + 1 ≤ j := by exact_mod_cast hij
  have hlt : evenPosition n m i + 1 < evenPosition n m j := by
    unfold evenPosition
    nlinarith
  have hround := roundHalfEven_lt hlt
  rw [← roundedPosition_cast, ← roundedPosition_cast] at hround
  exact_mod_cast hround

/-! ## `_downsample_indices` -/

/-- `sorted({round(i * step) for i in range(max_points)})` beyond the cap. -/
def downsampleIndices (n maxPoints : ℕ) : List ℕ :=
  if n ≤ maxPoints then List.range n
  else KeyOrder.sortBy id ((List.range maxPoints).map (roundedPosition n maxPoints)).dedup

theorem downsampleIndices_of_lt {n maxPoints : ℕ} (hmax : 2 ≤ maxPoints) (hn : maxPoints < n) :
    downsampleIndices n maxPoints = (List.range maxPoints).map (roundedPosition n maxPoints) := by
  have hincreasing : ((List.range maxPoints).map (roundedPosition n maxPoints)).Pairwise (· < ·) :=
    List.pairwise_map.mpr (List.pairwise_lt_range.imp fun hij => roundedPosition_lt hmax hn hij)
  have hnodup : ((List.range maxPoints).map (roundedPosition n maxPoints)).Nodup := hincreasing.imp fun h => h.ne
  rw [downsampleIndices, if_neg (by omega), hnodup.dedup]
  exact (KeyOrder.sortBy_perm id _).eq_of_pairwise (fun _ _ _ _ h h' => le_antisymm h h')
    (KeyOrder.sortBy_sorted id _) (hincreasing.imp le_of_lt)

theorem downsampleIndices_spec {n maxPoints : ℕ} (hmax : 2 ≤ maxPoints) :
    (downsampleIndices n maxPoints).Pairwise (· < ·) ∧ (∀ i ∈ downsampleIndices n maxPoints, i < n) ∧
      (downsampleIndices n maxPoints).length = min n maxPoints ∧
      (0 < n → 0 ∈ downsampleIndices n maxPoints ∧ n - 1 ∈ downsampleIndices n maxPoints) := by
  by_cases hn : n ≤ maxPoints
  · rw [downsampleIndices, if_pos hn]
    refine ⟨List.pairwise_lt_range, fun i hi => List.mem_range.mp hi, ?_, fun hpos => ?_⟩
    · rw [List.length_range, min_eq_left hn]
    · exact ⟨List.mem_range.mpr hpos, List.mem_range.mpr (by omega)⟩
  · rw [downsampleIndices_of_lt hmax (by omega)]
    have hlast := roundedPosition_last (n := n) hmax
    refine ⟨List.pairwise_map.mpr (List.pairwise_lt_range.imp fun hij => roundedPosition_lt hmax (by omega) hij),
      fun i hi => ?_, by rw [List.length_map, List.length_range]; omega, fun _ => ⟨?_, ?_⟩⟩
    · obtain ⟨pos, hpos, rfl⟩ := List.mem_map.mp hi
      have hpos' := List.mem_range.mp hpos
      obtain rfl | hbefore : pos = maxPoints - 1 ∨ pos < maxPoints - 1 := by omega
      · omega
      · have hlt := roundedPosition_lt hmax (by omega : maxPoints < n) hbefore
        omega
    · exact List.mem_map.mpr ⟨0, List.mem_range.mpr (by omega), roundedPosition_zero n maxPoints⟩
    · exact List.mem_map.mpr ⟨maxPoints - 1, List.mem_range.mpr (by omega), hlast⟩

/-! ## `_evenly_capped_times` -/

def selectNext (n m : ℕ) (selected : List ℕ) (pos : ℕ) : List ℕ :=
  let lower := (selected.getLast?.map (· + 1)).getD 0
  let upper := n - (m - pos)
  selected ++ [min (max (roundedPosition n m pos) lower) upper]

def selectedIndices (n m : ℕ) : List ℕ := (List.range m).foldl (selectNext n m) []

def evenlyCappedTimes {α : Type} (times : List α) (maxFrames : ℕ) : List α :=
  if times.length ≤ maxFrames then times
  else (selectedIndices times.length (max 2 maxFrames)).filterMap fun i => times[i]?

def selectedAt (n m : ℕ) : ℕ → ℕ
  | 0 => min (roundedPosition n m 0) (n - m)
  | pos + 1 => min (max (roundedPosition n m (pos + 1)) (selectedAt n m pos + 1)) (n - (m - (pos + 1)))

theorem selectedIndices_eq (n m : ℕ) : selectedIndices n m = (List.range m).map (selectedAt n m) := by
  have hloop : ∀ count, (List.range count).foldl (selectNext n m) [] = (List.range count).map (selectedAt n m) := by
    intro count
    induction count with
    | zero => rfl
    | succ count ih =>
      rw [List.range_succ, List.foldl_append, ih, List.foldl_cons, List.foldl_nil, selectNext, List.map_append,
        List.map_singleton]
      cases count with
      | zero => simp [selectedAt]
      | succ count => simp [List.range_succ, selectedAt]
  exact hloop m

theorem selectedAt_le (n m pos : ℕ) : selectedAt n m pos ≤ n - (m - pos) := by
  cases pos with
  | zero => exact min_le_right _ _
  | succ pos => exact min_le_right _ _

theorem selectedAt_lt_succ {n m pos : ℕ} (hm : m ≤ n) (hpos : pos + 1 < m) :
    selectedAt n m pos < selectedAt n m (pos + 1) := by
  have hroom := selectedAt_le n m pos
  rw [selectedAt, lt_min_iff]
  exact ⟨lt_max_of_lt_right (Nat.lt_succ_self _), by omega⟩

theorem selectedAt_lt {n m i j : ℕ} (hm : m ≤ n) (hij : i < j) (hj : j < m) : selectedAt n m i < selectedAt n m j := by
  induction j with
  | zero => omega
  | succ j ih =>
    have hstep := selectedAt_lt_succ hm hj
    obtain rfl | hlt : i = j ∨ i < j := by omega
    · exact hstep
    · exact (ih hlt (by omega)).trans hstep

theorem selectedAt_zero (n m : ℕ) : selectedAt n m 0 = 0 := by
  rw [selectedAt, roundedPosition_zero, Nat.zero_min]

theorem selectedAt_last {n m : ℕ} (hm : 2 ≤ m) (hn : m ≤ n) : selectedAt n m (m - 1) = n - 1 := by
  obtain ⟨pos, rfl⟩ : ∃ pos, m = pos + 2 := ⟨m - 2, by omega⟩
  have hlast : roundedPosition n (pos + 2) (pos + 1) = n - 1 := roundedPosition_last hm
  have hroom := selectedAt_le n (pos + 2) pos
  show min (max (roundedPosition n (pos + 2) (pos + 1)) (selectedAt n (pos + 2) pos + 1)) _ = n - 1
  rw [hlast]
  omega

theorem filterMap_getElem?_sublist {α : Type} {times : List α} {count : ℕ} {index : ℕ → ℕ}
    (hlt : ∀ i < count, index i < times.length) (hmono : ∀ i j, i < j → j < count → index i < index j) :
    (((List.range count).map index).filterMap fun i => times[i]?).Sublist times ∧
      (((List.range count).map index).filterMap fun i => times[i]?).length = count := by
  let places : List (Fin times.length) := List.ofFn fun i : Fin count => ⟨index i, hlt i i.isLt⟩
  have hplaces : ((List.range count).map index).filterMap (fun i => times[i]?) = places.map fun i => times[i] := by
    rw [List.filterMap_map, ← List.map_coe_finRange_eq_range, List.filterMap_map]
    simp only [places, List.ofFn_eq_map, List.map_map]
    rw [← List.filterMap_eq_map]
    refine List.filterMap_congr fun i _ => ?_
    simp [hlt i i.isLt]
  have hincreasing : places.Pairwise (· < ·) :=
    List.pairwise_ofFn.mpr fun i j hij => hmono i j hij j.isLt
  rw [hplaces]
  exact ⟨List.map_getElem_sublist hincreasing, by rw [List.length_map, List.length_ofFn]⟩

theorem evenlyCappedTimes_of_lt {α : Type} {times : List α} {maxFrames : ℕ} (hmax : 2 ≤ maxFrames)
    (hn : maxFrames < times.length) :
    evenlyCappedTimes times maxFrames =
      ((List.range maxFrames).map (selectedAt times.length maxFrames)).filterMap fun i => times[i]? := by
  rw [evenlyCappedTimes, if_neg (by omega), max_eq_right hmax, selectedIndices_eq]

theorem evenlyCappedTimes_spec {α : Type} (times : List α) {maxFrames : ℕ} (hmax : 2 ≤ maxFrames) :
    (evenlyCappedTimes times maxFrames).Sublist times ∧
      (evenlyCappedTimes times maxFrames).head? = times.head? ∧
      (evenlyCappedTimes times maxFrames).getLast? = times.getLast? ∧
      (evenlyCappedTimes times maxFrames).length = min times.length maxFrames := by
  by_cases hn : times.length ≤ maxFrames
  · rw [evenlyCappedTimes, if_pos hn]
    exact ⟨List.Sublist.refl times, rfl, rfl, (min_eq_left hn).symm⟩
  · rw [evenlyCappedTimes_of_lt hmax (by omega)]
    have hlast := selectedAt_last hmax (by omega : maxFrames ≤ times.length)
    have hmono : ∀ i j, i < j → j < maxFrames →
        selectedAt times.length maxFrames i < selectedAt times.length maxFrames j := fun i j hij hj =>
      selectedAt_lt (by omega) hij hj
    have hlt : ∀ i < maxFrames, selectedAt times.length maxFrames i < times.length := by
      intro i hi
      obtain rfl | hbefore : i = maxFrames - 1 ∨ i < maxFrames - 1 := by omega
      · omega
      · have hlast' := hmono i (maxFrames - 1) hbefore (by omega)
        omega
    obtain ⟨hsublist, hlength⟩ := filterMap_getElem?_sublist hlt hmono
    refine ⟨hsublist, ?_, ?_, by omega⟩
    · obtain ⟨count, rfl⟩ : ∃ count, maxFrames = count + 1 := ⟨maxFrames - 1, by omega⟩
      have hfirst : times[0]? = some times[0] := List.getElem?_eq_getElem (by omega)
      rw [List.range_succ_eq_map, List.map_cons, selectedAt_zero, List.filterMap_cons, hfirst, List.head?_cons,
        ← hfirst, List.head?_eq_getElem?]
    · obtain ⟨count, rfl⟩ : ∃ count, maxFrames = count + 1 := ⟨maxFrames - 1, by omega⟩
      have hend : times[times.length - 1]? = some times[times.length - 1] := List.getElem?_eq_getElem (by omega)
      rw [Nat.add_sub_cancel] at hlast
      rw [List.range_succ, List.map_append, List.map_singleton, hlast, List.filterMap_append, List.filterMap_cons, hend,
        List.filterMap_nil, List.getLast?_concat, ← hend, List.getLast?_eq_getElem?]

theorem even_selections {α : Type} [LinearOrder α] {times : List α} {maxFrames maxPoints : ℕ}
    (htimes : times.Pairwise (· < ·)) (hframes : 2 ≤ maxFrames) (hpoints : 2 ≤ maxPoints) (n : ℕ) :
    ((evenlyCappedTimes times maxFrames).Pairwise (· < ·) ∧ (evenlyCappedTimes times maxFrames).Sublist times ∧
        (evenlyCappedTimes times maxFrames).head? = times.head? ∧
        (evenlyCappedTimes times maxFrames).getLast? = times.getLast? ∧
        (evenlyCappedTimes times maxFrames).length = min times.length maxFrames) ∧
      (downsampleIndices n maxPoints).Pairwise (· < ·) ∧ (∀ i ∈ downsampleIndices n maxPoints, i < n) ∧
      (downsampleIndices n maxPoints).length = min n maxPoints ∧
      (0 < n → 0 ∈ downsampleIndices n maxPoints ∧ n - 1 ∈ downsampleIndices n maxPoints) := by
  obtain ⟨hsublist, hhead, hlast, hlength⟩ := evenlyCappedTimes_spec times hframes
  exact ⟨⟨htimes.sublist hsublist, hsublist, hhead, hlast, hlength⟩, downsampleIndices_spec hpoints⟩

theorem even_selections_five_of_seven :
    ((evenlyCappedTimes [(0 : ℕ), 1, 2, 4, 5, 7, 9] 5).Pairwise (· < ·) ∧
        (evenlyCappedTimes [0, 1, 2, 4, 5, 7, 9] 5).Sublist [0, 1, 2, 4, 5, 7, 9] ∧
        (evenlyCappedTimes [0, 1, 2, 4, 5, 7, 9] 5).head? = some 0 ∧
        (evenlyCappedTimes [0, 1, 2, 4, 5, 7, 9] 5).getLast? = some 9 ∧
        (evenlyCappedTimes [0, 1, 2, 4, 5, 7, 9] 5).length = 5) ∧
      (downsampleIndices 7 5).Pairwise (· < ·) ∧ (∀ i ∈ downsampleIndices 7 5, i < 7) ∧
      (downsampleIndices 7 5).length = 5 ∧
      (0 < 7 → 0 ∈ downsampleIndices 7 5 ∧ 7 - 1 ∈ downsampleIndices 7 5) :=
  even_selections (by decide) (by decide) (by decide) 7

/-- Without samples there is no first index. -/
theorem no_first_index_of_nothing : 0 ∉ downsampleIndices 0 2 := by decide

end XFoilFoam.Unsteady
