import XFoilFoam.Foundations.Shortest
import XFoilFoam.Unsteady.Series

/-! `_tail_candidate_series` of `postprocess/unsteady.py`: the trailing suffixes that are tried for a clean tail. -/
namespace XFoilFoam.Unsteady
open Binary64
set_option autoImplicit false

/-! ## Counts -/

/-- `int(math.ceil(factor * count))`; the product of an array size is finite. -/
def scaledCeil (factor : ℚ) (count : ℕ) : ℕ :=
  match (mul (lit factor : Double) (lit (count : ℚ))).val with
  | .fin q => ⌈q⌉.toNat
  | _ => 0

/-- The count after `count`. -/
def nextCount (count : ℕ) : ℕ := max (count + 1) (scaledCeil (11 / 10) count)

theorem lt_nextCount (count : ℕ) : count < nextCount count := by
  unfold nextCount
  omega

section Rounding
variable {p q : ℚ}

theorem roundRat_le_two_zpow_of_nonneg (hq : 0 ≤ q) {k : ℤ} (h : q ≤ 2 ^ k) (hk : -1074 ≤ k) : roundRat q ≤ 2 ^ k := by
  obtain heq | hpos := hq.eq_or_lt
  · rw [← heq, roundRat_zero]
    exact (two_zpow_pos k).le
  · exact roundRat_le_two_zpow hpos h hk

theorem round64_small (hq : 0 ≤ q) (h : q ≤ 2 ^ (64 : ℤ)) : round64 (.fin q) = .fin (roundRat q) := by
  have hlimit : (2 : ℚ) ^ (64 : ℤ) < 2 ^ overflowExponent := by
    exact_mod_cast (Double.two_pow_lt (by decide) : (2 : ℤ) ^ 64 < 2 ^ overflowExponent)
  apply Double.round64_of_lt
  rw [abs_of_nonneg (roundRat_nonneg hq)]
  exact (roundRat_le_two_zpow_of_nonneg hq h (by omega)).trans_lt hlimit

theorem lit_val_small (hq : 0 ≤ q) (h : q ≤ 2 ^ (64 : ℤ)) : (lit q : Double).val = .fin (roundRat q) :=
  round64_small hq h

theorem mul_val_small {x y : Double} (hx : x.val = .fin p) (hy : y.val = .fin q) (hpq : 0 ≤ p * q)
    (h : p * q ≤ 2 ^ (64 : ℤ)) : (mul x y).val = .fin (roundRat (p * q)) := by
  show round64 (x.val.mul y.val) = _
  rw [hx, hy]
  exact round64_small hpq h

end Rounding

theorem scaledCeil_eq {factor : ℚ} (hnonneg : 0 ≤ factor) (hfactor : factor ≤ 2 ^ (1 : ℤ)) {count : ℕ}
    (hcount : (count : ℚ) ≤ 2 ^ (63 : ℤ)) :
    scaledCeil factor count = ⌈roundRat (roundRat factor * roundRat count)⌉.toNat := by
  have hpowers : (2 : ℚ) ^ (1 : ℤ) * 2 ^ (63 : ℤ) = 2 ^ (64 : ℤ) := by
    rw [← zpow_add₀ two_ne_zero]
    norm_num
  have hone : (2 : ℚ) ^ (1 : ℤ) ≤ 2 ^ (64 : ℤ) := zpow_le_zpow_right₀ one_le_two (by omega)
  have hsize : (2 : ℚ) ^ (63 : ℤ) ≤ 2 ^ (64 : ℤ) := zpow_le_zpow_right₀ one_le_two (by omega)
  have hcount₀ : (0 : ℚ) ≤ count := Nat.cast_nonneg count
  have hproduct : roundRat factor * roundRat count ≤ 2 ^ (64 : ℤ) := by
    rw [← hpowers]
    exact mul_le_mul (roundRat_le_two_zpow_of_nonneg hnonneg hfactor (by omega))
      (roundRat_le_two_zpow_of_nonneg hcount₀ hcount (by omega)) (roundRat_nonneg hcount₀) (two_zpow_pos 1).le
  have hval := mul_val_small (lit_val_small hnonneg (hfactor.trans hone)) (lit_val_small hcount₀ (hcount.trans hsize))
    (mul_nonneg (roundRat_nonneg hnonneg) (roundRat_nonneg hcount₀)) hproduct
  unfold scaledCeil
  rw [hval]

theorem growth_le_two : (11 / 10 : ℚ) ≤ 2 ^ (1 : ℤ) := by norm_num

theorem scaledCeil_mono {c d : ℕ} (hcd : c ≤ d) (hd : (d : ℚ) ≤ 2 ^ (63 : ℤ)) :
    scaledCeil (11 / 10) c ≤ scaledCeil (11 / 10) d := by
  have hcast : (c : ℚ) ≤ d := by exact_mod_cast hcd
  have hnonneg : (0 : ℚ) ≤ 11 / 10 := by norm_num
  rw [scaledCeil_eq hnonneg growth_le_two (hcast.trans hd), scaledCeil_eq hnonneg growth_le_two hd]
  apply Int.toNat_le_toNat
  apply Int.ceil_mono
  apply roundRat_mono
  exact mul_le_mul_of_nonneg_left (roundRat_mono hcast) (roundRat_nonneg hnonneg)

theorem roundRat_growth : roundRat (11 / 10) ≤ 11 / 10 + 1 / 2 ^ 53 := by
  have hbit : lastBit (11 / 10) ≤ -52 := lastBit_le (by norm_num) (by norm_num [abs_of_pos]) (by norm_num)
  have hpower : (2 : ℚ) ^ lastBit (11 / 10) ≤ 1 / 2 ^ 52 := by
    refine (zpow_le_zpow_right₀ one_le_two hbit).trans (le_of_eq ?_)
    norm_num
  have herror := (abs_le.mp (Decimal.abs_roundRat_sub (11 / 10))).2
  have hhalf : (1 : ℚ) / 2 ^ 53 = 1 / 2 ^ 52 / 2 := by norm_num
  linarith

theorem roundRat_le_add_half {q : ℚ} (hq : 0 ≤ q) (h : q < 2 ^ 53) : roundRat q ≤ q + 1 / 2 := by
  obtain heq | hpos := hq.eq_or_lt
  · rw [← heq, roundRat_zero]
    norm_num
  · have hbit : lastBit q ≤ 0 := by
      refine lastBit_le hpos.ne' ?_ (by omega)
      rw [abs_of_pos hpos, zero_add]
      exact_mod_cast h
    have hpower : (2 : ℚ) ^ lastBit q ≤ 1 := zpow_le_one_of_nonpos₀ one_le_two hbit
    have herror := (abs_le.mp (Decimal.abs_roundRat_sub q)).2
    linarith

theorem scaledCeil_le_exact {c d : ℕ} (hcd : c < d) (hc : c < 2 ^ 52) :
    scaledCeil (11 / 10) c ≤ ⌈(11 / 10 : ℚ) * d⌉.toNat := by
  have hcount : roundRat (c : ℚ) = c := by
    have hcast := roundRat_intCast (n := (c : ℤ)) (by rw [Nat.abs_cast]; omega)
    exact_mod_cast hcast
  have hbelow : (c : ℚ) ≤ 2 ^ 52 := by exact_mod_cast hc.le
  have hgap : (c : ℚ) + 1 ≤ d := by exact_mod_cast hcd
  have hnonneg : (0 : ℚ) ≤ c := Nat.cast_nonneg c
  have hgrowth₀ : (0 : ℚ) ≤ roundRat (11 / 10) := roundRat_nonneg (by norm_num)
  have hproduct : roundRat (11 / 10) * c ≤ 11 / 10 * c + 1 / 2 := by
    have herror := mul_le_mul_of_nonneg_right roundRat_growth hnonneg
    have hhalf : 1 / 2 ^ 53 * (c : ℚ) ≤ 1 / 2 ^ 53 * 2 ^ 52 := mul_le_mul_of_nonneg_left hbelow (by positivity)
    have hvalue : (1 : ℚ) / 2 ^ 53 * 2 ^ 52 = 1 / 2 := by norm_num
    linarith
  have hsmall : roundRat (11 / 10) * c < 2 ^ 53 := by
    have hpower : (2 : ℚ) ^ 53 = 2 * 2 ^ 52 := by norm_num
    linarith
  have hround := roundRat_le_add_half (mul_nonneg hgrowth₀ hnonneg) hsmall
  rw [scaledCeil_eq (by norm_num) growth_le_two (hbelow.trans (by norm_num)), hcount]
  apply Int.toNat_le_toNat
  apply Int.ceil_mono
  linarith

/-! ## Starts -/

/-- The four arrays; NumPy counts their rows in a signed 64-bit integer. -/
structure SeriesArrays where
  rows : List SeriesRow
  indexed : rows.length < 2 ^ 63

/-- `append` of an index to `starts`, kept in the order of `out`. -/
def appendStart (size minSamples : ℕ) (starts : List ℕ) (index : ℕ) : List ℕ :=
  let clamped := min index (size - minSamples)
  if clamped ∈ starts ∨ size - clamped < minSamples then starts else starts ++ [clamped]

def firstFractionCount (minSamples size : ℕ) : ℕ := max minSamples (scaledCeil (25 / 1000) size)

def denseStarts (size minSamples limit : ℕ) (starts : List ℕ) (count : ℕ) : List ℕ :=
  if count < limit then
    denseStarts size minSamples limit (appendStart size minSamples starts (size - count)) (nextCount count)
  else starts
termination_by limit - count
decreasing_by
  have hlt := lt_nextCount count
  omega

def cleanTailFractions : List ℚ :=
  [25 / 1000, 5 / 100, 75 / 1000, 10 / 100, 15 / 100, 20 / 100, 30 / 100, 40 / 100, 50 / 100, 65 / 100, 80 / 100, 1]

/-- `np.searchsorted(t, start_time, side="left")` in ascending times; NaN stands after every number. -/
def searchsortedLeft (rows : List SeriesRow) (start : Double) : ℕ :=
  rows.countP fun r => lt r.t start || !eq start start

def fractionStarts (rows : List SeriesRow) (first last : Double) : List ℕ :=
  cleanTailFractions.map fun fraction => searchsortedLeft rows (sub last (mul (lit fraction) (sub last first)))

/-- The dense tail counts; the loop runs from `min_samples` up to the first fraction. -/
def denseTailStarts (size minSamples : ℕ) : List ℕ :=
  let limit := min (firstFractionCount minSamples size) size
  appendStart size minSamples (denseStarts size minSamples limit [] minSamples) (size - limit)

def tailStarts (rows : List SeriesRow) (first last : Double) (minSamples : ℕ) (includeDenseTailCounts : Bool) : List ℕ :=
  let dense := if includeDenseTailCounts then denseTailStarts rows.length minSamples else []
  let starts := (fractionStarts rows first last).foldl (appendStart rows.length minSamples) dense
  if 0 ∈ starts then starts else appendStart rows.length minSamples starts 0

/-- `_tail_candidate_series`; an empty series is too short. -/
def tailCandidateSeries (rows : List SeriesRow) (minSamples : ℕ) (includeDenseTailCounts : Bool) :
    List (List SeriesRow) :=
  match rows.head?, rows.getLast? with
  | some first, some last =>
    if rows.length < minSamples ∨ le last.t first.t = true then []
    else (tailStarts rows first.t last.t minSamples includeDenseTailCounts).map (rows.drop ·)
  | _, _ => []

section Starts
variable {size minSamples limit count index s : ℕ} {starts : List ℕ}

def Kept (size minSamples : ℕ) (starts : List ℕ) : Prop := starts.Nodup ∧ ∀ s ∈ starts, s ≤ size - minSamples

theorem Kept.append (h : Kept size minSamples starts) (index : ℕ) :
    Kept size minSamples (appendStart size minSamples starts index) := by
  unfold appendStart
  dsimp only
  split_ifs with hskip
  · exact h
  · rw [not_or] at hskip
    constructor
    · exact List.nodup_append.mpr ⟨h.1, List.nodup_singleton _, by
        intro a ha b hb
        rw [List.mem_singleton] at hb
        rw [hb]
        exact fun heq => hskip.1 (heq ▸ ha)⟩
    · intro s hs
      rcases List.mem_append.mp hs with hs | hs
      · exact h.2 s hs
      · rw [List.mem_singleton.mp hs]
        omega

theorem mem_appendStart (h : s ∈ starts) (index : ℕ) : s ∈ appendStart size minSamples starts index := by
  unfold appendStart
  dsimp only
  split_ifs with hskip
  · exact h
  · exact List.mem_append_left _ h

theorem appendStart_takes (hsize : minSamples ≤ size) (hindex : index ≤ size - minSamples) :
    index ∈ appendStart size minSamples starts index := by
  unfold appendStart
  dsimp only
  rw [min_eq_left hindex]
  split_ifs with hskip
  · exact hskip.resolve_right (by omega)
  · simp

theorem Kept.dense (h : Kept size minSamples starts) : Kept size minSamples (denseStarts size minSamples limit starts count) := by
  fun_induction denseStarts size minSamples limit starts count with
  | case1 starts count hcount ih => exact ih (h.append _)
  | case2 starts count hcount => exact h

theorem mem_denseStarts (h : s ∈ starts) : s ∈ denseStarts size minSamples limit starts count := by
  fun_induction denseStarts size minSamples limit starts count with
  | case1 starts count hcount ih => exact ih (mem_appendStart h _)
  | case2 starts count hcount => exact h

theorem Kept.fold (h : Kept size minSamples starts) (indices : List ℕ) :
    Kept size minSamples (indices.foldl (appendStart size minSamples) starts) := by
  induction indices generalizing starts with
  | nil => exact h
  | cons index indices ih => exact ih (h.append index)

theorem mem_fold (size minSamples : ℕ) (h : s ∈ starts) (indices : List ℕ) : s ∈ indices.foldl (appendStart size minSamples) starts := by
  induction indices generalizing starts with
  | nil => exact h
  | cons index indices ih => exact ih (mem_appendStart h index)

/-- A count that the loop may reach on its way past `length`: not above it, or one step from a count below it. -/
def Reached (length count : ℕ) : Prop := count ≤ length ∨ ∃ c < length, count ≤ nextCount c

theorem denseStarts_covers (starts : List ℕ) {length : ℕ} (hsize : minSamples ≤ size) (hmin : minSamples ≤ count) (hlimit : length ≤ limit)
    (hreached : Reached length count) :
    ∃ c, length ≤ c ∧ c ≤ limit ∧ Reached length c ∧
      (c = limit ∨ size - c ∈ denseStarts size minSamples limit starts count) := by
  fun_induction denseStarts size minSamples limit starts count with
  | case1 starts count hcount ih =>
    by_cases hbelow : length ≤ count
    · exact ⟨count, hbelow, hcount.le, hreached, .inr (mem_denseStarts (appendStart_takes hsize (by omega)))⟩
    · have hlt := lt_nextCount count
      exact ih (by omega) (.inr ⟨count, by omega, le_rfl⟩)
  | case2 starts count hcount =>
    refine ⟨limit, hlimit, le_rfl, ?_, .inl rfl⟩
    obtain hle | ⟨c, hc, hle⟩ := hreached
    · exact .inl (by omega)
    · exact .inr ⟨c, hc, by omega⟩

theorem Reached.bounds {length : ℕ} (h : Reached length count) (hlength : (length : ℚ) ≤ 2 ^ (63 : ℤ)) :
    count ≤ max (length + 1) (scaledCeil (11 / 10) length) ∧
      (length ≤ 2 ^ 52 → count ≤ max (length + 1) ⌈(11 / 10 : ℚ) * length⌉.toNat) := by
  obtain hle | ⟨c, hc, hle⟩ := h
  · exact ⟨by omega, fun _ => by omega⟩
  · have hmono := scaledCeil_mono hc.le hlength
    unfold nextCount at hle
    refine ⟨by omega, fun hsmall => ?_⟩
    have hexact := scaledCeil_le_exact hc (by omega)
    omega

end Starts

section Series
variable {rows : List SeriesRow} {first last : Double} {minSamples s : ℕ} {dense : Bool}

theorem denseTailStarts_kept {size : ℕ} : Kept size minSamples (denseTailStarts size minSamples) := by
  have hnone : Kept size minSamples [] := ⟨List.nodup_nil, by simp⟩
  exact hnone.dense.append _

theorem tailStarts_kept (rows : List SeriesRow) (first last : Double) (minSamples : ℕ) (dense : Bool) :
    Kept rows.length minSamples (tailStarts rows first last minSamples dense) := by
  have hnone : Kept rows.length minSamples [] := ⟨List.nodup_nil, by simp⟩
  unfold tailStarts
  dsimp only
  split_ifs
  · exact denseTailStarts_kept.fold _
  · exact (denseTailStarts_kept.fold _).append 0
  · exact hnone.fold _
  · exact (hnone.fold _).append 0

theorem zero_mem_tailStarts (h : minSamples ≤ rows.length) : 0 ∈ tailStarts rows first last minSamples dense := by
  unfold tailStarts
  dsimp only
  split_ifs with hdense hzero hzero
  · exact hzero
  · exact appendStart_takes h (Nat.zero_le _)
  · exact hzero
  · exact appendStart_takes h (Nat.zero_le _)

theorem mem_tailStarts (h : s ∈ denseTailStarts rows.length minSamples) : s ∈ tailStarts rows first last minSamples true := by
  have hfold := mem_fold rows.length minSamples h (fractionStarts rows first last)
  unfold tailStarts
  simp only [if_true]
  split_ifs
  · exact hfold
  · exact mem_appendStart hfold 0

theorem denseTailStarts_covers {length size : ℕ} (hsize : minSamples ≤ size) (hmin : minSamples ≤ length)
    (hlength : length ≤ min (firstFractionCount minSamples size) size) :
    ∃ c, length ≤ c ∧ c ≤ size ∧ Reached length c ∧ size - c ∈ denseTailStarts size minSamples := by
  obtain ⟨c, hc, hlimit, hreached, hend | htaken⟩ := denseStarts_covers [] hsize le_rfl hlength (.inl hmin)
  · refine ⟨c, hc, by omega, hreached, ?_⟩
    rw [hend]
    exact appendStart_takes hsize (by omega)
  · exact ⟨c, hc, by omega, hreached, mem_appendStart htaken _⟩

theorem not_le_of_lt {x y : Double} (h : lt x y = true) : ¬le y x = true := by
  have hval : x.val.lt y.val = true := h
  have hx : x.val ≠ .nan := by
    intro hnan
    rw [hnan] at hval
    cases hval
  have hy : y.val ≠ .nan := by
    intro hnan
    rw [hnan] at hval
    cases hx' : x.val <;> simp [hx', ExactNum.lt] at hval
  rw [Double.le_iff_rank hy hx, not_le]
  exact (Double.lt_iff_rank hx hy).mp h

theorem tailCandidateSeries_eq (dense : Bool) (hrows : 2 ≤ rows.length) (hmin : minSamples ≤ rows.length)
    (hincreasing : rows.Pairwise fun a b => lt a.t b.t = true) :
    ∃ first last, tailCandidateSeries rows minSamples dense = (tailStarts rows first last minSamples dense).map (rows.drop ·) := by
  obtain ⟨first, rest, rfl⟩ := List.exists_cons_of_length_pos (by omega : 0 < rows.length)
  have hrest : rest ≠ [] := by
    rintro rfl
    simp at hrows
  have hlast : (first :: rest).getLast? = some (rest.getLast hrest) := by
    rw [List.getLast?_eq_some_getLast (List.cons_ne_nil _ _), List.getLast_cons hrest]
  have hlt : lt first.t (rest.getLast hrest).t = true := (List.pairwise_cons.mp hincreasing).1 _ (List.getLast_mem hrest)
  refine ⟨first.t, (rest.getLast hrest).t, ?_⟩
  unfold tailCandidateSeries
  rw [hlast, List.head?_cons]
  dsimp only
  rw [if_neg]
  rintro (hshort | hle)
  · omega
  · exact not_le_of_lt hlt hle

end Series

/-- For every ascending series of at least two rows, not fewer than `min_samples`, the candidates are different suffixes of
at least `min_samples` rows, the whole series among them.  With dense tail counts every length from `min_samples` to the
2.5 percent count is met by a suffix of that many rows, or of up to a tenth more. -/
theorem tail_candidates (series : SeriesArrays) (minSamples : ℕ) (hrows : 2 ≤ series.rows.length)
    (hmin : minSamples ≤ series.rows.length) (hincreasing : series.rows.Pairwise fun a b => lt a.t b.t = true) :
    (∀ dense,
      (tailCandidateSeries series.rows minSamples dense).Nodup ∧
      (∀ suffix ∈ tailCandidateSeries series.rows minSamples dense, suffix <:+ series.rows ∧ minSamples ≤ suffix.length) ∧
      series.rows ∈ tailCandidateSeries series.rows minSamples dense) ∧
    ∀ length, minSamples ≤ length → length ≤ series.rows.length →
      length ≤ firstFractionCount minSamples series.rows.length →
      ∃ suffix ∈ tailCandidateSeries series.rows minSamples true,
        length ≤ suffix.length ∧ suffix.length ≤ max (length + 1) (scaledCeil (11 / 10) length) ∧
        (length ≤ 2 ^ 52 → suffix.length ≤ max (length + 1) ⌈(11 / 10 : ℚ) * length⌉.toNat) := by
  constructor
  · intro dense
    obtain ⟨first, last, heq⟩ := tailCandidateSeries_eq dense hrows hmin hincreasing
    have hkept := tailStarts_kept series.rows first last minSamples dense
    rw [heq]
    refine ⟨?_, ?_, ?_⟩
    · refine List.Nodup.map_on ?_ hkept.1
      intro s hs t ht hdrop
      have hlength := congrArg List.length hdrop
      have hle := hkept.2 s hs
      have hle' := hkept.2 t ht
      simp only [List.length_drop] at hlength
      omega
    · intro suffix hsuffix
      obtain ⟨s, hs, rfl⟩ := List.mem_map.mp hsuffix
      have hle := hkept.2 s hs
      refine ⟨List.drop_suffix s series.rows, ?_⟩
      rw [List.length_drop]
      omega
    · exact List.mem_map.mpr ⟨0, zero_mem_tailStarts hmin, List.drop_zero⟩
  · intro length hlow hlength hcount
    obtain ⟨first, last, heq⟩ := tailCandidateSeries_eq true hrows hmin hincreasing
    obtain ⟨c, hc, hsize, hreached, hmem⟩ := denseTailStarts_covers hmin hlow (le_min hcount hlength)
    have hindexed : (length : ℚ) ≤ 2 ^ (63 : ℤ) := by
      have hbound : length ≤ 2 ^ 63 := hlength.trans series.indexed.le
      exact_mod_cast hbound
    have hdrop : (series.rows.drop (series.rows.length - c)).length = c := by
      rw [List.length_drop]
      omega
    rw [heq]
    refine ⟨_, List.mem_map.mpr ⟨_, mem_tailStarts hmem, rfl⟩, ?_⟩
    rw [hdrop]
    exact ⟨hc, hreached.bounds hindexed⟩

def twoRows : SeriesArrays where
  rows := [⟨lit 0, lit 0, lit 0, lit 0⟩, ⟨lit 1, lit 0, lit 0, lit 0⟩]
  indexed := by norm_num

theorem tail_candidates_two_rows : twoRows.rows ∈ tailCandidateSeries twoRows.rows 1 true := by
  have hincreasing : twoRows.rows.Pairwise fun a b => lt a.t b.t = true := by
    refine List.pairwise_pair.mpr ?_
    exact (Double.lt_iff Double.lit_zero Double.lit_one).mpr zero_lt_one
  exact ((tail_candidates twoRows 1 le_rfl one_le_two hincreasing).1 true).2.2


end XFoilFoam.Unsteady
