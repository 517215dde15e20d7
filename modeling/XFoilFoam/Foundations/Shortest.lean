import XFoilFoam.Foundations.Decimal
import XFoilFoam.Foundations.DoubleOrder

/-! The shortest decimal of a double.  A decimal with few places is recovered from its nearest double: no other
decimal with as many places has that double, and none with fewer digits is shorter. -/
namespace XFoilFoam.Decimal
set_option autoImplicit false

/-! ## The error of rounding -/

theorem abs_roundRat_sub (q : ℚ) : |roundRat q - q| ≤ 2 ^ lastBit q / 2 := by
  have hpos := two_zpow_pos (lastBit q)
  have hkept := abs_sub_roundHalfEven (q / 2 ^ lastBit q)
  have hsplit : roundRat q - q = -((q / 2 ^ lastBit q - roundHalfEven (q / 2 ^ lastBit q)) * 2 ^ lastBit q) := by
    rw [sub_mul, div_mul_cancel₀ _ hpos.ne', roundRat]
    ring
  rw [hsplit, abs_neg, abs_mul, abs_of_pos hpos]
  calc |q / 2 ^ lastBit q - roundHalfEven (q / 2 ^ lastBit q)| * 2 ^ lastBit q
      ≤ 1 / 2 * 2 ^ lastBit q := mul_le_mul_of_nonneg_right hkept hpos.le
    _ = 2 ^ lastBit q / 2 := by ring

theorem roundRat_two_zpow {k : ℤ} (hk : -1074 ≤ k) : roundRat (2 ^ k) = 2 ^ k := by
  apply roundRat_of_le (n := 1) (e := k) (by simp)
  apply lastBit_le (two_zpow_pos k).ne' _ hk
  rw [abs_of_pos (two_zpow_pos k)]
  exact zpow_lt_zpow_right₀ (by norm_num) (by omega)

theorem abs_roundRat (p : ℚ) : |roundRat p| = roundRat |p| := by
  obtain hp | hp := le_total 0 p
  · rw [abs_of_nonneg hp, abs_of_nonneg (roundRat_nonneg hp)]
  · have hnonneg := roundRat_nonneg (neg_nonneg.mpr hp)
    rw [Double.roundRat_neg] at hnonneg
    rw [abs_of_nonpos hp, Double.roundRat_neg, abs_of_nonpos (neg_nonneg.mp hnonneg)]

theorem lt_of_roundRat_lt {p q : ℚ} (hq : roundRat q = q) (h : roundRat p < q) : p < q := by
  by_contra hle
  have hmono := roundRat_mono (not_lt.mp hle)
  rw [hq] at hmono
  exact absurd h (not_lt.mpr hmono)

theorem abs_roundRat_sub_le {p : ℚ} {b : ℤ} (hmin : -1074 ≤ b) (hp : 0 < p) (h : roundRat p < 2 ^ (b + 53)) :
    |roundRat p - p| ≤ 2 ^ b / 2 := by
  have hbelow := lt_of_roundRat_lt (roundRat_two_zpow (by omega)) h
  have hbit : lastBit p ≤ b := lastBit_le hp.ne' (by rw [abs_of_pos hp]; exact hbelow) hmin
  have hpower : (2 : ℚ) ^ lastBit p ≤ 2 ^ b := zpow_le_zpow_right₀ (by norm_num) hbit
  exact (abs_roundRat_sub p).trans (by linarith)

/-! ## Decimals with few places -/

section Places
variable {places : ℕ} {b : ℤ} {q : ℚ}

theorem coefficient_unique (hb : (2 : ℚ) ^ b * 10 ^ places < 1) (hmin : -1074 ≤ b) (hq : q < 2 ^ (b + 53))
    {j k : ℤ} (hj : 0 < j) (hk : 0 < k) (hjq : roundRat (j / 10 ^ places) = q)
    (hkq : roundRat (k / 10 ^ places) = q) : j = k := by
  have hscale : (0 : ℚ) < 10 ^ places := by positivity
  have hj' : (0 : ℚ) < j / 10 ^ places := div_pos (by exact_mod_cast hj) hscale
  have hk' : (0 : ℚ) < k / 10 ^ places := div_pos (by exact_mod_cast hk) hscale
  have hjnear := abs_roundRat_sub_le hmin hj' (by rw [hjq]; exact hq)
  have hknear := abs_roundRat_sub_le hmin hk' (by rw [hkq]; exact hq)
  rw [hjq] at hjnear
  rw [hkq] at hknear
  have hclose : |((j : ℚ) - k) / 10 ^ places| ≤ 2 ^ b := by
    have hsplit : ((j : ℚ) - k) / 10 ^ places = (q - k / 10 ^ places) - (q - j / 10 ^ places) := by ring
    rw [hsplit]
    have htriangle := abs_sub (q - k / 10 ^ places) (q - j / 10 ^ places)
    linarith
  rw [abs_div, abs_of_pos hscale, div_le_iff₀ hscale] at hclose
  have hlt : |((j - k : ℤ) : ℚ)| < 1 := by
    push_cast
    exact lt_of_le_of_lt hclose hb
  have hzero : |j - k| < 1 := by exact_mod_cast hlt
  have := abs_lt.mp hzero
  omega

end Places

/-! ## The search -/

theorem roundTrip?_spec {q : ℚ} {k : ℕ} {d : ℤ × ℤ} (h : roundTrip? q k = some d) :
    d ∈ neighbours q k ∧ roundRat (decimalValue d) = q := by
  have hmem : d ∈ (neighbours q k).filter fun d => decide (roundRat (decimalValue d) = q) := by
    unfold roundTrip? at h
    split at h
    · cases h
    · rename_i hfilter
      cases h
      rw [hfilter]
      exact List.mem_singleton_self _
    · rename_i e f rest hfilter
      rw [hfilter]
      split at h
      · cases h
        exact List.mem_cons_self
      · cases h
        exact List.mem_cons_of_mem _ List.mem_cons_self
  obtain ⟨hneighbour, hround⟩ := List.mem_filter.mp hmem
  exact ⟨hneighbour, of_decide_eq_true hround⟩

theorem roundTrip?_isSome {q : ℚ} {k : ℕ} {d : ℤ × ℤ} (hmem : d ∈ neighbours q k)
    (hround : roundRat (decimalValue d) = q) : ∃ e, roundTrip? q k = some e := by
  have hfilter : d ∈ (neighbours q k).filter fun d => decide (roundRat (decimalValue d) = q) :=
    List.mem_filter.mpr ⟨hmem, decide_eq_true hround⟩
  unfold roundTrip?
  split
  · rename_i hnil
    rw [hnil] at hfilter
    cases hfilter
  · exact ⟨_, rfl⟩
  · split <;> exact ⟨_, rfl⟩

theorem findSome?_range {α : Type} {f : ℕ → Option α} {n i : ℕ} {a : α} (hi : i < n) (ha : f i = some a) :
    ∃ j ≤ i, ∃ b, f j = some b ∧ (List.range n).findSome? f = some b := by
  have hsome : ((List.range n).findSome? f).isSome = true := by
    rw [List.findSome?_isSome_iff]
    exact ⟨i, List.mem_range.mpr hi, by rw [ha]; rfl⟩
  obtain ⟨b, hb⟩ := Option.isSome_iff_exists.mp hsome
  obtain ⟨before, j, after, hsplit, hj, hnone⟩ := List.findSome?_eq_some_iff.mp hb
  refine ⟨j, ?_, b, hj, hb⟩
  by_contra hlt
  have hmem : i ∈ before ++ j :: after := by
    rw [← hsplit]
    exact List.mem_range.mpr hi
  have hsorted : (before ++ j :: after).Pairwise (· < ·) := by
    rw [← hsplit]
    exact List.pairwise_lt_range
  obtain hbefore | hrest := List.mem_append.mp hmem
  · rw [hnone i hbefore] at ha
    cases ha
  · obtain rfl | hafter := List.mem_cons.mp hrest
    · exact hlt le_rfl
    · have hgt := (List.pairwise_cons.mp (List.pairwise_append.mp hsorted).2.1).1 i hafter
      omega

/-! ## The shortest decimal -/

def decimalOf (q : ℚ) : ℚ := decimalValue (shortest q)

theorem mem_neighbours {q : ℚ} {k : ℕ} {d : ℤ × ℤ} (h : d ∈ neighbours q k) :
    d.2 = Int.log 10 q + 1 - k ∧ ⌊q / 10 ^ d.2⌋ ≤ d.1 := by
  simp only [neighbours, List.mem_cons, List.not_mem_nil, or_false] at h
  obtain rfl | rfl := h
  · exact ⟨rfl, le_rfl⟩
  · exact ⟨rfl, Int.le_add_one le_rfl⟩

theorem shortest_spec {q : ℚ} (hq : 0 < q) :
    shortest q = (0, 0) ∨ 0 < (shortest q).1 ∧ roundRat (decimalOf q) = q := by
  unfold decimalOf shortest
  cases hfind : (List.range 17).findSome? fun k => roundTrip? q (k + 1) with
  | none => exact .inl rfl
  | some d =>
    obtain ⟨k, -, hk⟩ := List.exists_of_findSome?_eq_some hfind
    obtain ⟨hmem, hround⟩ := roundTrip?_spec hk
    refine .inr ⟨?_, hround⟩
    have hnonneg : 0 ≤ d.1 :=
      (Int.floor_nonneg.mpr (div_nonneg hq.le (ten_zpow_pos _).le)).trans (mem_neighbours hmem).2
    obtain hzero | hpos := hnonneg.eq_or_lt
    · have hvalue : decimalValue d = 0 := by rw [decimalValue, ← hzero, Int.cast_zero, zero_mul]
      rw [hvalue, roundRat_zero] at hround
      exact absurd hround hq.ne
    · exact hpos

theorem decimalOf_nonneg {q : ℚ} (hq : 0 < q) : 0 ≤ decimalOf q := by
  have hcoefficient : 0 ≤ (shortest q).1 := by
    obtain hnone | ⟨hpos, -⟩ := shortest_spec hq
    · rw [hnone]
    · exact hpos.le
  exact mul_nonneg (by exact_mod_cast hcoefficient) (ten_zpow_pos _).le

theorem decimalOf_lt {q r : ℚ} (hq : 0 < q) (hr : roundRat r = r) (h : q < r) : decimalOf q < r := by
  obtain hnone | ⟨-, hround⟩ := shortest_spec hq
  · rw [decimalOf, hnone, decimalValue]
    simp only [Int.cast_zero, zero_mul]
    exact hq.trans h
  · exact lt_of_roundRat_lt hr (by rw [hround]; exact h)

theorem roundRat_between {p q r x : ℚ} (hp : roundRat p = r) (hq : roundRat q = r) (hpx : p ≤ x) (hxq : x ≤ q) :
    roundRat x = r := le_antisymm (hq ▸ roundRat_mono hxq) (hp ▸ roundRat_mono hpx)

section Neighbour
variable {places k : ℕ} {q : ℚ} {n : ℤ}

theorem exists_neighbour (hplace : Int.log 10 q + 1 - k = -places) (hn : roundRat (n / 10 ^ places) = q) :
    ∃ d ∈ neighbours q k, roundRat (decimalValue d) = q := by
  have hscale : (0 : ℚ) < 10 ^ places := by positivity
  have hself : roundRat q = q := by rw [← hn, roundRat_roundRat]
  have hvalue (c : ℤ) : decimalValue (c, -(places : ℤ)) = c / 10 ^ places := by
    rw [decimalValue, zpow_neg, zpow_natCast, div_eq_mul_inv]
  have hmem (c : ℤ) (hc : c = ⌊q * 10 ^ places⌋ ∨ c = ⌊q * 10 ^ places⌋ + 1) : (c, -(places : ℤ)) ∈ neighbours q k := by
    simp only [neighbours, hplace, zpow_neg, zpow_natCast, div_inv_eq_mul, List.mem_cons, Prod.mk.injEq, and_true,
      List.not_mem_nil, or_false]
    exact hc
  obtain hbelow | habove := le_or_gt n ⌊q * 10 ^ places⌋
  · refine ⟨_, hmem _ (.inl rfl), ?_⟩
    rw [hvalue]
    refine roundRat_between hn hself (div_le_div_of_nonneg_right (by exact_mod_cast hbelow) hscale.le) ?_
    rw [div_le_iff₀ hscale]
    exact Int.floor_le _
  · refine ⟨_, hmem _ (.inr rfl), ?_⟩
    rw [hvalue]
    refine roundRat_between hself hn ?_ (div_le_div_of_nonneg_right (by exact_mod_cast habove) hscale.le)
    rw [le_div_iff₀ hscale]
    push_cast
    exact (Int.lt_floor_add_one _).le

theorem decimalOf_places (hn : roundRat (n / 10 ^ places) = q) (hleast : 10 ^ (-places : ℤ) ≤ q)
    (hhigh : Int.log 10 q < 17 - places) :
    ∃ m : ℤ, 0 < m ∧ decimalOf q = m / 10 ^ places ∧ roundRat (m / 10 ^ places) = q := by
  have hpos : 0 < q := (ten_zpow_pos _).trans_le hleast
  have hlow : (-places : ℤ) ≤ Int.log 10 q :=
    (Int.zpow_le_iff_le_log (by norm_num) hpos).mp (by exact_mod_cast hleast)
  -- with this many digits the last place is the last one of the decimal
  obtain ⟨m, hm⟩ := Int.eq_ofNat_of_zero_le (by omega : 0 ≤ Int.log 10 q + places)
  obtain ⟨c, hc, hcq⟩ := exists_neighbour (k := m + 1) (by push_cast; omega) hn
  obtain ⟨e, he⟩ := roundTrip?_isSome hc hcq
  obtain ⟨i, hi, d, hd, hfind⟩ := findSome?_range (f := fun k => roundTrip? q (k + 1)) (by omega : m < 17) he
  obtain ⟨hmem, hround⟩ := roundTrip?_spec hd
  obtain ⟨hplace, -⟩ := mem_neighbours hmem
  have hshortest : shortest q = d := by rw [shortest, hfind, Option.getD_some]
  -- fewer digits only make the places fewer
  obtain ⟨z, hz⟩ := Int.eq_ofNat_of_zero_le (by push_cast at hplace; omega : 0 ≤ d.2 + places)
  have hvalue : decimalOf q = ((d.1 * 10 ^ z : ℤ) : ℚ) / 10 ^ places := by
    have hexponent : d.2 = z + -(places : ℤ) := by omega
    rw [decimalOf, hshortest, decimalValue, hexponent, zpow_add₀ (by norm_num), zpow_neg, zpow_natCast,
      zpow_natCast, div_eq_mul_inv]
    push_cast
    ring
  have hreads : roundRat (decimalOf q) = q := by rw [decimalOf, hshortest, hround]
  refine ⟨d.1 * 10 ^ z, ?_, hvalue, by rw [← hvalue, hreads]⟩
  obtain hnone | ⟨hcoefficient, -⟩ := shortest_spec hpos
  · have hzero : decimalOf q = 0 := by rw [decimalOf, hnone, decimalValue, Int.cast_zero, zero_mul]
    rw [hzero, roundRat_zero] at hreads
    exact absurd hreads hpos.ne
  · rw [hshortest] at hcoefficient
    positivity

end Neighbour

theorem decimalOf_coefficient {places : ℕ} {b : ℤ} {q : ℚ} {k : ℤ} (hb : (2 : ℚ) ^ b * 10 ^ places < 1)
    (hmin : -1074 ≤ b) (hk : 0 < k) (hkq : roundRat (k / 10 ^ places) = q) (hq : q < 2 ^ (b + 53))
    (hleast : 10 ^ (-places : ℤ) ≤ q) : decimalOf q = k / 10 ^ places := by
  have hpos : 0 < q := (ten_zpow_pos _).trans_le hleast
  have hhigh : Int.log 10 q < 16 - places := by
    apply (Int.lt_zpow_iff_log_lt (by norm_num) hpos).mp
    have hscaled : q * 10 ^ places < 2 ^ (53 : ℤ) := by
      calc q * 10 ^ places < 2 ^ (b + 53) * 10 ^ places := mul_lt_mul_of_pos_right hq (by positivity)
        _ = 2 ^ b * 10 ^ places * 2 ^ (53 : ℤ) := by rw [zpow_add₀ (by norm_num)]; ring
        _ ≤ 2 ^ (53 : ℤ) := mul_le_of_le_one_left (by positivity) hb.le
    rw [Nat.cast_ofNat, zpow_sub₀ (by norm_num), zpow_natCast, lt_div_iff₀ (by positivity)]
    exact hscaled.trans (by norm_num)
  obtain ⟨m, hm, hvalue, hround⟩ := decimalOf_places hkq hleast (by omega)
  rw [hvalue, coefficient_unique hb hmin hq hm hk hround hkq]

/-! ## Digit strings -/

theorem AllDigits.append {xs ys : List Char} (hx : AllDigits xs) (hy : AllDigits ys) : AllDigits (xs ++ ys) := by
  intro c hc
  obtain hc | hc := List.mem_append.mp hc
  · exact hx c hc
  · exact hy c hc

theorem allDigits_zeros (n : ℕ) : AllDigits (List.replicate n '0') := by
  intro c hc
  rw [List.eq_of_mem_replicate hc]
  decide

theorem AllDigits.take {digits : List Char} (h : AllDigits digits) (n : ℕ) : AllDigits (digits.take n) :=
  fun c hc => h c (List.mem_of_mem_take hc)

theorem AllDigits.drop {digits : List Char} (h : AllDigits digits) (n : ℕ) : AllDigits (digits.drop n) :=
  fun c hc => h c (List.mem_of_mem_drop hc)

theorem fraction_append (xs ys : List Char) :
    fraction (xs ++ ys) = fraction xs + fraction ys / 10 ^ xs.length := by
  induction xs with
  | nil => simp [fraction]
  | cons c rest ih =>
    rw [List.cons_append, fraction, ih, fraction, List.length_cons, pow_succ]
    ring

theorem stripZeros_cons (c : Char) (rest : List Char) :
    stripZeros (c :: rest) =
      if stripZeros rest = [] then (if c = '0' then [] else [c]) else c :: stripZeros rest := by
  simp only [stripZeros, List.rdropWhile, List.reverse_cons, List.dropWhile_append, List.isEmpty_iff,
    List.reverse_eq_nil_iff]
  split
  · by_cases hc : c = '0' <;> simp [hc]
  · simp

/-! ## The text of a positive double -/

def shortestDigits (q : ℚ) : List Char := stripZeros (Nat.toDigits 10 (shortest q).1.toNat)

def shortestPoint (q : ℚ) : ℤ := (shortest q).2 + (Nat.toDigits 10 (shortest q).1.toNat).length

theorem positiveText_eq (q : ℚ) :
    positiveText q =
      if -6 < shortestPoint q ∧ shortestPoint q ≤ 21 then plain (shortestDigits q) (shortestPoint q)
      else scientific 1 (shortestDigits q) (shortestPoint q) := rfl

theorem shortestDigits_value {q : ℚ} (hq : 0 < q) :
    fraction (shortestDigits q) * 10 ^ shortestPoint q = decimalOf q := by
  have hcoefficient : (((shortest q).1.toNat : ℤ) : ℚ) = (shortest q).1 := by
    have hnonneg : 0 ≤ (shortest q).1 := by
      obtain hnone | ⟨hpos, -⟩ := shortest_spec hq
      · rw [hnone]
      · exact hpos.le
    rw [Int.toNat_of_nonneg hnonneg]
  have hdigits := fraction_toDigits (shortest q).1.toNat
  rw [shortestDigits, fraction_stripZeros, shortestPoint, add_comm, zpow_add₀ (by norm_num), zpow_natCast,
    ← mul_assoc, hdigits, decimalOf, decimalValue, ← hcoefficient, Int.cast_natCast]

end XFoilFoam.Decimal
