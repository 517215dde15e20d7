import XFoilFoam.Foundations.JsSort

/-! Rounded operations keep the order of their exact results, with the infinities at the ends. -/
namespace XFoilFoam
set_option autoImplicit false

/-! ## Rounding is monotone -/

theorem roundHalfEven_mono {x y : ℚ} (h : x ≤ y) : roundHalfEven x ≤ roundHalfEven y := by
  have hfloor : ⌊x⌋ ≤ ⌊y⌋ := Int.floor_mono h
  obtain heq | hlt := hfloor.eq_or_lt
  · unfold roundHalfEven
    rw [heq]
    split_ifs <;> first | omega | (exfalso; linarith)
  · have hx : roundHalfEven x ≤ ⌊x⌋ + 1 := by
      obtain hx | hx := roundHalfEven_mem x <;> omega
    have hy : ⌊y⌋ ≤ roundHalfEven y := le_roundHalfEven (Int.floor_le y)
    omega

theorem roundRat_mono_nonneg {q r : ℚ} (hq : 0 ≤ q) (h : q ≤ r) : roundRat q ≤ roundRat r := by
  obtain rfl | hpos := hq.eq_or_lt
  · rw [roundRat_zero]
    exact roundRat_nonneg h
  have hr := hpos.trans_le h
  have hlog : Int.log 2 |q| ≤ Int.log 2 |r| := by
    rw [abs_of_pos hpos, abs_of_pos hr]
    exact Int.log_mono_right hpos h
  have hlast : lastBit q ≤ lastBit r := max_le_max (by omega) le_rfl
  obtain heq | hlt := hlast.eq_or_lt
  · have hquotient : q / 2 ^ lastBit q ≤ r / 2 ^ lastBit q := div_le_div_of_nonneg_right h (two_zpow_pos _).le
    have hkept := roundHalfEven_mono hquotient
    unfold roundRat
    rw [← heq]
    exact mul_le_mul_of_nonneg_right (by exact_mod_cast hkept) (two_zpow_pos _).le
  · -- a power of two lies between the two numbers
    have hnormal : lastBit r = Int.log 2 |r| - 52 := by
      unfold lastBit at hlt ⊢
      omega
    have hpower : (2 : ℚ) ^ (lastBit r + 52) ≤ r := by
      rw [hnormal, sub_add_cancel, abs_of_pos hr]
      exact_mod_cast Int.zpow_log_le_self (b := 2) (by norm_num) hr
    have hbelow : q ≤ (2 : ℚ) ^ (lastBit r + 52) := by
      have hq' := abs_lt_lastBit q
      rw [abs_of_pos hpos] at hq'
      exact hq'.le.trans (zpow_le_zpow_right₀ (by norm_num) (by omega))
    have hmin : -1074 ≤ lastBit r := le_max_right _ _
    have hkept : (2 : ℤ) ^ 52 ≤ roundHalfEven (r / 2 ^ lastBit r) := by
      apply le_roundHalfEven
      rw [le_div_iff₀ (two_zpow_pos _)]
      refine le_trans (le_of_eq ?_) hpower
      rw [add_comm, zpow_add₀ (by norm_num)]
      norm_num
    calc roundRat q ≤ (2 : ℚ) ^ (lastBit r + 52) := roundRat_le_two_zpow hpos hbelow (by omega)
      _ = (2 : ℚ) ^ 52 * 2 ^ lastBit r := by
        rw [add_comm, zpow_add₀ (by norm_num)]
        norm_num
      _ ≤ roundRat r := mul_le_mul_of_nonneg_right (by exact_mod_cast hkept) (two_zpow_pos _).le

theorem roundRat_mono {q r : ℚ} (h : q ≤ r) : roundRat q ≤ roundRat r := by
  obtain hq | hq := le_total 0 q
  · exact roundRat_mono_nonneg hq h
  · obtain hr | hr := le_total 0 r
    · have hneg := roundRat_nonneg (neg_nonneg.mpr hq)
      rw [Double.roundRat_neg] at hneg
      exact (neg_nonneg.mp hneg).trans (roundRat_nonneg hr)
    · have hneg := roundRat_mono_nonneg (neg_nonneg.mpr hr) (neg_le_neg h)
      rw [Double.roundRat_neg, Double.roundRat_neg] at hneg
      exact neg_le_neg_iff.mp hneg

/-! ## Rounding is to nearest -/

theorem le_kept_floor {x y : ℚ} (hy : roundRat y = y) (h : y ≤ x) : y ≤ ⌊x / 2 ^ lastBit x⌋ * 2 ^ lastBit x := by
  have hpos := two_zpow_pos (lastBit x)
  by_cases hbit : lastBit x ≤ lastBit y
  · obtain ⟨n, hn⟩ := multiple_of_roundRat hy
    have hsplit : (2 : ℚ) ^ lastBit y = 2 ^ (lastBit y - lastBit x).toNat * 2 ^ lastBit x := by
      rw [← zpow_natCast, ← zpow_add₀ (by norm_num : (2 : ℚ) ≠ 0)]
      congr 1
      omega
    have hmultiple : y = ((n * 2 ^ (lastBit y - lastBit x).toNat : ℤ) : ℚ) * 2 ^ lastBit x := by
      push_cast
      rw [mul_assoc, ← hsplit]
      exact hn
    have hfloor : n * 2 ^ (lastBit y - lastBit x).toNat ≤ ⌊x / 2 ^ lastBit x⌋ := by
      rw [Int.le_floor, le_div_iff₀ hpos, ← hmultiple]
      exact h
    rw [hmultiple]
    exact mul_le_mul_of_nonneg_right (by exact_mod_cast hfloor) hpos.le
  · have hmin : -1074 ≤ lastBit y := le_max_right _ _
    have hy' := abs_lt_lastBit y
    obtain hneg | rfl | hx := lt_trichotomy x 0
    · refine absurd (lastBit_le hneg.ne (lt_of_le_of_lt ?_ hy') hmin) hbit
      rw [abs_of_neg hneg, abs_of_neg (h.trans_lt hneg)]
      linarith
    · simpa using h
    -- `x` reaches a power of two that `y` is below
    · have hpower : (2 : ℚ) ^ (lastBit x + 52) ≤ x := by
        by_contra hlt
        rw [not_le] at hlt
        have hsmaller := lastBit_le (e := lastBit x - 1) hx.ne' (by
          rw [abs_of_pos hx]
          exact hlt.trans_eq (by congr 1; omega)) (by omega)
        omega
      have hbelow : y < 2 ^ (lastBit x + 52) :=
        (le_abs_self y).trans_lt (hy'.trans_le (zpow_le_zpow_right₀ one_le_two (by omega)))
      have hsplit : (2 : ℚ) ^ (lastBit x + 52) = ((2 ^ 52 : ℤ) : ℚ) * 2 ^ lastBit x := by
        rw [add_comm, zpow_add₀ (by norm_num : (2 : ℚ) ≠ 0)]
        norm_num
      rw [hsplit] at hpower hbelow
      have hfloor : (2 ^ 52 : ℤ) ≤ ⌊x / 2 ^ lastBit x⌋ := by
        rw [Int.le_floor, le_div_iff₀ hpos]
        exact hpower
      exact hbelow.le.trans (mul_le_mul_of_nonneg_right (by exact_mod_cast hfloor) hpos.le)

theorem roundRat_le_nearest {x y : ℚ} (hy : roundRat y = y) (h : y ≤ x) : roundRat x ≤ x + (x - y) := by
  have hpos := two_zpow_pos (lastBit x)
  have hfloor := le_kept_floor hy h
  have hkept := abs_le.mp (abs_sub_roundHalfEven (x / 2 ^ lastBit x))
  have hx : x = x / 2 ^ lastBit x * 2 ^ lastBit x := (div_mul_cancel₀ x hpos.ne').symm
  rw [roundRat]
  obtain hdown | hup := roundHalfEven_mem (x / 2 ^ lastBit x)
  · rw [hdown]
    have hle : (⌊x / 2 ^ lastBit x⌋ : ℚ) * 2 ^ lastBit x ≤ x := by
      rw [← le_div_iff₀ hpos]
      exact Int.floor_le _
    linarith
  · rw [hup] at hkept ⊢
    push_cast at hkept ⊢
    nlinarith

/-! ## Comparisons are the order of the ranks -/

namespace Double
variable {x y z : Double} {p q : ℚ}

theorem lt_iff_rank (hx : x.val ≠ .nan) (hy : y.val ≠ .nan) : Binary64.lt x y = true ↔ x.rank < y.rank := by
  show x.val.lt y.val = true ↔ _
  obtain ⟨v, hv⟩ := x
  obtain ⟨w, hw⟩ := y
  cases v <;> cases w <;>
    simp_all [rank, ExactNum.lt, WithBot.bot_lt_coe, WithBot.coe_lt_coe, -WithBot.coe_top]

theorem le_iff_rank (hx : x.val ≠ .nan) (hy : y.val ≠ .nan) : Binary64.le x y = true ↔ x.rank ≤ y.rank := by
  show (x.val.lt y.val || x.val.eq y.val) = true ↔ _
  obtain ⟨v, hv⟩ := x
  obtain ⟨w, hw⟩ := y
  cases v <;> cases w <;>
    simp_all [rank, ExactNum.lt, ExactNum.eq, -WithBot.coe_top, le_iff_lt_or_eq]

theorem not_lt_iff_rank (hx : x.val ≠ .nan) (hy : y.val ≠ .nan) : Binary64.lt x y = false ↔ y.rank ≤ x.rank := by
  rw [← not_lt, ← lt_iff_rank hx hy, Bool.not_eq_true]

theorem ne_nan_of_fin (h : x.val = .fin q) : x.val ≠ .nan := by
  rw [h]
  exact ExactNum.noConfusion

theorem round64_cases (q : ℚ) :
    2 ^ overflowExponent ≤ roundRat q ∧ round64 (.fin q) = .posInf ∨
      roundRat q ≤ -2 ^ overflowExponent ∧ round64 (.fin q) = .negInf ∨
      |roundRat q| < 2 ^ overflowExponent ∧ round64 (.fin q) = .fin (roundRat q) := by
  by_cases hlarge : 2 ^ overflowExponent ≤ |roundRat q|
  · by_cases hpos : 0 < roundRat q
    · rw [round64, if_pos hlarge, if_pos hpos]
      rw [abs_of_pos hpos] at hlarge
      exact .inl ⟨hlarge, rfl⟩
    · rw [round64, if_pos hlarge, if_neg hpos]
      rw [abs_of_nonpos (not_lt.mp hpos)] at hlarge
      exact .inr (.inl ⟨le_neg_of_le_neg hlarge, rfl⟩)
  · exact .inr (.inr ⟨not_le.mp hlarge, if_neg hlarge⟩)

theorem ofExact_ne_nan (q : ℚ) : (ofExact (.fin q)).val ≠ .nan := by
  show round64 (.fin q) ≠ .nan
  obtain ⟨-, h⟩ | ⟨-, h⟩ | ⟨-, h⟩ := round64_cases q <;> rw [h] <;> exact ExactNum.noConfusion

theorem rank_ofExact_mono (h : p ≤ q) : (ofExact (.fin p)).rank ≤ (ofExact (.fin q)).rank := by
  have hround := roundRat_mono h
  have hlimit : (0 : ℚ) < 2 ^ overflowExponent := by positivity
  obtain ⟨hp, hval⟩ | ⟨hp, hval⟩ | ⟨hp, hval⟩ := round64_cases p
  · -- once over the top, everything above is
    obtain ⟨hq, hval'⟩ | ⟨hq, hval'⟩ | ⟨hq, hval'⟩ := round64_cases q
    · rw [rank_of_posInf hval, rank_of_posInf hval']
    · exact absurd (hp.trans (hround.trans hq)) (by linarith)
    · exact absurd ((abs_lt.mp hq).2.trans_le hp) (not_lt.mpr hround)
  · rw [rank_of_negInf hval]
    exact bot_le
  · obtain ⟨hq, hval'⟩ | ⟨hq, hval'⟩ | ⟨hq, hval'⟩ := round64_cases q
    · rw [rank_of_posInf (x := ofExact (.fin q)) hval']
      exact le_top
    · exact absurd (hq.trans_lt (abs_lt.mp hp).1) (not_lt.mpr hround)
    · rw [rank_of_fin hval, rank_of_fin hval']
      exact_mod_cast hround

theorem sub_rank_mono {a b c : ℚ} (hx : x.val = .fin a) (hy : y.val = .fin b) (hz : z.val = .fin c)
    (h : a ≤ b) : (Binary64.sub z y).rank ≤ (Binary64.sub z x).rank := by
  have hzy : Binary64.sub z y = ofExact (.fin (c - b)) := by
    show ofExact (z.val.add y.val.neg) = _
    rw [hz, hy, sub_eq_add_neg]
    rfl
  have hzx : Binary64.sub z x = ofExact (.fin (c - a)) := by
    show ofExact (z.val.add x.val.neg) = _
    rw [hz, hx, sub_eq_add_neg]
    rfl
  rw [hzy, hzx]
  exact rank_ofExact_mono (by linarith)

theorem ext_val (h : x.val = y.val) : x = y := by
  cases x
  cases y
  cases h
  rfl

theorem lt_of_rounded (hx : x.val = .fin (roundRat p)) (hy : y.val = .fin (roundRat q)) (hle : p ≤ q) (hne : x ≠ y) :
    Binary64.lt x y = true := by
  rw [lt_iff hx hy]
  refine lt_of_le_of_ne (roundRat_mono hle) fun heq => hne (ext_val ?_)
  rw [hx, hy, heq]

theorem eq_of_numeric_eq (h : Binary64.eq x y = true) : x = y := by
  have hval : x.val.eq y.val = true := h
  apply ext_val
  cases hx : x.val <;> rw [hx] at hval <;> first | exact of_decide_eq_true hval | cases hval

theorem ofExact_val (x : Double) : ofExact x.val = x := ext_val x.rounded

theorem sub_rank_le (hx : x.val = .fin p) (hy : Nonneg y) :
    (Binary64.sub x y).val ≠ .nan ∧ (Binary64.sub x y).rank ≤ x.rank := by
  have hsub : Binary64.sub x y = ofExact (x.val.add y.val.neg) := rfl
  rw [hx] at hsub
  obtain hinf | ⟨q, hq, hnonneg⟩ := hy
  · rw [hinf] at hsub
    have hval : (Binary64.sub x y).val = .negInf := by rw [hsub]; rfl
    rw [rank_of_negInf hval, hval]
    exact ⟨ExactNum.noConfusion, bot_le⟩
  · have hsub' : Binary64.sub x y = ofExact (.fin (p - q)) := by
      rw [hsub, hq, sub_eq_add_neg]
      rfl
    have hx' : x = ofExact (.fin p) := by rw [← hx, ofExact_val]
    rw [hsub', hx']
    exact ⟨ofExact_ne_nan _, rank_ofExact_mono (by linarith)⟩

/-! ## Small steps -/

theorem roundRat_add_near (hq : round64 (.fin q) = .fin q) (hp : 0 ≤ p) (hp' : p ≤ 1) :
    q ≤ roundRat (q + p) ∧ roundRat (q + p) ≤ q + 2 * p ∧ |roundRat (q + p)| < 2 ^ overflowExponent := by
  obtain ⟨hround, hrange⟩ := rounded_fin hq
  obtain ⟨hlow, hhigh⟩ := abs_lt.mp hrange
  have hmono : q ≤ roundRat (q + p) := by
    have hle := roundRat_mono (by linarith : q ≤ q + p)
    rwa [hround] at hle
  have hnear := roundRat_le_nearest hround (by linarith : q ≤ q + p)
  refine ⟨hmono, by linarith, abs_lt.mpr ⟨by linarith, ?_⟩⟩
  obtain hlarge | hsmall := le_total ((2 : ℚ) ^ 54) q
  · rw [roundRat_add_small hlarge hround hp hp']
    exact hhigh
  · have hlimit : (2 : ℚ) ^ 54 + 2 < 2 ^ overflowExponent := by
      have hpower : (2 : ℚ) ^ 55 ≤ 2 ^ overflowExponent := pow_le_pow_right₀ one_le_two (by decide)
      norm_num at hpower ⊢
      linarith
    linarith

theorem add_near (hx : x.val = .fin q) (hy : y.val = .fin p) (hp : 0 ≤ p) (hp' : p ≤ 1) :
    ∃ r, (Binary64.add x y).val = .fin r ∧ q ≤ r ∧ r ≤ q + 2 * p := by
  obtain ⟨hlow, hhigh, hrange⟩ := roundRat_add_near (hx ▸ x.rounded) hp hp'
  refine ⟨roundRat (q + p), ?_, hlow, hhigh⟩
  show round64 (x.val.add y.val) = _
  rw [hx, hy]
  exact round64_of_lt hrange

theorem sub_near (hx : x.val = .fin q) (hy : y.val = .fin p) (hp : 0 ≤ p) (hp' : p ≤ 1) :
    ∃ r, (Binary64.sub x y).val = .fin r ∧ r ≤ q ∧ q - 2 * p ≤ r := by
  obtain ⟨hround, hrange⟩ := rounded_fin (hx ▸ x.rounded)
  have hneg : round64 (.fin (-q)) = .fin (-q) := by
    rw [round64_of_lt] <;> rw [roundRat_neg, hround]
    rwa [abs_neg]
  obtain ⟨hlow, hhigh, hsmall⟩ := roundRat_add_near hneg hp hp'
  have hflip : roundRat (q + -p) = -roundRat (-q + p) := by
    rw [← roundRat_neg]
    congr 1
    ring
  refine ⟨roundRat (q + -p), ?_, by linarith, by linarith⟩
  show round64 (x.val.add y.val.neg) = _
  rw [hx, hy]
  refine round64_of_lt ?_
  rwa [hflip, abs_neg]

/-! ## Python's comparisons -/

/-- `max(x, y)`. -/
def pyMax (x y : Double) : Double := if Binary64.lt x y then y else x

/-- `min(x, y)`. -/
def pyMin (x y : Double) : Double := if Binary64.lt y x then y else x

theorem rank_pyMax (hx : x.val ≠ .nan) (hy : y.val ≠ .nan) :
    (x.pyMax y).val ≠ .nan ∧ x.rank ≤ (x.pyMax y).rank ∧ y.rank ≤ (x.pyMax y).rank := by
  unfold pyMax
  split
  · rename_i hlt
    exact ⟨hy, ((lt_iff_rank hx hy).mp hlt).le, le_rfl⟩
  · rename_i hlt
    exact ⟨hx, le_rfl, (not_lt_iff_rank hx hy).mp (Bool.eq_false_iff.mpr hlt)⟩

theorem rank_pyMin (hx : x.val ≠ .nan) (hy : y.val ≠ .nan) :
    (x.pyMin y).val ≠ .nan ∧ (x.pyMin y).rank ≤ x.rank ∧ (x.pyMin y).rank ≤ y.rank := by
  unfold pyMin
  split
  · rename_i hlt
    exact ⟨hy, ((lt_iff_rank hy hx).mp hlt).le, le_rfl⟩
  · rename_i hlt
    exact ⟨hx, le_rfl, (not_lt_iff_rank hy hx).mp (Bool.eq_false_iff.mpr hlt)⟩

theorem rank_max (hx : x.val ≠ .nan) (hy : y.val ≠ .nan) :
    (Binary64.max x y).val ≠ .nan ∧ x.rank ≤ (Binary64.max x y).rank ∧ y.rank ≤ (Binary64.max x y).rank := by
  have hmax : Binary64.max x y = if Binary64.lt x y then y else x := by
    show ofExact (x.val.max y.val) = if x.val.lt y.val = true then y else x
    rw [ExactNum.max, if_neg (by simp [hx, hy])]
    split_ifs
    · exact ofExact_val y
    · exact ofExact_val x
  rw [hmax]
  exact rank_pyMax hx hy

end Double

end XFoilFoam
