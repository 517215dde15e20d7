import XFoilFoam.Foundations.JsValue
import Mathlib.Data.Int.Log
import Mathlib.Tactic.Linarith
import Mathlib.Tactic.Positivity
import Mathlib.Tactic.NormNum
import Mathlib.Tactic.Ring

/-! Doubles: exact values rounded to 53 bits, to nearest with ties to even.  Both zeros are the one
value zero. -/
namespace XFoilFoam
set_option autoImplicit false

/-! ## Rounding to an integer -/

/-- The nearest integer, the even one of two. -/
def roundHalfEven (x : ℚ) : ℤ :=
  if x - ⌊x⌋ < 1 / 2 then ⌊x⌋
  else if 1 / 2 < x - ⌊x⌋ then ⌊x⌋ + 1
  else if ⌊x⌋ % 2 = 0 then ⌊x⌋ else ⌊x⌋ + 1

theorem roundHalfEven_mem (x : ℚ) : roundHalfEven x = ⌊x⌋ ∨ roundHalfEven x = ⌊x⌋ + 1 := by
  unfold roundHalfEven
  split_ifs
  · exact .inl rfl
  · exact .inr rfl
  · exact .inl rfl
  · exact .inr rfl

theorem roundHalfEven_of_lt {x : ℚ} (h : x - ⌊x⌋ < 1 / 2) : roundHalfEven x = ⌊x⌋ := if_pos h

theorem roundHalfEven_intCast (n : ℤ) : roundHalfEven n = n := by
  rw [roundHalfEven_of_lt (by rw [Int.floor_intCast]; norm_num), Int.floor_intCast]

theorem le_roundHalfEven {x : ℚ} {n : ℤ} (h : (n : ℚ) ≤ x) : n ≤ roundHalfEven x := by
  have hfloor : n ≤ ⌊x⌋ := Int.le_floor.mpr h
  rcases roundHalfEven_mem x with hx | hx <;> omega

theorem roundHalfEven_le {x : ℚ} {n : ℤ} (h : x ≤ n) : roundHalfEven x ≤ n := by
  have hfloor : ⌊x⌋ ≤ n := Int.cast_le.mp ((Int.floor_le x).trans h)
  by_cases heq : ⌊x⌋ = n
  · have hx : x = n := le_antisymm h (heq ▸ Int.floor_le x)
    rw [hx, roundHalfEven_intCast]
  · rcases roundHalfEven_mem x with hx | hx <;> omega

theorem abs_sub_roundHalfEven (x : ℚ) : |x - roundHalfEven x| ≤ 1 / 2 := by
  have hlow := Int.floor_le x
  have hhigh := (Int.lt_floor_add_one x).le
  unfold roundHalfEven
  rw [abs_le]
  split_ifs
  all_goals
    push_cast
    constructor <;> linarith

theorem roundHalfEven_of_near {x : ℚ} {n : ℤ} (h : |x - n| < 1 / 2) : roundHalfEven x = n := by
  obtain ⟨hlow, hhigh⟩ := abs_lt.mp h
  obtain ⟨hlow', hhigh'⟩ := abs_le.mp (abs_sub_roundHalfEven x)
  have hbelow : ((n - 1 : ℤ) : ℚ) < roundHalfEven x := by
    push_cast
    linarith
  have habove : (roundHalfEven x : ℚ) < (n + 1 : ℤ) := by
    push_cast
    linarith
  have hbelow' := Int.cast_lt.mp hbelow
  have habove' := Int.cast_lt.mp habove
  omega

theorem roundHalfEven_neg (x : ℚ) : roundHalfEven (-x) = -roundHalfEven x := by
  by_cases hint : (⌊x⌋ : ℚ) = x
  · have h := roundHalfEven_intCast (-⌊x⌋)
    push_cast at h
    rw [← hint, h, roundHalfEven_intCast]
  · have hlow : (⌊x⌋ : ℚ) < x := lt_of_le_of_ne (Int.floor_le x) hint
    have hhigh : x < ⌊x⌋ + 1 := Int.lt_floor_add_one x
    have hfloor : ⌊-x⌋ = -⌊x⌋ - 1 := by
      rw [Int.floor_eq_iff]
      push_cast
      constructor <;> linarith
    have hfrac : -x - ((-⌊x⌋ - 1 : ℤ) : ℚ) = 1 - (x - ⌊x⌋) := by
      push_cast
      ring
    simp only [roundHalfEven, hfloor, hfrac]
    rcases lt_trichotomy (x - ⌊x⌋) (1 / 2) with h | h | h
    · rw [if_neg (by linarith), if_pos (by linarith), if_pos h]
      ring
    · have hhalf : (1 : ℚ) - 1 / 2 = 1 / 2 := by norm_num
      simp only [h, hhalf, lt_irrefl, if_false]
      split_ifs <;> omega
    · rw [if_pos (by linarith), if_neg (by linarith), if_pos h]
      ring

/-! ## Rounding to 53 bits -/

/-- The exponent of the last bit kept of `q`. -/
def lastBit (q : ℚ) : ℤ := max (Int.log 2 |q| - 52) (-1074)

def roundRat (q : ℚ) : ℚ := (roundHalfEven (q / 2 ^ lastBit q) : ℚ) * 2 ^ lastBit q

theorem two_zpow_pos (e : ℤ) : (0 : ℚ) < 2 ^ e := zpow_pos (by norm_num) e

theorem roundRat_of_multiple {q : ℚ} (n : ℤ) (h : q = n * 2 ^ lastBit q) : roundRat q = q := by
  have hdiv : q / 2 ^ lastBit q = n := by
    rw [div_eq_iff (two_zpow_pos _).ne']
    exact h
  rw [roundRat, hdiv, roundHalfEven_intCast]
  exact h.symm

theorem multiple_of_roundRat {q : ℚ} (h : roundRat q = q) : ∃ n : ℤ, q = n * 2 ^ lastBit q :=
  ⟨roundHalfEven (q / 2 ^ lastBit q), h.symm⟩

theorem roundRat_of_le {q : ℚ} {n e : ℤ} (h : q = n * 2 ^ e) (hle : lastBit q ≤ e) :
    roundRat q = q := by
  apply roundRat_of_multiple (n * 2 ^ (e - lastBit q).toNat)
  have hexp : (2 : ℚ) ^ (e - lastBit q).toNat * 2 ^ lastBit q = 2 ^ e := by
    rw [← zpow_natCast, ← zpow_add₀ (by norm_num : (2 : ℚ) ≠ 0)]
    congr 1
    omega
  push_cast
  rw [mul_assoc, hexp]
  exact h

theorem abs_lt_lastBit (q : ℚ) : |q| < 2 ^ (lastBit q + 53) := by
  calc |q| < (2 : ℚ) ^ (Int.log 2 |q| + 1) := by
        exact_mod_cast Int.lt_zpow_succ_log_self (b := 2) (by norm_num) |q|
    _ ≤ 2 ^ (lastBit q + 53) := by
        apply zpow_le_zpow_right₀ (by norm_num)
        unfold lastBit
        omega

theorem lastBit_le {q : ℚ} {e : ℤ} (hq : q ≠ 0) (h : |q| < 2 ^ (e + 53)) (hmin : -1074 ≤ e) :
    lastBit q ≤ e := by
  have hlog : (2 : ℚ) ^ Int.log 2 |q| ≤ |q| := by
    exact_mod_cast Int.zpow_log_le_self (b := 2) (by norm_num) (abs_pos.mpr hq)
  have hlt := (zpow_lt_zpow_iff_right₀ (by norm_num : (1 : ℚ) < 2)).mp (hlog.trans_lt h)
  exact max_le (by omega) hmin

theorem lastBit_eq {q : ℚ} {e : ℤ} (hlow : 2 ^ (e + 52) ≤ q) (hhigh : q < 2 ^ (e + 53)) (hmin : -1074 ≤ e) :
    lastBit q = e := by
  have hpos : 0 < q := (two_zpow_pos _).trans_le hlow
  refine le_antisymm (lastBit_le hpos.ne' (by rwa [abs_of_pos hpos]) hmin) ?_
  have hbelow := hlow.trans_lt ((le_abs_self q).trans_lt (abs_lt_lastBit q))
  have hexp := (zpow_lt_zpow_iff_right₀ (by norm_num : (1 : ℚ) < 2)).mp hbelow
  omega

theorem roundRat_near {q : ℚ} {e : ℤ} (n : ℤ) (hlow : 2 ^ (e + 52) ≤ q) (hhigh : q < 2 ^ (e + 53))
    (hmin : -1074 ≤ e) (hnear : |q / 2 ^ e - n| < 1 / 2) : roundRat q = n * 2 ^ e := by
  rw [roundRat, lastBit_eq hlow hhigh hmin, roundHalfEven_of_near hnear]

theorem roundRat_zero : roundRat 0 = 0 := roundRat_of_multiple 0 (by simp)

theorem abs_kept_le (q : ℚ) : |roundHalfEven (q / 2 ^ lastBit q)| ≤ 2 ^ 53 := by
  have hscaled : |q / 2 ^ lastBit q| < 2 ^ 53 := by
    rw [abs_div, abs_of_pos (two_zpow_pos _), div_lt_iff₀ (two_zpow_pos _)]
    calc |q| < 2 ^ (lastBit q + 53) := abs_lt_lastBit q
      _ = 2 ^ 53 * 2 ^ lastBit q := by
          rw [add_comm, zpow_add₀ (by norm_num)]
          norm_num
  obtain ⟨hlow, hhigh⟩ := abs_lt.mp hscaled
  rw [abs_le]
  constructor
  · apply le_roundHalfEven
    push_cast
    exact hlow.le
  · apply roundHalfEven_le
    push_cast
    exact hhigh.le

theorem roundRat_roundRat (q : ℚ) : roundRat (roundRat q) = roundRat q := by
  have hkept := abs_kept_le q
  set n := roundHalfEven (q / 2 ^ lastBit q) with hn
  have hround : roundRat q = n * 2 ^ lastBit q := rfl
  have hmin : -1074 ≤ lastBit q := le_max_right _ _
  rw [hround]
  have habs : |(n : ℚ) * 2 ^ lastBit q| = |(n : ℚ)| * 2 ^ lastBit q := by
    rw [abs_mul, abs_of_pos (two_zpow_pos _)]
  by_cases hzero : n = 0
  · rw [hzero, Int.cast_zero, zero_mul, roundRat_zero]
  have hne : (n : ℚ) * 2 ^ lastBit q ≠ 0 := mul_ne_zero (Int.cast_ne_zero.mpr hzero) (two_zpow_pos _).ne'
  rcases hkept.lt_or_eq with hlt | hmax
  · refine roundRat_of_le rfl (lastBit_le hne ?_ hmin)
    rw [habs, add_comm, zpow_add₀ (by norm_num)]
    apply mul_lt_mul_of_pos_right _ (two_zpow_pos _)
    exact_mod_cast hlt
  · -- a carry out of the 53 bits leaves a power of two
    obtain ⟨k, hk⟩ : ∃ k : ℤ, n = k * 2 := by
      rcases abs_eq (by norm_num) |>.mp hmax with h | h
      · exact ⟨2 ^ 52, by rw [h]; norm_num⟩
      · exact ⟨-2 ^ 52, by rw [h]; norm_num⟩
    apply roundRat_of_le (n := k) (e := lastBit q + 1)
    · rw [hk, zpow_add₀ (by norm_num), zpow_one]
      push_cast
      ring
    · apply lastBit_le hne _ (by omega)
      have hcast : |(n : ℚ)| = 2 ^ 53 := by exact_mod_cast hmax
      rw [habs, hcast, show lastBit q + 1 + 53 = 54 + lastBit q by ring, zpow_add₀ (by norm_num)]
      apply mul_lt_mul_of_pos_right _ (two_zpow_pos _)
      norm_num

theorem roundRat_nonneg {q : ℚ} (h : 0 ≤ q) : 0 ≤ roundRat q := by
  have hscaled : ((0 : ℤ) : ℚ) ≤ q / 2 ^ lastBit q := by
    rw [Int.cast_zero]
    exact div_nonneg h (two_zpow_pos _).le
  exact mul_nonneg (by exact_mod_cast le_roundHalfEven hscaled) (two_zpow_pos _).le

/-! ## Whole numbers -/

theorem roundRat_intCast {n : ℤ} (h : |n| ≤ 2 ^ 53) : roundRat n = n := by
  by_cases hzero : n = 0
  · rw [hzero, Int.cast_zero, roundRat_zero]
  have hne : (n : ℚ) ≠ 0 := Int.cast_ne_zero.mpr hzero
  rcases h.lt_or_eq with hlt | hmax
  · apply roundRat_of_le (n := n) (e := 0) (by simp)
    apply lastBit_le hne _ (by norm_num)
    rw [zero_add]
    exact_mod_cast hlt
  · obtain ⟨k, hk⟩ : ∃ k : ℤ, n = k * 2 := by
      rcases abs_eq (by norm_num) |>.mp hmax with hn | hn
      · exact ⟨2 ^ 52, by rw [hn]; norm_num⟩
      · exact ⟨-2 ^ 52, by rw [hn]; norm_num⟩
    apply roundRat_of_le (n := k) (e := 1)
    · rw [hk, zpow_one]
      push_cast
      ring
    · apply lastBit_le hne _ (by norm_num)
      have hcast : |(n : ℚ)| = 2 ^ 53 := by exact_mod_cast hmax
      rw [hcast]
      norm_num

theorem one_le_lastBit_abs {q : ℚ} (h : 2 ^ 53 ≤ |q|) : 1 ≤ lastBit q := by
  have hlog : (53 : ℤ) ≤ Int.log 2 |q| := by
    have hpos : 0 < |q| := lt_of_lt_of_le (by norm_num) h
    apply (Int.zpow_le_iff_le_log (b := 2) (by norm_num) hpos).mp
    exact_mod_cast h
  exact le_max_of_le_left (by omega)

theorem one_le_lastBit {q : ℚ} (h : 2 ^ 53 ≤ q) : 1 ≤ lastBit q :=
  one_le_lastBit_abs (h.trans (le_abs_self q))

theorem lastBit_add {q f : ℚ} (hlarge : 2 ^ 53 ≤ q) (hround : roundRat q = q) (hf : 0 ≤ f) (hf' : f ≤ 1) :
    lastBit (q + f) = lastBit q := by
  have hpos : 0 < q := lt_of_lt_of_le (by norm_num) hlarge
  obtain ⟨k, hk⟩ := multiple_of_roundRat hround
  have hbit := one_le_lastBit hlarge
  have hunit : (2 : ℚ) ≤ 2 ^ lastBit q := by
    calc (2 : ℚ) = 2 ^ (1 : ℤ) := by norm_num
      _ ≤ 2 ^ lastBit q := zpow_le_zpow_right₀ (by norm_num) hbit
  have hlt := abs_lt_lastBit q
  rw [abs_of_pos hpos] at hlt
  -- below the next power of two a multiple of the last bit leaves room for one more
  have hroom : q + 2 ^ lastBit q ≤ 2 ^ (lastBit q + 53) := by
    have hsplit : (2 : ℚ) ^ (lastBit q + 53) = ((2 ^ 53 : ℤ) : ℚ) * 2 ^ lastBit q := by
      rw [add_comm, zpow_add₀ (by norm_num)]
      norm_num
    rw [hsplit] at hlt ⊢
    have hk' : q = k * 2 ^ lastBit q := hk
    have hklt : (k : ℚ) * 2 ^ lastBit q < ((2 ^ 53 : ℤ) : ℚ) * 2 ^ lastBit q := by rw [← hk']; exact hlt
    have hkle : k + 1 ≤ 2 ^ 53 := by
      have := lt_of_mul_lt_mul_right hklt (two_zpow_pos _).le
      exact_mod_cast this
    calc q + 2 ^ lastBit q = ((k + 1 : ℤ) : ℚ) * 2 ^ lastBit q := by
          push_cast
          rw [add_mul, one_mul, ← hk']
      _ ≤ ((2 ^ 53 : ℤ) : ℚ) * 2 ^ lastBit q := by
          apply mul_le_mul_of_nonneg_right _ (two_zpow_pos _).le
          exact_mod_cast hkle
  have hmin : -1074 ≤ lastBit q := le_max_right _ _
  have hpos' : 0 < q + f := by linarith
  apply le_antisymm
  · apply lastBit_le hpos'.ne' _ hmin
    rw [abs_of_pos hpos']
    linarith
  · have hmono : Int.log 2 |q| ≤ Int.log 2 |q + f| := by
      rw [abs_of_pos hpos, abs_of_pos hpos']
      exact Int.log_mono_right hpos (by linarith)
    unfold lastBit
    omega

theorem two_zpow_neg_le {q : ℚ} (hlarge : 2 ^ 53 ≤ q) : (2 : ℚ) ^ (-lastBit q) ≤ 1 / 2 := by
  calc (2 : ℚ) ^ (-lastBit q) ≤ 2 ^ (-1 : ℤ) :=
        zpow_le_zpow_right₀ (by norm_num) (by have := one_le_lastBit hlarge; omega)
    _ = 1 / 2 := by norm_num

/-- One more than a large rounded number is rounded back to it, or up by one last bit when the bit is
two and the number is no multiple of four. -/
theorem roundRat_add_one_large {q : ℚ} (hlarge : 2 ^ 53 ≤ q) (hround : roundRat q = q) :
    roundRat (q + 1) = q ∨
      (lastBit q = 1 ∧ ∃ k : ℤ, q = k * 2 ∧ k % 2 = 1 ∧ roundRat (q + 1) = q + 2) := by
  obtain ⟨k, hk⟩ := multiple_of_roundRat hround
  have hbit := one_le_lastBit hlarge
  have hscaled : (q + 1) / 2 ^ lastBit q = k + 2 ^ (-lastBit q) := by
    rw [div_eq_iff (two_zpow_pos _).ne', add_mul, ← hk, ← zpow_add₀ (by norm_num), neg_add_cancel,
      zpow_zero]
  have hsmall := two_zpow_neg_le hlarge
  have hpos := two_zpow_pos (-lastBit q)
  have hfloor : ⌊(k : ℚ) + 2 ^ (-lastBit q)⌋ = k := by
    rw [Int.floor_eq_iff]
    constructor <;> linarith
  have hfract : (k : ℚ) + 2 ^ (-lastBit q) - ⌊(k : ℚ) + 2 ^ (-lastBit q)⌋ = 2 ^ (-lastBit q) := by
    rw [hfloor]
    ring
  have hresult : ∀ n : ℤ, roundHalfEven ((k : ℚ) + 2 ^ (-lastBit q)) = n →
      roundRat (q + 1) = n * 2 ^ lastBit q := by
    intro n hn
    rw [roundRat, lastBit_add hlarge hround (by norm_num) le_rfl, hscaled, hn]
  by_cases hone : lastBit q = 1
  · have hhalf : (2 : ℚ) ^ (-lastBit q) = 1 / 2 := by
      rw [hone]
      norm_num
    rcases Int.emod_two_eq_zero_or_one k with heven | hodd
    · left
      rw [hresult k, ← hk]
      rw [roundHalfEven, hfract, hfloor, hhalf, if_neg (lt_irrefl _), if_neg (lt_irrefl _), if_pos heven]
    · refine .inr ⟨hone, k, ?_, hodd, ?_⟩
      · rw [hone, zpow_one] at hk
        exact hk
      · rw [hresult (k + 1)]
        · push_cast
          rw [add_mul, one_mul, ← hk, hone, zpow_one]
        · rw [roundHalfEven, hfract, hfloor, hhalf, if_neg (lt_irrefl _), if_neg (lt_irrefl _),
            if_neg (by omega)]
  · left
    rw [hresult k, ← hk]
    have hquarter : (2 : ℚ) ^ (-lastBit q) ≤ 2 ^ (-2 : ℤ) :=
      zpow_le_zpow_right₀ (by norm_num) (by omega)
    have hlt : (2 : ℚ) ^ (-lastBit q) < 1 / 2 := lt_of_le_of_lt hquarter (by norm_num)
    rw [roundHalfEven_of_lt (by rw [hfract]; exact hlt), hfloor]

theorem roundRat_add_small {q f : ℚ} (hlarge : 2 ^ 54 ≤ q) (hround : roundRat q = q) (hf : 0 ≤ f)
    (hf' : f ≤ 1) : roundRat (q + f) = q := by
  have hlarge' : (2 : ℚ) ^ 53 ≤ q := le_trans (by norm_num) hlarge
  obtain ⟨k, hk⟩ := multiple_of_roundRat hround
  have hpos : 0 < q := lt_of_lt_of_le (by norm_num) hlarge
  have hlog : (54 : ℤ) ≤ Int.log 2 |q| := by
    rw [abs_of_pos hpos]
    apply (Int.zpow_le_iff_le_log (b := 2) (by norm_num) hpos).mp
    exact_mod_cast hlarge
  have hbit : 2 ≤ lastBit q := le_max_of_le_left (by omega)
  have hunit : (4 : ℚ) ≤ 2 ^ lastBit q := by
    calc (4 : ℚ) = 2 ^ (2 : ℤ) := by norm_num
      _ ≤ 2 ^ lastBit q := zpow_le_zpow_right₀ (by norm_num) hbit
  have hsmall : f / 2 ^ lastBit q < 1 / 2 := by
    rw [div_lt_iff₀ (two_zpow_pos _)]
    linarith
  have hfract : 0 ≤ f / 2 ^ lastBit q := div_nonneg hf (two_zpow_pos _).le
  have hscaled : (q + f) / 2 ^ lastBit q = k + f / 2 ^ lastBit q := by
    rw [div_eq_iff (two_zpow_pos _).ne', add_mul, ← hk, div_mul_cancel₀ _ (two_zpow_pos _).ne']
  have hfloor : ⌊(k : ℚ) + f / 2 ^ lastBit q⌋ = k := by
    rw [Int.floor_eq_iff]
    constructor <;> linarith
  rw [roundRat, lastBit_add hlarge' hround hf hf', hscaled,
    roundHalfEven_of_lt (by rw [hfloor]; linarith), hfloor, ← hk]

theorem roundRat_le_two_zpow {q : ℚ} {k : ℤ} (hq : 0 < q) (h : q ≤ 2 ^ k) (hk : -1074 ≤ k) :
    roundRat q ≤ 2 ^ k := by
  have hlog : (2 : ℚ) ^ Int.log 2 q ≤ q := by
    exact_mod_cast Int.zpow_log_le_self (b := 2) (by norm_num) hq
  have hle := (zpow_le_zpow_iff_right₀ (by norm_num : (1 : ℚ) < 2)).mp (hlog.trans h)
  have hbit : lastBit q ≤ k := by
    unfold lastBit
    rw [abs_of_pos hq]
    omega
  have hsplit : (2 : ℚ) ^ k = ((2 ^ (k - lastBit q).toNat : ℤ) : ℚ) * 2 ^ lastBit q := by
    push_cast
    rw [← zpow_natCast, ← zpow_add₀ (by norm_num : (2 : ℚ) ≠ 0)]
    congr 1
    omega
  rw [hsplit] at h ⊢
  apply mul_le_mul_of_nonneg_right _ (two_zpow_pos _).le
  exact_mod_cast roundHalfEven_le ((div_le_iff₀ (two_zpow_pos _)).mpr h)

theorem roundRat_le {q r : ℚ} (hq : 0 ≤ q) (h : q ≤ r) (hr : roundRat r = r) : roundRat q ≤ r := by
  obtain rfl | hpos := hq.eq_or_lt
  · rw [roundRat_zero]
    exact h
  · obtain ⟨n, hn⟩ := multiple_of_roundRat hr
    have hlog : Int.log 2 |q| ≤ Int.log 2 |r| := by
      rw [abs_of_pos hpos, abs_of_pos (hpos.trans_le h)]
      exact Int.log_mono_right hpos h
    have hlast : lastBit q ≤ lastBit r := max_le_max (by omega) le_rfl
    obtain ⟨k, hk⟩ := Int.eq_ofNat_of_zero_le (by omega : 0 ≤ lastBit r - lastBit q)
    have hmultiple : r = ((n * 2 ^ k : ℤ) : ℚ) * 2 ^ lastBit q := by
      have hsplit : lastBit r = k + lastBit q := by omega
      rw [hsplit, zpow_add₀ (by norm_num), zpow_natCast] at hn
      rw [Int.cast_mul, Int.cast_pow, Int.cast_ofNat, mul_assoc]
      exact hn
    have hquotient : q / 2 ^ lastBit q ≤ ((n * 2 ^ k : ℤ) : ℚ) := by
      rw [div_le_iff₀ (two_zpow_pos _), ← hmultiple]
      exact h
    have hrounded : (roundHalfEven (q / 2 ^ lastBit q) : ℚ) ≤ ((n * 2 ^ k : ℤ) : ℚ) := by
      exact_mod_cast roundHalfEven_le hquotient
    calc roundRat q = (roundHalfEven (q / 2 ^ lastBit q) : ℚ) * 2 ^ lastBit q := rfl
      _ ≤ ((n * 2 ^ k : ℤ) : ℚ) * 2 ^ lastBit q := mul_le_mul_of_nonneg_right hrounded (two_zpow_pos _).le
      _ = r := hmultiple.symm

theorem roundRat_pos {q : ℚ} (h : 2 ^ (-1074 : ℤ) ≤ q) : 0 < roundRat q := by
  have hq : 0 < q := lt_of_lt_of_le (two_zpow_pos _) h
  have hlog : (2 : ℚ) ^ Int.log 2 q ≤ q := by
    exact_mod_cast Int.zpow_log_le_self (b := 2) (by norm_num) hq
  have hunit : (2 : ℚ) ^ lastBit q ≤ q := by
    unfold lastBit
    rw [abs_of_pos hq]
    rcases le_total (Int.log 2 q - 52) (-1074) with hle | hle
    · rw [max_eq_right hle]
      exact h
    · rw [max_eq_left hle]
      exact (zpow_le_zpow_right₀ (by norm_num) (by omega)).trans hlog
  have hkept : (1 : ℤ) ≤ roundHalfEven (q / 2 ^ lastBit q) := by
    apply le_roundHalfEven
    rw [Int.cast_one, le_div_iff₀ (two_zpow_pos _), one_mul]
    exact hunit
  exact mul_pos (by exact_mod_cast hkept) (two_zpow_pos _)

theorem roundRat_abs {q : ℚ} (h : roundRat q = q) : roundRat |q| = |q| := by
  obtain ⟨n, hn⟩ := multiple_of_roundRat h
  have hbit : lastBit |q| = lastBit q := by
    unfold lastBit
    rw [abs_abs]
  apply roundRat_of_multiple |n|
  rw [hbit]
  calc |q| = |(n : ℚ) * 2 ^ lastBit q| := by rw [← hn]
    _ = ((|n| : ℤ) : ℚ) * 2 ^ lastBit q := by
        rw [abs_mul, abs_of_pos (two_zpow_pos _), Int.cast_abs]

/-- Adding one to a rounded whole number is exact, or its result is a number that adding one leaves
as it is. -/
theorem roundRat_succ {n : ℤ} (hnonneg : 0 ≤ n) (hround : roundRat n = n) :
    (n + 1 ≤ 2 ^ 53 ∧ roundRat ((n : ℚ) + 1) = n + 1) ∨
      (∃ m : ℤ, roundRat ((n : ℚ) + 1) = m ∧ n ≤ m ∧ m ≤ max n (2 ^ 54) ∧
        roundRat ((m : ℚ) + 1) = m) := by
  by_cases hsmall : n + 1 ≤ 2 ^ 53
  · left
    have hexact : roundRat ((n + 1 : ℤ) : ℚ) = ((n + 1 : ℤ) : ℚ) :=
      roundRat_intCast (by rw [abs_of_nonneg (by omega)]; exact hsmall)
    push_cast at hexact
    exact ⟨hsmall, hexact⟩
  · right
    have hlarge : (2 : ℚ) ^ 53 ≤ n := by
      have : (2 : ℤ) ^ 53 ≤ n := by omega
      exact_mod_cast this
    rcases roundRat_add_one_large hlarge hround with hsame | ⟨hbit, k, hk, hodd, hup⟩
    · exact ⟨n, hsame, le_rfl, le_max_left _ _, hsame⟩
    · have hbound := abs_lt_lastBit n
      rw [hbit, abs_of_nonneg (by exact_mod_cast hnonneg)] at hbound
      have hint : n = k * 2 := by exact_mod_cast hk
      have hlt : n < 2 ^ 54 := by exact_mod_cast hbound
      refine ⟨n + 2, by push_cast; exact hup, by omega, le_max_of_le_right (by omega), ?_⟩
      -- the number two further on is a multiple of four
      have hlarge' : (2 : ℚ) ^ 53 ≤ ((n + 2 : ℤ) : ℚ) := by
        push_cast
        linarith
      have hround' : roundRat ((n + 2 : ℤ) : ℚ) = ((n + 2 : ℤ) : ℚ) := by
        push_cast
        rw [← hup, roundRat_roundRat]
      rcases roundRat_add_one_large hlarge' hround' with hsame | ⟨-, k', hk', hodd', -⟩
      · exact hsame
      · exfalso
        have hint' : n + 2 = k' * 2 := by exact_mod_cast hk'
        omega

theorem roundRat_large {q : ℚ} (hlarge : 2 ^ 53 ≤ q) : 2 ^ 53 ≤ roundRat q := by
  have hpos : 0 < q := lt_of_lt_of_le (by norm_num) hlarge
  have hbit := one_le_lastBit hlarge
  have hlog : lastBit q + 52 = Int.log 2 q := by
    unfold lastBit at hbit ⊢
    rw [abs_of_pos hpos] at hbit ⊢
    omega
  have hkept : (2 : ℤ) ^ 52 ≤ roundHalfEven (q / 2 ^ lastBit q) := by
    apply le_roundHalfEven
    rw [le_div_iff₀ (two_zpow_pos _)]
    calc ((2 ^ 52 : ℤ) : ℚ) * 2 ^ lastBit q = 2 ^ Int.log 2 q := by
          rw [← hlog, add_comm, zpow_add₀ (by norm_num)]
          norm_num
      _ ≤ q := by exact_mod_cast Int.zpow_log_le_self (b := 2) (by norm_num) hpos
  have hunit : (2 : ℚ) ≤ 2 ^ lastBit q := by
    calc (2 : ℚ) = 2 ^ (1 : ℤ) := by norm_num
      _ ≤ 2 ^ lastBit q := zpow_le_zpow_right₀ (by norm_num) hbit
  calc (2 : ℚ) ^ 53 = 2 ^ 52 * 2 := by norm_num
    _ ≤ (roundHalfEven (q / 2 ^ lastBit q) : ℚ) * 2 ^ lastBit q := by
        apply mul_le_mul (by exact_mod_cast hkept) hunit (by norm_num)
        exact_mod_cast le_trans (by norm_num) hkept

/-! ## Doubles -/

def overflowExponent : ℕ := 1024

/-- The double of an exact result. -/
def round64 : ExactNum → ExactNum
  | .fin q =>
    if 2 ^ overflowExponent ≤ |roundRat q| then (if 0 < roundRat q then .posInf else .negInf)
    else .fin (roundRat q)
  | x => x

theorem round64_round64 (x : ExactNum) : round64 (round64 x) = round64 x := by
  cases x with
  | fin q =>
    by_cases hlarge : 2 ^ overflowExponent ≤ |roundRat q|
    · rw [round64, if_pos hlarge]
      split <;> rfl
    · rw [round64, if_neg hlarge, round64, roundRat_roundRat, if_neg hlarge]
  | nan => rfl
  | negInf => rfl
  | posInf => rfl

theorem round64_nan : round64 .nan = .nan := rfl

/-- A value that is its own rounding. -/
structure Double where
  val : ExactNum
  rounded : round64 val = val
  deriving DecidableEq

namespace Double

def ofExact (x : ExactNum) : Double := ⟨round64 x, round64_round64 x⟩

instance : Binary64 Double where
  lit q := ofExact (.fin q)
  posInf := ⟨.posInf, rfl⟩
  negInf := ⟨.negInf, rfl⟩
  add x y := ofExact (x.val.add y.val)
  sub x y := ofExact (x.val.add y.val.neg)
  mul x y := ofExact (x.val.mul y.val)
  div x y := ofExact (x.val.div y.val)
  abs x := ofExact x.val.abs
  max x y := ofExact (x.val.max y.val)
  min x y := ofExact (x.val.min y.val)
  ceil x := ofExact x.val.ceil
  sign x := ofExact x.val.sign
  lt x y := x.val.lt y.val
  le x y := x.val.le y.val
  eq x y := x.val.eq y.val
  isFinite x := x.val.isFinite
  isInteger x := x.val.isInteger
  safeInteger x := x.val.safeInteger

theorem round64_of_lt {q : ℚ} (h : |roundRat q| < 2 ^ overflowExponent) : round64 (.fin q) = .fin (roundRat q) :=
  if_neg (not_le.mpr h)

theorem rounded_fin {q : ℚ} (h : round64 (.fin q) = .fin q) : roundRat q = q ∧ |q| < 2 ^ overflowExponent := by
  by_cases hlarge : 2 ^ overflowExponent ≤ |roundRat q|
  · rw [round64, if_pos hlarge] at h
    split at h <;> cases h
  · rw [round64, if_neg hlarge] at h
    have hsame : roundRat q = q := ExactNum.fin.inj h
    rw [hsame] at hlarge
    exact ⟨hsame, not_le.mp hlarge⟩

def value (x : Double) : ℚ :=
  match x.val with
  | .fin q => q
  | _ => 0

variable {x y : Double} {p q : ℚ}

theorem val_of_finite (h : Binary64.isFinite x = true) : x.val = .fin x.value := by
  have hfinite : x.val.isFinite = true := h
  unfold value
  cases hx : x.val <;> simp_all [ExactNum.isFinite]

theorem value_of_val (h : x.val = .fin q) : x.value = q := by
  unfold value
  rw [h]

theorem integer_iff : Binary64.isInteger x = true ↔ ∃ n : ℤ, x.val = .fin n := by
  show x.val.isInteger = true ↔ _
  cases hx : x.val with
  | fin q =>
    simp only [ExactNum.isInteger, decide_eq_true_eq, ExactNum.fin.injEq]
    constructor
    · intro hden
      exact ⟨q.num, (Rat.den_eq_one_iff q).mp hden |>.symm⟩
    · rintro ⟨n, rfl⟩
      exact Rat.den_intCast n
  | _ => simp [ExactNum.isInteger]

theorem lt_iff (hx : x.val = .fin p) (hy : y.val = .fin q) : Binary64.lt x y = true ↔ p < q := by
  show x.val.lt y.val = true ↔ _
  rw [hx, hy]
  exact decide_eq_true_iff

theorem eq_iff (hx : x.val = .fin p) (hy : y.val = .fin q) : Binary64.eq x y = true ↔ p = q := by
  show x.val.eq y.val = true ↔ _
  rw [hx, hy]
  simp [ExactNum.eq]

theorem val_of_eq (h : Binary64.eq x y = true) (hy : y.val = .fin q) : x.val = .fin q := by
  have heq : x.val.eq y.val = true := h
  rw [hy] at heq
  cases hx : x.val <;> simp_all [ExactNum.eq]

theorem le_iff (hx : x.val = .fin p) (hy : y.val = .fin q) : Binary64.le x y = true ↔ p ≤ q := by
  show (x.val.lt y.val || x.val.eq y.val) = true ↔ _
  rw [Bool.or_eq_true, le_iff_lt_or_eq]
  exact or_congr (lt_iff hx hy) (eq_iff hx hy)

theorem two_pow_lt {a b : ℕ} (h : a < b) : (2 : ℤ) ^ a < 2 ^ b := pow_lt_pow_right₀ (by norm_num) h

theorem lit_intCast {n : ℤ} (h : |n| ≤ 2 ^ 53) : (Binary64.lit (n : ℚ) : Double).val = .fin n := by
  have hround := roundRat_intCast h
  have hrange : |(n : ℚ)| < 2 ^ overflowExponent := by exact_mod_cast lt_of_le_of_lt h (two_pow_lt (by decide))
  show round64 (.fin n) = .fin n
  rw [round64_of_lt (by rw [hround]; exact hrange), hround]

theorem lit_natCast {n : ℕ} (h : n ≤ 2 ^ 53) : (Binary64.lit (n : ℚ) : Double).val = .fin n := by
  have hlit := lit_intCast (n := (n : ℤ)) (by rw [Nat.abs_cast]; exact_mod_cast h)
  exact_mod_cast hlit

theorem lit_dyadic {n : ℤ} {k : ℕ} (h : |n| < 2 ^ 53) (hk : k ≤ 1074) :
    (Binary64.lit ((n : ℚ) / 2 ^ k) : Double).val = .fin (n / 2 ^ k) := by
  have hpow : (1 : ℚ) ≤ 2 ^ k := one_le_pow₀ (by norm_num)
  have hsize : |(n : ℚ)| < 2 ^ 53 := by exact_mod_cast h
  have hround : roundRat ((n : ℚ) / 2 ^ k) = n / 2 ^ k := by
    by_cases hzero : n = 0
    · rw [hzero, Int.cast_zero, zero_div, roundRat_zero]
    · have hne : (n : ℚ) / 2 ^ k ≠ 0 := div_ne_zero (Int.cast_ne_zero.mpr hzero) (pow_ne_zero _ (by norm_num))
      refine roundRat_of_le (n := n) (e := -k) (by rw [zpow_neg, zpow_natCast, div_eq_mul_inv]) (lastBit_le hne ?_ (by omega))
      rw [abs_div, abs_of_pos (by positivity : (0 : ℚ) < 2 ^ k), div_lt_iff₀ (by positivity), ← zpow_natCast (2 : ℚ) k,
        ← zpow_add₀ (by norm_num)]
      simpa using hsize
  have hrange : |(n : ℚ) / 2 ^ k| < 2 ^ overflowExponent := by
    rw [abs_div, abs_of_pos (by positivity : (0 : ℚ) < 2 ^ k)]
    refine lt_of_le_of_lt (div_le_self (abs_nonneg _) hpow) (lt_trans hsize ?_)
    exact_mod_cast two_pow_lt (by decide)
  show round64 (.fin ((n : ℚ) / 2 ^ k)) = _
  rw [round64_of_lt (by rw [hround]; exact hrange), hround]

theorem lit_threeHalves : (Binary64.lit (3 / 2 : ℚ) : Double).val = .fin (3 / 2) := by
  simpa using @lit_dyadic 3 1 (by norm_num) (by norm_num)

theorem lit_half : (Binary64.lit (1 / 2 : ℚ) : Double).val = .fin (1 / 2) := by
  simpa using @lit_dyadic 1 1 (by norm_num) (by norm_num)

theorem lit_one : (Binary64.lit (1 : ℚ) : Double).val = .fin 1 := by
  have hlit := lit_intCast (n := 1) (by norm_num)
  exact_mod_cast hlit

theorem val_add_one (hx : x.val = .fin q) :
    (Binary64.add x (Binary64.lit 1)).val = round64 (.fin (q + 1)) := by
  show round64 (x.val.add (Binary64.lit (1 : ℚ) : Double).val) = _
  rw [hx, lit_one]
  rfl

theorem add_one {n : ℤ} (hx : x.val = .fin n) (hnonneg : 0 ≤ n) :
    (Binary64.add x (Binary64.lit 1)).val = .fin (n + 1) ∨
      ∃ m : ℤ, (Binary64.add x (Binary64.lit 1)).val = .fin m ∧ n ≤ m ∧
        round64 (.fin (m + 1)) = .fin m := by
  obtain ⟨hround, hrange⟩ := rounded_fin (hx ▸ x.rounded)
  have hrange' : (max n (2 ^ 54) : ℤ) < 2 ^ overflowExponent := by
    have hn : n < 2 ^ overflowExponent := by
      rw [abs_of_nonneg (by exact_mod_cast hnonneg)] at hrange
      exact_mod_cast hrange
    exact max_lt hn (two_pow_lt (by decide))
  rw [val_add_one hx]
  rcases roundRat_succ hnonneg hround with ⟨hsmall, hexact⟩ | ⟨m, hm, hle, hmax, hfixed⟩
  · left
    have hlt : |(n : ℚ) + 1| < 2 ^ overflowExponent := by
      rw [abs_of_nonneg (by positivity)]
      exact_mod_cast hsmall.trans_lt (two_pow_lt (by decide))
    rw [round64_of_lt (by rw [hexact]; exact hlt), hexact]
  · right
    have hmlt : |(m : ℚ)| < 2 ^ overflowExponent := by
      rw [abs_of_nonneg (by exact_mod_cast hnonneg.trans hle)]
      exact_mod_cast hmax.trans_lt hrange'
    refine ⟨m, ?_, hle, ?_⟩
    · rw [round64_of_lt (by rw [hm]; exact hmlt), hm]
    · rw [round64_of_lt (by rw [hfixed]; exact hmlt), hfixed]

theorem not_lt_iff (hx : Binary64.isFinite x = true) (hy : Binary64.isFinite y = true) :
    Binary64.lt x y = false ↔ Binary64.le y x = true := by
  rw [le_iff (val_of_finite hy) (val_of_finite hx), ← not_lt,
    ← lt_iff (val_of_finite hx) (val_of_finite hy), Bool.not_eq_true]

theorem not_le_iff (hx : Binary64.isFinite x = true) (hy : Binary64.isFinite y = true) :
    Binary64.le x y = false ↔ Binary64.lt y x = true := by
  rw [lt_iff (val_of_finite hy) (val_of_finite hx), ← not_le,
    ← le_iff (val_of_finite hx) (val_of_finite hy), Bool.not_eq_true]

theorem natCast_of_eq_lit {k n : ℕ} (hk : k < 2 ^ 53) (hx : x.val = .fin k)
    (h : Binary64.eq x (Binary64.lit n) = true) : n = k := by
  by_cases hn : n ≤ 2 ^ 53
  · have hvalue := (eq_iff hx (lit_natCast hn)).mp h
    exact_mod_cast hvalue.symm
  · exfalso
    have hlarge : (2 : ℚ) ^ 53 ≤ n := by exact_mod_cast (not_le.mp hn).le
    have hround := roundRat_large hlarge
    have hlit : (Binary64.lit (n : ℚ) : Double).val = round64 (.fin n) := rfl
    by_cases hover : 2 ^ overflowExponent ≤ |roundRat n|
    · rw [round64, if_pos hover, if_pos (lt_of_lt_of_le (by norm_num) hround)] at hlit
      have hfalse : x.val.eq (Binary64.lit (n : ℚ) : Double).val = false := by
        rw [hx, hlit]
        rfl
      have htrue : x.val.eq (Binary64.lit (n : ℚ) : Double).val = true := h
      rw [hfalse] at htrue
      cases htrue
    · rw [round64, if_neg hover] at hlit
      have hvalue := (eq_iff hx hlit).mp h
      rw [← hvalue] at hround
      have hle : 2 ^ 53 ≤ k := by exact_mod_cast hround
      omega

/-! ### Signs -/

/-- A number or an infinity that is not negative. -/
def Nonneg (x : Double) : Prop := x.val = .posInf ∨ ∃ q, x.val = .fin q ∧ 0 ≤ q

theorem round64_nonneg (h : 0 ≤ q) :
    round64 (.fin q) = .posInf ∨ ∃ r, round64 (.fin q) = .fin r ∧ 0 ≤ r := by
  have hround := roundRat_nonneg h
  by_cases hlarge : 2 ^ overflowExponent ≤ |roundRat q|
  · left
    have hpos : 0 < roundRat q := by
      rw [abs_of_nonneg hround] at hlarge
      exact lt_of_lt_of_le (pow_pos (by norm_num) _) hlarge
    rw [round64, if_pos hlarge, if_pos hpos]
  · right
    exact ⟨roundRat q, if_neg hlarge, hround⟩

theorem Nonneg.not_lt_zero (h : Nonneg x) (hy : y.val = .fin 0) : Binary64.lt x y = false := by
  show x.val.lt y.val = false
  rcases h with hx | ⟨q, hx, hq⟩
  · rw [hx, hy]
    rfl
  · rw [hx, hy]
    exact decide_eq_false (not_lt.mpr hq)

theorem Nonneg.zero_le (h : Nonneg x) (hy : y.val = .fin 0) : Binary64.le y x = true := by
  rcases h with hx | ⟨q, hx, hq⟩
  · show (y.val.lt x.val || y.val.eq x.val) = true
    rw [hx, hy]
    rfl
  · exact (le_iff hy hx).mpr hq

theorem lit_zero : (Binary64.lit (0 : ℚ) : Double).val = .fin 0 := by
  have hlit := lit_intCast (n := 0) (by norm_num)
  exact_mod_cast hlit

theorem abs_val (hx : x.val = .fin q) : (Binary64.abs x).val = .fin |q| := by
  obtain ⟨hround, hrange⟩ := rounded_fin (hx ▸ x.rounded)
  have habs := roundRat_abs hround
  show round64 x.val.abs = .fin |q|
  rw [hx]
  show round64 (.fin |q|) = .fin |q|
  rw [round64_of_lt (by rw [habs, abs_abs]; exact hrange), habs]

theorem sub_self_val (hx : x.val = .fin q) : (Binary64.sub x x).val = .fin 0 := by
  show round64 (x.val.add x.val.neg) = .fin 0
  rw [hx]
  show round64 (.fin (q + -q)) = .fin 0
  rw [add_neg_cancel]
  exact lit_zero

theorem max_val (hx : x.val = .fin p) (hy : y.val = .fin q) : (Binary64.max x y).val = .fin (max p q) := by
  have hmax : x.val.max y.val = if p < q then y.val else x.val := by
    rw [hx, hy]
    simp [ExactNum.max, ExactNum.lt]
  show round64 (x.val.max y.val) = .fin (max p q)
  rw [hmax]
  split
  · next hlt => rw [y.rounded, hy, max_eq_right hlt.le]
  · next hle => rw [x.rounded, hx, max_eq_left (not_lt.mp hle)]

theorem mul_nonneg_val (hx : x.val = .fin p) (hy : y.val = .fin q) (hp : 0 ≤ p) (hq : 0 ≤ q) :
    Nonneg (Binary64.mul x y) := by
  have hval : (Binary64.mul x y).val = round64 (.fin (p * q)) := by
    show round64 (x.val.mul y.val) = _
    rw [hx, hy]
    rfl
  rw [Nonneg, hval]
  exact round64_nonneg (mul_nonneg hp hq)

theorem add_small_val (hx : x.val = .fin p) (hy : y.val = .fin q) (hp : 0 ≤ p) (hq : 2 ^ (-1074 : ℤ) ≤ q)
    (hq' : q ≤ 1) : ∃ d, (Binary64.add x y).val = .fin d ∧ 0 < d := by
  obtain ⟨hround, hrange⟩ := rounded_fin (hx ▸ x.rounded)
  have hqpos : 0 < q := lt_of_lt_of_le (two_zpow_pos _) hq
  have hval : (Binary64.add x y).val = round64 (.fin (p + q)) := by
    show round64 (x.val.add y.val) = _
    rw [hx, hy]
    rfl
  have hpos : 0 < roundRat (p + q) := roundRat_pos (hq.trans (le_add_of_nonneg_left hp))
  have hlt : |roundRat (p + q)| < 2 ^ overflowExponent := by
    by_cases hlarge : 2 ^ 54 ≤ p
    · rw [roundRat_add_small hlarge hround hqpos.le hq']
      exact hrange
    · rw [abs_of_pos hpos]
      have hsum : p + q ≤ 2 ^ (55 : ℤ) := by
        have hp' := not_le.mp hlarge
        norm_num at hp' ⊢
        linarith
      have hle := roundRat_le_two_zpow (add_pos_of_nonneg_of_pos hp hqpos) hsum (by norm_num)
      have hfinal : (2 : ℚ) ^ (55 : ℤ) < 2 ^ overflowExponent := by
        have := two_pow_lt (a := 55) (b := overflowExponent) (by decide)
        exact_mod_cast this
      exact lt_of_le_of_lt hle hfinal
  exact ⟨roundRat (p + q), by rw [hval, round64_of_lt hlt], hpos⟩

theorem div_nonneg_val (hx : Nonneg x) (hy : y.val = .fin q) (hq : 0 < q) : Nonneg (Binary64.div x y) := by
  rcases hx with hinf | ⟨p, hp, hnonneg⟩
  · left
    show round64 (x.val.div y.val) = .posInf
    rw [hinf, hy]
    show round64 (if q < 0 then .negInf else .posInf) = .posInf
    rw [if_neg (not_lt.mpr hq.le)]
    rfl
  · have hval : (Binary64.div x y).val = round64 (.fin (p / q)) := by
      show round64 (x.val.div y.val) = _
      rw [hp, hy]
      show round64 (if q = 0 then ExactNum.infOf p else .fin (p / q)) = _
      rw [if_neg hq.ne']
    rw [Nonneg, hval]
    exact round64_nonneg (div_nonneg hnonneg hq.le)

theorem lit_roundHalfEven (hx : x.val = .fin q) :
    (Binary64.lit (roundHalfEven q : ℚ) : Double).val = .fin (roundHalfEven q) := by
  obtain ⟨hround, hrange⟩ := rounded_fin (hx ▸ x.rounded)
  by_cases hsmall : |q| ≤ 2 ^ 53
  · apply lit_intCast
    obtain ⟨hlow, hhigh⟩ := abs_le.mp hsmall
    rw [abs_le]
    constructor
    · apply le_roundHalfEven
      push_cast
      exact hlow
    · apply roundHalfEven_le
      push_cast
      exact hhigh
  · obtain ⟨k, hk⟩ := multiple_of_roundRat hround
    have hbit := one_le_lastBit_abs (not_le.mp hsmall).le
    have hint : q = ((k * 2 ^ (lastBit q).toNat : ℤ) : ℚ) := by
      push_cast
      rw [← zpow_natCast, Int.toNat_of_nonneg (by omega)]
      exact hk
    have hsame : ((roundHalfEven q : ℤ) : ℚ) = q := by
      rw [hint, roundHalfEven_intCast]
    rw [hsame]
    show round64 (.fin q) = .fin q
    exact hx ▸ x.rounded

end Double

end XFoilFoam
