import XFoilFoam.Angles.Grid
import XFoilFoam.Geometry.AirfoilFile

/-! `AoASpec.expand` of `models.py` on doubles, beside `expandAngleGrid`.  The engine counts steps by the rounded
quotient of the range and the step and adds them up from the raw start; the grid counts whole units of `1e-4`. -/
namespace XFoilFoam.Angles
open Decimal XFoilFoam.Geometry
set_option autoImplicit false

/-! ## The engine's expansion -/

/-- `AoASpec` with its validator. -/
structure AoASpec where
  angles : Option (List Double)
  start : Option Double
  stop : Option Double
  step : Option Double
  given : angles.isSome ∨ (start.isSome ∧ stop.isSome ∧ step.isSome)
  step_ne : ∀ x, step = some x → Binary64.eq x (Binary64.lit 0) = false

/-- `round(x, 6)`: infinities and NaN round to themselves. -/
def round6 (x : Double) : Double :=
  match x.val with
  | .fin q => Binary64.lit (roundHalfEven (q * 10 ^ 6) / 10 ^ 6)
  | _ => x

/-- `int(round((stop - start) / step))`. -/
def stepCount (start stop step : Double) : Except String ℤ :=
  pyRoundInt (Binary64.div (Binary64.sub stop start) step)

/-- `start + i * step`. -/
def sumAt (start step : Double) (i : ℕ) : Double := Binary64.add start (Binary64.mul (Binary64.lit i) step)

def rangeAngles (start stop step : Double) : Except String (List Double) :=
  (stepCount start stop step).map fun n => (List.range (n + 1).toNat).map fun i => round6 (sumAt start step i)

/-- `AoASpec.expand`. -/
def AoASpec.expand (spec : AoASpec) : Except String (List Double) :=
  match spec.start, spec.stop, spec.step with
  | some start, some stop, some step =>
    (rangeAngles start stop step).map fun range => (spec.angles.getD [] ++ range).eraseDups
  | _, _, _ => .ok (spec.angles.getD []).eraseDups

/-! ## Rounding twice -/

section Rounding
variable {x : ℚ} {n k : ℤ}

theorem roundHalfEven_le_iff : roundHalfEven x ≤ n ↔ x < n + 1 / 2 ∨ x = n + 1 / 2 ∧ n % 2 = 0 := by
  have hlow := Int.floor_le x
  have hhigh := Int.lt_floor_add_one x
  obtain hlt | heq | hgt := lt_trichotomy ⌊x⌋ n
  · have hcast : (⌊x⌋ : ℚ) + 1 ≤ n := by exact_mod_cast hlt
    have hmem := roundHalfEven_mem x
    exact iff_of_true (by omega) (.inl (by linarith))
  · unfold roundHalfEven
    rw [heq]
    rw [heq] at hlow hhigh
    obtain h | h | h := lt_trichotomy (x - n) (1 / 2)
    · rw [if_pos h]
      exact iff_of_true le_rfl (.inl (by linarith))
    · rw [if_neg (by linarith), if_neg (by linarith)]
      by_cases heven : n % 2 = 0
      · rw [if_pos heven]
        exact iff_of_true le_rfl (.inr ⟨by linarith, heven⟩)
      · rw [if_neg heven]
        exact iff_of_false (by omega) (by rintro (hlt | ⟨-, h⟩); exacts [by linarith, heven h])
    · rw [if_neg (by linarith), if_pos h]
      exact iff_of_false (by omega) (by rintro (hlt | ⟨hhalf, -⟩) <;> linarith)
  · have hcast : (n : ℚ) + 1 ≤ ⌊x⌋ := by exact_mod_cast hgt
    have hmem := roundHalfEven_mem x
    exact iff_of_false (by omega) (by rintro (hlt | ⟨hhalf, -⟩) <;> linarith)

theorem le_roundHalfEven_iff : n ≤ roundHalfEven x ↔ n - 1 / 2 < x ∨ x = n - 1 / 2 ∧ n % 2 = 0 := by
  have hneg := roundHalfEven_le_iff (x := -x) (n := -n)
  rw [roundHalfEven_neg, neg_le_neg_iff, Int.cast_neg] at hneg
  rw [hneg]
  apply or_congr
  · constructor <;> intro h <;> linarith
  · apply and_congr
    · constructor <;> intro h <;> linarith
    · omega

/-- Close enough to `k` hundreds to be rounded to them after rounding to a whole number. -/
def WithinUnit (x : ℚ) (k : ℤ) : Prop := if k % 2 = 0 then |x - 100 * k| ≤ 101 / 2 else |x - 100 * k| < 99 / 2

instance (x : ℚ) (k : ℤ) : Decidable (WithinUnit x k) :=
  inferInstanceAs (Decidable (if k % 2 = 0 then |x - 100 * k| ≤ 101 / 2 else |x - 100 * k| < 99 / 2))

theorem roundHalfEven_hundred_le (m : ℤ) :
    roundHalfEven (m / 100) ≤ k ↔ m ≤ 100 * k + 49 ∨ m = 100 * k + 50 ∧ k % 2 = 0 := by
  rw [roundHalfEven_le_iff]
  apply or_congr
  · rw [div_lt_iff₀ (by norm_num)]
    constructor
    · intro h
      have hcast : (m : ℚ) < ((100 * k + 50 : ℤ) : ℚ) := by push_cast; linarith
      have hlt : m < 100 * k + 50 := by exact_mod_cast hcast
      omega
    · intro h
      have hcast : (m : ℚ) ≤ ((100 * k + 49 : ℤ) : ℚ) := by exact_mod_cast h
      push_cast at hcast
      linarith
  · apply and_congr _ Iff.rfl
    rw [div_eq_iff (by norm_num)]
    constructor
    · intro h
      have hcast : (m : ℚ) = ((100 * k + 50 : ℤ) : ℚ) := by push_cast; linarith
      exact_mod_cast hcast
    · intro h
      rw [h]
      push_cast
      ring

theorem roundHalfEven_hundred (m : ℤ) :
    roundHalfEven (m / 100) = k ↔
      if k % 2 = 0 then 100 * k - 50 ≤ m ∧ m ≤ 100 * k + 50 else 100 * k - 49 ≤ m ∧ m ≤ 100 * k + 49 := by
  have hhigh := roundHalfEven_hundred_le (k := k) m
  have hlow := roundHalfEven_hundred_le (k := -k) (-m)
  rw [Int.cast_neg, neg_div, roundHalfEven_neg, neg_le_neg_iff] at hlow
  have hboth : roundHalfEven (m / 100) = k ↔ k ≤ roundHalfEven (m / 100) ∧ roundHalfEven (m / 100) ≤ k := by omega
  rw [hboth, hlow, hhigh]
  split <;> omega

theorem roundHalfEven_twice : roundHalfEven (roundHalfEven x / 100) = k ↔ WithinUnit x k := by
  rw [roundHalfEven_hundred, WithinUnit]
  split
  · -- the ends are even, so that a tie stays inside
    have hlow : (100 * k - 50) % 2 = 0 := by omega
    have hhigh : (100 * k + 50) % 2 = 0 := by omega
    rw [le_roundHalfEven_iff, roundHalfEven_le_iff, abs_le]
    simp only [hlow, hhigh, and_true]
    push_cast
    constructor
    · rintro ⟨hl | hl, hh | hh⟩ <;> constructor <;> linarith
    · rintro ⟨hl, hh⟩
      constructor
      · obtain hlt | heq := hl.lt_or_eq
        · exact .inl (by linarith)
        · exact .inr (by linarith)
      · obtain hlt | heq := hh.lt_or_eq
        · exact .inl (by linarith)
        · exact .inr (by linarith)
  · have hlow : ¬(100 * k - 49) % 2 = 0 := by omega
    have hhigh : ¬(100 * k + 49) % 2 = 0 := by omega
    rw [le_roundHalfEven_iff, roundHalfEven_le_iff, abs_lt]
    simp only [hlow, hhigh, and_false, or_false]
    push_cast
    constructor
    · rintro ⟨hl, hh⟩
      constructor <;> linarith
    · rintro ⟨hl, hh⟩
      constructor <;> linarith

end Rounding

/-! ## The engine's angles -/

/-- A range of degrees below `1e7` with a positive step. -/
structure SmallRange (start stop step : Double) (a b c : ℚ) : Prop where
  start_val : start.val = .fin a
  stop_val : stop.val = .fin b
  step_val : step.val = .fin c
  start_small : |a| < 10 ^ 7
  stop_small : |b| < 10 ^ 7
  ordered : a ≤ b
  step_pos : 0 < c

theorem round64_small {p : ℚ} (h : |p| ≤ 2 ^ 53) : round64 (.fin p) = .fin (roundRat p) := by
  apply Double.round64_of_lt
  have hle := abs_roundRat_le (m := 2 ^ 53) (by norm_num) (by exact_mod_cast h)
  refine lt_of_le_of_lt hle ?_
  exact_mod_cast Double.two_pow_lt (by decide : 53 < overflowExponent)

theorem roundRat_le_int {p : ℚ} {m : ℤ} (hm : |m| ≤ 2 ^ 53) (h : p ≤ m) : roundRat p ≤ m := by
  have hmono := roundRat_mono h
  rwa [roundRat_intCast hm] at hmono

/-- The double of a whole number of millionths. -/
def micro (m : ℤ) : Double := Binary64.lit (m / 10 ^ 6)

section Micro
variable {m : ℤ}

theorem abs_roundRat_micro (h : |m| ≤ 9 * 10 ^ 13) : |roundRat (m / 10 ^ 6)| ≤ 9 * 10 ^ 7 := by
  have hcast : |(m : ℚ)| ≤ 9 * 10 ^ 13 := by exact_mod_cast h
  have hbound : |(m : ℚ) / 10 ^ 6| ≤ ((9 * 10 ^ 7 : ℤ) : ℚ) := by
    rw [abs_div, abs_of_pos (by norm_num : (0 : ℚ) < 10 ^ 6), div_le_iff₀ (by norm_num)]
    refine hcast.trans (by norm_num)
  exact (abs_roundRat_le (by norm_num) hbound).trans (by norm_num)

theorem micro_val (h : |m| ≤ 9 * 10 ^ 13) : (micro m).val = .fin (roundRat (m / 10 ^ 6)) := by
  apply Double.round64_of_lt
  refine lt_of_le_of_lt (abs_roundRat_micro h) ?_
  calc (9 * 10 ^ 7 : ℚ) < 2 ^ 29 := by norm_num
    _ < 2 ^ overflowExponent := pow_lt_pow_right₀ (by norm_num) (by decide)

theorem roundRat_millionth : (10 : ℚ) ^ (-7 : ℤ) ≤ roundRat (1 / 10 ^ 6) := least_units.2.1

theorem decimal_micro (h : |m| ≤ 9 * 10 ^ 13) : decimal (micro m) = m / 10 ^ 6 := by
  have hplace : (m : ℚ) / 10 ^ 6 = ((10 * m : ℤ) : ℚ) / 10 ^ 7 := by
    push_cast
    ring
  have hval := micro_val h
  have hsize := abs_roundRat_micro h
  unfold micro at hval ⊢
  rw [hplace] at hval hsize ⊢
  apply decimal_lit (b := -24) (by norm_num) (by norm_num) hval
  · exact lt_of_le_of_lt hsize (by norm_num)
  · intro hne
    have hone : (1 : ℚ) / 10 ^ 6 ≤ |((10 * m : ℤ) : ℚ) / 10 ^ 7| := by
      rw [← hplace, abs_div, abs_of_pos (by norm_num : (0 : ℚ) < 10 ^ 6)]
      exact div_le_div_of_nonneg_right (by exact_mod_cast Int.one_le_abs (by omega : m ≠ 0)) (by norm_num)
    rw [abs_roundRat]
    exact roundRat_millionth.trans (roundRat_mono hone)

theorem units_micro (h : |m| ≤ 9 * 10 ^ 13) : units 4 (micro m) = roundHalfEven (m / 100) := by
  rw [units, decimal_micro h]
  congr 1
  ring

theorem micro_lt {m' : ℤ} (h : |m| ≤ 9 * 10 ^ 13) (h' : |m'| ≤ 9 * 10 ^ 13) (hlt : m < m') :
    Binary64.lt (micro m) (micro m') = true := by
  have hle : (m : ℚ) / 10 ^ 6 ≤ m' / 10 ^ 6 := div_le_div_of_nonneg_right (by exact_mod_cast hlt.le) (by norm_num)
  refine Double.lt_of_rounded (micro_val h) (micro_val h') hle fun hsame => ?_
  have hdecimal := decimal_micro h
  rw [hsame, decimal_micro h', div_left_inj' (by norm_num)] at hdecimal
  have : m' = m := by exact_mod_cast hdecimal
  omega

end Micro

theorem least_step : (1 : ℚ) / 25000 ≤ roundRat (1 / 20000) := least_units.2.2

section Range
variable {start stop step : Double} {a b c : ℚ}

namespace SmallRange

theorem step_least (h : SmallRange start stop step a b c) (hunits : units 4 step ≠ 0) : 1 / 25000 ≤ c := by
  have hpositive : 1 ≤ units 4 step := by
    have := units_nonneg h.step_val h.step_pos
    omega
  have hdecimal : decimal step = decimalOf c := by
    rw [decimal_eq h.step_val, if_neg h.step_pos.not_gt, abs_of_pos h.step_pos]
  have hhalf : 1 / 2 ≤ decimalOf c * 10 ^ 4 := by
    have hle := le_roundHalfEven_iff.mp hpositive
    rw [hdecimal, Int.cast_one] at hle
    obtain hlt | ⟨heq, -⟩ := hle <;> linarith
  obtain hnone | ⟨-, hround⟩ := shortest_spec h.step_pos
  · rw [decimalOf, hnone, decimalValue] at hhalf
    norm_num at hhalf
  · have hmono := roundRat_mono (by linarith : 1 / 20000 ≤ decimalOf c)
    rw [hround] at hmono
    exact least_step.trans hmono

def quotient (a b c : ℚ) : ℚ := roundRat (roundRat (b - a) / c)

theorem width (h : SmallRange start stop step a b c) : 0 ≤ roundRat (b - a) ∧ roundRat (b - a) ≤ 2 * 10 ^ 7 := by
  have hstart := abs_lt.mp h.start_small
  have hstop := abs_lt.mp h.stop_small
  have hordered := h.ordered
  refine ⟨roundRat_nonneg (by linarith), ?_⟩
  have hle := roundRat_le_int (p := b - a) (m := 2 * 10 ^ 7) (by norm_num) (by push_cast; linarith)
  exact hle.trans (by norm_num)

theorem quotient_bounds (h : SmallRange start stop step a b c) (hunits : units 4 step ≠ 0) :
    0 ≤ roundRat (b - a) / c ∧ roundRat (b - a) / c ≤ 5 * 10 ^ 11 := by
  obtain ⟨hnonneg, hwidth⟩ := h.width
  have hstep := h.step_least hunits
  refine ⟨div_nonneg hnonneg h.step_pos.le, ?_⟩
  rw [div_le_iff₀ h.step_pos]
  linarith

theorem stepCount_eq (h : SmallRange start stop step a b c) (hunits : units 4 step ≠ 0) :
    stepCount start stop step = .ok (roundHalfEven (quotient a b c)) := by
  obtain ⟨hnonneg, hwidth⟩ := h.width
  obtain ⟨hqnonneg, hqbound⟩ := h.quotient_bounds hunits
  have hdifference : (Binary64.sub stop start).val = .fin (roundRat (b - a)) := by
    rw [Double.sub_val h.stop_val h.start_val]
    apply round64_small
    have hstart := abs_lt.mp h.start_small
    have hstop := abs_lt.mp h.stop_small
    exact abs_le.mpr ⟨by linarith, by linarith⟩
  have hquotient : (Binary64.div (Binary64.sub stop start) step).val = .fin (quotient a b c) := by
    show round64 ((Binary64.sub stop start).val.div step.val) = _
    rw [hdifference, h.step_val]
    show round64 (if c = 0 then ExactNum.infOf _ else .fin (roundRat (b - a) / c)) = _
    rw [if_neg h.step_pos.ne']
    apply round64_small
    rw [abs_of_nonneg hqnonneg]
    linarith
  simp only [stepCount, pyRoundInt, hquotient]

theorem count_bounds (h : SmallRange start stop step a b c) (hunits : units 4 step ≠ 0) :
    0 ≤ roundHalfEven (quotient a b c) ∧ roundHalfEven (quotient a b c) ≤ 5 * 10 ^ 11 := by
  obtain ⟨hqnonneg, hqbound⟩ := h.quotient_bounds hunits
  refine ⟨le_roundHalfEven ?_, roundHalfEven_le ?_⟩
  · rw [Int.cast_zero]
    exact roundRat_nonneg hqnonneg
  · exact roundRat_le_int (by norm_num) (hqbound.trans (by norm_num))

theorem steps_bound (h : SmallRange start stop step a b c) (hunits : units 4 step ≠ 0) {i : ℕ}
    (hi : (i : ℤ) ≤ roundHalfEven (quotient a b c)) : 0 ≤ (i : ℚ) * c ∧ (i : ℚ) * c ≤ 8 * 10 ^ 7 := by
  have hc := h.step_pos
  refine ⟨by positivity, ?_⟩
  obtain ⟨hnonneg, hwidth⟩ := h.width
  obtain ⟨-, hcount⟩ := h.count_bounds hunits
  obtain hzero | hpos := Nat.eq_zero_or_pos i
  · rw [hzero, Nat.cast_zero, zero_mul]
    norm_num
  · -- a quotient below `i - 3 / 4` would be rounded below `i`
    have hreached : (i : ℚ) - 3 / 4 ≤ roundRat (b - a) / c := by
      by_contra hlt
      have hquarter : roundRat ((i : ℚ) - 3 / 4) = i - 3 / 4 := by
        have hi' : (i : ℚ) ≤ 5 * 10 ^ 11 := by exact_mod_cast hi.trans hcount
        have hone : (1 : ℚ) ≤ i := by exact_mod_cast hpos
        apply roundRat_of_le (n := 4 * i - 3) (e := -2)
        · push_cast
          norm_num
          ring
        · apply lastBit_le (by linarith) _ (by norm_num)
          rw [abs_of_pos (by linarith)]
          exact lt_of_le_of_lt (by linarith : (i : ℚ) - 3 / 4 ≤ 5 * 10 ^ 11) (by norm_num)
      have hmono := roundRat_mono (not_le.mp hlt).le
      rw [hquarter] at hmono
      obtain hlow | ⟨heq, -⟩ := le_roundHalfEven_iff.mp hi
      · rw [Int.cast_natCast] at hlow
        have : quotient a b c ≤ i - 3 / 4 := hmono
        linarith
      · rw [Int.cast_natCast] at heq
        have : quotient a b c ≤ i - 3 / 4 := hmono
        linarith
    rw [le_div_iff₀ hc] at hreached
    have hone : (1 : ℚ) ≤ i := by exact_mod_cast hpos
    have hquarter : (i : ℚ) * c ≤ 4 * ((i - 3 / 4) * c) := by
      have : 0 ≤ ((i : ℚ) - 1) * c := mul_nonneg (by linarith) hc.le
      linarith
    linarith

def sumOf (a c : ℚ) (i : ℕ) : ℚ := roundRat (a + roundRat (i * c))

def micros (a c : ℚ) (i : ℕ) : ℤ := roundHalfEven (sumOf a c i * 10 ^ 6)

theorem product_bounds (h : SmallRange start stop step a b c) (hunits : units 4 step ≠ 0) {i : ℕ}
    (hi : (i : ℤ) ≤ roundHalfEven (quotient a b c)) :
    0 ≤ roundRat ((i : ℚ) * c) ∧ roundRat ((i : ℚ) * c) ≤ 8 * 10 ^ 7 := by
  obtain ⟨hnonneg, hbound⟩ := h.steps_bound hunits hi
  have hle := roundRat_le_int (p := i * c) (m := 8 * 10 ^ 7) (by norm_num) (hbound.trans (by norm_num))
  exact ⟨roundRat_nonneg hnonneg, hle.trans (by norm_num)⟩

theorem sum_bounds (h : SmallRange start stop step a b c) (hunits : units 4 step ≠ 0) {i : ℕ}
    (hi : (i : ℤ) ≤ roundHalfEven (quotient a b c)) : |a + roundRat ((i : ℚ) * c)| ≤ 9 * 10 ^ 7 := by
  obtain ⟨hnonneg, hbound⟩ := h.product_bounds hunits hi
  have hstart := abs_lt.mp h.start_small
  exact abs_le.mpr ⟨by linarith, by linarith⟩

theorem abs_sumOf_le (h : SmallRange start stop step a b c) (hunits : units 4 step ≠ 0) {i : ℕ}
    (hi : (i : ℤ) ≤ roundHalfEven (quotient a b c)) : |sumOf a c i| ≤ 9 * 10 ^ 7 := by
  have hle := abs_roundRat_le (m := 9 * 10 ^ 7) (by norm_num) ((h.sum_bounds hunits hi).trans (by norm_num))
  exact hle.trans (by norm_num)

theorem sumAt_val (h : SmallRange start stop step a b c) (hunits : units 4 step ≠ 0) {i : ℕ}
    (hi : (i : ℤ) ≤ roundHalfEven (quotient a b c)) : (sumAt start step i).val = .fin (sumOf a c i) := by
  obtain ⟨hnonneg, hbound⟩ := h.steps_bound hunits hi
  obtain ⟨-, hcount⟩ := h.count_bounds hunits
  have hlit : (Binary64.lit (i : ℚ) : Double).val = .fin i := Double.lit_natCast (by omega)
  have hproduct : (Binary64.mul (Binary64.lit (i : ℚ)) step).val = .fin (roundRat (i * c)) := by
    show round64 ((Binary64.lit (i : ℚ) : Double).val.mul step.val) = _
    rw [hlit, h.step_val]
    apply round64_small
    rw [abs_of_nonneg hnonneg]
    linarith
  show round64 (start.val.add (Binary64.mul (Binary64.lit (i : ℚ)) step).val) = _
  rw [h.start_val, hproduct]
  exact round64_small ((h.sum_bounds hunits hi).trans (by norm_num))

theorem abs_sumOf_sub (h : SmallRange start stop step a b c) (hunits : units 4 step ≠ 0) {i : ℕ}
    (hi : (i : ℤ) ≤ roundHalfEven (quotient a b c)) : |sumOf a c i - (a + i * c)| ≤ 2 / 10 ^ 8 := by
  obtain ⟨hnonneg, hbound⟩ := h.steps_bound hunits hi
  have hproduct : |roundRat ((i : ℚ) * c) - i * c| ≤ 2 ^ (-26 : ℤ) / 2 := by
    apply abs_roundRat_sub_of_abs_lt (by norm_num)
    rw [abs_of_nonneg hnonneg]
    exact lt_of_le_of_lt hbound (by norm_num)
  have hsum : |sumOf a c i - (a + roundRat ((i : ℚ) * c))| ≤ 2 ^ (-26 : ℤ) / 2 := by
    apply abs_roundRat_sub_of_abs_lt (by norm_num)
    exact lt_of_le_of_lt (h.sum_bounds hunits hi) (by norm_num)
  have hpower : (2 : ℚ) ^ (-26 : ℤ) / 2 ≤ 1 / 10 ^ 8 := by norm_num
  obtain ⟨hlow, hhigh⟩ := abs_le.mp hproduct
  obtain ⟨hlow', hhigh'⟩ := abs_le.mp hsum
  exact abs_le.mpr ⟨by linarith, by linarith⟩

theorem sumOf_lt (h : SmallRange start stop step a b c) (hunits : units 4 step ≠ 0) {i j : ℕ} (hij : i < j)
    (hj : (j : ℤ) ≤ roundHalfEven (quotient a b c)) : sumOf a c i + 3 / 100000 ≤ sumOf a c j := by
  have hleast := h.step_least hunits
  obtain ⟨-, hhigh⟩ := abs_le.mp (h.abs_sumOf_sub hunits (by omega : (i : ℤ) ≤ roundHalfEven (quotient a b c)))
  obtain ⟨hlow, -⟩ := abs_le.mp (h.abs_sumOf_sub hunits hj)
  have hgap : (i : ℚ) * c + c ≤ j * c := by
    have hcast : (i : ℚ) + 1 ≤ j := by exact_mod_cast hij
    have := mul_le_mul_of_nonneg_right hcast h.step_pos.le
    linarith
  linarith

theorem micros_lt (h : SmallRange start stop step a b c) (hunits : units 4 step ≠ 0) {i j : ℕ} (hij : i < j)
    (hj : (j : ℤ) ≤ roundHalfEven (quotient a b c)) : micros a c i < micros a c j := by
  have hgap := h.sumOf_lt hunits hij hj
  have hscaled : sumOf a c i * 10 ^ 6 + 30 ≤ sumOf a c j * 10 ^ 6 := by linarith
  have hi : |sumOf a c i * 10 ^ 6 - micros a c i| ≤ 1 / 2 := abs_sub_roundHalfEven _
  have hj : |sumOf a c j * 10 ^ 6 - micros a c j| ≤ 1 / 2 := abs_sub_roundHalfEven _
  have hlt : (micros a c i : ℚ) < micros a c j := by
    have hlow := (abs_le.mp hi).1
    have hhigh := (abs_le.mp hj).2
    linarith
  exact_mod_cast hlt

theorem abs_micros_le (h : SmallRange start stop step a b c) (hunits : units 4 step ≠ 0) {i : ℕ}
    (hi : (i : ℤ) ≤ roundHalfEven (quotient a b c)) : |micros a c i| ≤ 9 * 10 ^ 13 := by
  obtain ⟨hlow, hhigh⟩ := abs_le.mp (h.abs_sumOf_le hunits hi)
  refine abs_le.mpr ⟨le_roundHalfEven ?_, roundHalfEven_le ?_⟩ <;> push_cast <;> linarith

theorem round6_sumAt (h : SmallRange start stop step a b c) (hunits : units 4 step ≠ 0) {i : ℕ}
    (hi : (i : ℤ) ≤ roundHalfEven (quotient a b c)) :
    round6 (sumAt start step i) = micro (micros a c i) := by
  simp only [round6, h.sumAt_val hunits hi]
  rfl

def engineAngles (a b c : ℚ) : List Double :=
  (List.range (roundHalfEven (quotient a b c) + 1).toNat).map fun i => micro (micros a c i)

theorem rangeAngles_eq (h : SmallRange start stop step a b c) (hunits : units 4 step ≠ 0) :
    rangeAngles start stop step = .ok (engineAngles a b c) := by
  rw [rangeAngles, h.stepCount_eq hunits]
  show Except.ok _ = Except.ok _
  congr 1
  apply List.map_congr_left
  intro i hi
  have hle := List.mem_range.mp hi
  exact h.round6_sumAt hunits (by omega)

theorem engineAngles_sorted (h : SmallRange start stop step a b c) (hunits : units 4 step ≠ 0) :
    (engineAngles a b c).Pairwise fun x y => Binary64.lt x y = true := by
  rw [engineAngles, List.pairwise_map]
  refine List.Pairwise.imp_of_mem ?_ List.pairwise_lt_range
  intro i j hi hj hlt
  have hi' := List.mem_range.mp hi
  have hj' := List.mem_range.mp hj
  exact micro_lt (h.abs_micros_le hunits (by omega)) (h.abs_micros_le hunits (by omega))
    (h.micros_lt hunits hlt (by omega))

theorem engineAngles_nodup (h : SmallRange start stop step a b c) (hunits : units 4 step ≠ 0) :
    (engineAngles a b c).Nodup := by
  refine (h.engineAngles_sorted hunits).imp ?_
  rintro x y hlt rfl
  have hself : x.val.lt x.val = true := hlt
  cases hx : x.val with
  | fin q =>
    rw [hx] at hself
    exact lt_irrefl q (of_decide_eq_true hself)
  | _ =>
    rw [hx] at hself
    cases hself

theorem expand_eq (h : SmallRange start stop step a b c) (hunits : units 4 step ≠ 0) {spec : AoASpec}
    (hangles : spec.angles.getD [] = []) (hstart : spec.start = some start) (hstop : spec.stop = some stop)
    (hstep : spec.step = some step) : spec.expand = .ok (engineAngles a b c) := by
  simp only [AoASpec.expand, hstart, hstop, hstep, h.rangeAngles_eq hunits, hangles, List.nil_append]
  show Except.ok (engineAngles a b c).eraseDups = _
  rw [eraseDups_of_nodup (h.engineAngles_nodup hunits)]

theorem canonical_engineAngles (h : SmallRange start stop step a b c) (hunits : units 4 step ≠ 0) :
    (engineAngles a b c).mapM canonicalAoa =
      .ok ((List.range (roundHalfEven (quotient a b c) + 1).toNat).map fun i =>
        angle (roundHalfEven (micros a c i / 100))) := by
  have hcanonical : ∀ i ∈ List.range (roundHalfEven (quotient a b c) + 1).toNat,
      canonicalAoa (micro (micros a c i)) = .ok (angle (roundHalfEven (micros a c i / 100))) := by
    intro i hi
    have hle := List.mem_range.mp hi
    have hbound := h.abs_micros_le hunits (by omega : (i : ℤ) ≤ roundHalfEven (quotient a b c))
    rw [canonicalAoa_eq (micro_val hbound), units_micro hbound, angle]
  rw [engineAngles]
  generalize List.range (roundHalfEven (quotient a b c) + 1).toNat = steps at hcanonical ⊢
  induction steps with
  | nil => rfl
  | cons i rest ih =>
    have hrest := ih fun j hj => hcanonical j (List.mem_cons_of_mem _ hj)
    rw [List.map_cons, List.mapM_cons, hcanonical i List.mem_cons_self, hrest]
    rfl

end SmallRange

end Range

/-! ## Agreement with the grid -/

/-- Both expansions give a list; the engine's angles lie between start and stop, and at `1e-4` degrees they are
the angles of the grid. -/
def Agrees (spec : AoASpec) (start stop step : Double) : Prop :=
  ∃ angles grid, spec.expand = .ok angles ∧
    (∃ enough, ∀ fuel ≥ enough, expandAngleGrid fuel (rangeSpec start stop step) = some (.ok grid)) ∧
    (∀ x ∈ angles, Binary64.le start x = true ∧ Binary64.le x stop = true) ∧
    angles.mapM canonicalAoa = .ok grid

/-- The whole steps between the ends in units of `1e-4`. -/
def wholeSteps (start stop step : Double) : ℤ := (units 4 stop - units 4 start) / units 4 step

/-- What a range has to satisfy: the step is a unit or more, the rounded quotient counts the whole steps, rounding
to millionths does not leave the range at its ends, and no sum of steps drifts half a unit off the grid. -/
structure Aligned (start stop step : Double) : Prop where
  step_units : units 4 step ≠ 0
  count : stepCount start stop step = .ok (wholeSteps start stop step)
  first : Binary64.le start (round6 start) = true
  last : Binary64.le (round6 (sumAt start step (wholeSteps start stop step).toNat)) stop = true
  drift : ∀ i : ℕ, (i : ℤ) ≤ wholeSteps start stop step →
    WithinUnit ((sumAt start step i).value * 10 ^ 6) (units 4 start + i * units 4 step)

theorem map_range_eq_iff {α : Type} {f g : ℕ → α} {m n : ℕ} :
    (List.range m).map f = (List.range n).map g ↔ m = n ∧ ∀ i < n, f i = g i := by
  constructor
  · intro h
    have hlength : m = n := by simpa using congrArg List.length h
    subst hlength
    exact ⟨rfl, fun i hi => List.map_inj_left.mp h i (List.mem_range.mpr hi)⟩
  · rintro ⟨rfl, h⟩
    exact List.map_congr_left fun i hi => h i (List.mem_range.mp hi)

namespace SmallRange
variable {start stop step : Double} {a b c : ℚ}

theorem large (h : |a| < 10 ^ 7) : |a| < 10 ^ 11 := lt_trans h (by norm_num)

theorem units_of_grid (h : SmallRange start stop step a b c) {fuel : ℕ} {grid : List Double}
    (hgrid : expandAngleGrid fuel (rangeSpec start stop step) = some (.ok grid)) : units 4 step ≠ 0 := by
  intro hzero
  have hexact : (10 ^ 15 : ℤ) ≤ exactUnits := by norm_num [exactUnits]
  have hfrom := scaled_eq h.start_val ((abs_units_le h.start_val (large h.start_small)).trans hexact)
  have hto := scaled_eq h.stop_val ((abs_units_le h.stop_val (large h.stop_small)).trans hexact)
  have hstep := scaled_eq h.step_val (by rw [hzero]; decide)
  have hnone : Binary64.eq (whole (units 4 step)) (Binary64.lit 0) = true := by
    rw [hzero]
    have hwhole : (whole 0).val = .fin 0 := by
      show (Binary64.lit ((0 : ℤ) : ℚ) : Double).val = _
      rw [Int.cast_zero, Double.lit_zero]
    exact (Double.eq_iff hwhole Double.lit_zero).mpr rfl
  simp only [expandAngleGrid, rangeSpec, expandRange, hfrom, hto, hstep, hnone, if_true] at hgrid
  split at hgrid
  · split at hgrid <;> cases hgrid
  · cases hgrid

theorem grid_eq (h : SmallRange start stop step a b c) (hunits : units 4 step ≠ 0) :
    ∃ enough, ∀ fuel ≥ enough, expandAngleGrid fuel (rangeSpec start stop step) =
      some (.ok (unitGrid (units 4 start) (units 4 stop) (units 4 step))) :=
  ⟨_, fun _ hfuel => expandRange_eq h.start_val h.stop_val h.step_val (large h.start_small) (large h.stop_small)
    h.step_pos hunits (Nat.lt_of_succ_le hfuel)⟩

theorem sumAt_zero (h : SmallRange start stop step a b c) (hunits : units 4 step ≠ 0) :
    sumAt start step 0 = start := by
  have hcount := (h.count_bounds hunits).1
  apply Double.ext_val
  rw [h.sumAt_val hunits (by exact_mod_cast hcount), h.start_val, sumOf, Nat.cast_zero, zero_mul, roundRat_zero,
    add_zero, (Double.rounded_fin (h.start_val ▸ start.rounded)).1]

theorem canonical_eq_iff (h : SmallRange start stop step a b c) (hunits : units 4 step ≠ 0) :
    (engineAngles a b c).mapM canonicalAoa =
        .ok (unitGrid (units 4 start) (units 4 stop) (units 4 step)) ↔
      stepCount start stop step = .ok (wholeSteps start stop step) ∧
        ∀ i : ℕ, (i : ℤ) ≤ wholeSteps start stop step →
          WithinUnit ((sumAt start step i).value * 10 ^ 6) (units 4 start + i * units 4 step) := by
  have hs : 0 < units 4 step := lt_of_le_of_ne (units_nonneg h.step_val h.step_pos) (Ne.symm hunits)
  have hf := abs_units_le h.start_val (large h.start_small)
  have ht := abs_units_le h.stop_val (large h.stop_small)
  have hcount := (h.count_bounds hunits).1
  rw [h.canonical_engineAngles hunits, h.stepCount_eq hunits, Except.ok.injEq, Except.ok.injEq, unitGrid,
    map_range_eq_iff, ← wholeSteps]
  have hlength : (roundHalfEven (quotient a b c) + 1).toNat = (wholeSteps start stop step + 1).toNat ↔
      roundHalfEven (quotient a b c) = wholeSteps start stop step := by omega
  rw [hlength]
  refine and_congr_right fun hsame => ?_
  have hpoint : ∀ i : ℕ, (i : ℤ) ≤ wholeSteps start stop step →
      (angle (roundHalfEven (micros a c i / 100)) = angle (units 4 start + i * units 4 step) ↔
        WithinUnit ((sumAt start step i).value * 10 ^ 6) (units 4 start + i * units 4 step)) := by
    intro i hi
    have hi' : (i : ℤ) ≤ roundHalfEven (quotient a b c) := by omega
    have hmicros := h.abs_micros_le hunits hi'
    rw [Double.value_of_val (h.sumAt_val hunits hi'), ← roundHalfEven_twice]
    constructor
    · intro hangle
      have hengine : |roundHalfEven ((micros a c i : ℚ) / 100)| ≤ exactUnits := by
        have hcast : |(micros a c i : ℚ)| ≤ 9 * 10 ^ 13 := by exact_mod_cast hmicros
        obtain ⟨hlow, hhigh⟩ := abs_le.mp hcast
        refine abs_le.mpr ⟨le_roundHalfEven ?_, roundHalfEven_le ?_⟩ <;> norm_num [exactUnits] <;> linarith
      have hgrid : |units 4 start + i * units 4 step| ≤ exactUnits := by
        apply mem_unitGrid_units hs hf ht
        have := (Int.le_ediv_iff_mul_le hs).mp hi
        omega
      have hunits' := units_angle hengine
      rw [hangle, units_angle hgrid] at hunits'
      exact hunits'.symm
    · intro hround
      rw [micros, hround]
  constructor
  · intro hall i hi
    exact (hpoint i hi).mp (hall i (by omega))
  · intro hall i hi
    exact (hpoint i (by omega)).mpr (hall i (by omega))

theorem within_iff (h : SmallRange start stop step a b c) (hunits : units 4 step ≠ 0) :
    (∀ x ∈ engineAngles a b c, Binary64.le start x = true ∧ Binary64.le x stop = true) ↔
      Binary64.le start (round6 start) = true ∧
        Binary64.le (round6 (sumAt start step (roundHalfEven (quotient a b c)).toNat)) stop = true := by
  obtain ⟨n, hn⟩ := Int.eq_ofNat_of_zero_le (h.count_bounds hunits).1
  have hmem : ∀ {x : Double}, x ∈ engineAngles a b c ↔ ∃ i ≤ n, micro (micros a c i) = x := by
    intro x
    simp only [engineAngles, hn, List.mem_map, List.mem_range]
    constructor
    · rintro ⟨i, hi, rfl⟩
      exact ⟨i, by omega, rfl⟩
    · rintro ⟨i, hi, rfl⟩
      exact ⟨i, by omega, rfl⟩
  have hval : ∀ {i : ℕ}, i ≤ n → (micro (micros a c i)).val = .fin (roundRat (micros a c i / 10 ^ 6)) :=
    fun hi => micro_val (h.abs_micros_le hunits (by rw [hn]; exact_mod_cast hi))
  have hmono : ∀ {i j : ℕ}, i ≤ j → j ≤ n →
      roundRat ((micros a c i : ℚ) / 10 ^ 6) ≤ roundRat ((micros a c j : ℚ) / 10 ^ 6) := by
    intro i j hij hj
    obtain rfl | hlt := hij.eq_or_lt
    · exact le_rfl
    · have hmicros := h.micros_lt hunits hlt (by rw [hn]; exact_mod_cast hj)
      exact roundRat_mono (div_le_div_of_nonneg_right (by exact_mod_cast hmicros.le) (by norm_num))
  have hfirst : round6 start = micro (micros a c 0) := by
    rw [← h.round6_sumAt hunits (by rw [hn]; exact_mod_cast n.zero_le), h.sumAt_zero hunits]
  have hlast : round6 (sumAt start step (roundHalfEven (quotient a b c)).toNat) = micro (micros a c n) := by
    rw [hn]
    exact h.round6_sumAt hunits (by rw [hn]; exact le_rfl)
  rw [hfirst, hlast]
  constructor
  · intro hall
    exact ⟨(hall _ (hmem.mpr ⟨0, n.zero_le, rfl⟩)).1, (hall _ (hmem.mpr ⟨n, le_rfl, rfl⟩)).2⟩
  · rintro ⟨hlow, hhigh⟩ x hx
    obtain ⟨i, hi, rfl⟩ := hmem.mp hx
    rw [Double.le_iff h.start_val (hval n.zero_le)] at hlow
    rw [Double.le_iff (hval le_rfl) h.stop_val] at hhigh
    rw [Double.le_iff h.start_val (hval hi), Double.le_iff (hval hi) h.stop_val]
    exact ⟨hlow.trans (hmono i.zero_le hi), (hmono hi le_rfl).trans hhigh⟩

/-- The engine's expansion of a range stays inside it and has the angles of the grid exactly when the range is
aligned. -/
theorem agrees_iff_aligned (h : SmallRange start stop step a b c) {spec : AoASpec}
    (hangles : spec.angles.getD [] = []) (hstart : spec.start = some start) (hstop : spec.stop = some stop)
    (hstep : spec.step = some step) : Agrees spec start stop step ↔ Aligned start stop step := by
  constructor
  · rintro ⟨angles, grid, hexpand, ⟨enough, hgrid⟩, hwithin, hsame⟩
    have hunits := h.units_of_grid (hgrid enough le_rfl)
    obtain ⟨enough', hgrid'⟩ := h.grid_eq hunits
    have hgridEq : grid = unitGrid (units 4 start) (units 4 stop) (units 4 step) := by
      have heq := hgrid (max enough enough') (le_max_left _ _)
      rw [hgrid' (max enough enough') (le_max_right _ _)] at heq
      exact (Except.ok.inj (Option.some.inj heq)).symm
    have hanglesEq : angles = engineAngles a b c := by
      rw [h.expand_eq hunits hangles hstart hstop hstep] at hexpand
      exact (Except.ok.inj hexpand).symm
    rw [hanglesEq] at hwithin hsame
    rw [hgridEq] at hsame
    obtain ⟨hcount, hdrift⟩ := (h.canonical_eq_iff hunits).mp hsame
    obtain ⟨hfirst, hlast⟩ := (h.within_iff hunits).mp hwithin
    refine ⟨hunits, hcount, hfirst, ?_, hdrift⟩
    rw [h.stepCount_eq hunits] at hcount
    rw [← Except.ok.inj hcount]
    exact hlast
  · rintro ⟨hunits, hcount, hfirst, hlast, hdrift⟩
    refine ⟨_, _, h.expand_eq hunits hangles hstart hstop hstep, h.grid_eq hunits, ?_,
      (h.canonical_eq_iff hunits).mpr ⟨hcount, hdrift⟩⟩
    rw [h.within_iff hunits]
    rw [h.stepCount_eq hunits] at hcount
    rw [Except.ok.inj hcount]
    exact ⟨hfirst, hlast⟩

/-! ## Canonical ranges -/

structure Canonical (start stop step : Double) : Prop where
  start_eq : canonicalAoa start = .ok start
  stop_eq : canonicalAoa stop = .ok stop
  step_eq : canonicalAoa step = .ok step

theorem canonical_val {x : Double} {q : ℚ} (hx : x.val = .fin q) (h : canonicalAoa x = .ok x) :
    x = angle (units 4 x) ∧ q = roundRat (units 4 x / 10 ^ 4) := by
  rw [canonicalAoa_eq hx] at h
  have hangle : x = angle (units 4 x) := (Except.ok.inj h).symm
  refine ⟨hangle, ?_⟩
  rw [hangle] at hx
  have hval : round64 (.fin ((units 4 x : ℚ) / 10 ^ 4)) = .fin q := hx
  obtain ⟨-, hinf⟩ | ⟨-, hinf⟩ | ⟨-, hfin⟩ := Double.round64_cases ((units 4 x : ℚ) / 10 ^ 4)
  · rw [hinf] at hval
    cases hval
  · rw [hinf] at hval
    cases hval
  · rw [hfin] at hval
    exact (ExactNum.fin.inj hval).symm

theorem abs_roundRat_sub_rel {p : ℚ} (h : 1 / 10 ^ 4 ≤ p) : |roundRat p - p| ≤ p / 2 ^ 53 := by
  have hp : 0 < p := lt_of_lt_of_le (by norm_num) h
  have hlog : (2 : ℚ) ^ Int.log 2 p ≤ p := by exact_mod_cast Int.zpow_log_le_self (b := 2) (by norm_num) hp
  have hnormal : lastBit p = Int.log 2 p - 52 := by
    have hlow : -14 ≤ Int.log 2 p := by
      apply (Int.zpow_le_iff_le_log (b := 2) (by norm_num) hp).mp
      exact le_trans (by norm_num) h
    rw [lastBit, abs_of_pos hp]
    omega
  refine (abs_roundRat_sub p).trans ?_
  rw [hnormal, zpow_sub₀ (by norm_num)]
  calc (2 : ℚ) ^ Int.log 2 p / 2 ^ (52 : ℤ) / 2 = 2 ^ Int.log 2 p / 2 ^ 53 := by
        rw [div_div]
        norm_num
    _ ≤ p / 2 ^ 53 := div_le_div_of_nonneg_right hlog (by norm_num)

theorem abs_start_sub (h : SmallRange start stop step a b c) (hcanonical : Canonical start stop step) :
    |a - (units 4 start : ℚ) / 10 ^ 4| ≤ 1 / 10 ^ 8 := by
  have hbound : |(units 4 start : ℚ)| ≤ 10 ^ 11 := by
    have hunits := abs_units_le_mul (m := 10 ^ 7) h.start_val (by norm_num) (by exact_mod_cast h.start_small)
    exact_mod_cast hunits
  have hscaled : |(units 4 start : ℚ) / 10 ^ 4| < 2 ^ (-29 + 53 : ℤ) := by
    rw [abs_div, abs_of_pos (by norm_num : (0 : ℚ) < 10 ^ 4)]
    refine lt_of_le_of_lt (div_le_div_of_nonneg_right hbound (by norm_num)) (by norm_num)
  have hnear := abs_roundRat_sub_of_abs_lt (b := -29) (by norm_num) hscaled
  rw [← (canonical_val h.start_val hcanonical.start_eq).2] at hnear
  exact hnear.trans (by norm_num)

theorem abs_steps_sub (h : SmallRange start stop step a b c) (hunits : units 4 step ≠ 0)
    (hcanonical : Canonical start stop step) {i : ℕ} (hi : (i : ℤ) ≤ roundHalfEven (quotient a b c)) :
    |i * c - i * ((units 4 step : ℚ) / 10 ^ 4)| ≤ 2 / 10 ^ 8 := by
  obtain ⟨-, hbound⟩ := h.steps_bound hunits hi
  have hs : 1 ≤ units 4 step := by
    have := units_nonneg h.step_val h.step_pos
    omega
  have hleast : (1 : ℚ) / 10 ^ 4 ≤ units 4 step / 10 ^ 4 :=
    div_le_div_of_nonneg_right (by exact_mod_cast hs) (by norm_num)
  have hrelative := abs_roundRat_sub_rel hleast
  rw [← (canonical_val h.step_val hcanonical.step_eq).2] at hrelative
  set p := (units 4 step : ℚ) / 10 ^ 4 with hp
  have hpos : 0 < p := lt_of_lt_of_le (by norm_num) hleast
  have hsmall : p / 2 ^ 53 ≤ p / 2 := div_le_div_of_nonneg_left hpos.le (by norm_num) (by norm_num)
  have hdouble : p ≤ 2 * c := by
    have := (abs_le.mp hrelative).1
    linarith
  have hproduct : (i : ℚ) * p ≤ 16 * 10 ^ 7 := by
    have := mul_le_mul_of_nonneg_left hdouble (Nat.cast_nonneg i : (0 : ℚ) ≤ i)
    linarith
  rw [← mul_sub, abs_mul, Nat.abs_cast]
  calc (i : ℚ) * |c - p| ≤ i * (p / 2 ^ 53) := mul_le_mul_of_nonneg_left hrelative (Nat.cast_nonneg i)
    _ = i * p / 2 ^ 53 := by ring
    _ ≤ 16 * 10 ^ 7 / 2 ^ 53 := div_le_div_of_nonneg_right hproduct (by norm_num)
    _ ≤ 2 / 10 ^ 8 := by norm_num

theorem abs_sumOf_units (h : SmallRange start stop step a b c) (hunits : units 4 step ≠ 0)
    (hcanonical : Canonical start stop step) {i : ℕ} (hi : (i : ℤ) ≤ roundHalfEven (quotient a b c)) :
    |sumOf a c i * 10 ^ 6 - 100 * ((units 4 start + i * units 4 step : ℤ) : ℚ)| ≤ 1 / 10 := by
  obtain ⟨hlow, hhigh⟩ := abs_le.mp (h.abs_sumOf_sub hunits hi)
  obtain ⟨hlow', hhigh'⟩ := abs_le.mp (h.abs_start_sub hcanonical)
  obtain ⟨hlow'', hhigh''⟩ := abs_le.mp (h.abs_steps_sub hunits hcanonical hi)
  push_cast
  exact abs_le.mpr ⟨by linarith, by linarith⟩

theorem round6_canonical (h : SmallRange start stop step a b c) (hunits : units 4 step ≠ 0)
    (hcanonical : Canonical start stop step) {i : ℕ} (hi : (i : ℤ) ≤ roundHalfEven (quotient a b c)) :
    round6 (sumAt start step i) = angle (units 4 start + i * units 4 step) := by
  obtain ⟨hlow, hhigh⟩ := abs_le.mp (h.abs_sumOf_units hunits hcanonical hi)
  have hmicros : micros a c i = 100 * (units 4 start + i * units 4 step) := by
    apply le_antisymm
    · apply roundHalfEven_le_iff.mpr
      left
      push_cast at hhigh ⊢
      linarith
    · apply le_roundHalfEven_iff.mpr
      left
      push_cast at hlow ⊢
      linarith
  rw [h.round6_sumAt hunits hi, hmicros, micro, angle]
  congr 1
  push_cast
  ring

theorem aligned_iff_count (h : SmallRange start stop step a b c) (hcanonical : Canonical start stop step) :
    Aligned start stop step ↔
      units 4 step ≠ 0 ∧ stepCount start stop step = .ok (wholeSteps start stop step) := by
  constructor
  · intro haligned
    exact ⟨haligned.step_units, haligned.count⟩
  · rintro ⟨hunits, hcount⟩
    have hs : 0 < units 4 step := lt_of_le_of_ne (units_nonneg h.step_val h.step_pos) (Ne.symm hunits)
    have hsame : roundHalfEven (quotient a b c) = wholeSteps start stop step := by
      rw [h.stepCount_eq hunits] at hcount
      exact Except.ok.inj hcount
    obtain ⟨n, hn⟩ := Int.eq_ofNat_of_zero_le (h.count_bounds hunits).1
    obtain ⟨hstartAngle, -⟩ := canonical_val h.start_val hcanonical.start_eq
    obtain ⟨hstopAngle, hstopVal⟩ := canonical_val h.stop_val hcanonical.stop_eq
    refine ⟨hunits, hcount, ?_, ?_, ?_⟩
    · have hfirst := h.round6_canonical hunits hcanonical (i := 0) (by rw [hn]; exact_mod_cast n.zero_le)
      rw [h.sumAt_zero hunits, Nat.cast_zero, zero_mul, add_zero, ← hstartAngle] at hfirst
      rw [hfirst, Double.le_iff h.start_val h.start_val]
    · have hlast := h.round6_canonical hunits hcanonical (i := n) (by rw [hn])
      have hle : units 4 start + n * units 4 step ≤ units 4 stop := by
        have hquotient : (n : ℤ) ≤ (units 4 stop - units 4 start) / units 4 step := by
          rw [← wholeSteps, ← hsame, hn]
        have := (Int.le_ediv_iff_mul_le hs).mp hquotient
        omega
      have hexact := mem_unitGrid_units hs (abs_units_le h.start_val (large h.start_small))
        (abs_units_le h.stop_val (large h.stop_small)) hle
      rw [← hsame, hn, Int.toNat_natCast, hlast, Double.le_iff (angle_val hexact) h.stop_val,
        hstopVal]
      exact roundRat_mono (div_le_div_of_nonneg_right (by exact_mod_cast hle) (by norm_num))
    · intro i hi
      have hi' : (i : ℤ) ≤ roundHalfEven (quotient a b c) := by omega
      have hnear := h.abs_sumOf_units hunits hcanonical hi'
      rw [Double.value_of_val (h.sumAt_val hunits hi'), WithinUnit]
      split
      · exact hnear.trans (by norm_num)
      · exact lt_of_le_of_lt hnear (by norm_num)

end SmallRange

def rangeOnly (start stop step : Double) (h : Binary64.eq step (Binary64.lit 0) = false) : AoASpec where
  angles := none
  start := some start
  stop := some stop
  step := some step
  given := .inr ⟨rfl, rfl, rfl⟩
  step_ne := by
    rintro x ⟨⟩
    exact h

end XFoilFoam.Angles
