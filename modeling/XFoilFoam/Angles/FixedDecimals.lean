import XFoilFoam.Angles.Canonical
import XFoilFoam.Foundations.Literals

/-! Canonical values of `packages/core/src/canonical.ts`: the text of `roundHalfEvenFixed` is the nearest decimal with
its places, and a value that was made canonical stays as it is. -/
namespace XFoilFoam.Angles
open Decimal
set_option autoImplicit false

inductive CanonicalSiKind
  | temperatureK
  | pressurePa
  | speedMps
  | chordM
  | spanM
  | areaM2
  deriving DecidableEq, Repr

def siDecimals : CanonicalSiKind → ℕ
  | .temperatureK => 2
  | .pressurePa => 0
  | .speedMps => 3
  | .chordM => 4
  | .spanM => 4
  | .areaM2 => 6

def canonicalSi (kind : CanonicalSiKind) (x : Double) : Except String Double :=
  (roundHalfEvenFixed x (siDecimals kind)).map fun text => Binary64.lit (readNumber text)

/-! ## The nearest whole number -/

/-- `n` is nearest to `v`, and even where another number is as near. -/
def NearestEven (v : ℚ) (n : ℤ) : Prop := |v - n| ≤ 1 / 2 ∧ (|v - n| = 1 / 2 → n % 2 = 0)

theorem roundHalfEven_nearest (v : ℚ) : NearestEven v (roundHalfEven v) := by
  refine ⟨abs_sub_roundHalfEven v, fun htie => ?_⟩
  have hfloor := Int.floor_le v
  have hsucc := Int.lt_floor_add_one v
  unfold roundHalfEven at htie ⊢
  split
  · rename_i hlow
    rw [if_pos hlow, abs_of_nonneg (by linarith)] at htie
    exact absurd htie hlow.ne
  · rename_i hlow
    rw [if_neg hlow] at htie
    split
    · rename_i hhigh
      rw [if_pos hhigh, abs_of_neg (by push_cast; linarith)] at htie
      push_cast at htie
      linarith
    · split
      · assumption
      · omega

/-! ## Places that are recovered -/

/-- What is computed once for a number of places: its unit, two of them and the largest number that is still rounded. -/
structure Recoverable (places : ℕ) : Prop where
  few : places ≤ 16
  unit : decimalOf (roundRat (1 / 10 ^ places)) = 1 / 10 ^ places
  two : (10 : ℚ) ^ (-places : ℤ) ≤ roundRat (2 / 10 ^ places)
  top : roundRat (10 ^ (16 - places)) = 10 ^ (16 - places)

theorem recoverable_si (kind : CanonicalSiKind) : Recoverable (siDecimals kind) := by
  cases kind <;> exact ⟨by decide, by decide +kernel, by decide +kernel, by decide +kernel⟩

section Places
variable {places : ℕ} {q : ℚ}

theorem log_of_finer (hq : 0 < q) (hreads : roundRat (decimalOf q) = q)
    (hfiner : ¬∃ m : ℤ, decimalOf q * 10 ^ places = m) : Int.log 10 q < 16 - places := by
  unfold decimalOf shortest at hreads hfiner
  cases hfind : (List.range 17).findSome? fun k => roundTrip? q (k + 1) with
  | none =>
    rw [hfind, Option.getD_none] at hreads
    have hzero : decimalValue (0, 0) = 0 := by rw [decimalValue, Int.cast_zero, zero_mul]
    rw [hzero, roundRat_zero] at hreads
    exact absurd hreads hq.ne
  | some d =>
    rw [hfind, Option.getD_some] at hfiner
    obtain ⟨k, hk, htrip⟩ := List.exists_of_findSome?_eq_some hfind
    have hplace := (mem_neighbours (roundTrip?_spec htrip).1).1
    have hk := List.mem_range.mp hk
    have hbelow : d.2 < -places := by
      by_contra hle
      obtain ⟨z, hz⟩ := Int.eq_ofNat_of_zero_le (by omega : 0 ≤ d.2 + places)
      refine hfiner ⟨d.1 * 10 ^ z, ?_⟩
      rw [decimalValue, mul_assoc, ← zpow_natCast, ← zpow_add₀ (by norm_num), hz, zpow_natCast]
      push_cast
      ring
    push_cast at hplace
    omega

theorem rounded_nonneg (places : ℕ) (hnonneg : 0 ≤ q) : 0 ≤ roundHalfEven (decimalOf q * 10 ^ places) := by
  have hdecimal : 0 ≤ decimalOf q := by
    obtain hzero | hpos := hnonneg.eq_or_lt
    · rw [← hzero, decimalOf_zero]
    · exact decimalOf_nonneg hpos
  apply le_roundHalfEven
  rw [Int.cast_zero]
  exact mul_nonneg hdecimal (by positivity)

theorem rounded_recovered (hplaces : Recoverable places) (hnonneg : 0 ≤ q)
    (hrange : q < 2 ^ overflowExponent) {n : ℤ} (hn : n = roundHalfEven (decimalOf q * 10 ^ places)) :
    roundRat (n / 10 ^ places) < 2 ^ overflowExponent ∧
      ∃ m : ℤ, decimalOf (roundRat (n / 10 ^ places)) = m / 10 ^ places ∧
        roundRat (m / 10 ^ places) = roundRat (n / 10 ^ places) := by
  have hscale : (0 : ℚ) < 10 ^ places := by positivity
  have hnone (hzero : n = 0) : roundRat (n / 10 ^ places) < 2 ^ overflowExponent ∧
      ∃ m : ℤ, decimalOf (roundRat (n / 10 ^ places)) = m / 10 ^ places ∧
        roundRat (m / 10 ^ places) = roundRat (n / 10 ^ places) := by
    have hvalue : roundRat ((n : ℚ) / 10 ^ places) = 0 := by rw [hzero, Int.cast_zero, zero_div, roundRat_zero]
    rw [hvalue]
    exact ⟨by positivity, 0, by rw [decimalOf_zero, Int.cast_zero, zero_div], by
      rw [Int.cast_zero, zero_div, roundRat_zero]⟩
  have hdecimal : decimalOf q = 0 ∨ 0 < q ∧ roundRat (decimalOf q) = q := by
    obtain hzero | hpos := hnonneg.eq_or_lt
    · exact .inl (by rw [← hzero, decimalOf_zero])
    · obtain hnone | ⟨-, hround⟩ := shortest_spec hpos
      · exact .inl (by rw [decimalOf, hnone, decimalValue, Int.cast_zero, zero_mul])
      · exact .inr ⟨hpos, hround⟩
  obtain hzero | ⟨hpos, hround⟩ := hdecimal
  · refine hnone ?_
    have hint := roundHalfEven_intCast 0
    rw [hn, hzero, zero_mul]
    exact_mod_cast hint
  by_cases hwhole : ∃ m : ℤ, decimalOf q * 10 ^ places = m
  · -- nothing to round: the double is the one that was given
    obtain ⟨m, hm⟩ := hwhole
    have hvalue : (n : ℚ) / 10 ^ places = decimalOf q := by
      rw [hn, hm, roundHalfEven_intCast, ← hm, mul_div_cancel_right₀ _ hscale.ne']
    have hdivided : (m : ℚ) / 10 ^ places = decimalOf q := by rw [← hm, mul_div_cancel_right₀ _ hscale.ne']
    rw [hvalue, hround]
    exact ⟨hrange, m, hdivided.symm, by rw [hdivided, hround]⟩
  · have hlog := log_of_finer hpos hround hwhole
    have htop : q < 10 ^ (16 - places) := by
      have hlt := Int.lt_zpow_succ_log_self (b := 10) (by norm_num) q
      rw [← zpow_natCast, Nat.cast_sub hplaces.few]
      exact lt_of_lt_of_le (by exact_mod_cast hlt) (zpow_le_zpow_right₀ (by norm_num) (by push_cast; omega))
    have hvalue : (n : ℚ) / 10 ^ places ≤ 10 ^ (16 - places) := by
      have hdecimal := (decimalOf_lt hpos hplaces.top htop).le
      have hmono := roundHalfEven_mono (mul_le_mul_of_nonneg_right hdecimal hscale.le)
      have hcast : (10 : ℚ) ^ (16 - places) * 10 ^ places = ((10 ^ 16 : ℤ) : ℚ) := by
        rw [← pow_add, Nat.sub_add_cancel hplaces.few]
        norm_num
      rw [← hn, hcast, roundHalfEven_intCast] at hmono
      rw [div_le_iff₀ hscale, hcast]
      exact_mod_cast hmono
    have hhigh : roundRat (n / 10 ^ places) ≤ 10 ^ (16 - places) := by
      rw [← hplaces.top]
      exact roundRat_mono hvalue
    have hfinite : roundRat (n / 10 ^ places) < 2 ^ overflowExponent := by
      calc roundRat (n / 10 ^ places) ≤ 10 ^ (16 - places) := hhigh
        _ ≤ 10 ^ 16 := pow_le_pow_right₀ (by norm_num) (by omega)
        _ < 2 ^ 64 := by norm_num
        _ < 2 ^ overflowExponent := pow_lt_pow_right₀ (by norm_num) (by decide)
    have hn0 : 0 ≤ n := hn ▸ rounded_nonneg places hnonneg
    obtain hzero | hone | htwo : n = 0 ∨ n = 1 ∨ 2 ≤ n := by omega
    · exact hnone hzero
    · subst hone
      exact ⟨hfinite, 1, by rw [Int.cast_one, hplaces.unit], rfl⟩
    · have hleast : (10 : ℚ) ^ (-places : ℤ) ≤ roundRat (n / 10 ^ places) := by
        refine hplaces.two.trans (roundRat_mono ?_)
        exact div_le_div_of_nonneg_right (by exact_mod_cast htwo) hscale.le
      have hbound : Int.log 10 (roundRat (n / 10 ^ places)) < 17 - places := by
        apply (Int.lt_zpow_iff_log_lt (by norm_num) ((ten_zpow_pos _).trans_le hleast)).mp
        calc roundRat (n / 10 ^ places) ≤ 10 ^ (16 - places) := hhigh
          _ < ((10 : ℕ) : ℚ) ^ ((17 : ℤ) - places) := by
            rw [← zpow_natCast, Nat.cast_sub hplaces.few]
            exact zpow_lt_zpow_right₀ (by norm_num) (by push_cast; omega)
      obtain ⟨m, -, hm, hreads⟩ := decimalOf_places rfl hleast hbound
      exact ⟨hfinite, m, hm, hreads⟩

end Places

/-! ## Canonical values -/

section Canonical
variable {places : ℕ} {x : Double} {q : ℚ}

theorem fixed_eq (hx : x.val = .fin q) (places : ℕ) :
    (roundHalfEvenFixed x places).map (fun text => (Binary64.lit (readNumber text) : Double)) =
      .ok (Binary64.lit (units places x / 10 ^ places)) := by
  obtain ⟨text, int, frac, htext, hwritten⟩ := roundHalfEvenFixed_written hx places
  rw [htext]
  show Except.ok (Binary64.lit (readNumber text)) = _
  rw [hwritten.reads]

theorem units_lit {m : ℤ} {y : Double} (hm : decimal y = m / 10 ^ places) :
    units places y = m := by
  rw [units, hm, div_mul_cancel₀ _ (by positivity), roundHalfEven_intCast]

theorem lit_val {v : ℚ} (h : |roundRat v| < 2 ^ overflowExponent) :
    (Binary64.lit v : Double).val = .fin (roundRat v) := Double.round64_of_lt h

theorem canonical_stays (hplaces : Recoverable places) (hx : x.val = .fin q) {y : Double}
    (hy : y = Binary64.lit (units places x / 10 ^ places)) :
    ∃ r, y.val = .fin r ∧ Binary64.lit (units places y / 10 ^ places) = y := by
  have hrounded := x.rounded
  rw [hx] at hrounded
  have hrange := (Double.rounded_fin hrounded).2
  obtain ⟨hfinite, m, hm, hreads⟩ := rounded_recovered hplaces (abs_nonneg q) hrange rfl
  set n := roundHalfEven (decimalOf |q| * 10 ^ places) with hn
  set r := roundRat ((n : ℚ) / 10 ^ places) with hr
  have hr0 : 0 ≤ r := by
    have hn0 : 0 ≤ n := rounded_nonneg places (abs_nonneg q)
    exact roundRat_nonneg (div_nonneg (by exact_mod_cast hn0) (by positivity))
  by_cases hq : q < 0
  · have hunits : (units places x : ℚ) / 10 ^ places = -((n : ℚ) / 10 ^ places) := by
      rw [units, decimal_eq hx, if_pos hq, neg_mul, roundHalfEven_neg, ← hn]
      push_cast
      ring
    have hneg : roundRat (-((n : ℚ) / 10 ^ places)) = -r := Double.roundRat_neg _
    have hval : y.val = .fin (-r) := by
      rw [hy, hunits, lit_val (by rw [hneg, abs_neg, abs_of_nonneg hr0]; exact hfinite), hneg]
    have hdecimal : decimal y = ((-m : ℤ) : ℚ) / 10 ^ places := by
      rw [decimal_eq hval, abs_neg, abs_of_nonneg hr0, hm]
      push_cast
      obtain hzero | hpos := hr0.eq_or_lt
      · have hnone : (m : ℚ) / 10 ^ places = 0 := by rw [← hm, ← hzero, decimalOf_zero]
        rw [← hzero, neg_zero, if_neg (lt_irrefl _), neg_div, hnone, neg_zero]
      · rw [if_pos (by linarith), neg_div]
    refine ⟨-r, hval, Double.ext_val ?_⟩
    have hagain : roundRat (((-m : ℤ) : ℚ) / 10 ^ places) = -r := by
      push_cast
      rw [neg_div, Double.roundRat_neg, hreads]
    rw [units_lit hdecimal, lit_val (by rw [hagain, abs_neg, abs_of_nonneg hr0]; exact hfinite), hagain, hval]
  · have hunits : (units places x : ℚ) / 10 ^ places = (n : ℚ) / 10 ^ places := by
      rw [units, decimal_eq hx, if_neg hq]
    have hval : y.val = .fin r := by
      rw [hy, hunits, lit_val (by rw [← hr, abs_of_nonneg hr0]; exact hfinite)]
    have hdecimal : decimal y = (m : ℚ) / 10 ^ places := by
      rw [decimal_eq hval, if_neg (not_lt.mpr hr0), abs_of_nonneg hr0, hm]
    refine ⟨r, hval, Double.ext_val ?_⟩
    rw [units_lit hdecimal, lit_val (by rw [hreads, abs_of_nonneg hr0]; exact hfinite), hreads, hval]

theorem fixed_idempotent (hplaces : Recoverable places) (x : Double) :
    ((roundHalfEvenFixed x places).map fun text => (Binary64.lit (readNumber text) : Double)).bind
        (fun y => (roundHalfEvenFixed y places).map fun text => (Binary64.lit (readNumber text) : Double)) =
      (roundHalfEvenFixed x places).map fun text => (Binary64.lit (readNumber text) : Double) := by
  cases hfinite : Binary64.isFinite x with
  | false =>
    unfold roundHalfEvenFixed
    rw [hfinite]
    rfl
  | true =>
    have hq := Double.val_of_finite hfinite
    obtain ⟨r, hr, hagain⟩ := canonical_stays hplaces hq rfl
    rw [fixed_eq hq places]
    show (roundHalfEvenFixed (Binary64.lit (units places x / 10 ^ places)) places).map _ = _
    rw [fixed_eq hr places, hagain]

end Canonical

/-- The text of a finite number is the nearest decimal with its places, the even one on a tie, and canonical angles and
quantities stay as they are. -/
theorem nearest_decimal_and_idempotent :
    (∀ (x : Double) (decimals : ℕ), Binary64.isFinite x = true →
      ∃ n text int frac, roundHalfEvenFixed x decimals = .ok text ∧ Written decimals n text int frac ∧
        NearestEven (decimal x * 10 ^ decimals) n) ∧
    (∀ x : Double, (canonicalAoa x).bind canonicalAoa = canonicalAoa x) ∧
    ∀ (kind : CanonicalSiKind) (x : Double), (canonicalSi kind x).bind (canonicalSi kind) = canonicalSi kind x := by
  refine ⟨?_, fun x => fixed_idempotent (recoverable_si .chordM) x, fun kind x => fixed_idempotent (recoverable_si kind) x⟩
  intro x decimals hfinite
  have hq := Double.val_of_finite hfinite
  obtain ⟨text, int, frac, htext, hwritten⟩ := roundHalfEvenFixed_written hq decimals
  exact ⟨units decimals x, text, int, frac, htext, hwritten, roundHalfEven_nearest _⟩

theorem quarter_thousandth_written : ∃ n text int frac, roundHalfEvenFixed (Binary64.lit (25 / 100000)) 4 = .ok text ∧
    Written 4 n text int frac ∧ NearestEven (decimal (Binary64.lit (25 / 100000)) * 10 ^ 4) n :=
  nearest_decimal_and_idempotent.1 _ 4 (by decide +kernel)

end XFoilFoam.Angles
