import XFoilFoam.Foundations.Double
import Mathlib.Data.Nat.Digits.Defs
import Mathlib.Data.List.DropRight

/-! Numbers as decimal text: a digit string with the place of its point, written out or in scientific
notation, `Number.prototype.toString` on doubles, and the general format of Python with a precision,
whose text is read back to the rounded number. -/
namespace XFoilFoam.Decimal
set_option autoImplicit false

/-! ## Layout -/

/-- The digits with the decimal point after `point` of them. -/
def plain (digits : List Char) (point : ℤ) : List Char :=
  if (digits.length : ℤ) ≤ point then
    digits ++ List.replicate (point - digits.length).toNat '0'
  else if 0 < point then digits.take point.toNat ++ '.' :: digits.drop point.toNat
  else '0' :: '.' :: (List.replicate (-point).toNat '0' ++ digits)

def mantissa : List Char → List Char
  | [] => []
  | [d] => [d]
  | d :: rest => d :: '.' :: rest

/-- A signed exponent of at least `width` digits. -/
def exponentText (width : ℕ) (e : ℤ) : List Char :=
  let digits := Nat.toDigits 10 e.natAbs
  'e' :: (if e < 0 then '-' else '+') :: (List.replicate (width - digits.length) '0' ++ digits)

def scientific (width : ℕ) (digits : List Char) (point : ℤ) : List Char :=
  mantissa digits ++ exponentText width (point - 1)

def stripZeros (digits : List Char) : List Char := digits.rdropWhile (· == '0')

/-! ## Numbers of JavaScript -/

/-- `k` significant digits of a positive number from below or above, as an integer and a power. -/
def neighbours (q : ℚ) (k : ℕ) : List (ℤ × ℤ) :=
  let last := Int.log 10 q + 1 - k
  [(⌊q / 10 ^ last⌋, last), (⌊q / 10 ^ last⌋ + 1, last)]

def decimalValue (d : ℤ × ℤ) : ℚ := d.1 * 10 ^ d.2

/-- Whether `d` is closer to the number than `b`, or as close with an even last digit. -/
def closer (q : ℚ) (d b : ℤ × ℤ) : Prop :=
  |decimalValue d - q| < |decimalValue b - q| ∨
    |decimalValue d - q| = |decimalValue b - q| ∧ d.1 % 2 = 0

instance (q : ℚ) (d b : ℤ × ℤ) : Decidable (closer q d b) := inferInstanceAs (Decidable (_ ∨ _))

/-- The closest neighbour that reads back as this number. -/
def roundTrip? (q : ℚ) (k : ℕ) : Option (ℤ × ℤ) :=
  match (neighbours q k).filter fun d => decide (roundRat (decimalValue d) = q) with
  | [] => none
  | [d] => some d
  | d :: b :: _ => if closer q d b then some d else some b

/-- The fewest digits that read back as this number; seventeen always do. -/
def shortest (q : ℚ) : ℤ × ℤ :=
  ((List.range 17).findSome? fun k => roundTrip? q (k + 1)).getD (0, 0)

/-- The layout of `Number::toString` for a positive number. -/
def positiveText (q : ℚ) : List Char :=
  let (coefficient, last) := shortest q
  let digits := Nat.toDigits 10 coefficient.toNat
  let point := last + digits.length
  let digits := stripZeros digits
  if -6 < point ∧ point ≤ 21 then plain digits point else scientific 1 digits point

/-- `Number.prototype.toString`. -/
def numberText (x : Double) : String :=
  match x.val with
  | .nan => "NaN"
  | .posInf => "Infinity"
  | .negInf => "-Infinity"
  | .fin q =>
    if q = 0 then "0"
    else if q < 0 then String.ofList ('-' :: positiveText (-q))
    else String.ofList (positiveText q)

/-! ## The general format of Python -/

/-- The place of the last of `p` significant digits. -/
def lastPlace (p : ℕ) (q : ℚ) : ℤ := Int.log 10 |q| + 1 - p

/-- The nearest number of `p` significant digits, the even one on a tie. -/
def significant (p : ℕ) (q : ℚ) : ℚ :=
  (roundHalfEven (q / 10 ^ lastPlace p q) : ℚ) * 10 ^ lastPlace p q

/-- The digits of a positive number that has at most `p` of them, and the place of the point. -/
def digitsOf (p : ℕ) (r : ℚ) : List Char :=
  stripZeros (Nat.toDigits 10 (r / 10 ^ lastPlace p r).num.toNat)

def pointOf (r : ℚ) : ℤ := Int.log 10 |r| + 1

/-- Written out for exponents from `-4` below the precision. -/
def generalLayout (p : ℕ) (r : ℚ) : List Char :=
  if -4 ≤ pointOf r - 1 ∧ pointOf r - 1 < p then plain (digitsOf p r) (pointOf r)
  else scientific 2 (digitsOf p r) (pointOf r)

/-- `format(q, ".<p>g")`. -/
def generalText (p : ℕ) (q : ℚ) : List Char :=
  let r := significant p q
  if r = 0 then ['0'] else if r < 0 then '-' :: generalLayout p (-r) else generalLayout p r

/-! ## Reading a text back -/

def fraction : List Char → ℚ
  | [] => 0
  | c :: rest => ((c.toNat - '0'.toNat : ℕ) + fraction rest) / 10

theorem ofDigitChars_eq_fraction (digits : List Char) (start : ℕ) :
    (Nat.ofDigitChars 10 digits start : ℚ) = (start + fraction digits) * 10 ^ digits.length := by
  induction digits generalizing start with
  | nil => simp [fraction]
  | cons c rest ih =>
    rw [Nat.ofDigitChars_cons, ih, fraction, List.length_cons, pow_succ]
    push_cast
    ring

theorem fraction_toDigits (n : ℕ) :
    fraction (Nat.toDigits 10 n) * 10 ^ (Nat.toDigits 10 n).length = n := by
  have h := ofDigitChars_eq_fraction (Nat.toDigits 10 n) 0
  rw [Nat.ofDigitChars_ten_toDigits] at h
  simpa using h.symm

theorem fraction_append_zeros (digits : List Char) (n : ℕ) :
    fraction (digits ++ List.replicate n '0') = fraction digits := by
  induction digits with
  | nil =>
    induction n with
    | zero => rfl
    | succ n ih =>
      simp only [List.nil_append, fraction] at ih ⊢
      simp [List.replicate_succ, fraction, ih]
  | cons c rest ih => rw [List.cons_append, fraction, ih, fraction]

theorem fraction_zeros_append (digits : List Char) (n : ℕ) :
    fraction (List.replicate n '0' ++ digits) = fraction digits / 10 ^ n := by
  induction n with
  | zero => simp
  | succ n ih =>
    rw [List.replicate_succ, List.cons_append, fraction, ih, pow_succ]
    simp
    ring

theorem stripZeros_append (digits : List Char) :
    ∃ n, digits = stripZeros digits ++ List.replicate n '0' := by
  refine ⟨(digits.rtakeWhile (· == '0')).length, ?_⟩
  have hzeros : digits.rtakeWhile (· == '0') =
      List.replicate (digits.rtakeWhile (· == '0')).length '0' := by
    rw [List.eq_replicate_iff]
    exact ⟨rfl, fun c hc => by simpa using List.mem_rtakeWhile_imp hc⟩
  rw [← hzeros, stripZeros, List.rdropWhile_append_rtakeWhile]

theorem fraction_stripZeros (digits : List Char) : fraction (stripZeros digits) = fraction digits := by
  obtain ⟨n, hn⟩ := stripZeros_append digits
  conv_rhs => rw [hn]
  rw [fraction_append_zeros]

def readPlain (text : List Char) : ℚ :=
  let whole := text.takeWhile (· != '.')
  fraction (whole ++ (text.dropWhile (· != '.')).tail) * 10 ^ whole.length

def readExponent : List Char → ℤ
  | _ :: sign :: digits =>
    if sign = '-' then -(Nat.ofDigitChars 10 digits 0 : ℤ) else Nat.ofDigitChars 10 digits 0
  | _ => 0

def readMagnitude (text : List Char) : ℚ :=
  readPlain (text.takeWhile (· != 'e')) * 10 ^ readExponent (text.dropWhile (· != 'e'))

def readNumber (text : List Char) : ℚ :=
  if text.head? = some '-' then -readMagnitude text.tail else readMagnitude text

theorem readPlain_point {whole rest : List Char} (h : ∀ c ∈ whole, c ≠ '.') :
    readPlain (whole ++ '.' :: rest) = fraction (whole ++ rest) * 10 ^ whole.length := by
  have hpos : ∀ c ∈ whole, (c != '.') = true := fun c hc => by simpa using h c hc
  rw [readPlain, List.takeWhile_append_of_pos hpos, List.dropWhile_append_of_pos hpos]
  simp

theorem readPlain_whole {whole : List Char} (h : ∀ c ∈ whole, c ≠ '.') :
    readPlain whole = fraction whole * 10 ^ whole.length := by
  have hpos : ∀ c ∈ whole, (c != '.') = true := fun c hc => by simpa using h c hc
  rw [readPlain, List.takeWhile_eq_self_iff.mpr hpos, List.dropWhile_eq_nil_iff.mpr hpos]
  simp

def AllDigits (digits : List Char) : Prop := ∀ c ∈ digits, c.isDigit = true

theorem AllDigits.no_point {digits : List Char} (h : AllDigits digits) : ∀ c ∈ digits, c ≠ '.' := by
  rintro c hc rfl
  exact absurd (h _ hc) (by decide)

theorem readPlain_plain {digits : List Char} (h : AllDigits digits) (point : ℤ) :
    readPlain (plain digits point) = fraction digits * 10 ^ point := by
  unfold plain
  split
  · next hlong =>
    have hno : ∀ c ∈ digits ++ List.replicate (point - digits.length).toNat '0', c ≠ '.' := by
      intro c hc
      obtain hc | hc := List.mem_append.mp hc
      · exact h.no_point c hc
      · rw [List.eq_of_mem_replicate hc]
        decide
    rw [readPlain_whole hno, fraction_append_zeros, List.length_append, List.length_replicate,
      ← zpow_natCast]
    congr 2
    omega
  · next hshort =>
    split
    · next hpos =>
      rw [readPlain_point fun c hc => h.no_point c (List.mem_of_mem_take hc), List.take_append_drop,
        List.length_take, ← zpow_natCast]
      congr 2
      omega
    · next hneg =>
      have hzero : readPlain (['0'] ++ '.' :: (List.replicate (-point).toNat '0' ++ digits)) =
          fraction digits * 10 ^ point := by
        have hzeros : ['0'] ++ (List.replicate (-point).toNat '0' ++ digits) =
            List.replicate ((-point).toNat + 1) '0' ++ digits := by
          rw [List.replicate_succ, List.singleton_append, List.cons_append]
        have hno : ∀ c ∈ ['0'], c ≠ '.' := fun c hc => by
          rw [List.mem_singleton.mp hc]
          decide
        rw [readPlain_point hno, hzeros, fraction_zeros_append, List.length_singleton, pow_one,
          pow_succ]
        have hpoint : (10 : ℚ) ^ point = (10 ^ (-point).toNat)⁻¹ := by
          rw [← zpow_natCast, ← zpow_neg]
          congr 1
          omega
        rw [hpoint]
        field_simp
      exact hzero

theorem readPlain_mantissa {digits : List Char} (h : AllDigits digits) (hne : digits ≠ []) :
    readPlain (mantissa digits) = fraction digits * 10 := by
  match digits, h, hne with
  | [d], h, _ =>
    rw [mantissa, readPlain_whole h.no_point, List.length_singleton, pow_one]
  | d :: e :: rest, h, _ =>
    have hd : ∀ c ∈ [d], c ≠ '.' := fun c hc =>
      h.no_point c (by rw [List.mem_singleton.mp hc]; exact List.mem_cons_self)
    have hread : readPlain ([d] ++ '.' :: e :: rest) = _ := readPlain_point hd
    rw [List.singleton_append, List.singleton_append, List.length_singleton, pow_one] at hread
    exact hread

theorem readExponent_text (width : ℕ) (e : ℤ) : readExponent (exponentText width e) = e := by
  simp only [exponentText, readExponent, Nat.ofDigitChars_append, Nat.ofDigitChars_replicate_zero,
    Nat.mul_zero, Nat.ofDigitChars_ten_toDigits]
  by_cases he : e < 0
  · rw [if_pos he, if_pos rfl]
    omega
  · rw [if_neg he, if_neg (by decide)]
    omega

theorem readMagnitude_exponent {text : List Char} (h : ∀ c ∈ text, c ≠ 'e') (width : ℕ) (e : ℤ) :
    readMagnitude (text ++ exponentText width e) = readPlain text * 10 ^ e := by
  have hpos : ∀ c ∈ text, (c != 'e') = true := fun c hc => by simpa using h c hc
  have hread := readExponent_text width e
  rw [exponentText] at hread ⊢
  rw [readMagnitude, List.takeWhile_append_of_pos hpos, List.dropWhile_append_of_pos hpos,
    List.takeWhile_cons_of_neg (by decide), List.dropWhile_cons_of_neg (by decide), List.append_nil,
    hread]

theorem readMagnitude_plain {text : List Char} (h : ∀ c ∈ text, c ≠ 'e') :
    readMagnitude text = readPlain text := by
  have hpos : ∀ c ∈ text, (c != 'e') = true := fun c hc => by simpa using h c hc
  rw [readMagnitude, List.takeWhile_eq_self_iff.mpr hpos, List.dropWhile_eq_nil_iff.mpr hpos]
  simp [readExponent]

/-! ## The general format names the rounded number -/

theorem ten_zpow_pos (e : ℤ) : (0 : ℚ) < 10 ^ e := zpow_pos (by norm_num) e

theorem log_eq_of_bounds {q : ℚ} {e : ℤ} (hlow : (10 : ℚ) ^ e ≤ q) (hhigh : q < 10 ^ (e + 1)) :
    Int.log 10 q = e := by
  have hq : 0 < q := (ten_zpow_pos e).trans_le hlow
  have hbelow : e ≤ Int.log 10 q := (Int.zpow_le_iff_le_log (by norm_num) hq).mp (by exact_mod_cast hlow)
  have habove : Int.log 10 q < e + 1 :=
    (Int.lt_zpow_iff_log_lt (by norm_num) hq).mp (by exact_mod_cast hhigh)
  omega

theorem log_of_coefficient {p c : ℕ} {e : ℤ} (hlow : 10 ^ p ≤ c) (hhigh : c < 10 ^ (p + 1)) :
    Int.log 10 ((c : ℚ) * 10 ^ e) = p + e := by
  have hpos := ten_zpow_pos e
  apply log_eq_of_bounds
  · rw [zpow_add₀ (by norm_num), zpow_natCast]
    have : ((10 ^ p : ℕ) : ℚ) ≤ c := by exact_mod_cast hlow
    push_cast at this
    exact mul_le_mul_of_nonneg_right this hpos.le
  · rw [show (p : ℤ) + e + 1 = (p + 1 : ℕ) + e by push_cast; ring, zpow_add₀ (by norm_num), zpow_natCast]
    have : (c : ℚ) < ((10 ^ (p + 1) : ℕ) : ℚ) := by exact_mod_cast hhigh
    push_cast at this
    exact mul_lt_mul_of_pos_right this hpos

theorem significant_coefficient {p : ℕ} {q : ℚ} (hq : 0 < q) :
    ∃ (c : ℕ) (e : ℤ), 10 ^ p ≤ c ∧ c < 10 ^ (p + 1) ∧ significant (p + 1) q = c * 10 ^ e := by
  set last := lastPlace (p + 1) q with hlast
  have hpos := ten_zpow_pos last
  have hlog : Int.log 10 q = last + p := by
    rw [hlast, lastPlace, abs_of_pos hq]
    push_cast
    ring
  have hlow : ((10 ^ p : ℤ) : ℚ) ≤ q / 10 ^ last := by
    have h := Int.zpow_log_le_self (b := 10) (by norm_num) hq
    rw [hlog, Nat.cast_ofNat, zpow_add₀ (by norm_num), zpow_natCast] at h
    rw [le_div_iff₀ hpos]
    push_cast
    linarith
  have hhigh : q / 10 ^ last ≤ ((10 ^ (p + 1) : ℤ) : ℚ) := by
    have h := Int.lt_zpow_succ_log_self (b := 10) (by norm_num) q
    rw [hlog, Nat.cast_ofNat, add_assoc, zpow_add₀ (by norm_num)] at h
    rw [div_le_iff₀ hpos]
    have hpow : (10 : ℚ) ^ ((p : ℤ) + 1) = 10 ^ (p + 1) := by exact_mod_cast rfl
    rw [hpow] at h
    push_cast
    linarith
  have hlow' := le_roundHalfEven hlow
  have hhigh' := roundHalfEven_le hhigh
  obtain ⟨n, hn⟩ := Int.eq_ofNat_of_zero_le ((by positivity : (0 : ℤ) ≤ 10 ^ p).trans hlow')
  have hvalue : significant (p + 1) q = n * 10 ^ last := by
    rw [significant, ← hlast, hn]
    rfl
  rw [hn] at hlow' hhigh'
  have hn_low : 10 ^ p ≤ n := by exact_mod_cast hlow'
  have hn_high : n ≤ 10 ^ (p + 1) := by exact_mod_cast hhigh'
  by_cases hcarry : n = 10 ^ (p + 1)
  · -- rounding up carried into a new digit
    refine ⟨10 ^ p, last + 1, le_rfl, Nat.pow_lt_pow_right (by norm_num) (by omega), ?_⟩
    rw [hvalue, hcarry, zpow_add_one₀ (by norm_num)]
    push_cast
    ring
  · exact ⟨n, last, hn_low, by omega, hvalue⟩

theorem toDigits_allDigits (n : ℕ) : AllDigits (Nat.toDigits 10 n) :=
  fun _ hc => Nat.isDigit_of_mem_toDigits (by decide) (by decide) hc

theorem AllDigits.stripZeros {digits : List Char} (h : AllDigits digits) :
    AllDigits (stripZeros digits) :=
  fun c hc => h c ((List.rdropWhile_prefix _ _).subset hc)

theorem length_toDigits {p c : ℕ} (hlow : 10 ^ p ≤ c) (hhigh : c < 10 ^ (p + 1)) :
    (Nat.toDigits 10 c).length = p + 1 := by
  have hupper := (Nat.length_toDigits_le_iff (b := 10) (by norm_num) (by omega : 0 < p + 1)).mpr hhigh
  have hlower : ¬ (Nat.toDigits 10 c).length ≤ p := by
    intro h
    obtain rfl | hp := Nat.eq_zero_or_pos p
    · have hpos := Nat.length_toDigits_pos (b := 10) (n := c)
      omega
    · exact absurd ((Nat.length_toDigits_le_iff (b := 10) (by norm_num) hp).mp h) (by omega)
  omega

theorem mem_plain {digits : List Char} (h : AllDigits digits) {point : ℤ} {c : Char}
    (hc : c ∈ plain digits point) : c.isDigit = true ∨ c = '.' := by
  unfold plain at hc
  split_ifs at hc
  · obtain hc | hc := List.mem_append.mp hc
    · exact .inl (h c hc)
    · rw [List.eq_of_mem_replicate hc]
      decide
  · obtain hc | hc := List.mem_append.mp hc
    · exact .inl (h c (List.mem_of_mem_take hc))
    · obtain rfl | hc := List.mem_cons.mp hc
      · exact .inr rfl
      · exact .inl (h c (List.mem_of_mem_drop hc))
  · simp only [List.mem_cons, List.mem_append] at hc
    obtain rfl | rfl | hc | hc := hc
    · decide
    · decide
    · rw [List.eq_of_mem_replicate hc]
      decide
    · exact .inl (h c hc)

theorem mem_mantissa {digits : List Char} (h : AllDigits digits) {c : Char}
    (hc : c ∈ mantissa digits) : c.isDigit = true ∨ c = '.' := by
  match digits, h, hc with
  | [d], h, hc => exact .inl (h c hc)
  | d :: e :: rest, h, hc =>
    simp only [mantissa, List.mem_cons] at hc
    obtain rfl | rfl | hc := hc
    · exact .inl (h _ List.mem_cons_self)
    · exact .inr rfl
    · exact .inl (h c (List.mem_cons_of_mem _ (List.mem_cons.mpr hc)))

theorem not_exponent_of {c : Char} (h : c.isDigit = true ∨ c = '.') : c ≠ 'e' := by
  rintro rfl
  revert h
  decide

theorem mem_exponentText {width : ℕ} {e : ℤ} {c : Char} (hc : c ∈ exponentText width e) :
    c.isDigit = true ∨ c ∈ ['.', '-', '+', 'e'] := by
  simp only [exponentText, List.mem_cons, List.mem_append] at hc
  obtain rfl | hsign | hc | hc := hc
  · decide
  · split_ifs at hsign
    · rw [hsign]
      decide
    · rw [hsign]
      decide
  · rw [List.eq_of_mem_replicate hc]
    decide
  · exact .inl (toDigits_allDigits _ c hc)

theorem stripZeros_ne_nil {c : ℕ} (hc : 0 < c) : stripZeros (Nat.toDigits 10 c) ≠ [] := by
  intro hnil
  have h := fraction_toDigits c
  rw [← fraction_stripZeros, hnil, fraction, zero_mul] at h
  exact hc.ne (by exact_mod_cast h)

section Coefficient
variable {p c : ℕ} {e : ℤ}

theorem lastPlace_coefficient (hlow : 10 ^ p ≤ c) (hhigh : c < 10 ^ (p + 1)) :
    lastPlace (p + 1) ((c : ℚ) * 10 ^ e) = e := by
  have hnonneg : 0 ≤ (c : ℚ) * 10 ^ e := mul_nonneg (Nat.cast_nonneg c) (ten_zpow_pos e).le
  rw [lastPlace, abs_of_nonneg hnonneg, log_of_coefficient hlow hhigh]
  push_cast
  ring

theorem pointOf_coefficient (hlow : 10 ^ p ≤ c) (hhigh : c < 10 ^ (p + 1)) :
    pointOf ((c : ℚ) * 10 ^ e) = (p + 1 : ℕ) + e := by
  have hnonneg : 0 ≤ (c : ℚ) * 10 ^ e := mul_nonneg (Nat.cast_nonneg c) (ten_zpow_pos e).le
  rw [pointOf, abs_of_nonneg hnonneg, log_of_coefficient hlow hhigh]
  push_cast
  ring

theorem digitsOf_coefficient (hlow : 10 ^ p ≤ c) (hhigh : c < 10 ^ (p + 1)) :
    digitsOf (p + 1) ((c : ℚ) * 10 ^ e) = stripZeros (Nat.toDigits 10 c) := by
  rw [digitsOf, lastPlace_coefficient hlow hhigh, mul_div_assoc, div_self (ten_zpow_pos e).ne', mul_one]
  rfl

theorem readMagnitude_layout (hlow : 10 ^ p ≤ c) (hhigh : c < 10 ^ (p + 1)) :
    readMagnitude (generalLayout (p + 1) ((c : ℚ) * 10 ^ e)) = c * 10 ^ e := by
  have hc : 0 < c := lt_of_lt_of_le (by positivity) hlow
  have hall := (toDigits_allDigits c).stripZeros
  have hvalue : fraction (stripZeros (Nat.toDigits 10 c)) * 10 ^ ((p + 1 : ℕ) + e : ℤ) = c * 10 ^ e := by
    have h := fraction_toDigits c
    rw [length_toDigits hlow hhigh] at h
    rw [fraction_stripZeros, zpow_add₀ (by norm_num), zpow_natCast, ← mul_assoc, h]
  rw [generalLayout, digitsOf_coefficient hlow hhigh, pointOf_coefficient hlow hhigh]
  split
  · rw [readMagnitude_plain fun _ hmem => not_exponent_of (mem_plain hall hmem), readPlain_plain hall,
      hvalue]
  · rw [scientific, readMagnitude_exponent fun _ hmem => not_exponent_of (mem_mantissa hall hmem),
      readPlain_mantissa hall (stripZeros_ne_nil hc), mul_assoc, ← zpow_one_add₀ (by norm_num),
      add_sub_cancel, hvalue]

end Coefficient

theorem generalLayout_head {p : ℕ} {r : ℚ} (hne : digitsOf p r ≠ []) :
    (generalLayout p r).head? ≠ some '-' := by
  have hall : AllDigits (digitsOf p r) := (toDigits_allDigits _).stripZeros
  obtain ⟨d, rest, hdigits⟩ := List.exists_cons_of_ne_nil hne
  have hd : d ≠ '-' := by
    rintro rfl
    exact absurd (hall '-' (by rw [hdigits]; exact List.mem_cons_self)) (by decide)
  rw [generalLayout, hdigits]
  split
  · rw [plain]
    split_ifs with hlong hpos
    · simpa using hd
    · obtain ⟨n, hn⟩ := Nat.exists_eq_succ_of_ne_zero (by omega : (pointOf r).toNat ≠ 0)
      rw [hn, List.take_succ_cons]
      simpa using hd
    · simp
  · cases rest with
    | nil => simpa [scientific, mantissa] using hd
    | cons c rest => simpa [scientific, mantissa] using hd

theorem significant_neg (p : ℕ) (q : ℚ) : significant p (-q) = -significant p q := by
  have hplace : lastPlace p (-q) = lastPlace p q := by rw [lastPlace, abs_neg, lastPlace]
  rw [significant, hplace, neg_div, roundHalfEven_neg, significant]
  push_cast
  ring

theorem significant_zero (p : ℕ) : significant p 0 = 0 := by
  have h := roundHalfEven_intCast 0
  rw [Int.cast_zero] at h
  rw [significant, zero_div, h, Int.cast_zero, zero_mul]

theorem readNumber_layout {p : ℕ} {q : ℚ} (hq : 0 < q) :
    0 < significant (p + 1) q ∧
      (generalLayout (p + 1) (significant (p + 1) q)).head? ≠ some '-' ∧
      readMagnitude (generalLayout (p + 1) (significant (p + 1) q)) = significant (p + 1) q := by
  obtain ⟨c, e, hlow, hhigh, hvalue⟩ := significant_coefficient (p := p) hq
  have hc : 0 < c := lt_of_lt_of_le (by positivity) hlow
  rw [hvalue]
  refine ⟨mul_pos (by exact_mod_cast hc) (ten_zpow_pos e), ?_, readMagnitude_layout hlow hhigh⟩
  apply generalLayout_head
  rw [digitsOf_coefficient hlow hhigh]
  exact stripZeros_ne_nil hc

theorem readNumber_generalText (p : ℕ) (q : ℚ) :
    readNumber (generalText (p + 1) q) = significant (p + 1) q := by
  rcases lt_trichotomy q 0 with hq | rfl | hq
  · obtain ⟨hpos, -, hread⟩ := readNumber_layout (p := p) (neg_pos.mpr hq)
    rw [significant_neg] at hpos hread
    have hneg : significant (p + 1) q < 0 := neg_pos.mp hpos
    simp only [generalText, if_neg hneg.ne, if_pos hneg]
    rw [readNumber, List.head?_cons, if_pos rfl, List.tail_cons, hread, neg_neg]
  · simp only [generalText, significant_zero, if_pos]
    decide +kernel
  · obtain ⟨hpos, hhead, hread⟩ := readNumber_layout (p := p) hq
    simp only [generalText, if_neg hpos.ne', if_neg hpos.not_gt]
    rw [readNumber, if_neg hhead, hread]

theorem generalText_eq_iff (p : ℕ) (q r : ℚ) :
    generalText (p + 1) q = generalText (p + 1) r ↔ significant (p + 1) q = significant (p + 1) r := by
  constructor
  · intro h
    rw [← readNumber_generalText, h, readNumber_generalText]
  · intro h
    simp only [generalText, h]

theorem mem_generalText {p : ℕ} {q : ℚ} {c : Char} (hc : c ∈ generalText p q) :
    c.isDigit = true ∨ c ∈ ['.', '-', '+', 'e'] := by
  have hlayout : ∀ r : ℚ, c ∈ generalLayout p r → c.isDigit = true ∨ c ∈ ['.', '-', '+', 'e'] := by
    intro r hc
    have hall : AllDigits (digitsOf p r) := (toDigits_allDigits _).stripZeros
    rw [generalLayout] at hc
    split at hc
    · exact (mem_plain hall hc).imp id (by rintro rfl; decide)
    · obtain hc | hc := List.mem_append.mp hc
      · exact (mem_mantissa hall hc).imp id (by rintro rfl; decide)
      · exact mem_exponentText hc
  simp only [generalText] at hc
  split_ifs at hc
  · rw [List.mem_singleton.mp hc]
    decide
  · obtain rfl | hc := List.mem_cons.mp hc
    · decide
    · exact hlayout _ hc
  · exact hlayout _ hc

end XFoilFoam.Decimal
