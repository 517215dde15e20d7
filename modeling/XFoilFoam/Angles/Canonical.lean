import XFoilFoam.Foundations.Shortest

/-! `packages/core/src/canonical.ts`: an angle is rounded half to even at `1e-4` degrees on the digits of its
shortest decimal.  The digit strings compute the rounding of the decimal they spell. -/
namespace XFoilFoam.Angles
open Decimal
set_option autoImplicit false

/-! ## Digits -/

/-- The number of a digit: `charCodeAt(0) - 48`. -/
def digitValue (c : Char) : ℕ := c.toNat - '0'.toNat

/-- `text.padEnd(n, "0")`. -/
def padEnd (n : ℕ) (text : List Char) : List Char := text ++ List.replicate (n - text.length) '0'

/-- `text.padStart(n, "0")`. -/
def padStart (n : ℕ) (text : List Char) : List Char := List.replicate (n - text.length) '0' ++ text

/-- `text.replace(/^0+(?=\d)/, "")`. -/
def dropLeadingZeros : List Char → List Char
  | c :: d :: rest => if c = '0' ∧ d.isDigit then dropLeadingZeros (d :: rest) else c :: d :: rest
  | text => text

structure DecimalDigits where
  neg : Bool
  int : List Char
  frac : List Char

/-- The exponential notation written out. -/
def shiftPoint (exp : ℤ) (int frac : List Char) : List Char × List Char :=
  if 0 < exp then
    if frac.length ≤ exp.toNat then (int ++ padEnd exp.toNat frac, [])
    else (int ++ frac.take exp.toNat, frac.drop exp.toNat)
  else if exp < 0 then
    if int.length ≤ (-exp).toNat then (['0'], padStart (-exp).toNat int ++ frac)
    else (int.take (int.length - (-exp).toNat), int.drop (int.length - (-exp).toNat) ++ frac)
  else (int, frac)

def decimalDigits (x : Double) : DecimalDigits :=
  let s := (numberText (Binary64.abs x)).toList
  let exp := readExponent (s.dropWhile (· != 'e'))
  let s := s.takeWhile (· != 'e')
  let shifted := shiftPoint exp (s.takeWhile (· != '.')) (s.dropWhile (· != '.')).tail
  ⟨Binary64.lt x (Binary64.lit 0), dropLeadingZeros shifted.1, shifted.2⟩

/-- The loop of `incrementDigits`, from the last digit on. -/
def incrementReversed : List Char → List Char
  | [] => ['1']
  | c :: rest =>
    if c = '9' then '0' :: incrementReversed rest else Nat.digitChar (digitValue c + 1) :: rest

def incrementDigits (digits : List Char) : List Char := (incrementReversed digits.reverse).reverse

def roundDigits (digits rest : List Char) : List Char :=
  let restTrimmed := stripZeros rest
  let first := digitValue (rest.headD '0')
  if restTrimmed = [] then digits
  else if 5 < first ∨ first = 5 ∧ 1 < restTrimmed.length then incrementDigits digits
  else if first = 5 ∧ digitValue (digits.getLastD '0') % 2 = 1 then incrementDigits digits
  else digits

/-- `text || "0"`. -/
def orZero (text : List Char) : List Char := if text = [] then ['0'] else text

/-- The text of a sign and of digits with `decimals` places. -/
def fixedText (neg : Bool) (decimals : ℕ) (digits : List Char) : List Char :=
  let intOut := orZero (dropLeadingZeros (digits.take (digits.length - decimals)))
  let fracOut := digits.drop (digits.length - decimals)
  let isZero := (intOut ++ fracOut).all (· == '0')
  (if neg && !isZero then ['-'] else []) ++ intOut ++ (if decimals = 0 then [] else '.' :: fracOut)

def roundHalfEvenFixed (x : Double) (decimals : ℕ) : Except String (List Char) :=
  if !Binary64.isFinite x then .error ("cannot canonicalize non-finite value: " ++ numberText x)
  else
    let parts := decimalDigits x
    let kept := padEnd decimals (parts.frac.take decimals)
    .ok (fixedText parts.neg decimals (roundDigits (parts.int ++ kept) (parts.frac.drop decimals)))

/-- `canonicalAoa`; `Number` reads the text and rounds it to a double. -/
def canonicalAoa (x : Double) : Except String Double :=
  (roundHalfEvenFixed x 4).map fun text => Binary64.lit (readNumber text)

/-! ## What the digits spell -/

def pairValue (int frac : List Char) : ℚ := fraction (int ++ frac) * 10 ^ int.length

theorem digitValue_le {c : Char} (h : c.isDigit = true) : digitValue c ≤ 9 := by
  have hrange := (Char.isDigit_iff_toNat.mp h).2
  have hzero : '0'.toNat = 48 := rfl
  have hnine : '9'.toNat = 57 := rfl
  unfold digitValue
  omega

theorem fraction_cons (c : Char) (rest : List Char) :
    fraction (c :: rest) = (digitValue c + fraction rest) / 10 := rfl

theorem fraction_nonneg (digits : List Char) : 0 ≤ fraction digits := by
  induction digits with
  | nil => exact le_rfl
  | cons c rest ih =>
    rw [fraction_cons]
    positivity

theorem fraction_lt_one {digits : List Char} (h : AllDigits digits) : fraction digits < 1 := by
  induction digits with
  | nil => exact zero_lt_one
  | cons c rest ih =>
    have hc : (digitValue c : ℚ) ≤ 9 := by exact_mod_cast digitValue_le (h c List.mem_cons_self)
    have hrest := ih fun d hd => h d (List.mem_cons_of_mem _ hd)
    rw [fraction_cons]
    linarith

theorem digitValue_pos {c : Char} (h : c.isDigit = true) (hc : c ≠ '0') : 0 < digitValue c := by
  have hrange := (Char.isDigit_iff_toNat.mp h).1
  have hne : c.toNat ≠ '0'.toNat := fun heq => hc (Char.toNat_inj.mp heq)
  unfold digitValue
  omega

theorem stripZeros_eq_nil {digits : List Char} (h : AllDigits digits) :
    stripZeros digits = [] ↔ fraction digits = 0 := by
  constructor
  · intro hnil
    rw [← fraction_stripZeros, hnil]
    rfl
  · intro hzero
    induction digits with
    | nil => rfl
    | cons c rest ih =>
      have hnonneg := fraction_nonneg rest
      have hvalue : (0 : ℚ) ≤ digitValue c := Nat.cast_nonneg _
      rw [fraction_cons] at hzero
      have hc : c = '0' := by
        by_contra hne
        have hpos : (0 : ℚ) < digitValue c := by exact_mod_cast digitValue_pos (h c List.mem_cons_self) hne
        linarith
      have hrest := ih (fun d hd => h d (List.mem_cons_of_mem _ hd)) (by linarith)
      rw [stripZeros_cons, if_pos hrest, if_pos hc]

theorem one_lt_length_stripZeros {c : Char} {rest : List Char} (h : AllDigits rest) (hc : c ≠ '0') :
    1 < (stripZeros (c :: rest)).length ↔ 0 < fraction rest := by
  rw [stripZeros_cons]
  split
  · rename_i hnil
    rw [(stripZeros_eq_nil h).mp hnil]
    simp
  · rename_i hne
    have hlength : 0 < (stripZeros rest).length := List.length_pos_iff.mpr hne
    have hpos : 0 < fraction rest :=
      lt_of_le_of_ne (fraction_nonneg rest) fun heq => hne ((stripZeros_eq_nil h).mpr heq.symm)
    rw [List.length_cons]
    exact iff_of_true (by omega) hpos

/-! ## Rounding on digits -/

theorem digitChar_succ {c : Char} (h : c.isDigit = true) (hc : c ≠ '9') :
    (Nat.digitChar (digitValue c + 1)).isDigit = true ∧
      digitValue (Nat.digitChar (digitValue c + 1)) = digitValue c + 1 := by
  obtain ⟨hlow, hhigh⟩ := Char.isDigit_iff_toNat.mp h
  have hzero : '0'.toNat = 48 := rfl
  have hnine : '9'.toNat = 57 := rfl
  have hne : c.toNat ≠ '9'.toNat := fun heq => hc (Char.toNat_inj.mp heq)
  have hten : digitValue c + 1 < 10 := by
    unfold digitValue
    omega
  have hvalue := Nat.toNat_digitChar_of_lt_ten hten
  constructor
  · rw [Char.isDigit_iff_toNat, hvalue]
    omega
  · rw [digitValue, hvalue]
    omega

theorem incrementReversed_spec {digits : List Char} (h : AllDigits digits) :
    AllDigits (incrementReversed digits) ∧ digits.length ≤ (incrementReversed digits).length ∧
      Nat.ofDigitChars 10 (incrementReversed digits).reverse 0 = Nat.ofDigitChars 10 digits.reverse 0 + 1 := by
  induction digits with
  | nil =>
    refine ⟨?_, by decide, by decide⟩
    intro c hc
    rw [List.mem_singleton.mp hc]
    decide
  | cons c rest ih =>
    have hc := h c List.mem_cons_self
    have hrest : AllDigits rest := fun d hd => h d (List.mem_cons_of_mem _ hd)
    unfold incrementReversed
    split
    · rename_i hnine
      obtain ⟨hdigits, hlength, hvalue⟩ := ih hrest
      refine ⟨?_, by simpa using hlength, ?_⟩
      · intro d hd
        obtain rfl | hd := List.mem_cons.mp hd
        · decide
        · exact hdigits d hd
      · rw [List.reverse_cons, Nat.ofDigitChars_append, hvalue, List.reverse_cons, Nat.ofDigitChars_append, hnine]
        simp only [Nat.ofDigitChars_cons, Nat.ofDigitChars_nil]
        have hzero : '0'.toNat = 48 := rfl
        have hdigit : '9'.toNat = 57 := rfl
        omega
    · rename_i hnine
      obtain ⟨hdigit, hvalue⟩ := digitChar_succ hc hnine
      refine ⟨?_, by simp, ?_⟩
      · intro d hd
        obtain rfl | hd := List.mem_cons.mp hd
        · exact hdigit
        · exact hrest d hd
      · rw [List.reverse_cons, Nat.ofDigitChars_append, List.reverse_cons, Nat.ofDigitChars_append]
        simp only [Nat.ofDigitChars_cons, Nat.ofDigitChars_nil]
        unfold digitValue at hvalue ⊢
        omega

theorem incrementDigits_spec {digits : List Char} (h : AllDigits digits) :
    AllDigits (incrementDigits digits) ∧ digits.length ≤ (incrementDigits digits).length ∧
      Nat.ofDigitChars 10 (incrementDigits digits) 0 = Nat.ofDigitChars 10 digits 0 + 1 := by
  obtain ⟨hdigits, hlength, hvalue⟩ := incrementReversed_spec fun c hc => h c (List.mem_reverse.mp hc)
  refine ⟨fun c hc => hdigits c (List.mem_reverse.mp hc), ?_, ?_⟩
  · rw [incrementDigits, List.length_reverse]
    simpa using hlength
  · rw [incrementDigits, hvalue, List.reverse_reverse]

theorem ofDigitChars_mod_two {digits : List Char} (hne : digits ≠ []) :
    Nat.ofDigitChars 10 digits 0 % 2 = digitValue (digits.getLastD '0') % 2 := by
  obtain ⟨init, c, rfl⟩ := List.eq_nil_or_concat digits |>.resolve_left hne
  have hlast : (init.concat c).getLastD '0' = c := by simp [List.getLastD_eq_getLast?]
  rw [hlast, List.concat_eq_append, Nat.ofDigitChars_append, Nat.ofDigitChars_cons, Nat.ofDigitChars_nil, digitValue]
  omega

theorem roundHalfEven_natCast_add (n : ℕ) {f : ℚ} (hnonneg : 0 ≤ f) (hlt : f < 1) :
    roundHalfEven (n + f) = if f < 1 / 2 ∨ f = 1 / 2 ∧ n % 2 = 0 then (n : ℤ) else n + 1 := by
  have hfloor : ⌊(n : ℚ) + f⌋ = n := by
    rw [Int.floor_eq_iff]
    push_cast
    constructor <;> linarith
  unfold roundHalfEven
  rw [hfloor, Int.cast_natCast, add_sub_cancel_left]
  by_cases hlow : f < 1 / 2
  · rw [if_pos hlow, if_pos (.inl hlow)]
  · rw [if_neg hlow]
    by_cases hhigh : 1 / 2 < f
    · rw [if_pos hhigh, if_neg (by rintro (h | ⟨h, -⟩) <;> linarith)]
    · have hhalf : f = 1 / 2 := le_antisymm (not_lt.mp hhigh) (not_lt.mp hlow)
      rw [if_neg hhigh]
      by_cases heven : n % 2 = 0
      · rw [if_pos (by omega), if_pos (.inr ⟨hhalf, heven⟩)]
      · rw [if_neg (by omega), if_neg (by rintro (h | ⟨-, h⟩); exacts [hlow h, heven h])]

theorem roundDigits_eq {digits rest : List Char} (hrest : AllDigits rest) (hne : digits ≠ []) :
    roundDigits digits rest =
      if fraction rest < 1 / 2 ∨ fraction rest = 1 / 2 ∧ Nat.ofDigitChars 10 digits 0 % 2 = 0 then digits
      else incrementDigits digits := by
  unfold roundDigits
  by_cases htrimmed : stripZeros rest = []
  · have hzero := (stripZeros_eq_nil hrest).mp htrimmed
    rw [if_pos htrimmed, if_pos (.inl (by rw [hzero]; norm_num))]
  rw [if_neg htrimmed, ofDigitChars_mod_two hne]
  cases rest with
  | nil => exact absurd rfl htrimmed
  | cons c rest =>
    have hrest' : AllDigits rest := fun d hd => hrest d (List.mem_cons_of_mem _ hd)
    have hnonneg := fraction_nonneg rest
    have hlt := fraction_lt_one hrest'
    have hfraction := fraction_cons c rest
    rw [List.headD_cons]
    obtain hlow | hfive | hhigh := lt_trichotomy (digitValue c) 5
    · have hvalue : (digitValue c : ℚ) ≤ 4 := by exact_mod_cast (by omega : digitValue c ≤ 4)
      rw [if_neg (by omega), if_neg (by omega), if_pos (.inl (by rw [hfraction]; linarith))]
    · have hc : c ≠ '0' := by
        rintro rfl
        revert hfive
        decide
      have hlength := one_lt_length_stripZeros hrest' hc
      rw [hfive, Nat.cast_ofNat] at hfraction
      obtain hmore | hexact := hnonneg.lt_or_eq
      · rw [if_pos (.inr ⟨hfive, hlength.mpr hmore⟩), if_neg (by rintro (hless | ⟨hhalf, -⟩) <;> linarith)]
      · -- exactly one half: the last kept digit decides
        have hhalf : fraction (c :: rest) = 1 / 2 := by
          rw [hfraction, ← hexact]
          norm_num
        have hshort : ¬1 < (stripZeros (c :: rest)).length := fun hlong => (hlength.mp hlong).ne hexact
        rw [if_neg (by rintro (hgt | ⟨-, hlong⟩); exacts [by omega, hshort hlong])]
        by_cases hodd : digitValue (digits.getLastD '0') % 2 = 1
        · rw [if_pos ⟨hfive, hodd⟩, if_neg (by rintro (hless | ⟨-, heven⟩); exacts [by linarith, by omega])]
        · rw [if_neg fun hboth => hodd hboth.2, if_pos (.inr ⟨hhalf, by omega⟩)]
    · have hvalue : (6 : ℚ) ≤ digitValue c := by exact_mod_cast hhigh
      rw [if_pos (.inl hhigh), if_neg (by rintro (hless | ⟨hhalf, -⟩) <;> linarith)]

theorem roundDigits_spec {digits rest : List Char} (h : AllDigits digits) (hrest : AllDigits rest)
    (hne : digits ≠ []) :
    AllDigits (roundDigits digits rest) ∧ digits.length ≤ (roundDigits digits rest).length ∧
      (Nat.ofDigitChars 10 (roundDigits digits rest) 0 : ℤ) =
        roundHalfEven (Nat.ofDigitChars 10 digits 0 + fraction rest) := by
  rw [roundDigits_eq hrest hne,
    roundHalfEven_natCast_add (Nat.ofDigitChars 10 digits 0) (fraction_nonneg rest) (fraction_lt_one hrest)]
  split
  · exact ⟨h, le_rfl, rfl⟩
  · obtain ⟨hdigits, hlength, hvalue⟩ := incrementDigits_spec h
    exact ⟨hdigits, hlength, by rw [hvalue]; push_cast; ring⟩

/-! ## The digits of a double -/

structure Spells (int frac : List Char) (value : ℚ) : Prop where
  int_digits : AllDigits int
  frac_digits : AllDigits frac
  int_ne : int ≠ []
  value_eq : pairValue int frac = value

theorem Spells.dropLeadingZeros {int frac : List Char} {value : ℚ} (h : Spells int frac value) :
    Spells (dropLeadingZeros int) frac value := by
  obtain ⟨hint, hfrac, hne, hvalue⟩ := h
  induction int with
  | nil => exact absurd rfl hne
  | cons c rest ih =>
    cases rest with
    | nil => exact ⟨hint, hfrac, hne, hvalue⟩
    | cons d rest =>
      rw [Angles.dropLeadingZeros]
      split
      · rename_i hzero
        refine ih (fun e he => hint e (List.mem_cons_of_mem _ he)) (List.cons_ne_nil _ _) ?_
        have hshift := fraction_zeros_append (d :: rest ++ frac) 1
        rw [List.replicate_one, List.singleton_append, ← hzero.1] at hshift
        have hcons : (c :: d :: rest) ++ frac = c :: (d :: rest ++ frac) := rfl
        have hlength : (c :: d :: rest).length = (d :: rest).length + 1 := rfl
        rw [← hvalue, pairValue, pairValue, hcons, hshift, hlength, pow_succ]
        ring
      · exact ⟨hint, hfrac, hne, hvalue⟩

theorem Spells.shiftPoint {int frac : List Char} {value : ℚ} (h : Spells int frac value) (exp : ℤ) :
    Spells (shiftPoint exp int frac).1 (shiftPoint exp int frac).2 (value * 10 ^ exp) := by
  obtain ⟨hint, hfrac, hne, hvalue⟩ := h
  have hlength : 0 < int.length := List.length_pos_iff.mpr hne
  have hsame : ∀ {xs ys : List Char}, fraction (xs ++ ys) = fraction (int ++ frac) →
      (xs.length : ℤ) = int.length + exp → pairValue xs ys = value * 10 ^ exp := by
    intro xs ys hdigits hxs
    rw [← hvalue, pairValue, pairValue, hdigits, ← zpow_natCast, hxs, zpow_add₀ (by norm_num), zpow_natCast]
    ring
  unfold Angles.shiftPoint
  split_ifs with hpos hshort hneg hshort
  · have hnone : AllDigits [] := fun c hc => absurd hc List.not_mem_nil
    refine ⟨hint.append (hfrac.append (allDigits_zeros _)), hnone, by simp [hne], hsame ?_ ?_⟩
    · rw [padEnd, List.append_nil, ← List.append_assoc, fraction_append_zeros]
    · rw [padEnd, List.length_append, List.length_append, List.length_replicate]
      push_cast
      omega
  · refine ⟨hint.append (hfrac.take _), hfrac.drop _, by simp [hne], hsame ?_ ?_⟩
    · rw [List.append_assoc, List.take_append_drop]
    · rw [List.length_append, List.length_take]
      push_cast
      omega
  · refine ⟨fun c hc => by rw [List.mem_singleton.mp hc]; decide, ((allDigits_zeros _).append hint).append hfrac,
      List.cons_ne_nil _ _, ?_⟩
    have hzeros : ['0'] ++ (padStart (-exp).toNat int ++ frac) =
        List.replicate ((-exp).toNat - int.length + 1) '0' ++ (int ++ frac) := by
      rw [padStart, List.replicate_succ]
      simp
    rw [pairValue, hzeros, fraction_zeros_append, ← hvalue, pairValue, List.length_singleton, pow_one]
    have hexp : (10 : ℚ) ^ exp * 10 ^ ((-exp).toNat - int.length + 1) * 10 ^ int.length = 10 := by
      rw [← zpow_natCast, ← zpow_natCast, ← zpow_add₀ (by norm_num), ← zpow_add₀ (by norm_num)]
      have : exp + (((-exp).toNat - int.length + 1 : ℕ) : ℤ) + (int.length : ℤ) = 1 := by
        push_cast [Nat.cast_sub hshort]
        omega
      rw [this, zpow_one]
    rw [div_mul_eq_mul_div, div_eq_iff (by positivity)]
    calc fraction (int ++ frac) * 10
        = fraction (int ++ frac) *
            (10 ^ exp * 10 ^ ((-exp).toNat - int.length + 1) * 10 ^ int.length) := by rw [hexp]
      _ = fraction (int ++ frac) * 10 ^ int.length * 10 ^ exp * 10 ^ ((-exp).toNat - int.length + 1) := by ring
  · refine ⟨hint.take _, (hint.drop _).append hfrac, ?_, hsame ?_ ?_⟩
    · rw [ne_eq, ← List.length_eq_zero_iff, List.length_take]
      omega
    · rw [← List.append_assoc, List.take_append_drop]
    · rw [List.length_take]
      push_cast
      omega
  · have hzero : exp = 0 := by omega
    refine ⟨hint, hfrac, hne, hsame rfl ?_⟩
    rw [hzero, add_zero]

/-- A written number splits at its point. -/
def SplitsAt (text whole rest : List Char) : Prop := text = whole ∧ rest = [] ∨ text = whole ++ '.' :: rest

theorem SplitsAt.parts {text whole rest : List Char} (h : SplitsAt text whole rest) (hwhole : AllDigits whole) :
    text.takeWhile (· != '.') = whole ∧ (text.dropWhile (· != '.')).tail = rest := by
  have hpos : ∀ c ∈ whole, (c != '.') = true := fun c hc => by simpa using hwhole.no_point c hc
  obtain ⟨rfl, rfl⟩ | rfl := h
  · rw [List.takeWhile_eq_self_iff.mpr hpos, List.dropWhile_eq_nil_iff.mpr hpos]
    exact ⟨rfl, rfl⟩
  · rw [List.takeWhile_append_of_pos hpos, List.dropWhile_append_of_pos hpos]
    simp

theorem plain_splits {digits : List Char} (h : AllDigits digits) {point : ℤ} (hne : digits ≠ [] ∨ 0 < point) :
    ∃ whole rest, AllDigits whole ∧ AllDigits rest ∧ whole ≠ [] ∧ SplitsAt (plain digits point) whole rest := by
  unfold plain
  split_ifs with hlong hpos
  · refine ⟨_, [], h.append (allDigits_zeros _), fun c hc => absurd hc List.not_mem_nil, ?_, .inl ⟨rfl, rfl⟩⟩
    obtain hdigits | hpoint := hne
    · simp [hdigits]
    · rw [ne_eq, ← List.length_eq_zero_iff, List.length_append, List.length_replicate]
      omega
  · refine ⟨_, _, h.take _, h.drop _, ?_, .inr rfl⟩
    rw [ne_eq, ← List.length_eq_zero_iff, List.length_take]
    omega
  · refine ⟨['0'], _, ?_, (allDigits_zeros _).append h, List.cons_ne_nil _ _, .inr rfl⟩
    intro c hc
    rw [List.mem_singleton.mp hc]
    decide

theorem mantissa_splits {digits : List Char} (h : AllDigits digits) (hne : digits ≠ []) :
    ∃ whole rest, AllDigits whole ∧ AllDigits rest ∧ whole ≠ [] ∧ SplitsAt (mantissa digits) whole rest := by
  match digits, h, hne with
  | [d], h, _ => exact ⟨[d], [], h, fun c hc => absurd hc List.not_mem_nil, List.cons_ne_nil _ _, .inl ⟨rfl, rfl⟩⟩
  | d :: e :: rest, h, _ =>
    refine ⟨[d], e :: rest, ?_, fun c hc => h c (List.mem_cons_of_mem _ hc), List.cons_ne_nil _ _, .inr rfl⟩
    intro c hc
    rw [List.mem_singleton.mp hc]
    exact h d List.mem_cons_self

def writtenDigits (text : List Char) : List Char × List Char :=
  shiftPoint (readExponent (text.dropWhile (· != 'e'))) ((text.takeWhile (· != 'e')).takeWhile (· != '.'))
    ((text.takeWhile (· != 'e')).dropWhile (· != '.')).tail

theorem writtenDigits_spells {text whole rest : List Char} (hwhole : AllDigits whole) (hrest : AllDigits rest)
    (hne : whole ≠ []) (hsplits : SplitsAt (text.takeWhile (· != 'e')) whole rest) :
    Spells (writtenDigits text).1 (writtenDigits text).2 (Decimal.readMagnitude text) := by
  obtain ⟨htake, hdrop⟩ := hsplits.parts hwhole
  have hvalue : pairValue whole rest = readPlain (text.takeWhile (· != 'e')) := by
    rw [readPlain, htake, hdrop, pairValue]
  have hspells : Spells whole rest (readPlain (text.takeWhile (· != 'e'))) := ⟨hwhole, hrest, hne, hvalue⟩
  rw [writtenDigits, htake, hdrop]
  exact hspells.shiftPoint _

theorem takeWhile_no_exponent {text : List Char} (h : ∀ c ∈ text, c ≠ 'e') (width : ℕ) (e : ℤ) :
    text.takeWhile (· != 'e') = text ∧ (text ++ exponentText width e).takeWhile (· != 'e') = text := by
  have hpos : ∀ c ∈ text, (c != 'e') = true := fun c hc => by simpa using h c hc
  refine ⟨List.takeWhile_eq_self_iff.mpr hpos, ?_⟩
  rw [exponentText, List.takeWhile_append_of_pos hpos, List.takeWhile_cons_of_neg (by decide), List.append_nil]

theorem shortestDigits_digits (q : ℚ) : AllDigits (shortestDigits q) := (toDigits_allDigits _).stripZeros

theorem shortestDigits_ne {q : ℚ} (hq : 0 < q) : shortestDigits q ≠ [] ∨ shortestPoint q = 1 := by
  obtain hnone | ⟨hpos, -⟩ := shortest_spec hq
  · right
    rw [shortestPoint, hnone]
    rfl
  · left
    exact stripZeros_ne_nil (by omega)

theorem positiveText_spells {q : ℚ} (hq : 0 < q) :
    Spells (writtenDigits (positiveText q)).1 (writtenDigits (positiveText q)).2 (decimalOf q) := by
  have hdigits := shortestDigits_digits q
  have hvalue := shortestDigits_value hq
  rw [positiveText_eq]
  split
  · have hplain : ∀ c ∈ plain (shortestDigits q) (shortestPoint q), c ≠ 'e' :=
      fun c hc => not_exponent_of (mem_plain hdigits hc)
    have hstart : shortestDigits q ≠ [] ∨ 0 < shortestPoint q :=
      (shortestDigits_ne hq).imp_right fun h => by rw [h]; exact one_pos
    obtain ⟨whole, rest, hwhole, hrest, hne, hsplits⟩ := plain_splits hdigits hstart
    rw [← (takeWhile_no_exponent hplain 0 0).1] at hsplits
    have hspells := writtenDigits_spells hwhole hrest hne hsplits
    rw [readMagnitude_plain hplain, readPlain_plain hdigits, hvalue] at hspells
    exact hspells
  · rename_i hlarge
    have hne : shortestDigits q ≠ [] := (shortestDigits_ne hq).resolve_right fun h => hlarge (by omega)
    have hmantissa : ∀ c ∈ mantissa (shortestDigits q), c ≠ 'e' :=
      fun c hc => not_exponent_of (mem_mantissa hdigits hc)
    obtain ⟨whole, rest, hwhole, hrest, hwholeNe, hsplits⟩ := mantissa_splits hdigits hne
    rw [← (takeWhile_no_exponent hmantissa 1 (shortestPoint q - 1)).2] at hsplits
    have hspells := writtenDigits_spells hwhole hrest hwholeNe hsplits
    rw [readMagnitude_exponent hmantissa, readPlain_mantissa hdigits hne, mul_assoc, ← zpow_one_add₀ (by norm_num),
      add_sub_cancel, hvalue] at hspells
    exact hspells

def decimal (x : Double) : ℚ := if x.value < 0 then -decimalOf (-x.value) else decimalOf x.value

theorem decimalOf_zero : decimalOf 0 = 0 := by decide +kernel

theorem decimalDigits_spells {x : Double} {q : ℚ} (hx : x.val = .fin q) :
    (decimalDigits x).neg = decide (q < 0) ∧
      Spells (decimalDigits x).int (decimalDigits x).frac (decimalOf |q|) := by
  refine ⟨?_, ?_⟩
  · show Binary64.lt x (Binary64.lit 0) = decide (q < 0)
    rw [Bool.eq_iff_iff, Double.lt_iff hx Double.lit_zero, decide_eq_true_eq]
  · have hdigits : Spells (writtenDigits (numberText (Binary64.abs x)).toList).1
        (writtenDigits (numberText (Binary64.abs x)).toList).2 (decimalOf |q|) := by
      unfold numberText
      rw [Double.abs_val hx]
      obtain hzero | hpos := (abs_nonneg q).eq_or_lt
      · rw [← hzero, decimalOf_zero]
        have hwhole : AllDigits ['0'] := fun c hc => by rw [List.mem_singleton.mp hc]; decide
        have hspells : Spells ['0'] [] 0 :=
          ⟨hwhole, fun c hc => absurd hc List.not_mem_nil, List.cons_ne_nil _ _, by decide +kernel⟩
        exact hspells
      · simp only [if_neg hpos.ne', if_neg hpos.not_gt, String.toList_ofList]
        exact positiveText_spells hpos
    exact hdigits.dropLeadingZeros

/-! ## The canonical angle -/

theorem kept_value {int frac : List Char} {value : ℚ} (h : Spells int frac value) (decimals : ℕ) :
    (Nat.ofDigitChars 10 (int ++ padEnd decimals (frac.take decimals)) 0 : ℚ) + fraction (frac.drop decimals) =
      value * 10 ^ decimals := by
  have hlength : (padEnd decimals (frac.take decimals)).length = decimals := by
    rw [padEnd, List.length_append, List.length_replicate, List.length_take]
    omega
  have hfrac : fraction (padEnd decimals (frac.take decimals) ++ frac.drop decimals) = fraction frac := by
    obtain hshort | hlong := le_total frac.length decimals
    · rw [List.take_of_length_le hshort, List.drop_eq_nil_of_le hshort, List.append_nil, padEnd,
        fraction_append_zeros]
    · have hnone : decimals - (frac.take decimals).length = 0 := by
        rw [List.length_take]
        omega
      rw [padEnd, hnone, List.replicate_zero, List.append_nil, List.take_append_drop]
  rw [ofDigitChars_eq_fraction, Nat.cast_zero, zero_add, List.length_append, hlength, ← h.value_eq, pairValue,
    fraction_append, fraction_append, ← hfrac, fraction_append, hlength, pow_add]
  field_simp
  ring

/-! ## The text with fixed places -/

/-- The decimal text of `n` units of `10 ^ -decimals`: so many digits after the point, no leading zeros, and a sign only
below zero. -/
structure Written (decimals : ℕ) (n : ℤ) (text int frac : List Char) : Prop where
  text_eq : text = (if n < 0 then ['-'] else []) ++ int ++ (if decimals = 0 then [] else '.' :: frac)
  int_digits : AllDigits int
  frac_digits : AllDigits frac
  places : frac.length = decimals
  leading : int = ['0'] ∨ ∃ c ∈ int.head?, c ≠ '0'
  value : Nat.ofDigitChars 10 (int ++ frac) 0 = n.natAbs

theorem dropLeadingZeros_digits {digits : List Char} (h : AllDigits digits) : AllDigits (dropLeadingZeros digits) := by
  induction digits with
  | nil => exact h
  | cons c rest ih =>
    cases rest with
    | nil => exact h
    | cons d rest =>
      rw [dropLeadingZeros]
      split
      · exact ih fun e he => h e (List.mem_cons_of_mem _ he)
      · exact h

theorem dropLeadingZeros_leading {digits : List Char} (h : AllDigits digits) (hne : digits ≠ []) :
    dropLeadingZeros digits = ['0'] ∨ ∃ c ∈ (dropLeadingZeros digits).head?, c ≠ '0' := by
  induction digits with
  | nil => exact absurd rfl hne
  | cons c rest ih =>
    cases rest with
    | nil =>
      by_cases hc : c = '0'
      · exact .inl (by rw [hc]; rfl)
      · exact .inr ⟨c, rfl, hc⟩
    | cons d rest =>
      rw [dropLeadingZeros]
      split
      · exact ih (fun e he => h e (List.mem_cons_of_mem _ he)) (List.cons_ne_nil _ _)
      · rename_i hzero
        exact .inr ⟨c, rfl, fun hc => hzero ⟨hc, h d (List.mem_cons_of_mem _ List.mem_cons_self)⟩⟩

theorem ofDigitChars_dropLeadingZeros (digits rest : List Char) :
    Nat.ofDigitChars 10 (dropLeadingZeros digits ++ rest) 0 = Nat.ofDigitChars 10 (digits ++ rest) 0 := by
  induction digits with
  | nil => rfl
  | cons c digits ih =>
    cases digits with
    | nil => rfl
    | cons d digits =>
      rw [dropLeadingZeros]
      split
      · rename_i hzero
        rw [ih, hzero.1]
        rfl
      · rfl

theorem ofDigitChars_eq_zero {digits : List Char} (h : AllDigits digits) :
    Nat.ofDigitChars 10 digits 0 = 0 ↔ digits.all (· == '0') = true := by
  have hfraction : Nat.ofDigitChars 10 digits 0 = 0 ↔ fraction digits = 0 := by
    have hvalue := ofDigitChars_eq_fraction digits 0
    rw [Nat.cast_zero, zero_add] at hvalue
    rw [← Nat.cast_eq_zero (R := ℚ), hvalue, mul_eq_zero, or_iff_left (by positivity)]
  rw [hfraction, ← stripZeros_eq_nil h, stripZeros, List.rdropWhile_eq_nil_iff, List.all_eq_true]

theorem fixedText_written {digits : List Char} (h : AllDigits digits) {decimals : ℕ} (hlength : decimals < digits.length)
    (neg : Bool) :
    ∃ int frac, Written decimals (if neg then -(Nat.ofDigitChars 10 digits 0 : ℤ) else Nat.ofDigitChars 10 digits 0)
      (fixedText neg decimals digits) int frac := by
  set whole := digits.take (digits.length - decimals) with hwhole
  set frac := digits.drop (digits.length - decimals) with hfrac
  have hne : whole ≠ [] := by
    rw [hwhole, ne_eq, ← List.length_eq_zero_iff, List.length_take]
    omega
  have hleading := dropLeadingZeros_leading (h.take (digits.length - decimals)) hne
  have hsome : dropLeadingZeros whole ≠ [] := by
    intro hnil
    obtain hzero | ⟨c, hc, -⟩ := hleading
    · rw [hnil] at hzero
      cases hzero
    · rw [hnil] at hc
      cases hc
  have hdigits : AllDigits (dropLeadingZeros whole) := dropLeadingZeros_digits (h.take _)
  have hvalue : Nat.ofDigitChars 10 (dropLeadingZeros whole ++ frac) 0 = Nat.ofDigitChars 10 digits 0 := by
    rw [ofDigitChars_dropLeadingZeros, hwhole, hfrac, List.take_append_drop]
  have hzero := ofDigitChars_eq_zero (hdigits.append (h.drop (digits.length - decimals)))
  rw [hvalue] at hzero
  refine ⟨dropLeadingZeros whole, frac, ?_, hdigits, h.drop _, by rw [hfrac, List.length_drop]; omega, hleading, ?_⟩
  · have hsign : (if (if neg then -(Nat.ofDigitChars 10 digits 0 : ℤ) else Nat.ofDigitChars 10 digits 0) < 0 then ['-']
        else []) = if neg && !(dropLeadingZeros whole ++ frac).all (· == '0') then ['-'] else [] := by
      cases neg with
      | false =>
        rw [Bool.false_and, if_neg Bool.false_ne_true, if_neg Bool.false_ne_true]
        exact if_neg (by omega)
      | true =>
        rw [Bool.true_and, if_pos rfl]
        cases hall : (dropLeadingZeros whole ++ frac).all (· == '0') with
        | true =>
          have hnone := hzero.mpr hall
          rw [hnone]
          rfl
        | false =>
          have hsomething : Nat.ofDigitChars 10 digits 0 ≠ 0 := fun hnone => by
            rw [hzero.mp hnone] at hall
            cases hall
          rw [if_pos (by omega)]
          rfl
    rw [hsign]
    simp only [fixedText, orZero, ← hwhole, ← hfrac, if_neg hsome]
  · rw [hvalue]
    cases neg with
    | false => rfl
    | true =>
      rw [if_pos rfl]
      omega

namespace Written
variable {decimals : ℕ} {n : ℤ} {text int frac : List Char}

theorem reads_magnitude (h : Written decimals n text int frac) :
    Decimal.readMagnitude (int ++ if decimals = 0 then [] else '.' :: frac) = (n.natAbs : ℚ) / 10 ^ decimals := by
  have hvalue : fraction (int ++ frac) * 10 ^ int.length = (n.natAbs : ℚ) / 10 ^ decimals := by
    rw [← h.value, ofDigitChars_eq_fraction, Nat.cast_zero, zero_add, List.length_append, h.places, pow_add, ← mul_assoc,
      mul_div_assoc, div_self (by positivity), mul_one]
  have hint := h.int_digits.no_point
  rw [← hvalue]
  split
  · rename_i hnone
    have hnil : frac = [] := List.length_eq_zero_iff.mp (h.places.trans hnone)
    rw [List.append_nil, hnil, List.append_nil, readMagnitude_plain fun c hc => not_exponent_of (.inl (h.int_digits c hc)),
      readPlain_whole hint]
  · have hno : ∀ c ∈ int ++ '.' :: frac, c ≠ 'e' := by
      intro c hc
      obtain hc | hc := List.mem_append.mp hc
      · exact not_exponent_of (.inl (h.int_digits c hc))
      · obtain rfl | hc := List.mem_cons.mp hc
        · decide
        · exact not_exponent_of (.inl (h.frac_digits c hc))
    rw [readMagnitude_plain hno, readPlain_point hint]

theorem reads (h : Written decimals n text int frac) : readNumber text = n / 10 ^ decimals := by
  have hmagnitude := h.reads_magnitude
  rw [h.text_eq, List.append_assoc]
  obtain hneg | hnonneg := lt_or_ge n 0
  · have habs : (n.natAbs : ℚ) = -n := by
      rw [Nat.cast_natAbs, abs_of_neg hneg]
      push_cast
      ring
    rw [if_pos hneg, List.singleton_append, readNumber, List.head?_cons, if_pos rfl, List.tail_cons, hmagnitude, habs]
    ring
  · have hhead : (int ++ if decimals = 0 then [] else '.' :: frac).head? ≠ some '-' := by
      have hcons : ∃ c rest, int = c :: rest := by
        obtain hzero | ⟨c, hc, -⟩ := h.leading
        · exact ⟨'0', [], hzero⟩
        · obtain ⟨rest, hrest⟩ := List.head?_eq_some_iff.mp hc
          exact ⟨c, rest, hrest⟩
      obtain ⟨c, rest, hcons⟩ := hcons
      have hc := h.int_digits c (by rw [hcons]; exact List.mem_cons_self)
      rw [hcons, List.cons_append, List.head?_cons]
      rintro ⟨⟩
      exact absurd hc (by decide)
    have habs : (n.natAbs : ℚ) = n := by rw [Nat.cast_natAbs, abs_of_nonneg hnonneg]
    rw [if_neg (not_lt.mpr hnonneg), List.nil_append, readNumber, if_neg hhead, hmagnitude, habs]

end Written

/-- The units of `10 ^ -decimals` that a double is rounded to on its shortest decimal. -/
def units (decimals : ℕ) (x : Double) : ℤ := roundHalfEven (decimal x * 10 ^ decimals)

theorem decimal_eq {x : Double} {q : ℚ} (hx : x.val = .fin q) :
    decimal x = if q < 0 then -decimalOf |q| else decimalOf |q| := by
  rw [decimal, Double.value_of_val hx]
  split
  · rename_i hneg
    rw [abs_of_neg hneg]
  · rename_i hnonneg
    rw [abs_of_nonneg (not_lt.mp hnonneg)]

theorem roundHalfEvenFixed_written {x : Double} {q : ℚ} (hx : x.val = .fin q) (decimals : ℕ) :
    ∃ text int frac, roundHalfEvenFixed x decimals = .ok text ∧ Written decimals (units decimals x) text int frac := by
  obtain ⟨hneg, hspells⟩ := decimalDigits_spells hx
  set parts := decimalDigits x with hparts
  set kept := padEnd decimals (parts.frac.take decimals) with hkept
  have hfinite : Binary64.isFinite x = true := by
    show x.val.isFinite = true
    rw [hx]
    rfl
  have hdigits : AllDigits (parts.int ++ kept) :=
    hspells.int_digits.append ((hspells.frac_digits.take _).append (allDigits_zeros _))
  have hlength : decimals < (parts.int ++ kept).length := by
    have hint := List.length_pos_iff.mpr hspells.int_ne
    rw [List.length_append, hkept, padEnd, List.length_append, List.length_replicate]
    omega
  obtain ⟨hrounded, hlonger, hvalue⟩ := roundDigits_spec hdigits (hspells.frac_digits.drop decimals)
    (List.length_pos_iff.mp (by omega))
  rw [kept_value hspells] at hvalue
  have hunits : (if parts.neg then -(Nat.ofDigitChars 10 (roundDigits (parts.int ++ kept) (parts.frac.drop decimals)) 0 : ℤ)
      else Nat.ofDigitChars 10 (roundDigits (parts.int ++ kept) (parts.frac.drop decimals)) 0) = units decimals x := by
    rw [hvalue, hneg, units, decimal_eq hx]
    by_cases hq : q < 0
    · rw [if_pos (decide_eq_true hq), if_pos hq, neg_mul, roundHalfEven_neg]
    · rw [if_neg (by simpa using hq), if_neg hq]
  obtain ⟨int, frac, hwritten⟩ := fixedText_written hrounded (hlength.trans_le hlonger) parts.neg
  refine ⟨fixedText parts.neg decimals (roundDigits (parts.int ++ kept) (parts.frac.drop decimals)), int, frac, ?_,
    hunits ▸ hwritten⟩
  rw [roundHalfEvenFixed, hfinite, Bool.not_true, if_neg (by decide)]

theorem canonicalAoa_eq {x : Double} {q : ℚ} (hx : x.val = .fin q) :
    canonicalAoa x = .ok (Binary64.lit (units 4 x / 10 ^ 4)) := by
  obtain ⟨text, int, frac, htext, hwritten⟩ := roundHalfEvenFixed_written hx 4
  rw [canonicalAoa, htext]
  show Except.ok (Binary64.lit (readNumber text)) = _
  rw [hwritten.reads]

/-! ## Decimals with few places -/

theorem decimal_lit {places : ℕ} {b n : ℤ} (hb : (2 : ℚ) ^ b * 10 ^ places < 1) (hmin : -1074 ≤ b)
    (hval : (Binary64.lit (n / 10 ^ places) : Double).val = .fin (roundRat (n / 10 ^ places)))
    (hsize : |roundRat (n / 10 ^ places)| < 2 ^ (b + 53))
    (hleast : n ≠ 0 → 10 ^ (-places : ℤ) ≤ |roundRat (n / 10 ^ places)|) :
    decimal (Binary64.lit (n / 10 ^ places)) = n / 10 ^ places := by
  rw [decimal_eq hval]
  obtain hneg | rfl | hpos := lt_trichotomy n 0
  · have hround : roundRat (((-n : ℤ) : ℚ) / 10 ^ places) = -roundRat (n / 10 ^ places) := by
      rw [← Double.roundRat_neg]
      push_cast
      rw [neg_div]
    have hnonneg : 0 ≤ roundRat (((-n : ℤ) : ℚ) / 10 ^ places) :=
      roundRat_nonneg (div_nonneg (by exact_mod_cast (by omega : 0 ≤ -n)) (by positivity))
    rw [hround] at hnonneg
    have habs : |roundRat (n / 10 ^ places)| = -roundRat (n / 10 ^ places) := abs_of_nonpos (by linarith)
    have hbelow : roundRat (n / 10 ^ places) < 0 := by
      have hpositive := (ten_zpow_pos _).trans_le (hleast hneg.ne)
      linarith
    rw [if_pos hbelow, habs, ← hround,
      decimalOf_coefficient hb hmin (by omega : 0 < -n) rfl (by rw [hround, ← habs]; exact hsize)
        (by rw [hround, ← habs]; exact hleast hneg.ne)]
    push_cast
    ring
  · rw [Int.cast_zero, zero_div, roundRat_zero, if_neg (lt_irrefl _), abs_zero, decimalOf_zero]
  · have hnonneg : 0 ≤ roundRat ((n : ℚ) / 10 ^ places) := roundRat_nonneg (by positivity)
    rw [abs_of_nonneg hnonneg] at hsize hleast
    rw [if_neg (not_lt.mpr hnonneg), abs_of_nonneg hnonneg,
      decimalOf_coefficient hb hmin hpos rfl hsize (hleast hpos.ne')]

end XFoilFoam.Angles
