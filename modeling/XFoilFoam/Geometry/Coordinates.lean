import XFoilFoam.Foundations.Decimal
import XFoilFoam.Foundations.JsSort

/-! `parseCoordinates`, `toSelig` and `toLednicer` of `packages/core/src/geometry.ts`: airfoil contours as
text.  The reader guesses the role of a line from its content. -/
namespace XFoilFoam.Geometry
open Decimal
set_option autoImplicit false

/-! ## Numbers in a line -/

structure NumberText where
  negative : Bool
  whole : List Char
  fraction : List Char
  exponent : ℤ
  deriving DecidableEq

/-- `parseFloat`, before rounding. -/
def NumberText.value (n : NumberText) : ℚ :=
  let magnitude := (Nat.ofDigitChars 10 (n.whole ++ n.fraction) 0 : ℚ) *
    10 ^ (n.exponent - n.fraction.length)
  if n.negative then -magnitude else magnitude

def isSign (c : Char) : Bool := c == '-' || c == '+'

/-- `(?:[eE][-+]?\\d+)?` at the start of a text, with the rest. -/
def exponentAt (text : List Char) : ℤ × List Char :=
  match text with
  | mark :: rest =>
    let signed := rest.head?.any isSign
    let unsigned := if signed then rest.tail else rest
    let digits := unsigned.takeWhile Char.isDigit
    if (mark == 'e' || mark == 'E') && digits ≠ [] then
      let magnitude : ℤ := Nat.ofDigitChars 10 digits 0
      (if rest.head? = some '-' then -magnitude else magnitude, unsigned.dropWhile Char.isDigit)
    else (0, text)
  | [] => (0, text)

/-- `\\.\\d+` at the start of a text, with the rest. -/
def fractionAt : List Char → Option (List Char × List Char)
  | '.' :: rest =>
    if rest.takeWhile Char.isDigit = [] then none
    else some (rest.takeWhile Char.isDigit, rest.dropWhile Char.isDigit)
  | _ => none

/-- The match of `[-+]?\\d*\\.?\\d+(?:[eE][-+]?\\d+)?` at the start of a text, with the rest. -/
def numberAt (text : List Char) : Option (NumberText × List Char) :=
  let unsigned := if text.head?.any isSign then text.tail else text
  let negative := text.head? == some '-'
  let whole := unsigned.takeWhile Char.isDigit
  let after := unsigned.dropWhile Char.isDigit
  match fractionAt after with
  | some (fraction, rest) =>
    let (exponent, rest) := exponentAt rest
    some (⟨negative, whole, fraction, exponent⟩, rest)
  | none =>
    if whole = [] then none
    else
      let (exponent, rest) := exponentAt after
      some (⟨negative, whole, [], exponent⟩, rest)

def numbersFrom : ℕ → List Char → List NumberText
  | 0, _ => []
  | _ + 1, [] => []
  | fuel + 1, c :: rest =>
    match numberAt (c :: rest) with
    | some (number, after) => number :: numbersFrom fuel after
    | none => numbersFrom fuel rest

/-- `text.match(NUM)`: every match consumes a character. -/
def numbers (text : List Char) : List NumberText := numbersFrom text.length text

/-! ## Lines -/

def isLetter (c : Char) : Bool :=
  ('A'.toNat ≤ c.toNat && c.toNat ≤ 'Z'.toNat) || ('a'.toNat ≤ c.toNat && c.toNat ≤ 'z'.toNat)

/-- `line.trim()`. -/
def trim (line : List Char) : List Char := (line.rdropWhile jsWhitespace).dropWhile jsWhitespace

def dropReturn (line : List Char) : List Char :=
  if line.getLast? = some '\r' then line.dropLast else line

/-- `text.split(/\\r?\\n/)`. -/
def splitLines (text : List Char) : List (List Char) :=
  let lines := text.splitOn '\n'
  lines.dropLast.map dropReturn ++ lines.getLast?.toList

structure Point where
  x : Double
  y : Double
  deriving DecidableEq

/-- The pair of a coordinate line; a line with letters or fewer than two numbers has none. -/
def linePair (line : List Char) : Option Point :=
  if (trim line).any isLetter then none
  else
    match numbers (trim line) with
    | a :: b :: _ => some ⟨Binary64.lit a.value, Binary64.lit b.value⟩
    | _ => none

def coordinatePairs (text : List Char) : List Point := (splitLines text).filterMap linePair

def titleOf (text : List Char) : List Char :=
  (((splitLines text).map trim).find? fun line => line.any isLetter).getD "airfoil".toList

/-! ## Reading -/

inductive CoordinateFormat where
  | selig
  | lednicer
  deriving DecidableEq, Repr

structure ParsedCoordinates where
  name : List Char
  points : List Point
  format : CoordinateFormat
  deriving DecidableEq

/-- `Math.round`: halves go up. -/
def mathRound (x : Double) : Double :=
  match x.val with
  | .fin q => Binary64.lit ⌊q + 1 / 2⌋
  | _ => x

/-- An index argument of `slice`, clamped to the array. -/
def sliceIndex (length : ℕ) (x : Double) : ℕ :=
  match x.val with
  | .fin q => min length ⌊q⌋.toNat
  | .posInf => length
  | _ => 0

def slice (points : List Point) (start stop : Double) : List Point :=
  (points.take (sliceIndex points.length stop)).drop (sliceIndex points.length start)

/-- A count header: both values exceed `1.5`. -/
def isCountHeader (pair : Point) : Bool :=
  Binary64.lt (Binary64.lit (3 / 2)) pair.x && Binary64.lt (Binary64.lit (3 / 2)) pair.y

/-- The contour of a Lednicer body, from the trailing edge over the upper surface. -/
def lednicerContour (header : Point) (body : List Point) : List Point :=
  let nUp := mathRound header.x
  let nLo := mathRound header.y
  (slice body (Binary64.lit 0) nUp).reverse ++ slice body nUp (Binary64.add nUp nLo)

def parseCoordinates (text : List Char) : Except String ParsedCoordinates :=
  match coordinatePairs text with
  | [] => .error "no coordinate pairs found"
  | header :: body =>
    if isCountHeader header then .ok ⟨titleOf text, lednicerContour header body, .lednicer⟩
    else .ok ⟨titleOf text, header :: body, .selig⟩

/-! ## Writing -/

/-- The digits of `n / 10 ^ places` with that many decimals. -/
def fixedDigits (places n : ℕ) : List Char :=
  let decimals := Nat.toDigits 10 (n % 10 ^ places)
  Nat.toDigits 10 (n / 10 ^ places) ++
    '.' :: (List.replicate (places - decimals.length) '0' ++ decimals)

/-- The integer that `toFixed` prints for a magnitude: the nearest, the larger of two. -/
def fixedInteger (places : ℕ) (magnitude : ℚ) : ℕ := ⌊magnitude * 10 ^ places + 1 / 2⌋.toNat

/-- `x.toFixed(places)`. -/
def toFixed (places : ℕ) (x : Double) : List Char :=
  match x.val with
  | .fin q =>
    if 10 ^ 21 ≤ |q| then (numberText x).toList
    else (if q < 0 then ['-'] else []) ++ fixedDigits places (fixedInteger places |q|)
  | _ => (numberText x).toList

def fmt (x : Double) : List Char :=
  (if Binary64.le (Binary64.lit 0) x then [' '] else []) ++ toFixed 6 x

def pointLine (p : Point) : List Char := fmt p.x ++ [' ', ' '] ++ fmt p.y

def headerOf (name : List Char) : List Char := if name = [] then "airfoil".toList else name

/-- `points.map(…).join("\\n")`. -/
def joinedPoints (points : List Point) : List Char := ['\n'].intercalate (points.map pointLine)

def toSelig (name : List Char) (points : List Point) : List Char :=
  headerOf name ++ '\n' :: joinedPoints points ++ ['\n']

/-- The loop for the leading edge, with the index and abscissa found so far and the next index. -/
def leadingFrom (leIdx : ℕ) (lowest : Double) (i : ℕ) : List Point → ℕ
  | [] => leIdx
  | p :: rest =>
    if Binary64.lt p.x lowest then leadingFrom i p.x (i + 1) rest
    else leadingFrom leIdx lowest (i + 1) rest

def leadingIndex : List Point → ℕ
  | [] => 0
  | p :: rest => leadingFrom 0 p.x 1 rest

/-- The upper and lower surface from the leading edge on; both have the leading edge. -/
def splitSurfaces (contour : List Point) : List Point × List Point :=
  ((contour.take (leadingIndex contour + 1)).reverse, contour.drop (leadingIndex contour))

def byX (surface : List Point) : List Point := jsSort (fun a b => Binary64.sub a.x b.x) surface

/-- `length.toFixed(1)` of an array length. -/
def countText (count : ℕ) : List Char := toFixed 1 (Binary64.lit count)

def toLednicer (name : List Char) (points : List Point) : List Char :=
  let us := byX (splitSurfaces points).1
  let ls := byX (splitSurfaces points).2
  headerOf name ++ '\n' :: countText us.length ++ [' ', ' '] ++ countText ls.length ++
    ['\n', '\n'] ++ joinedPoints us ++ ['\n', '\n'] ++ joinedPoints ls ++ ['\n']

/-! ## A written number is read back -/

def Ends (rest : List Char) : Prop := ∀ c ∈ rest.head?, c = ' '

theorem span_digits {digits rest : List Char} (h : AllDigits digits)
    (hrest : ∀ c ∈ rest.head?, c.isDigit = false) :
    (digits ++ rest).takeWhile Char.isDigit = digits ∧ (digits ++ rest).dropWhile Char.isDigit = rest := by
  rw [List.takeWhile_append_of_pos h, List.dropWhile_append_of_pos h]
  cases rest with
  | nil => simp
  | cons c rest =>
    have hc : c.isDigit = false := hrest c rfl
    simp [hc]

theorem exponentAt_ends {rest : List Char} (h : Ends rest) : exponentAt rest = (0, rest) := by
  cases rest with
  | nil => rfl
  | cons c rest =>
    have hc : c = ' ' := h c rfl
    subst hc
    simp [exponentAt]

def paddedDecimals (places n : ℕ) : List Char :=
  List.replicate (places - (Nat.toDigits 10 (n % 10 ^ places)).length) '0' ++
    Nat.toDigits 10 (n % 10 ^ places)

def fixedNumber (negative : Bool) (places n : ℕ) : NumberText :=
  ⟨negative, Nat.toDigits 10 (n / 10 ^ places), paddedDecimals places n, 0⟩

theorem fixedDigits_eq (places n : ℕ) :
    fixedDigits places n = Nat.toDigits 10 (n / 10 ^ places) ++ '.' :: paddedDecimals places n := rfl

theorem paddedDecimals_digits (places n : ℕ) : AllDigits (paddedDecimals places n) := by
  intro c hc
  obtain hc | hc := List.mem_append.mp hc
  · rw [List.eq_of_mem_replicate hc]
    decide
  · exact toDigits_allDigits _ c hc

theorem paddedDecimals_ne_nil (places n : ℕ) : paddedDecimals places n ≠ [] := by
  intro h
  exact Nat.toDigits_ne_nil (List.append_eq_nil_iff.mp h).2

theorem paddedDecimals_length {places : ℕ} (h : 0 < places) (n : ℕ) :
    (paddedDecimals places n).length = places := by
  have hle : (Nat.toDigits 10 (n % 10 ^ places)).length ≤ places :=
    (Nat.length_toDigits_le_iff (by norm_num) h).mpr (Nat.mod_lt _ (by positivity))
  rw [paddedDecimals, List.length_append, List.length_replicate]
  omega

theorem fixedNumber_value (negative : Bool) {places : ℕ} (h : 0 < places) (n : ℕ) :
    (fixedNumber negative places n).value = if negative then -((n : ℚ) / 10 ^ places) else n / 10 ^ places := by
  have hdigits : Nat.ofDigitChars 10 (Nat.toDigits 10 (n / 10 ^ places) ++ paddedDecimals places n) 0 = n := by
    rw [Nat.ofDigitChars_append, Nat.ofDigitChars_ten_toDigits, Nat.ofDigitChars_eq_ofDigitChars_zero,
      paddedDecimals_length h, paddedDecimals, Nat.ofDigitChars_append, Nat.ofDigitChars_replicate_zero,
      Nat.mul_zero, Nat.ofDigitChars_ten_toDigits, Nat.div_add_mod]
  simp only [NumberText.value, fixedNumber, hdigits, paddedDecimals_length h, zero_sub, zpow_neg,
    zpow_natCast, div_eq_mul_inv]

theorem numberAt_unsigned (negative : Bool) (places n : ℕ) {rest : List Char} (h : Ends rest)
    {text : List Char} (hunsigned : (if text.head?.any isSign then text.tail else text) =
      fixedDigits places n ++ rest) (hnegative : (text.head? == some '-') = negative) :
    numberAt text = some (fixedNumber negative places n, rest) := by
  have hpoint : ∀ c ∈ ('.' :: (paddedDecimals places n ++ rest)).head?, c.isDigit = false := by
    intro c hc
    cases hc
    decide
  have hends : ∀ c ∈ rest.head?, c.isDigit = false := by
    intro c hc
    rw [h c hc]
    decide
  obtain ⟨hwhole, hafter⟩ := span_digits (toDigits_allDigits (n / 10 ^ places)) hpoint
  obtain ⟨hdecimals, hrest⟩ := span_digits (paddedDecimals_digits places n) hends
  have hfraction : fractionAt ('.' :: (paddedDecimals places n ++ rest)) =
      some (paddedDecimals places n, rest) := by
    rw [fractionAt, hdecimals, hrest, if_neg (paddedDecimals_ne_nil places n)]
  simp only [numberAt, hunsigned, hnegative, fixedDigits_eq, List.append_assoc, List.cons_append, hwhole,
    hafter, hfraction, exponentAt_ends h, fixedNumber]

def signedDigits (negative : Bool) (places n : ℕ) : List Char :=
  (if negative then ['-'] else []) ++ fixedDigits places n

theorem toDigits_cons (n : ℕ) : ∃ c rest, Nat.toDigits 10 n = c :: rest ∧ c.isDigit = true := by
  obtain ⟨c, rest, hcons⟩ := List.exists_cons_of_ne_nil (Nat.toDigits_ne_nil (n := n) (b := 10))
  exact ⟨c, rest, hcons, toDigits_allDigits n c (by rw [hcons]; exact List.mem_cons_self)⟩

theorem not_sign_of_digit {c : Char} (h : c.isDigit = true) : isSign c = false ∧ c ≠ '-' := by
  constructor
  · by_contra hsign
    simp only [isSign, Bool.not_eq_false, Bool.or_eq_true, beq_iff_eq] at hsign
    obtain rfl | rfl := hsign
    · exact absurd h (by decide)
    · exact absurd h (by decide)
  · rintro rfl
    exact absurd h (by decide)

theorem numberAt_signed (negative : Bool) (places n : ℕ) {rest : List Char} (h : Ends rest) :
    numberAt (signedDigits negative places n ++ rest) = some (fixedNumber negative places n, rest) := by
  cases negative with
  | true => exact numberAt_unsigned true places n h rfl rfl
  | false =>
    obtain ⟨c, digits, hcons, hdigit⟩ := toDigits_cons (n / 10 ^ places)
    obtain ⟨hsign, hminus⟩ := not_sign_of_digit hdigit
    have htext : signedDigits false places n ++ rest = fixedDigits places n ++ rest := rfl
    rw [htext]
    refine numberAt_unsigned false places n h ?_ ?_
    · rw [fixedDigits_eq, hcons]
      simp [hsign]
    · rw [fixedDigits_eq, hcons]
      simpa using hminus

theorem numbersFrom_number (fuel : ℕ) {text rest : List Char} {number : NumberText}
    (h : numberAt text = some (number, rest)) :
    numbersFrom (fuel + 1) text = number :: numbersFrom fuel rest := by
  cases text with
  | nil =>
    have hnone : numberAt [] = none := by decide
    rw [hnone] at h
    cases h
  | cons c text => rw [numbersFrom, h]

theorem numbersFrom_spaces (fuel k : ℕ) (text : List Char) :
    numbersFrom (fuel + k) (List.replicate k ' ' ++ text) = numbersFrom fuel text := by
  induction k with
  | zero => rfl
  | succ k ih =>
    have hnone : numberAt (' ' :: (List.replicate k ' ' ++ text)) = none := by
      simp [numberAt, fractionAt, isSign]
    rw [List.replicate_succ, List.cons_append, ← Nat.add_assoc, numbersFrom, hnone]
    exact ih

theorem signedDigits_pos (negative : Bool) (places n : ℕ) : 0 < (signedDigits negative places n).length := by
  rw [signedDigits, List.length_append, fixedDigits_eq, List.length_append, List.length_cons]
  omega

def numberLine (a : List Char) (spaces : ℕ) (b : List Char) : List Char :=
  a ++ (List.replicate (spaces + 1) ' ' ++ b)

theorem numbers_numberLine (negative negative' : Bool) (places n n' spaces : ℕ) :
    numbers (numberLine (signedDigits negative places n) spaces (signedDigits negative' places n')) =
      [fixedNumber negative places n, fixedNumber negative' places n'] := by
  have hends : Ends (List.replicate (spaces + 1) ' ' ++ signedDigits negative' places n') := by
    intro c hc
    rw [List.replicate_succ] at hc
    cases hc
    rfl
  have hfirst := signedDigits_pos negative places n
  have hsecond := signedDigits_pos negative' places n'
  obtain ⟨fuel, hfuel⟩ : ∃ fuel, (numberLine (signedDigits negative places n) spaces
      (signedDigits negative' places n')).length = (fuel + 1) + (spaces + 1) + 1 := by
    rw [numberLine, List.length_append, List.length_append, List.length_replicate]
    exact ⟨(signedDigits negative places n).length + (signedDigits negative' places n').length - 2, by omega⟩
  have hnone : Ends [] := by simp [Ends]
  have hlast := numberAt_signed negative' places n' hnone
  rw [List.append_nil] at hlast
  rw [numbers, hfuel, numberLine, numbersFrom_number _ (numberAt_signed negative places n hends),
    numbersFrom_spaces, numbersFrom_number _ hlast]
  cases fuel <;> rfl

/-! ## A written line is read back -/

def isNumeral (c : Char) : Bool := c.isDigit || c == '.' || c == '-' || c == ' '

theorem not_letter_of_numeral {c : Char} (h : isNumeral c = true) : isLetter c = false := by
  simp only [isNumeral, Bool.or_eq_true, beq_iff_eq] at h
  obtain ((hdigit | rfl) | rfl) | rfl := h
  · simp only [Char.isDigit, Bool.and_eq_true, decide_eq_true_eq] at hdigit
    have hhigh : c.toNat ≤ 57 := hdigit.2
    simp only [isLetter, Bool.or_eq_false_iff, Bool.and_eq_false_iff, decide_eq_false_iff_not]
    constructor
    · left
      have : 'A'.toNat = 65 := rfl
      omega
    · left
      have : 'a'.toNat = 97 := rfl
      omega
  · decide
  · decide
  · decide

theorem signedDigits_numeral (negative : Bool) (places n : ℕ) :
    ∀ c ∈ signedDigits negative places n, isNumeral c = true := by
  intro c hc
  obtain hc | hc := List.mem_append.mp hc
  · split_ifs at hc
    · rw [List.mem_singleton.mp hc]
      decide
    · cases hc
  · rw [fixedDigits_eq, List.mem_append, List.mem_cons] at hc
    obtain hc | rfl | hc := hc
    · simp [isNumeral, toDigits_allDigits _ c hc]
    · decide
    · simp [isNumeral, paddedDecimals_digits _ _ c hc]

theorem numberLine_numeral {a b : List Char} {spaces : ℕ} (ha : ∀ c ∈ a, isNumeral c = true)
    (hb : ∀ c ∈ b, isNumeral c = true) : ∀ c ∈ numberLine a spaces b, isNumeral c = true := by
  intro c hc
  rw [numberLine, List.mem_append, List.mem_append] at hc
  obtain hc | hc | hc := hc
  · exact ha c hc
  · rw [List.eq_of_mem_replicate hc]
    decide
  · exact hb c hc

theorem digit_not_space {c : Char} (h : c.isDigit = true) : jsWhitespace c = false := by
  simp only [Char.isDigit, Bool.and_eq_true, decide_eq_true_eq] at h
  have hlow : 48 ≤ c.toNat := h.1
  have hhigh : c.toNat ≤ 57 := h.2
  simp only [jsWhitespace, Bool.or_eq_false_iff, Bool.and_eq_false_iff, decide_eq_false_iff_not]
  refine ⟨?_, by left; omega⟩
  simp only [List.contains_eq_mem, decide_eq_false_iff_not]
  simp only [List.mem_cons, List.not_mem_nil, or_false]
  omega

theorem trim_spaced {lead core : List Char} (hlead : ∀ c ∈ lead, jsWhitespace c = true) {c d : Char}
    {inner : List Char} (hstart : core.head? = some c) (hc : jsWhitespace c = false)
    (hend : core = inner ++ [d]) (hd : jsWhitespace d = false) : trim (lead ++ core) = core := by
  have hright : (lead ++ core).rdropWhile jsWhitespace = lead ++ core := by
    rw [hend, ← List.append_assoc]
    exact List.rdropWhile_concat_neg _ _ _ (by simp [hd])
  rw [trim, hright, List.dropWhile_append_of_pos hlead]
  cases core with
  | nil => cases hstart
  | cons e rest =>
    cases hstart
    exact List.dropWhile_cons_of_neg (by simp [hc])

theorem signedDigits_start (negative : Bool) (places n : ℕ) :
    ∃ c, (signedDigits negative places n).head? = some c ∧ jsWhitespace c = false := by
  cases negative with
  | true => exact ⟨'-', rfl, by decide⟩
  | false =>
    obtain ⟨c, digits, hcons, hdigit⟩ := toDigits_cons (n / 10 ^ places)
    refine ⟨c, ?_, digit_not_space hdigit⟩
    show (fixedDigits places n).head? = some c
    rw [fixedDigits_eq, hcons]
    rfl

theorem signedDigits_end (negative : Bool) (places n : ℕ) :
    ∃ inner d, signedDigits negative places n = inner ++ [d] ∧ jsWhitespace d = false := by
  have hne := paddedDecimals_ne_nil places n
  have hlast := List.dropLast_append_getLast hne
  refine ⟨(if negative then ['-'] else []) ++ (Nat.toDigits 10 (n / 10 ^ places) ++
    '.' :: (paddedDecimals places n).dropLast), (paddedDecimals places n).getLast hne, ?_, ?_⟩
  · rw [signedDigits, fixedDigits_eq]
    conv_lhs => rw [← hlast]
    simp
  · exact digit_not_space (paddedDecimals_digits places n _ (List.getLast_mem hne))

theorem linePair_numberLine (negative negative' : Bool) (places n n' spaces : ℕ) {lead : List Char}
    (hlead : ∀ c ∈ lead, c = ' ') :
    linePair (lead ++ numberLine (signedDigits negative places n) spaces
      (signedDigits negative' places n')) =
      some ⟨Binary64.lit (fixedNumber negative places n).value,
        Binary64.lit (fixedNumber negative' places n').value⟩ := by
  obtain ⟨c, hstart, hc⟩ := signedDigits_start negative places n
  obtain ⟨inner, d, hend, hd⟩ := signedDigits_end negative' places n'
  have htrim : trim (lead ++ numberLine (signedDigits negative places n) spaces
      (signedDigits negative' places n')) = numberLine (signedDigits negative places n) spaces
      (signedDigits negative' places n') := by
    have hfirst : (numberLine (signedDigits negative places n) spaces
        (signedDigits negative' places n')).head? = some c := by
      rw [numberLine, List.head?_append, hstart]
      rfl
    have hlast : numberLine (signedDigits negative places n) spaces (signedDigits negative' places n') =
        signedDigits negative places n ++ (List.replicate (spaces + 1) ' ' ++ inner) ++ [d] := by
      rw [numberLine, hend]
      simp
    refine trim_spaced (fun e he => ?_) hfirst hc hlast hd
    rw [hlead e he]
    decide
  have hletters : (numberLine (signedDigits negative places n) spaces
      (signedDigits negative' places n')).any isLetter = false := by
    rw [List.any_eq_false]
    intro e he
    have hnumeral := numberLine_numeral (signedDigits_numeral negative places n)
      (signedDigits_numeral negative' places n') e he
    simp [not_letter_of_numeral hnumeral]
  rw [linePair, htrim, hletters, numbers_numberLine]
  rfl

/-! ## Points -/

/-- A finite number that `toFixed` writes without an exponent. -/
def Writable (x : Double) : Prop := ∃ q, x.val = .fin q ∧ |q| < 10 ^ 21

def roundFixed (places : ℕ) (x : Double) : Double :=
  match x.val with
  | .fin q =>
    Binary64.lit (if q < 0 then -((fixedInteger places |q| : ℚ) / 10 ^ places)
      else (fixedInteger places |q| : ℚ) / 10 ^ places)
  | _ => x

def roundPoint (p : Point) : Point := ⟨roundFixed 6 p.x, roundFixed 6 p.y⟩

theorem toFixed_eq {x : Double} {q : ℚ} (hx : x.val = .fin q) (hq : |q| < 10 ^ 21) (places : ℕ) :
    toFixed places x = signedDigits (decide (q < 0)) places (fixedInteger places |q|) := by
  simp only [toFixed, hx, if_neg (not_le.mpr hq), signedDigits, decide_eq_true_eq]

theorem fmt_eq {x : Double} {q : ℚ} (hx : x.val = .fin q) (hq : |q| < 10 ^ 21) :
    fmt x = (if q < 0 then [] else [' ']) ++ signedDigits (decide (q < 0)) 6 (fixedInteger 6 |q|) := by
  rw [fmt, toFixed_eq hx hq]
  have hle := Double.le_iff Double.lit_zero hx
  by_cases hneg : q < 0
  · rw [if_pos hneg, if_neg (fun h => absurd (hle.mp h) (not_le.mpr hneg))]
  · rw [if_neg hneg, if_pos (hle.mpr (not_lt.mp hneg))]

theorem roundFixed_eq {x : Double} {q : ℚ} (hx : x.val = .fin q) {places : ℕ} (h : 0 < places) :
    roundFixed places x =
      Binary64.lit (fixedNumber (decide (q < 0)) places (fixedInteger places |q|)).value := by
  rw [fixedNumber_value _ h]
  simp only [roundFixed, hx, decide_eq_true_eq]

theorem linePair_pointLine {p : Point} (hx : Writable p.x) (hy : Writable p.y) :
    linePair (pointLine p) = some (roundPoint p) := by
  obtain ⟨q, hxv, hq⟩ := hx
  obtain ⟨r, hyv, hr⟩ := hy
  have hline : pointLine p = (if q < 0 then [] else [' ']) ++
      numberLine (signedDigits (decide (q < 0)) 6 (fixedInteger 6 |q|)) (if r < 0 then 1 else 2)
        (signedDigits (decide (r < 0)) 6 (fixedInteger 6 |r|)) := by
    rw [pointLine, fmt_eq hxv hq, fmt_eq hyv hr, numberLine]
    split_ifs <;> simp [List.replicate_succ]
  rw [hline, linePair_numberLine, roundPoint, roundFixed_eq hxv (by norm_num),
    roundFixed_eq hyv (by norm_num)]
  intro c hc
  split_ifs at hc
  · cases hc
  · exact List.mem_singleton.mp hc

/-! ## Lines of a text -/

theorem trim_dropReturn (line : List Char) : trim (dropReturn line) = trim line := by
  unfold dropReturn
  split
  · next hlast =>
    have hline := (List.dropLast_append_getLast? '\r' hlast).symm
    conv_rhs => rw [hline]
    rw [trim, trim, List.rdropWhile_concat_pos _ _ _ (by decide)]
  · rfl

theorem linePair_dropReturn (line : List Char) : linePair (dropReturn line) = linePair line := by
  rw [linePair, trim_dropReturn, linePair]

theorem coordinatePairs_eq (text : List Char) :
    coordinatePairs text = (text.splitOn '\n').filterMap linePair := by
  have hne : text.splitOn '\n' ≠ [] := List.splitOn_ne_nil _ _
  have hmap : ∀ lines : List (List Char),
      (lines.map dropReturn).filterMap linePair = lines.filterMap linePair := by
    intro lines
    rw [List.filterMap_map]
    congr 1
    funext line
    exact linePair_dropReturn line
  rw [coordinatePairs, splitLines, List.filterMap_append, hmap, ← List.filterMap_append]
  congr 1
  rw [List.getLast?_eq_some_getLast hne]
  exact List.dropLast_append_getLast hne

theorem coordinatePairs_append (x y : List Char) :
    coordinatePairs (x ++ '\n' :: y) = coordinatePairs x ++ coordinatePairs y := by
  rw [coordinatePairs_eq, coordinatePairs_eq, coordinatePairs_eq, List.splitOn_append_cons_self,
    List.filterMap_append]

theorem coordinatePairs_line {line : List Char} (h : '\n' ∉ line) :
    coordinatePairs line = (linePair line).toList := by
  rw [coordinatePairs_eq, List.splitOn_eq_singleton h]
  cases hpair : linePair line <;> simp [hpair]

def WritablePoint (p : Point) : Prop := Writable p.x ∧ Writable p.y

theorem fmt_no_break {x : Double} (h : Writable x) : '\n' ∉ fmt x := by
  obtain ⟨q, hx, hq⟩ := h
  intro hmem
  rw [fmt_eq hx hq, List.mem_append] at hmem
  obtain hmem | hmem := hmem
  · split_ifs at hmem
    · cases hmem
    · exact absurd (List.mem_singleton.mp hmem) (by decide)
  · exact absurd (signedDigits_numeral _ _ _ _ hmem) (by decide)

theorem pointLine_no_break {p : Point} (h : WritablePoint p) : '\n' ∉ pointLine p := by
  intro hmem
  rw [pointLine, List.mem_append, List.mem_append] at hmem
  obtain (hmem | hmem) | hmem := hmem
  · exact fmt_no_break h.1 hmem
  · exact absurd hmem (by decide)
  · exact fmt_no_break h.2 hmem

theorem joinedPoints_cons (p q : Point) (rest : List Point) :
    joinedPoints (p :: q :: rest) = pointLine p ++ '\n' :: joinedPoints (q :: rest) := by
  rw [joinedPoints, joinedPoints, List.map_cons, List.map_cons, List.intercalate_cons_cons]
  simp

theorem coordinatePairs_joinedPoints {points : List Point} (h : ∀ p ∈ points, WritablePoint p) :
    coordinatePairs (joinedPoints points) = points.map roundPoint := by
  induction points with
  | nil => decide
  | cons p rest ih =>
    have hp := h p List.mem_cons_self
    cases rest with
    | nil =>
      rw [joinedPoints, List.map_singleton, List.intercalate_singleton,
        coordinatePairs_line (pointLine_no_break hp), linePair_pointLine hp.1 hp.2]
      rfl
    | cons q rest =>
      rw [joinedPoints_cons, coordinatePairs_append, coordinatePairs_line (pointLine_no_break hp),
        linePair_pointLine hp.1 hp.2, ih fun r hr => h r (List.mem_cons_of_mem p hr)]
      rfl

/-! ## Counts -/

theorem mathRound_natCast {n : ℕ} (h : n ≤ 2 ^ 53) :
    mathRound (Binary64.lit (n : ℚ)) = Binary64.lit (n : ℚ) := by
  have hfloor : ⌊(n : ℚ) + 1 / 2⌋ = (n : ℤ) := by
    rw [Int.floor_eq_iff]
    push_cast
    constructor <;> linarith
  simp only [mathRound, Double.lit_natCast h, hfloor]
  push_cast
  rfl

theorem sliceIndex_of_val {x : Double} {n : ℕ} (h : x.val = .fin n) (length : ℕ) :
    sliceIndex length x = min length n := by
  simp only [sliceIndex, h, Int.floor_natCast, Int.toNat_natCast]

theorem add_natCast {x y : Double} {m n : ℕ} (hx : x.val = .fin m) (hy : y.val = .fin n)
    (h : m + n ≤ 2 ^ 53) : (Binary64.add x y).val = .fin ((m + n : ℕ) : ℚ) := by
  have hlit := Double.lit_natCast h
  show round64 (x.val.add y.val) = _
  rw [hx, hy, ← hlit]
  show round64 (.fin ((m : ℚ) + n)) = round64 (.fin ((m + n : ℕ) : ℚ))
  push_cast
  rfl

theorem length_lednicerContour_le (header : Point) (body : List Point) :
    (lednicerContour header body).length ≤ body.length := by
  have hindex : ∀ x : Double, sliceIndex body.length x ≤ body.length := by
    intro x
    unfold sliceIndex
    split
    · exact min_le_left _ _
    · exact le_rfl
    · exact Nat.zero_le _
  have hzero : sliceIndex body.length (Binary64.lit 0) = 0 := by
    simp [sliceIndex, Double.lit_zero]
  have hup := hindex (mathRound header.x)
  have hall := hindex (Binary64.add (mathRound header.x) (mathRound header.y))
  simp only [lednicerContour, slice, hzero, List.length_append, List.length_reverse, List.length_drop,
    List.length_take]
  omega

end XFoilFoam.Geometry
