import XFoilFoam.Geometry.Coordinates
import XFoilFoam.Foundations.ExceptLists

/-! `parse_airfoil` of `src/airfoilfoam/airfoil.py`, the engine's reader of the same files, against
`parseCoordinates`.  Which characters Python counts as decimal digits is a parameter. -/
namespace XFoilFoam.Geometry
set_option autoImplicit false

/-! ## Texts in Python -/

/-- The characters that end a line for `str.splitlines`. -/
def isLineBreak (c : Char) : Bool :=
  [0xa, 0xb, 0xc, 0xd, 0x1c, 0x1d, 0x1e, 0x85, 0x2028, 0x2029].contains c.toNat

/-- `str.isspace` on one character. -/
def isPySpace (c : Char) : Bool :=
  [0x9, 0xa, 0xb, 0xc, 0xd, 0x1c, 0x1d, 0x1e, 0x1f, 0x20, 0x85, 0xa0, 0x1680, 0x2028, 0x2029, 0x202f,
    0x205f, 0x3000].contains c.toNat || (decide (0x2000 ≤ c.toNat) && decide (c.toNat ≤ 0x200a))

/-- `text.splitlines()`, with the line read so far in reverse. -/
def splitlinesFrom (current : List Char) : List Char → List (List Char)
  | [] => if current = [] then [] else [current.reverse]
  | '\r' :: '\n' :: rest => current.reverse :: splitlinesFrom [] rest
  | c :: rest =>
    if isLineBreak c then current.reverse :: splitlinesFrom [] rest
    else splitlinesFrom (c :: current) rest

def splitlines (text : List Char) : List (List Char) := splitlinesFrom [] text

/-- `line.replace(",", " ").split()`. -/
def pyWords (line : List Char) : List (List Char) :=
  ((line.map fun c => if c = ',' then ' ' else c).splitOnP isPySpace).filter (· ≠ [])

def underscoresFit (previous : Char) : List Char → Bool
  | [] => previous != '_'
  | c :: rest =>
    (if c = '_' then previous.isDigit else previous != '_' || c.isDigit) && underscoresFit c rest

def asciiWord (word : String) (text : List Char) : Bool :=
  text.map (fun c => if 'A' ≤ c ∧ c ≤ 'Z' then Char.ofNat (c.toNat + 32) else c) == word.toList

/-- The exponent of a number whose digits end here: nothing, or a mark and digits. -/
def pyExponent : List Char → Option ℤ
  | [] => some 0
  | mark :: rest =>
    let unsigned := if rest.head?.any isSign then rest.tail else rest
    if (mark = 'e' ∨ mark = 'E') ∧ unsigned ≠ [] ∧ unsigned.all Char.isDigit then
      let magnitude : ℤ := Nat.ofDigitChars 10 unsigned 0
      some (if rest.head? = some '-' then -magnitude else magnitude)
    else none

def pyMagnitude (negative : Bool) (text : List Char) : Option Double :=
  let whole := text.takeWhile Char.isDigit
  let after := text.dropWhile Char.isDigit
  let pointed := after.head? = some '.'
  let fraction := if pointed then after.tail.takeWhile Char.isDigit else []
  let rest := if pointed then after.tail.dropWhile Char.isDigit else after
  if whole = [] ∧ fraction = [] then none
  else (pyExponent rest).map fun exponent =>
    Binary64.lit (NumberText.value ⟨negative, whole, fraction, exponent⟩)

def pySpecial (negative : Bool) (text : List Char) : Option Double :=
  if asciiWord "inf" text || asciiWord "infinity" text then
    some (if negative then Binary64.negInf else Binary64.posInf)
  else if asciiWord "nan" text then some (Binary64.sub Binary64.posInf Binary64.posInf)
  else none

/-- `float(word)` on a word without white space. -/
def pyFloat (decimal : Char → Option ℕ) (word : List Char) : Option Double :=
  let ascii := word.map fun c => ((decimal c).map Nat.digitChar).getD c
  if underscoresFit ' ' ascii then
    let text := ascii.filter (· ≠ '_')
    let negative := text.head? == some '-'
    let unsigned := if text.head?.any isSign then text.tail else text
    (pySpecial negative unsigned).or (pyMagnitude negative unsigned)
  else none

/-! ## The engine's reader -/

variable (decimal : Char → Option ℕ)

def pyLinePair (line : List Char) : Option Point :=
  match pyWords line with
  | a :: b :: _ => (pyFloat decimal a).bind fun x => (pyFloat decimal b).map fun y => ⟨x, y⟩
  | _ => none

def numericPairs (text : List Char) : List Point := (splitlines text).filterMap (pyLinePair decimal)

/-- `round(x)`, as the integer. -/
def pyRoundInt (x : Double) : Except String ℤ :=
  match x.val with
  | .fin q => .ok (roundHalfEven q)
  | .nan => .error "cannot convert float NaN to integer"
  | _ => .error "cannot convert float infinity to integer"

/-- `abs(x - round(x)) < 1e-6`. -/
def nearInteger (x : Double) : Except String Bool :=
  (pyRoundInt x).map fun n =>
    Binary64.lt (Binary64.abs (Binary64.sub x (Binary64.lit n))) (Binary64.lit (1 / 1000000))

def looksLikeLednicerHeader (pair : Point) : Except String Bool :=
  if isCountHeader pair then
    (nearInteger pair.x).bind fun first => if first then nearInteger pair.y else .ok false
  else .ok false

/-- `_parse_lednicer` after the header. -/
def parseLednicer (nUp nLo : ℕ) (body : List Point) : Except String (List Point) :=
  if body.length < nUp + nLo then
    .error ("Lednicer file declares " ++ toString nUp ++ "+" ++ toString nLo ++ " points but only " ++
      toString body.length ++ " coordinates found.")
  else .ok ((body.take nUp).reverse ++ ((body.drop nUp).take nLo).tail)

def contourOf (header : Point) (body : List Point) : Except String (List Point) :=
  (looksLikeLednicerHeader header).bind fun lednicer =>
    if lednicer then
      (pyRoundInt header.x).bind fun nUp => (pyRoundInt header.y).bind fun nLo =>
        parseLednicer nUp.toNat nLo.toNat body
    else .ok (header :: body)

/-- `parse_airfoil` with the automatic format. -/
def parseAirfoil (text : List Char) : Except String (List Point) :=
  match numericPairs decimal text with
  | header :: body =>
    if (header :: body).length < 5 then
      .error "Could not find enough coordinate pairs to form an airfoil."
    else contourOf header body
  | [] => .error "Could not find enough coordinate pairs to form an airfoil."

/-! ## Sizes -/

theorem length_splitlinesFrom (current text : List Char) :
    (splitlinesFrom current text).length ≤ text.length + if current = [] then 0 else 1 := by
  induction current, text using splitlinesFrom.induct with
  | case1 => simp [splitlinesFrom]
  | case2 current hne => simp [splitlinesFrom, hne]
  | case3 current rest ih =>
    rw [splitlinesFrom, List.length_cons, List.length_cons, List.length_cons]
    rw [if_pos rfl] at ih
    omega
  | case4 current c rest hreturn hbreak ih =>
    rw [splitlinesFrom, if_pos hbreak, List.length_cons, List.length_cons]
    · rw [if_pos rfl] at ih
      omega
    · exact hreturn
  | case5 current c rest hreturn hbreak ih =>
    rw [splitlinesFrom, if_neg hbreak, List.length_cons]
    · rw [if_neg (List.cons_ne_nil c current)] at ih
      omega
    · exact hreturn

theorem length_numericPairs (text : List Char) : (numericPairs decimal text).length ≤ text.length := by
  have hlines := length_splitlinesFrom [] text
  rw [if_pos rfl, Nat.add_zero] at hlines
  exact (List.length_filterMap_le _ _).trans hlines

/-! ## Count headers -/

theorem mathRound_of_nearInteger {x : Double} {n : ℕ} (hround : pyRoundInt x = .ok n)
    (hnear : nearInteger x = .ok true) (hn : n ≤ 2 ^ 53) : mathRound x = Binary64.lit (n : ℚ) := by
  cases hx : x.val with
  | nan => simp [pyRoundInt, hx] at hround
  | posInf => simp [pyRoundInt, hx] at hround
  | negInf => simp [pyRoundInt, hx] at hround
  | fin q =>
    have hinteger : roundHalfEven q = n := by simpa [pyRoundInt, hx] using hround
    have hlit : (Binary64.lit ((n : ℤ) : ℚ) : Double).val = .fin (n : ℚ) := by
      rw [Int.cast_natCast]
      exact Double.lit_natCast hn
    have hclose : Binary64.lt (Binary64.abs (Binary64.sub x (Binary64.lit ((n : ℤ) : ℚ))))
        (Binary64.lit (1 / 1000000)) = true := by
      rw [nearInteger, hround] at hnear
      exact Except.ok.inj hnear
    have hnot_tie : q - n ≠ 1 / 2 := by
      have hhalf : round64 (.fin (1 / 2)) = .fin (1 / 2) := Double.lit_half
      have hmillionth : roundRat (1 / 1000000) ≤ 1 / 2 :=
        roundRat_le (by norm_num) (by norm_num) (Double.rounded_fin hhalf).1
      have hmillionth' : (Binary64.lit (1 / 1000000) : Double).val = .fin (roundRat (1 / 1000000)) := by
        refine Double.round64_of_lt ?_
        rw [abs_of_nonneg (roundRat_nonneg (by norm_num))]
        exact lt_of_le_of_lt hmillionth (lt_of_lt_of_le (by norm_num) (one_le_pow₀ (by norm_num)))
      have hsub := Double.sub_val hx hlit
      intro htie
      rw [htie, hhalf] at hsub
      have hlt := (Double.lt_iff (Double.abs_val hsub) hmillionth').mp hclose
      rw [abs_of_pos (by norm_num)] at hlt
      linarith
    have hfloor : ⌊q + 1 / 2⌋ = (n : ℤ) := by
      have hhalf := abs_sub_roundHalfEven q
      rw [hinteger, abs_le, Int.cast_natCast] at hhalf
      have hlt := lt_of_le_of_ne hhalf.2 hnot_tie
      rw [Int.floor_eq_iff, Int.cast_natCast]
      constructor <;> linarith
    simp only [mathRound, hx, hfloor, Int.cast_natCast]

theorem one_le_count {x : Double} {n : ℤ} (hround : pyRoundInt x = .ok n)
    (h : Binary64.lt (Binary64.lit (3 / 2)) x = true) : 1 ≤ n := by
  cases hx : x.val with
  | nan => simp [pyRoundInt, hx] at hround
  | posInf => simp [pyRoundInt, hx] at hround
  | negInf => simp [pyRoundInt, hx] at hround
  | fin q =>
    have hq := (Double.lt_iff Double.lit_threeHalves hx).mp h
    have hinteger : roundHalfEven q = n := by simpa [pyRoundInt, hx] using hround
    rw [← hinteger]
    exact le_roundHalfEven (by push_cast; linarith)

theorem length_lednicerContour {header : Point} {body : List Point} {nUp nLo : ℕ}
    (hx : mathRound header.x = Binary64.lit (nUp : ℚ)) (hy : mathRound header.y = Binary64.lit (nLo : ℚ))
    (hcounts : nUp + nLo ≤ body.length) (hbody : body.length < 2 ^ 53) :
    (lednicerContour header body).length = nUp + nLo := by
  have hu : (Binary64.lit (nUp : ℚ) : Double).val = .fin nUp := Double.lit_natCast (by omega)
  have hl : (Binary64.lit (nLo : ℚ) : Double).val = .fin nLo := Double.lit_natCast (by omega)
  have hzero : (Binary64.lit (0 : ℚ) : Double).val = .fin ((0 : ℕ) : ℚ) := by
    rw [Double.lit_zero, Nat.cast_zero]
  simp only [lednicerContour, hx, hy, slice, sliceIndex_of_val hu, sliceIndex_of_val hzero,
    sliceIndex_of_val (add_natCast hu hl (by omega)), List.length_append, List.length_reverse,
    List.length_drop, List.length_take]
  omega

/-- After a count header the two readers never agree: the engine drops the second leading edge, or
takes the header for a point. -/
theorem contourOf_headed {header : Point} {body contour : List Point}
    (hheader : isCountHeader header = true) (hbody : body.length < 2 ^ 53)
    (h : contourOf header body = .ok contour) : lednicerContour header body ≠ contour := by
  intro heq
  have hlength := congrArg List.length heq
  have hle := length_lednicerContour_le header body
  obtain ⟨hx, hy⟩ := (Bool.and_eq_true _ _).mp hheader
  unfold contourOf at h
  obtain ⟨lednicer, hlooks, h⟩ := bind_eq_ok.mp h
  cases lednicer with
  | false =>
    cases h
    rw [List.length_cons] at hlength
    omega
  | true =>
    simp only [if_true] at h
    obtain ⟨nUp, hnUp, h⟩ := bind_eq_ok.mp h
    obtain ⟨nLo, hnLo, h⟩ := bind_eq_ok.mp h
    rw [looksLikeLednicerHeader, if_pos hheader] at hlooks
    obtain ⟨first, hfirst, hsecond⟩ := bind_eq_ok.mp hlooks
    cases first with
    | false => cases hsecond
    | true =>
      simp only [if_true] at hsecond
      obtain ⟨u, rfl⟩ := Int.eq_ofNat_of_zero_le (by have := one_le_count hnUp hx; omega : 0 ≤ nUp)
      obtain ⟨l, rfl⟩ := Int.eq_ofNat_of_zero_le (by have := one_le_count hnLo hy; omega : 0 ≤ nLo)
      have hpos := one_le_count hnLo hy
      rw [Int.toNat_natCast, Int.toNat_natCast, parseLednicer] at h
      split at h
      · cases h
      · next hcounts =>
        cases h
        rw [length_lednicerContour (mathRound_of_nearInteger hnUp hfirst (by omega))
          (mathRound_of_nearInteger hnLo hsecond (by omega)) (by omega) hbody] at hlength
        simp only [List.length_append, List.length_reverse, List.length_tail, List.length_take,
          List.length_drop] at hlength
        omega

theorem contourOf_not_headed {header : Point} {body contour : List Point}
    (hheader : isCountHeader header = false) (h : contourOf header body = .ok contour) :
    contour = header :: body := by
  rw [contourOf, looksLikeLednicerHeader, hheader] at h
  exact (Except.ok.inj h).symm

/-! ## The two readers -/

/-- The contour of the pairs that `parseCoordinates` has read. -/
def readContour : List Point → Option (List Point)
  | [] => none
  | header :: body => some (if isCountHeader header then lednicerContour header body else header :: body)

def headed (pairs : List Point) : Bool := pairs.head?.any isCountHeader

theorem parse_points_iff (text : List Char) (contour : List Point) :
    (∃ parsed, parseCoordinates text = .ok parsed ∧ parsed.points = contour) ↔
      readContour (coordinatePairs text) = some contour := by
  cases hpairs : coordinatePairs text with
  | nil => simp [parseCoordinates, readContour, hpairs]
  | cons header body =>
    simp only [parseCoordinates, readContour, hpairs]
    split_ifs <;> simp

/-- The readers take different pairs, one of them finds a count header, and still the contours are the
same. -/
def Coincidence (text : List Char) (contour : List Point) : Prop :=
  coordinatePairs text ≠ numericPairs decimal text ∧
    (headed (coordinatePairs text) = true ∨ headed (numericPairs decimal text) = true) ∧
    readContour (coordinatePairs text) = some contour

def asciiDecimal (c : Char) : Option ℕ := if c.isDigit then some (c.toNat - '0'.toNat) else none

def diamond : List Char :=
  "diamond\n1.0 0.0\n0.5 0.1\n0.0 0.0\n0.5 -0.1\n1.0 0.0\n".toList

def exponentDiamond : List Char :=
  "diamond\n1.0 0.0\n0.5 1e-1\n0.0 0.0\n0.5 -0.1\n1.0 0.0\n".toList

end XFoilFoam.Geometry
