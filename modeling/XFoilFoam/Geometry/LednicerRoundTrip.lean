import XFoilFoam.Geometry.Coordinates

/-! `parseCoordinates` after `toLednicer`.  Both surfaces are written with the leading edge and read with
it, so a round trip doubles it. -/
namespace XFoilFoam.Geometry
open Decimal
set_option autoImplicit false

/-- A contour in Selig order whose coordinates have at most six decimals. -/
structure SeligContour where
  before : List Point
  le : Point
  after : List Point
  descends : (before ++ [le]).Pairwise fun p q => Binary64.lt q.x p.x = true
  ascends : (le :: after).Pairwise fun p q => Binary64.lt p.x q.x = true
  decimals : ∀ p ∈ before ++ le :: after, roundPoint p = p
  writable : ∀ p ∈ before ++ le :: after, WritablePoint p
  /-- An array has fewer elements. -/
  bounded : (before ++ le :: after).length < 2 ^ 32

namespace SeligContour
variable (contour : SeligContour)

def points : List Point := contour.before ++ contour.le :: contour.after

/-- The contour with the leading edge `k` times more. -/
def repeated (k : ℕ) : List Point :=
  contour.before ++ (List.replicate (k + 1) contour.le ++ contour.after)

theorem repeated_zero : contour.repeated 0 = contour.points := rfl

theorem length_repeated (k : ℕ) :
    (contour.repeated k).length = contour.before.length + (k + 1) + contour.after.length := by
  rw [repeated, List.length_append, List.length_append, List.length_replicate]
  omega

theorem mem_repeated {k : ℕ} {p : Point} (h : p ∈ contour.repeated k) : p ∈ contour.points := by
  rw [repeated, List.mem_append, List.mem_append] at h
  rw [points, List.mem_append, List.mem_cons]
  obtain h | h | h := h
  · exact .inl h
  · exact .inr (.inl (List.eq_of_mem_replicate h))
  · exact .inr (.inr h)

theorem lt_irrefl_of_writable {x : Double} (h : Writable x) : Binary64.lt x x = false := by
  obtain ⟨q, hx, -⟩ := h
  rw [Bool.eq_false_iff, ne_eq, Double.lt_iff hx hx]
  exact lt_irrefl q

theorem lt_asymm_of_writable {x y : Double} (hx : Writable x) (hy : Writable y)
    (h : Binary64.lt x y = true) : Binary64.lt y x = false := by
  obtain ⟨p, hxv, -⟩ := hx
  obtain ⟨q, hyv, -⟩ := hy
  rw [Bool.eq_false_iff, ne_eq, Double.lt_iff hyv hxv]
  exact lt_asymm ((Double.lt_iff hxv hyv).mp h)

/-! ## The leading edge -/

theorem leadingFrom_of_not_lt {leIdx i : ℕ} {lowest : Double} {rest : List Point}
    (h : ∀ p ∈ rest, Binary64.lt p.x lowest = false) : leadingFrom leIdx lowest i rest = leIdx := by
  induction rest generalizing i with
  | nil => rfl
  | cons p rest ih =>
    rw [leadingFrom, h p List.mem_cons_self, if_neg Bool.false_ne_true]
    exact ih fun q hq => h q (List.mem_cons_of_mem p hq)

theorem leadingFrom_descending {p le : Point} {before rest : List Point} (i : ℕ)
    (hdown : (p :: (before ++ [le])).Pairwise fun p q => Binary64.lt q.x p.x = true)
    (hrest : ∀ q ∈ rest, Binary64.lt q.x le.x = false) :
    leadingFrom i p.x (i + 1) (before ++ le :: rest) = i + 1 + before.length := by
  induction before generalizing i p with
  | nil =>
    have hlt : Binary64.lt le.x p.x = true := (List.pairwise_cons.mp hdown).1 le (by simp)
    rw [List.nil_append, leadingFrom, if_pos hlt, leadingFrom_of_not_lt hrest]
    rfl
  | cons q before ih =>
    obtain ⟨hfirst, htail⟩ := List.pairwise_cons.mp hdown
    have hlt : Binary64.lt q.x p.x = true := hfirst q (by simp)
    rw [List.cons_append, leadingFrom, if_pos hlt, ih (i + 1) htail, List.length_cons]
    omega

theorem le_writable : WritablePoint contour.le := contour.writable _ (by simp)

theorem edges_not_lt (k : ℕ) :
    ∀ q ∈ List.replicate k contour.le ++ contour.after, Binary64.lt q.x contour.le.x = false := by
  intro q hq
  obtain hq | hq := List.mem_append.mp hq
  · rw [List.eq_of_mem_replicate hq]
    exact lt_irrefl_of_writable contour.le_writable.1
  · have hlt := (List.pairwise_cons.mp contour.ascends).1 q hq
    exact lt_asymm_of_writable contour.le_writable.1 (contour.writable q (by simp [hq])).1 hlt

theorem leadingIndex_repeated (k : ℕ) : leadingIndex (contour.repeated k) = contour.before.length := by
  have hrest := contour.edges_not_lt k
  have hdown := contour.descends
  unfold repeated
  rw [List.replicate_succ, List.cons_append]
  cases hbefore : contour.before with
  | nil => exact leadingFrom_of_not_lt hrest
  | cons p before =>
    rw [hbefore] at hdown
    rw [List.cons_append, leadingIndex, leadingFrom_descending 0 hdown hrest, List.length_cons]
    omega

theorem splitSurfaces_repeated (k : ℕ) :
    splitSurfaces (contour.repeated k) =
      (contour.le :: contour.before.reverse, List.replicate (k + 1) contour.le ++ contour.after) := by
  have hupper : (contour.repeated k).take (contour.before.length + 1) = contour.before ++ [contour.le] := by
    have hsplit : contour.repeated k =
        (contour.before ++ [contour.le]) ++ (List.replicate k contour.le ++ contour.after) := by
      simp [repeated, List.replicate_succ]
    rw [hsplit]
    exact List.take_left' (by simp)
  rw [splitSurfaces, leadingIndex_repeated, hupper, List.reverse_append]
  have hlower : (contour.repeated k).drop contour.before.length =
      List.replicate (k + 1) contour.le ++ contour.after := List.drop_left
  rw [hlower]
  rfl

/-! ## The written table -/

theorem byX_of_ordered {surface : List Point} (hwritable : ∀ p ∈ surface, WritablePoint p)
    (h : surface.Pairwise fun p q => Binary64.lt q.x p.x = false) : byX surface = surface := by
  refine List.Pairwise.insertionSort_eq (h.imp_of_mem fun {p q} hp hq hlt => ?_)
  obtain ⟨a, hpv, -⟩ := (hwritable p hp).1
  obtain ⟨b, hqv, -⟩ := (hwritable q hq).1
  rw [Bool.eq_false_iff] at hlt ⊢
  intro hpos
  exact hlt ((Double.lt_iff hqv hpv).mpr ((Double.sub_fin_spec hpv hqv).1.mp hpos))

def upper : List Point := contour.le :: contour.before.reverse

def lower (k : ℕ) : List Point := List.replicate (k + 1) contour.le ++ contour.after

theorem mem_upper {p : Point} (h : p ∈ contour.upper) : p ∈ contour.points := by
  rw [upper, List.mem_cons, List.mem_reverse] at h
  rw [points, List.mem_append, List.mem_cons]
  exact h.elim (fun h => .inr (.inl h)) .inl

theorem mem_lower {k : ℕ} {p : Point} (h : p ∈ contour.lower k) : p ∈ contour.points :=
  contour.mem_repeated (List.mem_append_right contour.before h)

theorem byX_upper : byX contour.upper = contour.upper := by
  refine byX_of_ordered (fun p hp => contour.writable p (contour.mem_upper hp)) ?_
  have hreverse : contour.upper = (contour.before ++ [contour.le]).reverse := by
    rw [upper, List.reverse_append]
    rfl
  have hdown := contour.descends.imp_of_mem fun {p q} hp hq h =>
    lt_asymm_of_writable (contour.writable q (by simp at hq ⊢; tauto)).1
      (contour.writable p (by simp at hp ⊢; tauto)).1 h
  rw [hreverse, List.pairwise_reverse]
  exact hdown

theorem byX_lower (k : ℕ) : byX (contour.lower k) = contour.lower k := by
  refine byX_of_ordered (fun p hp => contour.writable p (contour.mem_lower hp)) ?_
  have hle := contour.le_writable.1
  rw [lower, List.pairwise_append]
  refine ⟨?_, ?_, ?_⟩
  · exact List.pairwise_replicate.mpr (.inr (lt_irrefl_of_writable hle))
  · refine (List.pairwise_cons.mp contour.ascends).2.imp_of_mem fun {p q} hp hq h => ?_
    exact lt_asymm_of_writable (contour.writable p (by simp [hp])).1 (contour.writable q (by simp [hq])).1 h
  · intro p hp q hq
    rw [List.eq_of_mem_replicate hp]
    have hlt := (List.pairwise_cons.mp contour.ascends).1 q hq
    exact lt_asymm_of_writable hle (contour.writable q (by simp [hq])).1 hlt

def counts (k : ℕ) : Point :=
  ⟨Binary64.lit (contour.upper.length : ℕ), Binary64.lit ((contour.lower k).length : ℕ)⟩

end SeligContour

theorem countText_eq {count : ℕ} (h : count ≤ 2 ^ 33) :
    countText count = signedDigits false 1 (10 * count) := by
  have hval : (Binary64.lit (count : ℚ) : Double).val = .fin count :=
    Double.lit_natCast (h.trans (by norm_num))
  have hsmall : |(count : ℚ)| < 10 ^ 21 := by
    rw [Nat.abs_cast]
    calc (count : ℚ) ≤ ((2 ^ 33 : ℕ) : ℚ) := by exact_mod_cast h
      _ < 10 ^ 21 := by norm_num
  have hinteger : fixedInteger 1 |(count : ℚ)| = 10 * count := by
    have hfloor : ⌊|(count : ℚ)| * 10 ^ 1 + 1 / 2⌋ = ((10 * count : ℕ) : ℤ) := by
      rw [Nat.abs_cast, Int.floor_eq_iff]
      push_cast
      constructor <;> linarith
    rw [fixedInteger, hfloor, Int.toNat_natCast]
  have hsign : decide ((count : ℚ) < 0) = false := decide_eq_false (not_lt.mpr (Nat.cast_nonneg count))
  rw [countText, toFixed_eq hval hsmall, hinteger, hsign]

theorem countText_no_break {count : ℕ} (h : count ≤ 2 ^ 33) : '\n' ∉ countText count := by
  rw [countText_eq h]
  intro hmem
  exact absurd (signedDigits_numeral _ _ _ _ hmem) (by decide)

theorem linePair_counts {u l : ℕ} (hu : u ≤ 2 ^ 33) (hl : l ≤ 2 ^ 33) :
    linePair (countText u ++ [' ', ' '] ++ countText l) = some ⟨Binary64.lit u, Binary64.lit l⟩ := by
  have hvalue : ∀ n : ℕ, (fixedNumber false 1 (10 * n)).value = n := by
    intro n
    rw [fixedNumber_value _ (by norm_num)]
    push_cast
    simp
  have hnone : ∀ c ∈ ([] : List Char), c = ' ' := by simp
  have hline := linePair_numberLine false false 1 (10 * u) (10 * l) 1 hnone
  rw [hvalue, hvalue, List.nil_append, numberLine, ← countText_eq hu, ← countText_eq hl] at hline
  rw [← hline, List.append_assoc]
  rfl

namespace SeligContour
variable (contour : SeligContour)

theorem map_roundPoint {points : List Point} (h : ∀ p ∈ points, p ∈ contour.points) :
    points.map roundPoint = points := by
  conv_rhs => rw [← List.map_id points]
  exact List.map_congr_left fun p hp => contour.decimals p (h p hp)

theorem coordinatePairs_toLednicer (name : List Char) {k : ℕ}
    (hlength : (contour.repeated k).length < 2 ^ 32) :
    coordinatePairs (toLednicer name (contour.repeated k)) =
      coordinatePairs (headerOf name) ++ contour.counts k :: (contour.upper ++ contour.lower k) := by
  have hcounts : contour.upper.length ≤ 2 ^ 33 ∧ (contour.lower k).length ≤ 2 ^ 33 := by
    rw [length_repeated] at hlength
    simp only [upper, lower, List.length_cons, List.length_reverse, List.length_append,
      List.length_replicate]
    omega
  have hblank : coordinatePairs [] = [] := by decide
  have hline : '\n' ∉ countText contour.upper.length ++ [' ', ' '] ++ countText (contour.lower k).length := by
    simp only [List.mem_append, not_or]
    exact ⟨⟨countText_no_break hcounts.1, by decide⟩, countText_no_break hcounts.2⟩
  have htext : toLednicer name (contour.repeated k) =
      headerOf name ++ '\n' :: ((countText contour.upper.length ++ [' ', ' '] ++
        countText (contour.lower k).length) ++ '\n' :: ([] ++ '\n' :: (joinedPoints contour.upper ++
        '\n' :: ([] ++ '\n' :: (joinedPoints (contour.lower k) ++ '\n' :: []))))) := by
    have hsurfaces := contour.splitSurfaces_repeated k
    have hupper : byX (contour.le :: contour.before.reverse) = contour.upper := contour.byX_upper
    have hlower : byX (List.replicate (k + 1) contour.le ++ contour.after) = contour.lower k :=
      contour.byX_lower k
    simp only [toLednicer, hsurfaces, hupper, hlower]
    simp
  rw [htext, coordinatePairs_append, coordinatePairs_append, coordinatePairs_append,
    coordinatePairs_append, coordinatePairs_append, coordinatePairs_append, hblank,
    coordinatePairs_line hline, linePair_counts hcounts.1 hcounts.2,
    coordinatePairs_joinedPoints fun p hp => contour.writable p (contour.mem_upper hp),
    coordinatePairs_joinedPoints fun p hp => contour.writable p (contour.mem_lower hp),
    contour.map_roundPoint fun p hp => contour.mem_upper hp,
    contour.map_roundPoint fun p hp => contour.mem_lower hp]
  simp [counts]

end SeligContour

/-! ## The table read back -/

theorem lednicerContour_eq {us ls : List Point} (h : us.length + ls.length ≤ 2 ^ 53) :
    lednicerContour ⟨Binary64.lit (us.length : ℕ), Binary64.lit (ls.length : ℕ)⟩ (us ++ ls) =
      us.reverse ++ ls := by
  have hu : (Binary64.lit (us.length : ℚ) : Double).val = .fin us.length := Double.lit_natCast (by omega)
  have hl : (Binary64.lit (ls.length : ℚ) : Double).val = .fin ls.length := Double.lit_natCast (by omega)
  have hzero : (Binary64.lit (0 : ℚ) : Double).val = .fin ((0 : ℕ) : ℚ) := by
    rw [Double.lit_zero, Nat.cast_zero]
  simp only [lednicerContour, mathRound_natCast (by omega : us.length ≤ 2 ^ 53),
    mathRound_natCast (by omega : ls.length ≤ 2 ^ 53), slice, sliceIndex_of_val hu,
    sliceIndex_of_val hzero, sliceIndex_of_val (add_natCast hu hl h), List.length_append]
  rw [min_self, min_eq_right (by omega : us.length ≤ us.length + ls.length), List.take_left,
    List.take_of_length_le (by simp), List.drop_left]
  simp

theorem parse_pairs {text : List Char} {header : Point} {body : List Point}
    (h : coordinatePairs text = header :: body) :
    ∃ parsed, parseCoordinates text = .ok parsed ∧
      parsed.points = if isCountHeader header then lednicerContour header body else header :: body := by
  simp only [parseCoordinates, h]
  split_ifs
  · exact ⟨_, rfl, rfl⟩
  · exact ⟨_, rfl, rfl⟩

namespace SeligContour
variable (contour : SeligContour)

theorem length_surfaces (k : ℕ) :
    contour.upper.length + (contour.lower k).length = (contour.repeated k).length + 1 := by
  rw [length_repeated]
  simp only [upper, lower, List.length_cons, List.length_reverse, List.length_append,
    List.length_replicate]
  omega

theorem reverse_upper_append (k : ℕ) : contour.upper.reverse ++ contour.lower k = contour.repeated (k + 1) := by
  rw [upper, lower, repeated, List.reverse_cons, List.reverse_reverse, List.append_assoc,
    List.replicate_succ (n := k + 1)]
  rfl

theorem lednicerContour_counts {k : ℕ} (hlength : (contour.repeated k).length < 2 ^ 32) :
    lednicerContour (contour.counts k) (contour.upper ++ contour.lower k) = contour.repeated (k + 1) := by
  rw [← reverse_upper_append]
  refine lednicerContour_eq ?_
  rw [length_surfaces]
  omega

/-- The name's own lines hold a count header, and the counts cut the contour out of what follows. -/
def NameSuppliesContour (name : List Char) : Prop :=
  ∃ header rest, coordinatePairs name = header :: rest ∧ isCountHeader header = true ∧
    lednicerContour header (rest ++ contour.counts 0 :: (contour.upper ++ contour.lower 0)) = contour.points

theorem headerOf_of_letter {name : List Char} (h : name.any isLetter = true) : headerOf name = name := by
  have hne : name ≠ [] := by
    rintro rfl
    cases h
  exact if_neg hne

end SeligContour

/-- No contour comes back from its Lednicer text, unless the name itself carries a table in its lines. -/
theorem lednicer_round_trip_iff (contour : SeligContour) {name : List Char}
    (hletter : name.any isLetter = true) :
    (∃ parsed, parseCoordinates (toLednicer name contour.points) = .ok parsed ∧
      parsed.points = contour.points) ↔ contour.NameSuppliesContour name := by
  have hlength : (contour.repeated 0).length < 2 ^ 32 := contour.bounded
  have hpairs := contour.coordinatePairs_toLednicer name hlength
  rw [SeligContour.headerOf_of_letter hletter, SeligContour.repeated_zero] at hpairs
  have hsurfaces := contour.length_surfaces 0
  rw [SeligContour.repeated_zero] at hsurfaces
  cases hname : coordinatePairs name with
  | nil =>
    rw [hname, List.nil_append] at hpairs
    obtain ⟨parsed, hparsed, hpoints⟩ := parse_pairs hpairs
    constructor
    · rintro ⟨parsed', hparsed', heq⟩
      obtain rfl := Except.ok.inj (hparsed.symm.trans hparsed')
      -- the leading edge is there once more, or the counts are read as a point
      rw [hpoints] at heq
      have hlen := congrArg List.length heq
      split_ifs at hlen
      · rw [contour.lednicerContour_counts hlength, SeligContour.length_repeated] at hlen
        have hlen' := contour.length_repeated 0
        rw [SeligContour.repeated_zero] at hlen'
        omega
      · rw [List.length_cons, List.length_append] at hlen
        omega
    · rintro ⟨header, rest, hcons, -⟩
      rw [hname] at hcons
      cases hcons
  | cons header rest =>
    rw [hname, List.cons_append] at hpairs
    obtain ⟨parsed, hparsed, hpoints⟩ := parse_pairs hpairs
    constructor
    · rintro ⟨parsed', hparsed', heq⟩
      obtain rfl := Except.ok.inj (hparsed.symm.trans hparsed')
      rw [hpoints] at heq
      split_ifs at heq with hheader
      · exact ⟨header, rest, hname, hheader, heq⟩
      · have hlen := congrArg List.length heq
        rw [List.length_cons, List.length_append, List.length_cons, List.length_append] at hlen
        omega
    · rintro ⟨header', rest', hcons, hheader, heq⟩
      obtain ⟨rfl, rfl⟩ := List.cons.inj (hname.symm.trans hcons)
      exact ⟨parsed, hparsed, by rw [hpoints, if_pos hheader, heq]⟩

/-! ## Round trips -/

def lednicerRoundTrip (name : List Char) (points : List Point) : List Point :=
  match parseCoordinates (toLednicer name points) with
  | .ok parsed => parsed.points
  | .error _ => []

theorem isCountHeader_natCast {u l : ℕ} (hu : 2 ≤ u) (hl : 2 ≤ l) (hu' : u ≤ 2 ^ 53) (hl' : l ≤ 2 ^ 53) :
    isCountHeader ⟨Binary64.lit u, Binary64.lit l⟩ = true := by
  have hcount : ∀ n : ℕ, 2 ≤ n → n ≤ 2 ^ 53 →
      Binary64.lt (Binary64.lit (3 / 2)) (Binary64.lit (n : ℚ) : Double) = true := by
    intro n hn hn'
    rw [Double.lt_iff Double.lit_threeHalves (Double.lit_natCast hn')]
    have : (2 : ℚ) ≤ n := by exact_mod_cast hn
    linarith
  rw [isCountHeader, hcount u hu hu', hcount l hl hl']
  rfl

theorem lednicerRoundTrip_iterate (contour : SeligContour) {name : List Char} (hline : '\n' ∉ name)
    (hletter : (trim name).any isLetter = true) (hbefore : contour.before ≠ []) (hafter : contour.after ≠ [])
    (n : ℕ) (hlength : (contour.repeated n).length < 2 ^ 32) :
    (lednicerRoundTrip name)^[n] contour.points = contour.repeated n := by
  have hname : coordinatePairs (headerOf name) = [] := by
    have hne : name ≠ [] := by
      rintro rfl
      exact absurd hletter (by decide)
    rw [headerOf, if_neg hne, coordinatePairs_line hline, linePair, if_pos hletter]
    rfl
  induction n with
  | zero => rfl
  | succ n ih =>
    have hshorter : (contour.repeated n).length < 2 ^ 32 := by
      rw [SeligContour.length_repeated] at hlength ⊢
      omega
    rw [Function.iterate_succ_apply', ih hshorter]
    have hpairs := contour.coordinatePairs_toLednicer name hshorter
    rw [hname, List.nil_append] at hpairs
    obtain ⟨parsed, hparsed, hpoints⟩ := parse_pairs hpairs
    have hlong := contour.length_surfaces n
    have hu : 2 ≤ contour.upper.length := by
      have := List.length_pos_of_ne_nil hbefore
      simp only [SeligContour.upper, List.length_cons, List.length_reverse]
      omega
    have hl : 2 ≤ (contour.lower n).length := by
      have := List.length_pos_of_ne_nil hafter
      simp only [SeligContour.lower, List.length_append, List.length_replicate]
      omega
    have hheader : isCountHeader (contour.counts n) = true :=
      isCountHeader_natCast hu hl (by omega) (by omega)
    rw [lednicerRoundTrip, hparsed]
    simp only [hpoints, if_pos hheader]
    exact contour.lednicerContour_counts hshorter

def thinPlate : SeligContour where
  before := [⟨Binary64.lit 1, Binary64.lit 0⟩]
  le := ⟨Binary64.lit 0, Binary64.lit 0⟩
  after := [⟨Binary64.lit 1, Binary64.lit 0⟩]
  descends := by simp; decide +kernel
  ascends := by simp; decide +kernel
  decimals := by decide +kernel
  writable := by
    have hone : Writable (Binary64.lit 1) := ⟨1, Double.lit_one, by norm_num⟩
    have hzero : Writable (Binary64.lit 0) := ⟨0, Double.lit_zero, by norm_num⟩
    simp [WritablePoint, hone, hzero]
  bounded := by decide

theorem lednicerRoundTrip_iterate_plate :
    (lednicerRoundTrip "plate".toList)^[2] thinPlate.points = thinPlate.repeated 2 :=
  lednicerRoundTrip_iterate thinPlate (by decide) (by decide) (by decide) (by decide) 2 (by decide)

theorem lednicer_round_trip_iff_plate :
    "plate".toList.any isLetter = true ∧
      ((∃ parsed, parseCoordinates (toLednicer "plate".toList thinPlate.points) = .ok parsed ∧
        parsed.points = thinPlate.points) ↔ thinPlate.NameSuppliesContour "plate".toList) :=
  ⟨by decide, lednicer_round_trip_iff thinPlate (by decide)⟩

theorem thin_plate_not_returned :
    ¬∃ parsed, parseCoordinates (toLednicer "plate".toList thinPlate.points) = .ok parsed ∧
      parsed.points = thinPlate.points := by
  rintro ⟨parsed, h, hpoints⟩
  have hlength : (parseCoordinates (toLednicer "plate".toList thinPlate.points)).toOption.map
      (fun parsed => parsed.points.length) = some 4 := by decide +kernel
  rw [h] at hlength
  have hfour : parsed.points.length = 4 := Option.some.inj hlength
  rw [hpoints] at hfour
  exact absurd hfour (by decide)

end XFoilFoam.Geometry
