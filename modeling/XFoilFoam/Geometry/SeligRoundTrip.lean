import XFoilFoam.Geometry.Coordinates

/-! `parseCoordinates` after `toSelig`: the contour comes back with six decimals unless the name itself
is read as a coordinate line. -/
namespace XFoilFoam.Geometry
open Decimal
set_option autoImplicit false

/-- A coordinate of magnitude at most `1.5`. -/
def Small (x : Double) : Prop := ∃ q, x.val = .fin q ∧ |q| ≤ 3 / 2

theorem Small.writable {x : Double} (h : Small x) : Writable x := by
  obtain ⟨q, hx, hq⟩ := h
  exact ⟨q, hx, lt_of_le_of_lt hq (by norm_num)⟩

theorem Small.not_count {x : Double} (h : Small x) :
    Binary64.lt (Binary64.lit (3 / 2)) (roundFixed 6 x) = false := by
  obtain ⟨q, hx, hq⟩ := h
  have hthree := (Double.rounded_fin (Double.lit_threeHalves ▸ (Binary64.lit (3 / 2) : Double).rounded)).1
  have hinteger : (fixedInteger 6 |q| : ℚ) / 10 ^ 6 ≤ 3 / 2 := by
    have hfloor : ⌊|q| * 10 ^ 6 + 1 / 2⌋ < 1500001 := by
      rw [Int.floor_lt]
      push_cast
      linarith
    have hnat : fixedInteger 6 |q| ≤ 1500000 := by
      unfold fixedInteger
      omega
    have hcast : (fixedInteger 6 |q| : ℚ) ≤ 1500000 := by exact_mod_cast hnat
    rw [div_le_iff₀ (by norm_num)]
    linarith
  have hnonneg : (0 : ℚ) ≤ (fixedInteger 6 |q| : ℚ) / 10 ^ 6 := by positivity
  have hround := roundRat_le hnonneg hinteger hthree
  have hround' := roundRat_nonneg hnonneg
  have hlow : |roundRat ((fixedInteger 6 |q| : ℚ) / 10 ^ 6)| < 2 ^ overflowExponent := by
    rw [abs_of_nonneg hround']
    calc roundRat ((fixedInteger 6 |q| : ℚ) / 10 ^ 6) ≤ 3 / 2 := hround
      _ < 2 ^ 1 := by norm_num
      _ ≤ 2 ^ overflowExponent := pow_le_pow_right₀ (by norm_num) (by decide)
  have hval : (Binary64.lit ((fixedInteger 6 |q| : ℚ) / 10 ^ 6) : Double).val =
      .fin (roundRat ((fixedInteger 6 |q| : ℚ) / 10 ^ 6)) := Double.round64_of_lt hlow
  have hval' : (Binary64.lit (-((fixedInteger 6 |q| : ℚ) / 10 ^ 6)) : Double).val =
      .fin (-roundRat ((fixedInteger 6 |q| : ℚ) / 10 ^ 6)) := by
    rw [← Double.roundRat_neg]
    refine Double.round64_of_lt ?_
    rw [Double.roundRat_neg, abs_neg]
    exact hlow
  rw [Bool.eq_false_iff]
  simp only [roundFixed, hx]
  split_ifs
  · rw [ne_eq, Double.lt_iff Double.lit_threeHalves hval']
    linarith
  · rw [ne_eq, Double.lt_iff Double.lit_threeHalves hval]
    linarith

def SmallPoint (p : Point) : Prop := Small p.x ∧ Small p.y

theorem SmallPoint.not_header {p : Point} (h : SmallPoint p) : isCountHeader (roundPoint p) = false := by
  rw [isCountHeader, roundPoint, h.1.not_count, Bool.false_and]

/-- A name that is not read as a coordinate line: empty, with a letter, or with fewer than two numbers. -/
def TitleName (name : List Char) : Prop :=
  name = [] ∨ (trim name).any isLetter = true ∨ (numbers (trim name)).length < 2

instance (name : List Char) : Decidable (TitleName name) := inferInstanceAs (Decidable (_ ∨ _ ∨ _))

theorem linePair_eq_none_iff (line : List Char) :
    linePair line = none ↔ (trim line).any isLetter = true ∨ (numbers (trim line)).length < 2 := by
  unfold linePair
  split
  · next hletters => simp [hletters]
  · next hletters =>
    split
    · next a b rest hnumbers => simp [hletters, hnumbers]
    · next hnumbers =>
      refine ⟨fun _ => .inr ?_, fun _ => rfl⟩
      match hlist : numbers (trim line) with
      | [] => simp
      | [a] => simp
      | a :: b :: rest => exact absurd hlist (hnumbers a b rest)

theorem titleName_iff (name : List Char) : TitleName name ↔ linePair (headerOf name) = none := by
  rw [headerOf]
  split
  · next hempty =>
    refine ⟨fun _ => ?_, fun _ => .inl hempty⟩
    decide
  · next hname =>
    rw [linePair_eq_none_iff, TitleName]
    simp [hname]

theorem headerOf_no_break {name : List Char} (h : '\n' ∉ name) : '\n' ∉ headerOf name := by
  rw [headerOf]
  split
  · decide
  · exact h

theorem coordinatePairs_toSelig {name : List Char} {points : List Point} (hname : '\n' ∉ name)
    (h : ∀ p ∈ points, WritablePoint p) :
    coordinatePairs (toSelig name points) =
      (linePair (headerOf name)).toList ++ points.map roundPoint := by
  have hend : coordinatePairs [] = [] := by decide
  have htext : toSelig name points = headerOf name ++ '\n' :: (joinedPoints points ++ '\n' :: []) := by
    rw [toSelig, List.append_assoc]
    rfl
  rw [htext, coordinatePairs_append, coordinatePairs_append, hend, List.append_nil,
    coordinatePairs_line (headerOf_no_break hname), coordinatePairs_joinedPoints h]

/-- The contour comes back in Selig format, with six decimals and in order, exactly for the names that
are not read as a coordinate line. -/
theorem selig_round_trip_iff {name : List Char} {points : List Point} (hname : '\n' ∉ name)
    (hpoints : points ≠ []) (hsmall : ∀ p ∈ points, SmallPoint p) :
    (∃ title, parseCoordinates (toSelig name points) = .ok ⟨title, points.map roundPoint, .selig⟩) ↔
      TitleName name := by
  have hpairs := coordinatePairs_toSelig hname
    (fun p hp => ⟨(hsmall p hp).1.writable, (hsmall p hp).2.writable⟩)
  rw [titleName_iff]
  unfold parseCoordinates
  rw [hpairs]
  cases hpair : linePair (headerOf name) with
  | none =>
    obtain ⟨p, rest, rfl⟩ := List.exists_cons_of_ne_nil hpoints
    have hheader := (hsmall p List.mem_cons_self).not_header
    simp [hheader]
  | some pair =>
    refine ⟨?_, fun h => by cases h⟩
    rintro ⟨title, h⟩
    simp only [Option.toList_some, List.singleton_append] at h
    split_ifs at h
    · exact absurd (ParsedCoordinates.mk.inj (Except.ok.inj h)).2.2 (by decide)
    · -- the pair of the name is one point too many
      have hlists := congrArg List.length (ParsedCoordinates.mk.inj (Except.ok.inj h)).2.1
      simp at hlists

def plate : List Point := [⟨Binary64.lit 1, Binary64.lit 0⟩, ⟨Binary64.lit 0, Binary64.lit 0⟩]

theorem plate_small : ∀ p ∈ plate, SmallPoint p := by
  intro p hp
  simp only [plate, List.mem_cons, List.not_mem_nil, or_false] at hp
  obtain rfl | rfl := hp
  · exact ⟨⟨1, Double.lit_one, by norm_num⟩, ⟨0, Double.lit_zero, by norm_num⟩⟩
  · exact ⟨⟨0, Double.lit_zero, by norm_num⟩, ⟨0, Double.lit_zero, by norm_num⟩⟩

theorem selig_round_trip_plate :
    ∃ title, parseCoordinates (toSelig "NACA 0000".toList plate) = .ok ⟨title, plate.map roundPoint, .selig⟩ :=
  (selig_round_trip_iff (by decide) (by decide) plate_small).mpr (by decide)

/-- A name of two numbers is read as a count header. -/
theorem numeric_name_read_as_header :
    '\n' ∉ "23 12".toList ∧ (∀ p ∈ plate, SmallPoint p) ∧
      ¬∃ title, parseCoordinates (toSelig "23 12".toList plate) =
        .ok ⟨title, plate.map roundPoint, .selig⟩ := by
  refine ⟨by decide, plate_small, ?_⟩
  rintro ⟨title, h⟩
  have hformat : (parseCoordinates (toSelig "23 12".toList plate)).toOption.map ParsedCoordinates.format =
      some .lednicer := by decide +kernel
  rw [h] at hformat
  cases hformat

end XFoilFoam.Geometry
