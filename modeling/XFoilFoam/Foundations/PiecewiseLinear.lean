import Mathlib.Algebra.Order.Field.Basic
import Mathlib.Data.List.Chain
import Mathlib.Tactic.FieldSimp
import Mathlib.Tactic.Linarith
import Mathlib.Tactic.Ring

/-! Values between knots: the piecewise linear function through a list of knots, and where it is zero. -/
namespace XFoilFoam.PiecewiseLinear
set_option autoImplicit false

variable {α K : Type} [Field K] [LinearOrder K]

def between (pos f : α → K) (p q : α) (x : K) : K := f p + (f q - f p) * ((x - pos p) / (pos q - pos p))

/-- The value at `x`; behind the last knot its own value. -/
def interpolate (pos f : α → K) : List α → K → K
  | [], _ => 0
  | [p], _ => f p
  | p :: q :: rest, x => if x ≤ pos q then between pos f p q x else interpolate pos f (q :: rest) x

def Increasing (pos : α → K) (knots : List α) : Prop := knots.Pairwise fun p q => pos p < pos q

def crossing (pos f : α → K) (p q : α) : K := pos p + (pos q - pos p) * (-f p / (f q - f p))

def Opposite (a b : K) : Prop := a < 0 ∧ 0 < b ∨ 0 < a ∧ b < 0

instance (a b : K) : Decidable (Opposite a b) := inferInstanceAs (Decidable (_ ∨ _))

section Between
variable [IsStrictOrderedRing K] {pos f : α → K} {p q : α} {x : K}

omit [LinearOrder K] [IsStrictOrderedRing K] in
theorem between_left : between pos f p q (pos p) = f p := by
  rw [between, sub_self, zero_div, mul_zero, add_zero]

theorem between_right (h : pos p < pos q) : between pos f p q (pos q) = f q := by
  rw [between, div_self (sub_pos.mpr h).ne', mul_one, add_sub_cancel]

theorem Opposite.sub_ne_zero {a b : K} (h : Opposite a b) : b - a ≠ 0 := by
  obtain ⟨ha, hb⟩ | ⟨ha, hb⟩ := h
  · exact (sub_pos.mpr (ha.trans hb)).ne'
  · exact (sub_neg.mpr (hb.trans ha)).ne

theorem Opposite.fraction_mem {a b : K} (h : Opposite a b) : 0 < -a / (b - a) ∧ -a / (b - a) < 1 := by
  obtain ⟨ha, hb⟩ | ⟨ha, hb⟩ := h
  · have hpos : 0 < b - a := sub_pos.mpr (ha.trans hb)
    exact ⟨div_pos (neg_pos.mpr ha) hpos, by rw [div_lt_one hpos]; linarith⟩
  · have hneg : b - a < 0 := sub_neg.mpr (hb.trans ha)
    exact ⟨div_pos_of_neg_of_neg (neg_neg_of_pos ha) hneg, by rw [div_lt_one_of_neg hneg]; linarith⟩

theorem crossing_mem (h : pos p < pos q) (hf : Opposite (f p) (f q)) :
    pos p < crossing pos f p q ∧ crossing pos f p q < pos q := by
  obtain ⟨hpos, hlt⟩ := hf.fraction_mem
  have hwidth : 0 < pos q - pos p := sub_pos.mpr h
  have hlow := mul_pos hwidth hpos
  have hhigh := mul_lt_mul_of_pos_left hlt hwidth
  unfold crossing
  constructor <;> linarith

theorem between_crossing (h : pos p < pos q) (g : α → K) :
    between pos g p q (crossing pos f p q) = g p * (1 - -f p / (f q - f p)) + g q * (-f p / (f q - f p)) := by
  have hwidth : pos q - pos p ≠ 0 := (sub_pos.mpr h).ne'
  rw [between, crossing, add_sub_cancel_left, mul_div_cancel_left₀ _ hwidth]
  ring

theorem between_crossing_self (h : pos p < pos q) (hf : Opposite (f p) (f q)) :
    between pos f p q (crossing pos f p q) = 0 := by
  have hne := hf.sub_ne_zero
  rw [between_crossing h]
  field_simp
  ring

theorem opposite_of_weighted {a b l r : K} (ha : a ≠ 0) (hb : b ≠ 0) (hl : 0 ≤ l) (hr : 0 ≤ r) (hlr : 0 < l + r)
    (h : a * r + b * l = 0) : Opposite a b := by
  have hboth : a * r ≠ 0 ∨ b * l ≠ 0 := by
    by_contra hnone
    obtain ⟨har, hbl⟩ := not_or.mp hnone
    have hr0 := (mul_eq_zero.mp (not_not.mp har)).resolve_left ha
    have hl0 := (mul_eq_zero.mp (not_not.mp hbl)).resolve_left hb
    rw [hr0, hl0, add_zero] at hlr
    exact lt_irrefl _ hlr
  obtain ha | ha := lt_or_gt_of_ne ha
  · refine .inl ⟨ha, lt_of_not_ge fun hb => ?_⟩
    have har := mul_nonpos_of_nonpos_of_nonneg ha.le hr
    have hbl := mul_nonpos_of_nonpos_of_nonneg hb hl
    obtain hne | hne := hboth
    · linarith [lt_of_le_of_ne har hne]
    · linarith [lt_of_le_of_ne hbl hne]
  · refine .inr ⟨ha, lt_of_not_ge fun hb => ?_⟩
    have har := mul_nonneg ha.le hr
    have hbl := mul_nonneg hb hl
    obtain hne | hne := hboth
    · linarith [lt_of_le_of_ne' har hne]
    · linarith [lt_of_le_of_ne' hbl hne]

theorem zero_between (h : pos p < pos q) (hp : pos p ≤ x) (hq : x ≤ pos q) (hzero : between pos f p q x = 0) :
    f p = 0 ∧ f q = 0 ∨ f p = 0 ∧ x = pos p ∨ f q = 0 ∧ x = pos q ∨
      Opposite (f p) (f q) ∧ x = crossing pos f p q := by
  have hwidth : 0 < pos q - pos p := sub_pos.mpr h
  have hline : f p * (pos q - x) + f q * (x - pos p) = 0 := by
    have hscaled : between pos f p q x * (pos q - pos p) = f p * (pos q - x) + f q * (x - pos p) := by
      rw [between, add_mul, mul_assoc, div_mul_cancel₀ _ hwidth.ne']
      ring
    rw [← hscaled, hzero, zero_mul]
  by_cases hfp : f p = 0
  · rw [hfp, zero_mul, zero_add] at hline
    obtain hfq | hx := mul_eq_zero.mp hline
    · exact .inl ⟨hfp, hfq⟩
    · exact .inr (.inl ⟨hfp, sub_eq_zero.mp hx⟩)
  · by_cases hfq : f q = 0
    · rw [hfq, zero_mul, add_zero] at hline
      obtain hzero | hx := mul_eq_zero.mp hline
      · exact absurd hzero hfp
      · exact .inr (.inr (.inl ⟨hfq, (sub_eq_zero.mp hx).symm⟩))
    · refine .inr (.inr (.inr ?_))
      have hopposite : Opposite (f p) (f q) :=
        opposite_of_weighted hfp hfq (sub_nonneg.mpr hp) (sub_nonneg.mpr hq) (by linarith) hline
      refine ⟨hopposite, ?_⟩
      have hne := hopposite.sub_ne_zero
      rw [crossing]
      field_simp
      linarith

end Between

/-! ## Along the knots -/

section Knots
variable [IsStrictOrderedRing K] {pos f : α → K} {p q : α} {rest : List α} {x : K}

omit [IsStrictOrderedRing K] in
theorem interpolate_first (h : Increasing pos (p :: rest)) : interpolate pos f (p :: rest) (pos p) = f p := by
  cases rest with
  | nil => rfl
  | cons q rest =>
    have hpq : pos p < pos q := List.rel_of_pairwise_cons h List.mem_cons_self
    rw [interpolate, if_pos hpq.le, between_left]

omit [IsStrictOrderedRing K] in
theorem interpolate_between (hx : x ≤ pos q) : interpolate pos f (p :: q :: rest) x = between pos f p q x := if_pos hx

theorem interpolate_tail (h : Increasing pos (p :: q :: rest)) (hx : pos q ≤ x) :
    interpolate pos f (p :: q :: rest) x = interpolate pos f (q :: rest) x := by
  obtain ⟨hp, hrest⟩ := List.pairwise_cons.mp h
  obtain heq | hlt := hx.eq_or_lt
  · subst heq
    rw [interpolate_between le_rfl, between_right (hp q List.mem_cons_self), interpolate_first hrest]
  · exact if_neg (not_le.mpr hlt)

end Knots

/-! ## Zeros -/

/-- The zeros behind `p`: each knot of value zero, and one between knots of opposite signs. -/
def zerosAfter (pos f : α → K) (p : α) : List α → List K
  | [] => []
  | q :: rest =>
    (if f q = 0 then [pos q] else if Opposite (f p) (f q) then [crossing pos f p q] else []) ++
      zerosAfter pos f q rest

/-- The zeros of the function; a run of zero values is listed by its knots. -/
def zeros (pos f : α → K) : List α → List K
  | [] => []
  | p :: rest => (if f p = 0 then [pos p] else []) ++ zerosAfter pos f p rest

def Spans (pos : α → K) (knots : List α) (x : K) : Prop := (∃ p ∈ knots, pos p ≤ x) ∧ ∃ q ∈ knots, x ≤ pos q

def IsZero (pos f : α → K) (knots : List α) (x : K) : Prop := Spans pos knots x ∧ interpolate pos f knots x = 0

section Zeros
variable [IsStrictOrderedRing K] {pos f : α → K} {p q : α} {rest : List α} {x : K}

omit [Field K] [IsStrictOrderedRing K] in
theorem Spans.tail (h : Increasing pos (p :: q :: rest)) (hspan : Spans pos (p :: q :: rest) x) (hx : pos q ≤ x) :
    Spans pos (q :: rest) x := by
  refine ⟨⟨q, List.mem_cons_self, hx⟩, ?_⟩
  obtain ⟨r, hr, hle⟩ := hspan.2
  obtain rfl | hr := List.mem_cons.mp hr
  · exact ⟨q, List.mem_cons_self, hle.trans (List.rel_of_pairwise_cons h List.mem_cons_self).le⟩
  · exact ⟨r, hr, hle⟩

omit [Field K] [IsStrictOrderedRing K] in
theorem Spans.cons (h : Increasing pos (p :: rest)) (hspan : Spans pos rest x) : Spans pos (p :: rest) x := by
  obtain ⟨⟨r, hr, hle⟩, t, ht, hle'⟩ := hspan
  exact ⟨⟨p, List.mem_cons_self, (List.rel_of_pairwise_cons h hr).le.trans hle⟩, t, List.mem_cons_of_mem _ ht, hle'⟩

omit [IsStrictOrderedRing K] in
theorem mem_zerosAfter_cons : x ∈ zerosAfter pos f p (q :: rest) ↔
    f q = 0 ∧ x = pos q ∨ Opposite (f p) (f q) ∧ x = crossing pos f p q ∨ x ∈ zerosAfter pos f q rest := by
  have hexclusive : ¬Opposite (f p) 0 := by
    rintro (⟨-, hpos⟩ | ⟨-, hneg⟩)
    · exact lt_irrefl _ hpos
    · exact lt_irrefl _ hneg
  rw [zerosAfter, List.mem_append]
  split
  · next hq =>
    rw [List.mem_singleton]
    simp only [hq, hexclusive, true_and, false_and, false_or]
  · next hq =>
    split
    · next hopposite => simp [hq, hopposite]
    · next hopposite => simp [hq, hopposite]

theorem zerosAfter_isZero (h : Increasing pos (p :: rest)) (hx : x ∈ zerosAfter pos f p rest) :
    pos p < x ∧ IsZero pos f (p :: rest) x := by
  induction rest generalizing p with
  | nil => cases hx
  | cons q rest ih =>
    obtain ⟨hp, hrest⟩ := List.pairwise_cons.mp h
    have hpq := hp q List.mem_cons_self
    have hq : q ∈ p :: q :: rest := List.mem_cons_of_mem _ List.mem_cons_self
    obtain ⟨hzero, rfl⟩ | ⟨hopposite, rfl⟩ | hx := mem_zerosAfter_cons.mp hx
    · refine ⟨hpq, ⟨⟨q, hq, le_rfl⟩, q, hq, le_rfl⟩, ?_⟩
      rw [interpolate_between le_rfl, between_right hpq, hzero]
    · obtain ⟨hlow, hhigh⟩ := crossing_mem hpq hopposite
      refine ⟨hlow, ⟨⟨p, List.mem_cons_self, hlow.le⟩, q, hq, hhigh.le⟩, ?_⟩
      rw [interpolate_between hhigh.le, between_crossing_self hpq hopposite]
    · obtain ⟨hlt, hspan, hzero⟩ := ih hrest hx
      refine ⟨hpq.trans hlt, hspan.cons h, ?_⟩
      rw [interpolate_tail h hlt.le, hzero]

theorem zerosAfter_increasing (h : Increasing pos (p :: rest)) : (zerosAfter pos f p rest).Pairwise (· < ·) := by
  induction rest generalizing p with
  | nil => exact .nil
  | cons q rest ih =>
    obtain ⟨hp, hrest⟩ := List.pairwise_cons.mp h
    have hlater : ∀ x ∈ zerosAfter pos f q rest, pos q < x := fun x hx => (zerosAfter_isZero hrest hx).1
    rw [zerosAfter]
    split
    · exact List.pairwise_cons.mpr ⟨hlater, ih hrest⟩
    · split
      · next hopposite =>
        have hhigh := (crossing_mem (hp q List.mem_cons_self) hopposite).2
        exact List.pairwise_cons.mpr ⟨fun x hx => hhigh.trans (hlater x hx), ih hrest⟩
      · exact ih hrest

omit [IsStrictOrderedRing K] in
theorem length_zeros_tail : (zeros pos f (q :: rest)).length ≤ (zeros pos f (p :: q :: rest)).length := by
  rw [zeros, zeros, zerosAfter]
  simp only [List.length_append]
  split
  · simp
  · rw [List.length_nil, zero_add]
    exact (Nat.le_add_left _ _).trans (Nat.le_add_left _ _)

theorem isZero_listed (h : Increasing pos (p :: rest)) (hx : IsZero pos f (p :: rest) x) :
    x ∈ zeros pos f (p :: rest) ∨ 2 ≤ (zeros pos f (p :: rest)).length := by
  induction rest generalizing p with
  | nil =>
    obtain ⟨⟨⟨r, hr, hle⟩, t, ht, hle'⟩, hzero⟩ := hx
    rw [List.mem_singleton] at hr ht
    subst hr ht
    rw [interpolate] at hzero
    exact .inl (by simp [zeros, zerosAfter, hzero, le_antisymm hle' hle])
  | cons q rest ih =>
    obtain ⟨hp, hrest⟩ := List.pairwise_cons.mp h
    have hpq := hp q List.mem_cons_self
    obtain ⟨hspan, hzero⟩ := hx
    have hleft : pos p ≤ x := by
      obtain ⟨r, hr, hle⟩ := hspan.1
      obtain rfl | hr := List.mem_cons.mp hr
      · exact hle
      · exact (hp r hr).le.trans hle
    by_cases hright : x ≤ pos q
    · rw [interpolate_between hright] at hzero
      rw [zeros]
      obtain ⟨hfp, hfq⟩ | ⟨hfp, rfl⟩ | ⟨hfq, rfl⟩ | ⟨hopposite, rfl⟩ := zero_between hpq hleft hright hzero
      · exact .inr (by simp [zerosAfter, hfp, hfq])
      · exact .inl (List.mem_append_left _ (by simp [hfp]))
      · exact .inl (List.mem_append_right _ (mem_zerosAfter_cons.mpr (.inl ⟨hfq, rfl⟩)))
      · exact .inl (List.mem_append_right _ (mem_zerosAfter_cons.mpr (.inr (.inl ⟨hopposite, rfl⟩))))
    · have hlt := not_le.mp hright
      rw [interpolate_tail h hlt.le] at hzero
      obtain hmem | hlength := ih hrest ⟨hspan.tail h hlt.le, hzero⟩
      · left
        rw [zeros, List.mem_append] at hmem ⊢
        obtain hmem | hmem := hmem
        · -- that zero would be the knot at `q`
          split at hmem
          · exact absurd (List.mem_singleton.mp hmem) hlt.ne'
          · cases hmem
        · exact .inr (mem_zerosAfter_cons.mpr (.inr (.inr hmem)))
      · exact .inr (hlength.trans length_zeros_tail)

theorem zeros_increasing {knots : List α} (h : Increasing pos knots) : (zeros pos f knots).Pairwise (· < ·) := by
  cases knots with
  | nil => exact .nil
  | cons p rest =>
    rw [zeros]
    split
    · exact List.pairwise_cons.mpr ⟨fun x hx => (zerosAfter_isZero h hx).1, zerosAfter_increasing h⟩
    · exact zerosAfter_increasing h

theorem zeros_isZero {knots : List α} (h : Increasing pos knots) (hx : x ∈ zeros pos f knots) :
    IsZero pos f knots x := by
  cases knots with
  | nil => cases hx
  | cons p rest =>
    rw [zeros, List.mem_append] at hx
    obtain hx | hx := hx
    · split at hx
      · next hzero =>
        rw [List.mem_singleton.mp hx]
        refine ⟨⟨⟨p, List.mem_cons_self, le_rfl⟩, p, List.mem_cons_self, le_rfl⟩, ?_⟩
        rw [interpolate_first h, hzero]
      · cases hx
    · exact (zerosAfter_isZero h hx).2

theorem zeros_eq_singleton_iff {knots : List α} (h : Increasing pos knots) :
    zeros pos f knots = [x] ↔ IsZero pos f knots x ∧ ∀ y, IsZero pos f knots y → y = x := by
  have hlisted : ∀ y, IsZero pos f knots y → y ∈ zeros pos f knots ∨ 2 ≤ (zeros pos f knots).length := by
    intro y hy
    cases knots with
    | nil =>
      obtain ⟨⟨⟨r, hr, -⟩, -⟩, -⟩ := hy
      cases hr
    | cons p rest => exact isZero_listed h hy
  have hincreasing := zeros_increasing (f := f) h
  have hsound : ∀ y ∈ zeros pos f knots, IsZero pos f knots y := fun y hy => zeros_isZero h hy
  generalize zeros pos f knots = listed at *
  constructor
  · rintro rfl
    refine ⟨hsound x List.mem_cons_self, fun y hy => ?_⟩
    obtain hmem | hlength := hlisted y hy
    · exact List.mem_singleton.mp hmem
    · cases hlength with
      | step hlength => cases hlength
  · rintro ⟨hx, hunique⟩
    match listed, hincreasing, hsound, hlisted with
    | [], _, _, hlisted =>
      obtain hmem | hlength := hlisted x hx
      · cases hmem
      · cases hlength
    | [y], _, hsound, _ => rw [hunique y (hsound y List.mem_cons_self)]
    | y :: z :: rest, hincreasing, hsound, _ =>
      have hyz : y < z := List.rel_of_pairwise_cons hincreasing List.mem_cons_self
      have hy := hunique y (hsound y List.mem_cons_self)
      have hz := hunique z (hsound z (List.mem_cons_of_mem _ List.mem_cons_self))
      exact absurd hyz (by rw [hy, hz]; exact lt_irrefl x)

end Zeros

end XFoilFoam.PiecewiseLinear
