import XFoilFoam.Foundations.Double
import XFoilFoam.Foundations.KeyOrder
import Mathlib.Order.WithBot
import Mathlib.Data.Prod.Lex
import Mathlib.Data.List.Sort

/-! `Array.prototype.sort` with a comparator that subtracts doubles.  The difference of two doubles has
the sign of their order, so a comparator `a - b || c - d` sorts by the pair of keys. -/
namespace XFoilFoam
set_option autoImplicit false

/-! ## The order of doubles -/

namespace Double

/-- The place of a value between the infinities; NaN has none and is put below. -/
def rank (x : Double) : WithBot (WithTop ℚ) :=
  match x.val with
  | .posInf => ((⊤ : WithTop ℚ) : WithBot (WithTop ℚ))
  | .fin q => ((q : WithTop ℚ) : WithBot (WithTop ℚ))
  | _ => ⊥

def falsy (x : Double) : Bool := decide (x.val = .fin 0 ∨ x.val = .nan)

/-- `x || y` on numbers. -/
def orElse (x y : Double) : Double := if x.falsy then y else x

/-- `0 < x`. -/
def positive (x : Double) : Bool := Binary64.lt (Binary64.lit 0) x

variable {x y : Double} {p q : ℚ}

theorem rank_of_fin (h : x.val = .fin q) : x.rank = ((q : WithTop ℚ) : WithBot (WithTop ℚ)) := by
  unfold rank
  rw [h]

theorem rank_of_posInf (h : x.val = .posInf) : x.rank = ((⊤ : WithTop ℚ) : WithBot (WithTop ℚ)) := by
  unfold rank
  rw [h]

theorem rank_of_negInf (h : x.val = .negInf) : x.rank = ⊥ := by
  unfold rank
  rw [h]

theorem rank_inj (hx : x.val ≠ .nan) (hy : y.val ≠ .nan) (h : x.rank = y.rank) : x = y := by
  obtain ⟨v, hv⟩ := x
  obtain ⟨w, hw⟩ := y
  cases v <;> cases w <;> simp_all [rank]

theorem positive_iff (h : x.val = .fin q) : x.positive = true ↔ 0 < q := lt_iff lit_zero h

theorem positive_posInf (h : x.val = .posInf) : x.positive = true := by
  show (Binary64.lit 0 : Double).val.lt x.val = true
  rw [lit_zero, h]
  rfl

theorem not_positive_negInf (h : x.val = .negInf) : x.positive = false := by
  show (Binary64.lit 0 : Double).val.lt x.val = false
  rw [lit_zero, h]
  rfl

theorem not_positive_of_falsy (h : x.falsy = true) : x.positive = false := by
  obtain hx | hx := of_decide_eq_true h
  · exact Bool.eq_false_iff.mpr fun hpos => lt_irrefl _ ((positive_iff hx).mp hpos)
  · show (Binary64.lit 0 : Double).val.lt x.val = false
    rw [lit_zero, hx]
    rfl

/-! ## Differences -/

theorem spacing (hp : roundRat p = p) (hq : roundRat q = q) (h : q < p) : (2 : ℚ) ^ (-1074 : ℤ) ≤ p - q := by
  have hmultiple : ∀ r : ℚ, roundRat r = r → ∃ n : ℤ, r = n * 2 ^ (-1074 : ℤ) := by
    intro r hr
    obtain ⟨n, hn⟩ := multiple_of_roundRat hr
    have hlast : -1074 ≤ lastBit r := le_max_right _ _
    obtain ⟨k, hk⟩ := Int.eq_ofNat_of_zero_le (by omega : 0 ≤ lastBit r - -1074)
    refine ⟨n * 2 ^ k, ?_⟩
    rw [show lastBit r = k + -1074 by omega, zpow_add₀ (by norm_num), zpow_natCast] at hn
    rw [hn, Int.cast_mul, Int.cast_pow, Int.cast_ofNat, mul_assoc]
  obtain ⟨a, ha⟩ := hmultiple p hp
  obtain ⟨b, hb⟩ := hmultiple q hq
  have hpos := two_zpow_pos (-1074)
  rw [ha, hb] at h ⊢
  have hlt : b < a := by exact_mod_cast lt_of_mul_lt_mul_right h hpos.le
  have hone : (1 : ℚ) ≤ a - b := by exact_mod_cast (by omega : 1 ≤ a - b)
  rw [← sub_mul]
  exact le_mul_of_one_le_left hpos.le hone

theorem roundRat_neg (q : ℚ) : roundRat (-q) = -roundRat q := by
  have hlast : lastBit (-q) = lastBit q := by rw [lastBit, abs_neg, lastBit]
  rw [roundRat, hlast, neg_div, roundHalfEven_neg, roundRat]
  push_cast
  ring

theorem round64_pos (h : 2 ^ (-1074 : ℤ) ≤ q) :
    round64 (.fin q) = .posInf ∨ ∃ r, round64 (.fin q) = .fin r ∧ 0 < r := by
  have hround := roundRat_pos h
  by_cases hlarge : 2 ^ overflowExponent ≤ |roundRat q|
  · exact .inl (by rw [round64, if_pos hlarge, if_pos hround])
  · exact .inr ⟨roundRat q, if_neg hlarge, hround⟩

theorem round64_neg (h : 2 ^ (-1074 : ℤ) ≤ q) :
    round64 (.fin (-q)) = .negInf ∨ ∃ r, round64 (.fin (-q)) = .fin r ∧ r < 0 := by
  have hround := roundRat_pos h
  by_cases hlarge : 2 ^ overflowExponent ≤ |roundRat (-q)|
  · exact .inl (by rw [round64, if_pos hlarge, if_neg (by rw [roundRat_neg]; linarith)])
  · exact .inr ⟨roundRat (-q), if_neg hlarge, by rw [roundRat_neg]; linarith⟩

theorem sub_val (hx : x.val = .fin p) (hy : y.val = .fin q) :
    (Binary64.sub x y).val = round64 (.fin (p - q)) := by
  show round64 (x.val.add y.val.neg) = _
  rw [hx, hy, sub_eq_add_neg]
  rfl

theorem sub_fin_spec (hx : x.val = .fin p) (hy : y.val = .fin q) :
    ((Binary64.sub x y).positive = true ↔ q < p) ∧ ((Binary64.sub x y).falsy = true ↔ p = q) := by
  have hround := (rounded_fin (hx ▸ x.rounded)).1
  have hround' := (rounded_fin (hy ▸ y.rounded)).1
  have hval := sub_val hx hy
  rcases lt_trichotomy p q with hlt | rfl | hlt
  · rw [← neg_sub] at hval
    obtain hneg | ⟨r, hr, hneg⟩ := round64_neg (spacing hround' hround hlt)
    · rw [hneg] at hval
      simp [not_positive_negInf hval, hlt.not_gt, falsy, hval, hlt.ne]
    · rw [hr] at hval
      simp [positive_iff hval, hlt.not_gt, hneg.not_gt, falsy, hval, hlt.ne, hneg.ne]
  · rw [sub_self] at hval
    have hzero : round64 (.fin 0) = .fin 0 := lit_zero
    rw [hzero] at hval
    simp [positive_iff hval, falsy, hval]
  · obtain hpos | ⟨r, hr, hpos⟩ := round64_pos (spacing hround hround' hlt)
    · rw [hpos] at hval
      simp [positive_posInf hval, hlt, falsy, hval, hlt.ne']
    · rw [hr] at hval
      simp [positive_iff hval, hlt, hpos, falsy, hval, hlt.ne', hpos.ne']

theorem sub_spec (hx : x.val ≠ .nan) (hy : y.val ≠ .nan) :
    ((Binary64.sub x y).positive = true ↔ y.rank < x.rank) ∧
      ((Binary64.sub x y).falsy = true ↔ x.rank = y.rank) := by
  have hval : (Binary64.sub x y).val = round64 (x.val.add y.val.neg) := rfl
  cases hxv : x.val with
  | nan => exact absurd hxv hx
  | negInf =>
    cases hyv : y.val with
    | nan => exact absurd hyv hy
    | negInf =>
      have hnan : (Binary64.sub x y).val = .nan := by rw [hval, hxv, hyv]; rfl
      have hfalsy : (Binary64.sub x y).falsy = true := decide_eq_true (.inr hnan)
      simp [not_positive_of_falsy hfalsy, hfalsy, rank_of_negInf hxv, rank_of_negInf hyv]
    | posInf =>
      have hneg : (Binary64.sub x y).val = .negInf := by rw [hval, hxv, hyv]; rfl
      simp [not_positive_negInf hneg, falsy, hneg, rank_of_negInf hxv, rank_of_posInf hyv]
    | fin q =>
      have hneg : (Binary64.sub x y).val = .negInf := by rw [hval, hxv, hyv]; rfl
      simp [not_positive_negInf hneg, falsy, hneg, rank_of_negInf hxv, rank_of_fin hyv]
  | posInf =>
    cases hyv : y.val with
    | nan => exact absurd hyv hy
    | negInf =>
      have hpos : (Binary64.sub x y).val = .posInf := by rw [hval, hxv, hyv]; rfl
      simp [positive_posInf hpos, falsy, hpos, rank_of_posInf hxv, rank_of_negInf hyv]
    | posInf =>
      have hnan : (Binary64.sub x y).val = .nan := by rw [hval, hxv, hyv]; rfl
      have hfalsy : (Binary64.sub x y).falsy = true := decide_eq_true (.inr hnan)
      simp [not_positive_of_falsy hfalsy, hfalsy, rank_of_posInf hxv, rank_of_posInf hyv]
    | fin q =>
      have hpos : (Binary64.sub x y).val = .posInf := by rw [hval, hxv, hyv]; rfl
      have hlt : y.rank < x.rank := by
        rw [rank_of_posInf hxv, rank_of_fin hyv]
        exact WithBot.coe_lt_coe.mpr (WithTop.coe_lt_top q)
      simp [positive_posInf hpos, falsy, hpos, hlt, hlt.ne']
  | fin p =>
    cases hyv : y.val with
    | nan => exact absurd hyv hy
    | negInf =>
      have hpos : (Binary64.sub x y).val = .posInf := by rw [hval, hxv, hyv]; rfl
      simp [positive_posInf hpos, falsy, hpos, rank_of_fin hxv, rank_of_negInf hyv,
        WithBot.bot_lt_coe]
    | posInf =>
      have hneg : (Binary64.sub x y).val = .negInf := by rw [hval, hxv, hyv]; rfl
      simp [not_positive_negInf hneg, falsy, hneg, rank_of_fin hxv, rank_of_posInf hyv]
    | fin q =>
      obtain ⟨hpositive, hfalsy⟩ := sub_fin_spec hxv hyv
      rw [hpositive, hfalsy, rank_of_fin hxv, rank_of_fin hyv]
      simp [WithBot.coe_lt_coe]

theorem orElse_positive (x y : Double) :
    (x.orElse y).positive = true ↔ x.positive = true ∨ x.falsy = true ∧ y.positive = true := by
  unfold orElse
  cases hx : x.falsy with
  | true => simp [not_positive_of_falsy hx]
  | false => simp

theorem lex_positive {a b : Double} (hx : x.val ≠ .nan) (hy : y.val ≠ .nan) (ha : a.val ≠ .nan)
    (hb : b.val ≠ .nan) :
    ((Binary64.sub x y).orElse (Binary64.sub a b)).positive = true ↔
      y.rank < x.rank ∨ x.rank = y.rank ∧ b.rank < a.rank := by
  rw [orElse_positive, (sub_spec hx hy).1, (sub_spec hx hy).2, (sub_spec ha hb).1]

end Double

/-! ## Sorting -/

section Sorting
variable {α β : Type} [LinearOrder β] {compare : α → α → Double} {key : α → β} {xs ys : List α}

/-- `[...xs].sort(compare)`: stable, an element goes behind another when the comparator is positive. -/
def jsSort (compare : α → α → Double) (xs : List α) : List α :=
  xs.insertionSort fun a b => (compare a b).positive = false

def OrdersBy (compare : α → α → Double) (key : α → β) (xs : List α) : Prop :=
  ∀ a ∈ xs, ∀ b ∈ xs, ((compare a b).positive = true ↔ key b < key a)

theorem OrdersBy.subset (h : OrdersBy compare key xs) (hsub : ys ⊆ xs) : OrdersBy compare key ys :=
  fun a ha b hb => h a (hsub ha) b (hsub hb)

theorem mem_jsSort {a : α} : a ∈ jsSort compare xs ↔ a ∈ xs := List.mem_insertionSort _

theorem jsSort_perm : (jsSort compare xs).Perm xs := List.perm_insertionSort _ xs

theorem jsSort_ne_nil (h : xs ≠ []) : jsSort compare xs ≠ [] := by
  intro hnil
  exact h (List.eq_nil_of_length_eq_zero (by rw [← jsSort_perm.length_eq, hnil, List.length_nil]))

theorem OrdersBy.map_jsSort (h : OrdersBy compare key xs) :
    (jsSort compare xs).map key = (xs.map key).insertionSort (· ≤ ·) := by
  apply List.map_insertionSort
  intro a ha b hb
  rw [← not_lt, ← h a ha b hb, Bool.not_eq_true]

theorem OrdersBy.sorted (h : OrdersBy compare key xs) :
    (jsSort compare xs).Pairwise fun a b => key a ≤ key b := by
  rw [← List.pairwise_map, h.map_jsSort]
  exact List.pairwise_insertionSort _ _

theorem OrdersBy.map_jsSort_perm (h : OrdersBy compare key xs) (hperm : xs.Perm ys) :
    (jsSort compare xs).map key = (jsSort compare ys).map key := by
  rw [h.map_jsSort, (h.subset hperm.symm.subset).map_jsSort]
  refine List.Perm.eq_of_pairwise (fun a b _ _ (hab : a ≤ b) (hba : b ≤ a) => le_antisymm hab hba)
    (List.pairwise_insertionSort _ _) (List.pairwise_insertionSort _ _) ?_
  exact (List.perm_insertionSort _ _).trans ((hperm.map key).trans (List.perm_insertionSort _ _).symm)

theorem OrdersBy.jsSort_eq (h : OrdersBy compare key xs) (hinj : ∀ a ∈ xs, ∀ b ∈ xs, key a = key b → a = b)
    (hperm : xs.Perm ys) : jsSort compare xs = jsSort compare ys := by
  refine List.Perm.eq_of_pairwise (fun a b ha hb hab hba => ?_) h.sorted
    (h.subset hperm.symm.subset).sorted (jsSort_perm.trans (hperm.trans jsSort_perm.symm))
  exact hinj a (mem_jsSort.mp ha) b (hperm.mem_iff.mpr (mem_jsSort.mp hb)) (le_antisymm hab hba)

theorem orderedInsert_congr {r s : α → α → Prop} [DecidableRel r] [DecidableRel s] (a : α) {l : List α}
    (h : ∀ b ∈ l, r a b ↔ s a b) : l.orderedInsert r a = l.orderedInsert s a := by
  induction l with
  | nil => rfl
  | cons b l ih =>
    obtain ⟨hb, hl⟩ := List.forall_mem_cons.mp h
    by_cases hab : r a b
    · rw [List.orderedInsert_cons_of_le r l hab, List.orderedInsert_cons_of_le s l (hb.mp hab)]
    · rw [List.orderedInsert_of_not_le r l hab, List.orderedInsert_of_not_le s l (fun hs => hab (hb.mpr hs)), ih hl]

theorem OrdersBy.jsSort_eq_sortBy (h : OrdersBy compare key xs) : jsSort compare xs = KeyOrder.sortBy key xs := by
  induction xs with
  | nil => rfl
  | cons a xs ih =>
    have hrest := ih (h.subset (List.subset_cons_self a xs))
    rw [jsSort, List.insertionSort_cons, ← jsSort, hrest]
    refine orderedInsert_congr a fun b hb => ?_
    rw [KeyOrder.mem_sortBy] at hb
    rw [← not_lt, ← h a List.mem_cons_self b (List.mem_cons_of_mem a hb), Bool.not_eq_true]

theorem OrdersBy.head_le (h : OrdersBy compare key xs) (hne : jsSort compare xs ≠ []) {a : α}
    (ha : a ∈ xs) : key ((jsSort compare xs).head hne) ≤ key a := by
  have hsorted := h.sorted
  obtain ⟨b, rest, hcons⟩ := List.exists_cons_of_ne_nil hne
  have hmem : a ∈ b :: rest := by rw [← hcons]; exact mem_jsSort.mpr ha
  simp only [hcons, List.head_cons]
  rw [hcons] at hsorted
  obtain rfl | hrest := List.mem_cons.mp hmem
  · exact le_rfl
  · exact (List.pairwise_cons.mp hsorted).1 a hrest

end Sorting

end XFoilFoam
