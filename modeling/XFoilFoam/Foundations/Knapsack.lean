import Mathlib.Algebra.BigOperators.Group.List.Basic
import Mathlib.Algebra.Order.BigOperators.Group.List
import Mathlib.Algebra.Order.Field.Basic
import Mathlib.Order.Bounds.Basic
import Mathlib.Tactic.Linarith
import Mathlib.Tactic.Ring
import Mathlib.Tactic.FieldSimp

/-! The fractional knapsack over an ordered field: what an allocation of a capacity to divisible
items can gain, and that filling by decreasing density gains the most.  Optimality is weak duality:
a price per unit of capacity bounds every allocation, and the density of the first item that does
not fit is a price the greedy filling meets with equality. -/
namespace XFoilFoam.Knapsack
set_option autoImplicit false

variable {K : Type} [Field K]

structure Item (K : Type) where
  weight : K
  value : K

/-- The capacity used when item `i` is taken to the fraction given at its position. -/
def spent (items : List (Item K)) (fs : List K) : K :=
  (List.zipWith (fun i f => f * i.weight) items fs).sum

def gained (items : List (Item K)) (fs : List K) : K :=
  (List.zipWith (fun i f => f * i.value) items fs).sum

@[simp] theorem spent_nil (fs : List K) : spent [] fs = 0 := by simp [spent]

@[simp] theorem gained_nil (fs : List K) : gained [] fs = 0 := by simp [gained]

@[simp] theorem spent_cons (i : Item K) (items : List (Item K)) (f : K) (fs : List K) :
    spent (i :: items) (f :: fs) = f * i.weight + spent items fs := by simp [spent]

@[simp] theorem gained_cons (i : Item K) (items : List (Item K)) (f : K) (fs : List K) :
    gained (i :: items) (f :: fs) = f * i.value + gained items fs := by simp [gained]

variable [LinearOrder K]

/-- One fraction in `[0, 1]` for each item, within the capacity. -/
def Allocation (items : List (Item K)) (capacity : K) (fs : List K) : Prop :=
  fs.length = items.length ∧ (∀ f ∈ fs, 0 ≤ f ∧ f ≤ 1) ∧ spent items fs ≤ capacity

def attainable (items : List (Item K)) (capacity : K) : Set K :=
  {v | ∃ fs, Allocation items capacity fs ∧ gained items fs = v}

/-- Fill the items in list order, the first that does not fit to the fraction that is left. -/
def greedy : List (Item K) → K → K
  | [], _ => 0
  | i :: items, c =>
    if i.weight ≤ c then i.value + greedy items (c - i.weight) else i.value * c / i.weight

/-- `i` has at least the density of `j`, without dividing. -/
def Denser (i j : Item K) : Prop := j.value * i.weight ≤ i.value * j.weight

/-- What an item is worth above the price of the capacity it takes. -/
def surplus (price : K) (i : Item K) : K := max 0 (i.value - price * i.weight)

theorem surplus_nonneg (price : K) (i : Item K) : 0 ≤ surplus price i := le_max_left _ _

theorem greedy_zero (items : List (Item K)) (hw : ∀ i ∈ items, 0 < i.weight) :
    greedy items 0 = 0 := by
  cases items with
  | nil => rfl
  | cons i items =>
    have hi : ¬ i.weight ≤ 0 := not_le.mpr (hw i List.mem_cons_self)
    simp [greedy, hi]

/-! ## Order -/

theorem attainable_perm {items items' : List (Item K)} (h : items.Perm items') (c : K) :
    attainable items c ⊆ attainable items' c := by
  -- carried through the permutation: fractions with the same spent and gained totals
  have key : ∀ fs : List K, fs.length = items.length → (∀ f ∈ fs, 0 ≤ f ∧ f ≤ 1) →
      ∃ gs : List K, gs.length = items'.length ∧ (∀ g ∈ gs, 0 ≤ g ∧ g ≤ 1) ∧
        spent items' gs = spent items fs ∧ gained items' gs = gained items fs := by
    induction h with
    | nil => exact fun fs hlen hf => ⟨fs, hlen, hf, rfl, rfl⟩
    | cons i _ ih =>
      intro fs hlen hf
      cases fs with
      | nil => simp at hlen
      | cons f fs =>
        obtain ⟨gs, hg, hgf, hsp, hga⟩ := ih fs (by simpa using hlen)
          (fun g hg => hf g (List.mem_cons_of_mem f hg))
        refine ⟨f :: gs, by simp [hg], ?_, by simp [hsp], by simp [hga]⟩
        intro g hmem
        rcases List.mem_cons.mp hmem with rfl | hmem
        · exact hf g List.mem_cons_self
        · exact hgf g hmem
    | swap i j l =>
      intro fs hlen hf
      match fs, hlen, hf with
      | f :: g :: fs, hlen, hf =>
        refine ⟨g :: f :: fs, by simpa using hlen, ?_, by simp only [spent_cons]; ring,
          by simp only [gained_cons]; ring⟩
        intro x hx
        exact hf x ((List.Perm.swap f g fs).mem_iff.mp hx)
    | trans _ _ ih₁ ih₂ =>
      intro fs hlen hf
      obtain ⟨gs, hg, hgf, hsp, hga⟩ := ih₁ fs hlen hf
      obtain ⟨ks, hk, hkf, hsp', hga'⟩ := ih₂ gs hg hgf
      exact ⟨ks, hk, hkf, hsp'.trans hsp, hga'.trans hga⟩
  rintro v ⟨fs, ⟨hlen, hf, hspent⟩, rfl⟩
  obtain ⟨gs, hg, hgf, hsp, hga⟩ := key fs hlen hf
  exact ⟨gs, ⟨hg, hgf, hsp ▸ hspent⟩, hga⟩

variable [IsStrictOrderedRing K]

/-! ## The bound -/

theorem gained_le_surplus (price : K) :
    ∀ (items : List (Item K)) (fs : List K), fs.length = items.length →
      (∀ f ∈ fs, 0 ≤ f ∧ f ≤ 1) →
      gained items fs ≤ price * spent items fs + (items.map (surplus price)).sum
  | [], _, _, _ => by simp
  | i :: items, [], h, _ => by simp at h
  | i :: items, f :: fs, h, hf => by
    have htail := gained_le_surplus price items fs (by simpa using h)
      (fun g hg => hf g (List.mem_cons_of_mem f hg))
    obtain ⟨hf0, hf1⟩ := hf f List.mem_cons_self
    have hhead : f * i.value ≤ price * (f * i.weight) + surplus price i := by
      have hs : f * (i.value - price * i.weight) ≤ surplus price i := by
        calc f * (i.value - price * i.weight) ≤ f * surplus price i :=
              mul_le_mul_of_nonneg_left (le_max_right _ _) hf0
          _ ≤ 1 * surplus price i := mul_le_mul_of_nonneg_right hf1 (surplus_nonneg price i)
          _ = surplus price i := one_mul _
      linarith
    simp only [gained_cons, spent_cons, List.map_cons, List.sum_cons]
    linarith

theorem gained_le (price c : K) (hp : 0 ≤ price) (items : List (Item K)) (fs : List K)
    (h : Allocation items c fs) :
    gained items fs ≤ price * c + (items.map (surplus price)).sum := by
  obtain ⟨hlen, hf, hc⟩ := h
  have h1 := gained_le_surplus price items fs hlen hf
  have h2 := mul_le_mul_of_nonneg_left hc hp
  linarith

/-! ## The greedy filling meets the bound -/

theorem surplus_of_le {price : K} {i : Item K} (h : i.value ≤ price * i.weight) :
    surplus price i = 0 := by
  rw [surplus, max_eq_left]
  linarith

theorem surplus_of_ge {price : K} {i : Item K} (h : price * i.weight ≤ i.value) :
    surplus price i = i.value - price * i.weight := by
  rw [surplus, max_eq_right]
  linarith

theorem greedy_price :
    ∀ (items : List (Item K)) (c : K), 0 ≤ c → (∀ i ∈ items, 0 < i.weight ∧ 0 ≤ i.value) →
      items.Pairwise Denser →
      ∃ price, 0 ≤ price ∧ (price = 0 ∨ ∃ j ∈ items, price * j.weight = j.value) ∧
        price * c + (items.map (surplus price)).sum = greedy items c
  | [], c, _, _, _ => ⟨0, le_refl 0, Or.inl rfl, by simp [greedy]⟩
  | i :: items, c, hc, hi, hs => by
    obtain ⟨hw, hv⟩ := hi i List.mem_cons_self
    obtain ⟨hdense, htail⟩ := List.pairwise_cons.mp hs
    by_cases hfit : i.weight ≤ c
    · obtain ⟨price, hp, hwit, heq⟩ := greedy_price items (c - i.weight) (by linarith)
        (fun j hj => hi j (List.mem_cons_of_mem i hj)) htail
      have hhead : price * i.weight ≤ i.value := by
        rcases hwit with h0 | ⟨j, hj, hjv⟩
        · rw [h0, zero_mul]; exact hv
        · have hd := hdense j hj
          have hjw := (hi j (List.mem_cons_of_mem i hj)).1
          rw [Denser, ← hjv] at hd
          refine le_of_mul_le_mul_right ?_ hjw
          linarith
      refine ⟨price, hp, hwit.imp_right (fun ⟨j, hj, h⟩ => ⟨j, List.mem_cons_of_mem i hj, h⟩), ?_⟩
      rw [List.map_cons, List.sum_cons, surplus_of_ge hhead, greedy, if_pos hfit, ← heq]
      ring
    · have hprice : i.value / i.weight * i.weight = i.value := div_mul_cancel₀ _ hw.ne'
      refine ⟨i.value / i.weight, div_nonneg hv hw.le, Or.inr ⟨i, List.mem_cons_self, hprice⟩, ?_⟩
      have hzero : (items.map (surplus (i.value / i.weight))).sum = 0 := by
        apply List.sum_eq_zero
        intro x hx
        obtain ⟨j, hj, rfl⟩ := List.mem_map.mp hx
        apply surplus_of_le
        have hd := hdense j hj
        rw [Denser] at hd
        refine le_of_mul_le_mul_right ?_ hw
        calc j.value * i.weight ≤ i.value * j.weight := hd
          _ = i.value / i.weight * j.weight * i.weight := by rw [mul_right_comm, hprice]
      rw [List.map_cons, List.sum_cons, surplus_of_ge hprice.le, hprice, hzero, greedy, if_neg hfit]
      ring

/-! ## The greedy filling is an allocation -/

theorem greedy_attained :
    ∀ (items : List (Item K)) (c : K), 0 ≤ c → (∀ i ∈ items, 0 < i.weight) →
      greedy items c ∈ attainable items c
  | [], c, hc, _ => ⟨[], ⟨rfl, by simp, by simpa using hc⟩, by simp [greedy]⟩
  | i :: items, c, hc, hi => by
    have hw := hi i List.mem_cons_self
    by_cases hfit : i.weight ≤ c
    · obtain ⟨fs, ⟨hlen, hf, hspent⟩, hval⟩ := greedy_attained items (c - i.weight) (by linarith)
        (fun j hj => hi j (List.mem_cons_of_mem i hj))
      refine ⟨1 :: fs, ⟨by simp [hlen], ?_, ?_⟩, ?_⟩
      · intro f hmem
        rcases List.mem_cons.mp hmem with rfl | hmem
        · exact ⟨zero_le_one, le_refl 1⟩
        · exact hf f hmem
      · rw [spent_cons]; linarith
      · rw [gained_cons, hval, greedy, if_pos hfit, one_mul]
    · have hlt : c < i.weight := not_le.mp hfit
      have hzeros : ∀ rest : List (Item K),
          spent rest (List.replicate rest.length 0) = 0 ∧
            gained rest (List.replicate rest.length 0) = 0 := by
        intro rest
        induction rest with
        | nil => simp
        | cons j rest ih => simp [List.replicate_succ, ih]
      refine ⟨c / i.weight :: List.replicate items.length 0, ⟨by simp, ?_, ?_⟩, ?_⟩
      · intro f hmem
        rcases List.mem_cons.mp hmem with rfl | hmem
        · exact ⟨div_nonneg hc hw.le, (div_le_one hw).mpr hlt.le⟩
        · rw [List.eq_of_mem_replicate hmem]
          exact ⟨le_refl 0, zero_le_one⟩
      · rw [spent_cons, (hzeros items).1, div_mul_cancel₀ _ hw.ne', add_zero]
      · rw [gained_cons, (hzeros items).2, greedy, if_neg hfit, add_zero]
        ring

theorem greedy_isGreatest (items : List (Item K)) (c : K) (hc : 0 ≤ c)
    (hi : ∀ i ∈ items, 0 < i.weight ∧ 0 ≤ i.value) (hs : items.Pairwise Denser) :
    IsGreatest (attainable items c) (greedy items c) := by
  refine ⟨greedy_attained items c hc (fun i h => (hi i h).1), ?_⟩
  rintro v ⟨fs, halloc, rfl⟩
  obtain ⟨price, hp, -, heq⟩ := greedy_price items c hc hi hs
  rw [← heq]
  exact gained_le price c hp items fs halloc

/-! ## Selections -/

theorem sublist_attainable {sub items : List (Item K)} (h : sub.Sublist items) :
    ∀ c, (sub.map Item.weight).sum ≤ c → (sub.map Item.value).sum ∈ attainable items c := by
  induction h with
  | slnil => exact fun c hc => ⟨[], ⟨rfl, by simp, by simpa using hc⟩, by simp⟩
  | cons i _ ih =>
    intro c hc
    obtain ⟨fs, ⟨hlen, hf, hspent⟩, hval⟩ := ih c hc
    refine ⟨0 :: fs, ⟨by simp [hlen], ?_, by simpa using hspent⟩, by simpa using hval⟩
    intro f hmem
    rcases List.mem_cons.mp hmem with rfl | hmem
    · exact ⟨le_refl 0, zero_le_one⟩
    · exact hf f hmem
  | cons_cons i _ ih =>
    intro c hc
    simp only [List.map_cons, List.sum_cons] at hc
    obtain ⟨fs, ⟨hlen, hf, hspent⟩, hval⟩ := ih (c - i.weight) (by linarith)
    refine ⟨1 :: fs, ⟨by simp [hlen], ?_, by rw [spent_cons]; linarith⟩, by simp [hval]⟩
    intro f hmem
    rcases List.mem_cons.mp hmem with rfl | hmem
    · exact ⟨zero_le_one, le_refl 1⟩
    · exact hf f hmem

end XFoilFoam.Knapsack
