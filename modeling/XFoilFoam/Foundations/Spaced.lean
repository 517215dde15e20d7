import XFoilFoam.Foundations.DoubleOrder
import XFoilFoam.Foundations.KeyOrder

/-! Ordering a list by the indices of `numpy.argsort`, and thinning it: an element stays when it is apart
from the one before it. -/
namespace XFoilFoam
set_option autoImplicit false

/-! ## Thinning -/

namespace Spaced
variable {α : Type} {apart : α → α → Bool} {le : α → α → Prop} {previous x : α} {xs : List α}

def thinAfter (apart : α → α → Bool) (previous : α) : List α → List α
  | [] => []
  | x :: xs => if apart previous x then x :: thinAfter apart x xs else thinAfter apart x xs

def thin (apart : α → α → Bool) : List α → List α
  | [] => []
  | x :: xs => x :: thinAfter apart x xs

theorem mem_of_mem_thinAfter (h : x ∈ thinAfter apart previous xs) : x ∈ xs := by
  induction xs generalizing previous with
  | nil => exact h
  | cons a xs ih =>
    rw [thinAfter] at h
    split at h
    · obtain rfl | h := List.mem_cons.mp h
      · exact List.mem_cons_self
      · exact List.mem_cons_of_mem a (ih h)
    · exact List.mem_cons_of_mem a (ih h)

theorem mem_of_mem_thin (h : x ∈ thin apart xs) : x ∈ xs := by
  cases xs with
  | nil => exact h
  | cons a xs =>
    obtain rfl | h := List.mem_cons.mp h
    · exact List.mem_cons_self
    · exact List.mem_cons_of_mem a (mem_of_mem_thinAfter h)

theorem pairwise_thinAfter (hmono : ∀ a b c, le a b → le b c → apart b c = true → apart a c = true)
    (hle : ∀ y ∈ xs, le previous y) (hsorted : xs.Pairwise le) :
    (∀ y ∈ thinAfter apart previous xs, apart previous y = true) ∧
      (thinAfter apart previous xs).Pairwise fun a b => apart a b = true := by
  induction xs generalizing previous with
  | nil => exact ⟨fun y hy => absurd hy List.not_mem_nil, List.Pairwise.nil⟩
  | cons a xs ih =>
    obtain ⟨ha, hxs⟩ := List.pairwise_cons.mp hsorted
    obtain ⟨hnext, hpairwise⟩ := ih ha hxs
    have hback : ∀ y ∈ thinAfter apart a xs, apart previous y = true := fun y hy =>
      hmono previous a y (hle a List.mem_cons_self) (ha y (mem_of_mem_thinAfter hy)) (hnext y hy)
    rw [thinAfter]
    split
    · rename_i hapart
      refine ⟨fun y hy => ?_, List.pairwise_cons.mpr ⟨hnext, hpairwise⟩⟩
      obtain rfl | hy := List.mem_cons.mp hy
      · exact hapart
      · exact hback y hy
    · exact ⟨hback, hpairwise⟩

theorem pairwise_thin (hmono : ∀ a b c, le a b → le b c → apart b c = true → apart a c = true)
    (hsorted : xs.Pairwise le) : (thin apart xs).Pairwise fun a b => apart a b = true := by
  cases xs with
  | nil => exact List.Pairwise.nil
  | cons a xs =>
    obtain ⟨ha, hxs⟩ := List.pairwise_cons.mp hsorted
    obtain ⟨hnext, hpairwise⟩ := pairwise_thinAfter hmono ha hxs
    exact List.pairwise_cons.mpr ⟨hnext, hpairwise⟩

theorem mem_thinAfter (hprevious : previous ≠ x) (hle : ∀ y ∈ previous :: xs, y ≠ x → le y x → apart y x = true)
    (hsorted : (previous :: xs).Pairwise le) (hx : x ∈ xs) : x ∈ thinAfter apart previous xs := by
  induction xs generalizing previous with
  | nil => exact hx
  | cons a xs ih =>
    obtain ⟨hafter, htail⟩ := List.pairwise_cons.mp hsorted
    by_cases ha : a = x
    · subst ha
      have hapart := hle previous List.mem_cons_self hprevious (hafter a hx)
      rw [thinAfter, if_pos hapart]
      exact List.mem_cons_self
    · have hx' : x ∈ xs := (List.mem_cons.mp hx).resolve_left fun h => ha h.symm
      have hkept := ih ha (fun y hy => hle y (List.mem_cons_of_mem previous hy)) htail hx'
      rw [thinAfter]
      split
      · exact List.mem_cons_of_mem a hkept
      · exact hkept

theorem mem_thin (hsorted : xs.Pairwise le) (hle : ∀ y ∈ xs, y ≠ x → le y x → apart y x = true)
    (hx : x ∈ xs) : x ∈ thin apart xs := by
  cases xs with
  | nil => exact hx
  | cons a xs =>
    by_cases ha : a = x
    · subst ha
      exact List.mem_cons_self
    · have hx' : x ∈ xs := (List.mem_cons.mp hx).resolve_left fun h => ha h.symm
      exact List.mem_cons_of_mem a (mem_thinAfter ha hle hsorted hx')

theorem exists_mem_thin (hsorted : xs.Pairwise le) (hrefl : ∀ y, le y y) (hx : x ∈ xs) :
    ∃ y ∈ thin apart xs, le y x := by
  cases xs with
  | nil => exact absurd hx List.not_mem_nil
  | cons a xs =>
    refine ⟨a, List.mem_cons_self, ?_⟩
    obtain rfl | hx := List.mem_cons.mp hx
    · exact hrefl x
    · exact (List.pairwise_cons.mp hsorted).1 x hx

end Spaced

/-! ## Index sorting -/

/-- What `numpy.argsort` promises: every index once and no value below an earlier one.  The order of equal
values is left open, since the default algorithm is not stable. -/
structure Argsort where
  order : List Double → List ℕ
  perm : ∀ ts, (order ts).Perm (List.range ts.length)
  sorted : ∀ ts, (order ts).Pairwise fun i j =>
    Binary64.lt (ts.getD j (Binary64.lit 0)) (ts.getD i (Binary64.lit 0)) = false

namespace Argsort
variable {α : Type}

/-- `rows[order]`. -/
def take (rows : List α) (order : List ℕ) : List α := order.filterMap fun i => rows[i]?

theorem take_range (rows : List α) : take rows (List.range rows.length) = rows := by
  induction rows with
  | nil => rfl
  | cons row rows ih =>
    rw [List.length_cons, List.range_succ_eq_map]
    show row :: take (row :: rows) ((List.range rows.length).map Nat.succ) = _
    rw [take, List.filterMap_map]
    exact congrArg (row :: ·) ih

variable (numpy : Argsort) (key : α → Double) (rows : List α)

theorem take_perm : (take rows (numpy.order (rows.map key))).Perm rows := by
  have hperm := (numpy.perm (rows.map key)).filterMap fun i => rows[i]?
  rw [List.length_map] at hperm
  exact hperm.trans (List.Perm.of_eq (take_range rows))

theorem take_sorted :
    (take rows (numpy.order (rows.map key))).Pairwise fun a b => Binary64.lt (key b) (key a) = false := by
  refine List.pairwise_filterMap.mpr ((numpy.sorted (rows.map key)).imp ?_)
  intro i j hij a ha b hb
  have hkey : ∀ k row, rows[k]? = some row → (rows.map key).getD k (Binary64.lit 0) = key row := by
    intro k row hrow
    rw [List.getD_eq_getElem?_getD, List.getElem?_map, hrow]
    rfl
  rwa [hkey i a ha, hkey j b hb] at hij

def place (x : Double) : WithTop (WithBot (WithTop ℚ)) :=
  if x.val = .nan then ⊤ else (x.rank : WithTop (WithBot (WithTop ℚ)))

theorem not_lt_of_place {x y : Double} (h : place x ≤ place y) : Binary64.lt y x = false := by
  by_cases hy : y.val = .nan
  · show y.val.lt x.val = false
    rw [hy]
    cases x.val <;> rfl
  · by_cases hx : x.val = .nan
    · rw [place, if_pos hx, place, if_neg hy] at h
      exact absurd (top_le_iff.mp h) (WithTop.coe_ne_top)
    · rw [place, if_neg hx, place, if_neg hy, WithTop.coe_le_coe] at h
      exact (Double.not_lt_iff_rank hy hx).mpr h

def stable : Argsort where
  order ts := KeyOrder.sortBy (fun i => place (ts.getD i (Binary64.lit 0))) (List.range ts.length)
  perm _ := KeyOrder.sortBy_perm _ _
  sorted ts := (KeyOrder.sortBy_sorted (fun i => place (ts.getD i (Binary64.lit 0))) _).imp fun h => not_lt_of_place h

end Argsort

end XFoilFoam
