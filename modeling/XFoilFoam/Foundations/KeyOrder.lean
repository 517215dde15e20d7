import Mathlib.Data.List.Sort

/-! Lists ordered by a key: sorting and selecting commute. -/
namespace XFoilFoam
set_option autoImplicit false

namespace KeyOrder
variable {α β : Type} [LinearOrder β]

def sortBy (key : α → β) (rows : List α) : List α := rows.insertionSort fun r s => key r ≤ key s

variable (key : α → β) (p : α → Bool)

theorem mem_sortBy {rows : List α} {r : α} : r ∈ sortBy key rows ↔ r ∈ rows :=
  List.mem_insertionSort _

theorem sortBy_perm (rows : List α) : (sortBy key rows).Perm rows := List.perm_insertionSort _ rows

theorem sortBy_sorted (rows : List α) : (sortBy key rows).Pairwise fun r s => key r ≤ key s := by
  have : Std.Total fun r s : α => key r ≤ key s := ⟨fun r s => le_total (key r) (key s)⟩
  have : IsTrans α fun r s => key r ≤ key s := ⟨fun _ _ _ => le_trans⟩
  exact List.pairwise_insertionSort _ rows

theorem sortBy_eq_of_perm {rows rows' : List α} (hperm : rows.Perm rows')
    (hinj : ∀ r ∈ rows, ∀ s ∈ rows, key r = key s → r = s) : sortBy key rows = sortBy key rows' := by
  refine List.Perm.eq_of_pairwise (fun r s hr hs hrs hsr => ?_) (sortBy_sorted key rows)
    (sortBy_sorted key rows') ((sortBy_perm key rows).trans (hperm.trans (sortBy_perm key rows').symm))
  exact hinj r ((mem_sortBy key).mp hr) s (hperm.mem_iff.mpr ((mem_sortBy key).mp hs)) (le_antisymm hrs hsr)

theorem filter_orderedInsert (a : α) {rows : List α} (h : rows.Pairwise fun r s => key r ≤ key s) :
    (rows.orderedInsert (fun r s => key r ≤ key s) a).filter p =
      if p a then (rows.filter p).orderedInsert (fun r s => key r ≤ key s) a else rows.filter p := by
  induction rows with
  | nil => cases hp : p a <;> simp [hp]
  | cons b rows ih =>
    obtain ⟨hb, hrows⟩ := List.pairwise_cons.1 h
    by_cases hab : key a ≤ key b
    · -- every row kept comes after `a` too
      have hhead : (List.filter p (b :: rows)).orderedInsert (fun r s => key r ≤ key s) a =
          a :: List.filter p (b :: rows) := by
        cases hkept : List.filter p (b :: rows) with
        | nil => rfl
        | cons c rest =>
          have hc : c ∈ b :: rows := List.mem_of_mem_filter (hkept ▸ List.mem_cons_self)
          have hac : key a ≤ key c := by
            rcases List.mem_cons.1 hc with rfl | hc
            · exact hab
            · exact hab.trans (hb c hc)
          rw [List.orderedInsert_cons_of_le (fun r s => key r ≤ key s) rest hac]
      rw [List.orderedInsert_cons_of_le (fun r s => key r ≤ key s) rows hab, hhead, List.filter_cons]
    · rw [List.orderedInsert_of_not_le (fun r s => key r ≤ key s) rows hab, List.filter_cons, ih hrows, List.filter_cons]
      by_cases hpb : p b = true
      · rw [if_pos hpb, if_pos hpb]
        split
        · rw [List.orderedInsert_of_not_le (fun r s => key r ≤ key s) (rows.filter p) hab]
        · rfl
      · rw [if_neg hpb, if_neg hpb]

theorem filter_sortBy (rows : List α) : (sortBy key rows).filter p = sortBy key (rows.filter p) := by
  induction rows with
  | nil => rfl
  | cons a rows ih =>
    have hcons : sortBy key (a :: rows) =
        (sortBy key rows).orderedInsert (fun r s => key r ≤ key s) a := rfl
    rw [hcons, filter_orderedInsert key p a (sortBy_sorted key rows), ih, List.filter_cons]
    split <;> rfl

theorem filter_and_of_const {rows : List α} {selected q : α → Bool} {b : Bool}
    (h : ∀ r ∈ rows, selected r = true → q r = b) :
    (rows.filter fun r => selected r && q r) = if b then rows.filter selected else [] := by
  have hcongr : (rows.filter fun r => selected r && q r) = rows.filter fun r => selected r && b := by
    refine List.filter_congr fun r hmem => ?_
    cases hr : selected r with
    | false => rfl
    | true => rw [h r hmem hr]
  rw [hcongr]
  cases b <;> simp

theorem filter_map_of_dropped {rows : List α} {f : α → α} {selected selected' kept : α → Bool}
    (hkept : ∀ r ∈ rows, kept r = true → f r = r ∧ selected' r = selected r)
    (hdropped : ∀ r ∈ rows, kept r = false → selected' (f r) = false) :
    (rows.map f).filter selected' = (rows.filter selected).filter kept := by
  induction rows with
  | nil => rfl
  | cons r rows ih =>
    have ih' := ih (fun s hs => hkept s (List.mem_cons_of_mem r hs))
      fun s hs => hdropped s (List.mem_cons_of_mem r hs)
    rw [List.map_cons, List.filter_cons, List.filter_cons, ih']
    cases hr : kept r with
    | true =>
      obtain ⟨hsame, hselected⟩ := hkept r List.mem_cons_self hr
      rw [hsame, hselected]
      cases selected r <;> simp [hr]
    | false =>
      rw [hdropped r List.mem_cons_self hr]
      cases selected r <;> simp [hr]

end KeyOrder

end XFoilFoam
