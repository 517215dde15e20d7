import XFoilFoam.Foundations.KeyedCover
import XFoilFoam.Meshing.SegmentedDict
import Mathlib.Data.List.GetD
import Mathlib.Data.Sym.Sym2
import Mathlib.Tactic.Abel

/-! The sides of the blocks of a segmented dictionary, over the vertices as they are numbered: which are shared by
two blocks and which are on the boundary. -/
namespace XFoilFoam.SegmentedDict
open Meshing KeyedCover
set_option autoImplicit false

/-! ## What conforming means -/

section Spec
variable {K : Type}

/-- A lateral edge of a block in its base plane, in the direction its cells are counted and graded. -/
structure Side (K : Type) where
  tail : ℕ
  head : ℕ
  cells : ℤ
  grading : K

def Side.edge (side : Side K) : Sym2 ℕ := s(side.tail, side.head)

def Side.wall (offset : ℕ) (side : Side K) : Corners := face offset side.tail side.head

def Block.sides (block : Block K) : List (Side K) :=
  [⟨block.quad.v0, block.quad.v1, block.cells₁, block.grading₁⟩,
    ⟨block.quad.v3, block.quad.v2, block.cells₁, block.grading₁⟩,
    ⟨block.quad.v1, block.quad.v2, block.cells₂, block.grading₂⟩,
    ⟨block.quad.v0, block.quad.v3, block.cells₂, block.grading₂⟩]

def Corners.edge (corners : Corners) : Sym2 ℕ := s(corners.v0, corners.v1)

namespace BlockMeshDict
variable (dict : BlockMeshDict K)

def sides : List (Side K) := dict.blocks.flatMap Block.sides

def lateralFaces : List Corners :=
  (dict.patches.filter fun patch => patch.name ≠ "frontAndBack").flatMap Patch.faces

def planeFaces : List Corners :=
  (dict.patches.filter fun patch => patch.name = "frontAndBack").flatMap Patch.faces

def cells : ℤ := (dict.blocks.map fun block => block.cells₁ * block.cells₂).sum

/-- Each lateral edge is a side of two blocks that divide it alike and carries no patch face, or is a side of one
block and carries one; and every patch face is on a block. -/
structure Conforming : Prop where
  vertices : ∀ block ∈ dict.blocks, ∀ vertex ∈ block.quad.toList, vertex < dict.base.length
  sides_nodup : ∀ block ∈ dict.blocks, (block.sides.map Side.edge).Nodup
  shared : ∀ side ∈ dict.sides,
    (withKey Side.edge side.edge dict.sides = [side, side] ∧
        withKey Corners.edge side.edge dict.lateralFaces = []) ∨
      (withKey Side.edge side.edge dict.sides = [side] ∧
        withKey Corners.edge side.edge dict.lateralFaces = [side.wall dict.zOffset])
  walls : ∀ wall ∈ dict.lateralFaces, ∃ side ∈ dict.sides, wall = side.wall dict.zOffset
  planes : ∀ plane ∈ dict.planeFaces, ∃ block ∈ dict.blocks,
    plane = block.quad ∨ plane = block.quad.shift dict.zOffset

end BlockMeshDict
end Spec

/-! ## The vertices -/

section Vertices
variable {K : Type} {n : ℕ}

/-- The vertices of the contour, along the upper surface to its front and back along the lower. -/
def innerVertex (n k : ℕ) : ℕ := if k ≤ n then k else n + 1 + k

def outerVertex (n k : ℕ) : ℕ := if k ≤ n then n + 1 + k else 2 * n + 1 + k

theorem innerVertex_cases (n k : ℕ) :
    (k ≤ n ∧ innerVertex n k = k) ∨ (n < k ∧ innerVertex n k = n + 1 + k) := by
  unfold innerVertex
  split
  · exact .inl ⟨‹_›, rfl⟩
  · exact .inr ⟨by omega, rfl⟩

theorem outerVertex_cases (n k : ℕ) :
    (k ≤ n ∧ outerVertex n k = n + 1 + k) ∨ (n < k ∧ outerVertex n k = 2 * n + 1 + k) := by
  unfold outerVertex
  split
  · exact .inl ⟨‹_›, rfl⟩
  · exact .inr ⟨by omega, rfl⟩

/-- The numbers of the vertices of `n` segments. -/
def layout (n : ℕ) (base : List (K × K)) : Numbering K where
  base := base
  upperInner := List.range' 0 (n + 1)
  upperOuter := List.range' (n + 1) (n + 1)
  lowerInner := n :: List.range' (2 * n + 2) n
  lowerOuter := (2 * n + 1) :: List.range' (3 * n + 2) n
  outletTop := 4 * n + 2
  outletWakeTop := 4 * n + 3
  outletWakeBottom := 4 * n + 4
  outletBottom := 4 * n + 5

theorem number_layout {upperRows upperFar lowerRows lowerFar : List (K × K)} (top wakeTop wakeBottom bottom : K × K)
    (hupper : upperRows.length = n + 1) (hupperFar : upperFar.length = n + 1) (hlower : lowerRows.length = n)
    (hlowerFar : lowerFar.length = n) :
    ∃ base, base.length = 4 * n + 6 ∧
      number upperRows upperFar lowerRows lowerFar top wakeTop wakeBottom bottom = layout n base := by
  refine ⟨upperRows ++ upperFar ++ lowerRows ++ lowerFar ++ [top, wakeTop, wakeBottom, bottom], ?_, ?_⟩
  · simp only [List.length_append, List.length_cons, List.length_nil, hupper, hupperFar, hlower, hlowerFar]
    omega
  · simp only [number, layout, addAll, List.nil_append, List.length_nil, List.length_append, hupper, hupperFar, hlower,
      hlowerFar, List.getLastD_eq_getLast?, List.getLast?_range', Nat.succ_ne_zero, if_false]
    have hlowerStart : n + 1 + (n + 1) = 2 * n + 2 := by omega
    have hfarStart : 2 * n + 2 + n = 3 * n + 2 := by omega
    simp only [Numbering.mk.injEq, List.cons.injEq, Option.getD_some, true_and, hlowerStart, hfarStart, and_true]
    omega

theorem getD_range' {start count j : ℕ} (hj : j < count) : (List.range' start count).getD j 0 = start + j := by
  rw [List.getD_eq_getElem?_getD, List.getElem?_range' hj, Option.getD_some, Nat.one_mul]

theorem upperInner_getD {j : ℕ} (hj : j ≤ n) : (List.range' 0 (n + 1)).getD j 0 = innerVertex n j := by
  rw [getD_range' (by omega), innerVertex, if_pos hj, Nat.zero_add]

theorem upperOuter_getD {j : ℕ} (hj : j ≤ n) : (List.range' (n + 1) (n + 1)).getD j 0 = outerVertex n j := by
  rw [getD_range' (by omega), outerVertex, if_pos hj]

theorem lowerInner_getD {j : ℕ} (hj : j ≤ n) : (n :: List.range' (2 * n + 2) n).getD j 0 = innerVertex n (n + j) := by
  cases j with
  | zero => simp [innerVertex]
  | succ j =>
    rw [List.getD_cons_succ, getD_range' (by omega), innerVertex, if_neg (by omega)]
    omega

theorem lowerOuter_getD {j : ℕ} (hj : j ≤ n) :
    ((2 * n + 1) :: List.range' (3 * n + 2) n).getD j 0 = outerVertex n (n + j) := by
  cases j with
  | zero =>
    rw [List.getD_cons_zero, outerVertex, if_pos (by omega)]
    omega
  | succ j =>
    rw [List.getD_cons_succ, getD_range' (by omega), outerVertex, if_neg (by omega)]
    omega

theorem lowerInner_last (hn : 0 < n) : (n :: List.range' (2 * n + 2) n).getLastD 0 = innerVertex n (2 * n) := by
  rw [List.getLastD_eq_getLast?, List.getLast?_cons, List.getLast?_range', if_neg hn.ne', innerVertex,
    if_neg (by omega), Option.getD_some, Option.getD_some]
  omega

theorem lowerOuter_last (hn : 0 < n) :
    ((2 * n + 1) :: List.range' (3 * n + 2) n).getLastD 0 = outerVertex n (2 * n) := by
  rw [List.getLastD_eq_getLast?, List.getLast?_cons, List.getLast?_range', if_neg hn.ne', outerVertex,
    if_neg (by omega), Option.getD_some, Option.getD_some]
  omega

end Vertices

/-! ## The sides -/

section Sides
variable {K : Type} {n : ℕ}

def radialSide (n : ℕ) (cells : ℤ) (grading : K) (k : ℕ) : Side K :=
  ⟨innerVertex n k, outerVertex n k, cells, grading⟩

def rowSide [One K] (vertex : ℕ → ℕ) (width : ℕ → ℤ) (k : ℕ) : Side K := ⟨vertex k, vertex (k + 1), width k, 1⟩

def BlockSpec.sides (spec : BlockSpec K) (nRadial : ℕ) (radialGrading : K) : List (Side K) :=
  [⟨spec.c00, spec.c10, nRadial, radialGrading⟩, ⟨spec.c01, spec.c11, nRadial, radialGrading⟩,
    ⟨spec.c10, spec.c11, spec.nStream, spec.streamGrading⟩, ⟨spec.c00, spec.c01, spec.nStream, spec.streamGrading⟩]

theorem sides_orient [Field K] [LinearOrder K] (base : List (K × K)) (nRadial : ℕ) (radialGrading : K)
    (spec : BlockSpec K) :
    (orient base nRadial radialGrading spec).sides.Perm (spec.sides nRadial radialGrading) := by
  unfold orient
  dsimp only
  split
  · rfl
  · exact (spec.sides nRadial radialGrading).reverse_perm

theorem cells_orient [Field K] [LinearOrder K] (base : List (K × K)) (nRadial : ℕ) (radialGrading : K)
    (spec : BlockSpec K) :
    (orient base nRadial radialGrading spec).cells₁ * (orient base nRadial radialGrading spec).cells₂ =
      nRadial * spec.nStream := by
  unfold orient
  dsimp only
  split
  · rfl
  · exact mul_comm _ _

def along (first count : ℕ) (side : ℕ → Side K) : Multiset (Side K) := ↑((List.range' first count).map side)

theorem along_append (first count more : ℕ) (side : ℕ → Side K) :
    along first count side + along (first + count) more side = along first (count + more) side := by
  rw [along, along, along, Multiset.coe_add, ← List.map_append, List.range'_append_1]

theorem cons_along (first count : ℕ) (side : ℕ → Side K) :
    {side first} + along (first + 1) count side = along first (count + 1) side := by
  rw [Multiset.singleton_add, along, along, Multiset.cons_coe, List.range'_succ, List.map_cons]

theorem flatMap_four (count : ℕ) (a b c d : ℕ → Side K) :
    (((List.range count).flatMap fun j => [a j, b j, c j, d j] : List (Side K)) : Multiset (Side K)) =
      along 0 count a + along 0 count b + along 0 count c + along 0 count d := by
  rw [along, along, along, along, ← List.range_eq_range']
  generalize List.range count = l
  induction l with
  | nil => rfl
  | cons j l ih =>
    simp only [List.flatMap_cons, List.map_cons, ← Multiset.coe_add, ih, ← Multiset.cons_coe]
    simp only [← Multiset.singleton_add, Multiset.coe_nil]
    abel

theorem along_shift (start count : ℕ) (side : ℕ → Side K) :
    along 0 count (fun j => side (start + j)) = along start count side := by
  rw [along, along, List.range'_eq_map_range, List.range'_eq_map_range, List.map_map, List.map_map]
  refine congrArg _ (List.map_congr_left fun j _ => ?_)
  simp

theorem passage_sides [Field K] {label : String} {cuts : List ℤ} {inner outer : List ℕ} {start nRadial : ℕ}
    {radialGrading : K} {width : ℕ → ℤ} (hinner : ∀ j ≤ n, inner.getD j 0 = innerVertex n (start + j))
    (houter : ∀ j ≤ n, outer.getD j 0 = outerVertex n (start + j))
    (hwidth : ∀ j < n, width (start + j) = cuts.getD (j + 1) 0 - cuts.getD j 0) :
    (((passageSpecs label cuts inner outer n).flatMap fun spec => spec.sides nRadial radialGrading :
        List (Side K)) : Multiset (Side K)) =
      along start n (radialSide n nRadial radialGrading) + along (start + 1) n (radialSide n nRadial radialGrading) +
        along start n (rowSide (outerVertex n) width) + along start n (rowSide (innerVertex n) width) := by
  have hsides : ((passageSpecs label cuts inner outer n).flatMap fun spec => spec.sides nRadial radialGrading :
      List (Side K)) = (List.range n).flatMap fun j =>
        [radialSide n nRadial radialGrading (start + j), radialSide n nRadial radialGrading (start + 1 + j),
          rowSide (outerVertex n) width (start + j), rowSide (innerVertex n) width (start + j)] := by
    rw [passageSpecs, List.flatMap_map]
    refine List.flatMap_congr fun j hj => ?_
    have hlt : j < n := List.mem_range.mp hj
    have hnext : start + (j + 1) = start + j + 1 := rfl
    have hnext' : start + 1 + j = start + j + 1 := by omega
    simp only [BlockSpec.sides, radialSide, rowSide, hinner j hlt.le, hinner (j + 1) hlt, houter j hlt.le,
      houter (j + 1) hlt, hwidth j hlt, hnext, hnext']
  rw [hsides, flatMap_four, along_shift start, along_shift (start + 1), along_shift start, along_shift start]

theorem along_two (n : ℕ) (side : ℕ → Side K) : along 0 n side + along n n side = along 0 (2 * n) side := by
  have h := along_append 0 n n side
  rw [Nat.zero_add] at h
  rw [h, two_mul]

theorem along_radial (n : ℕ) (side : ℕ → Side K) :
    along 0 n side + along 1 n side + along n n side + along (n + 1) n side + {side 0} + {side (2 * n)} =
      along 0 (2 * n + 1) side + along 0 (2 * n + 1) side := by
  have hfirst : {side 0} + along 1 n side + along (n + 1) n side = along 0 (2 * n + 1) side := by
    have happend := along_append 0 (n + 1) n side
    rw [Nat.zero_add] at happend
    rw [cons_along 0 n side, happend]
    congr 1
    omega
  have hlast : along 0 n side + along n n side + {side (2 * n)} = along 0 (2 * n + 1) side := by
    have hone : ({side (2 * n)} : Multiset (Side K)) = along (0 + 2 * n) 1 side := by simp [along]
    rw [along_two, hone, along_append]
  calc along 0 n side + along 1 n side + along n n side + along (n + 1) n side + {side 0} + {side (2 * n)}
      = ({side 0} + along 1 n side + along (n + 1) n side) + (along 0 n side + along n n side + {side (2 * n)}) := by
        abel
    _ = along 0 (2 * n + 1) side + along 0 (2 * n + 1) side := by rw [hfirst, hlast]

def wakeSides (n : ℕ) (nWake : ℤ) (wakeGrading : K) : List (Side K) :=
  [⟨innerVertex n 0, 4 * n + 3, nWake, wakeGrading⟩, ⟨innerVertex n (2 * n), 4 * n + 4, nWake, wakeGrading⟩]

def endSides (n nRadial : ℕ) (radialGrading : K) (nWake : ℤ) (wakeGrading : K) : List (Side K) :=
  [⟨outerVertex n 0, 4 * n + 2, nWake, wakeGrading⟩, ⟨outerVertex n (2 * n), 4 * n + 5, nWake, wakeGrading⟩,
    ⟨4 * n + 3, 4 * n + 2, nRadial, radialGrading⟩, ⟨4 * n + 4, 4 * n + 5, nRadial, radialGrading⟩]

def crossSides [One K] (n : ℕ) (edgeCells : ℤ) : List (Side K) :=
  [⟨4 * n + 4, 4 * n + 3, edgeCells, 1⟩, ⟨innerVertex n (2 * n), innerVertex n 0, edgeCells, 1⟩]

def pairedSides (n nRadial : ℕ) (radialGrading : K) (nWake : ℤ) (wakeGrading : K) (edge : Option ℤ) :
    List (Side K) :=
  (List.range' 0 (2 * n + 1)).map (radialSide n nRadial radialGrading) ++
    edge.elim [] fun _ => wakeSides n nWake wakeGrading

def singleSides [One K] (n nRadial : ℕ) (radialGrading : K) (nWake : ℤ) (wakeGrading : K) (edge : Option ℤ)
    (width : ℕ → ℤ) : List (Side K) :=
  (List.range' 0 (2 * n)).map (rowSide (innerVertex n) width) ++
    (List.range' 0 (2 * n)).map (rowSide (outerVertex n) width) ++ endSides n nRadial radialGrading nWake wakeGrading ++
      edge.elim (wakeSides n nWake wakeGrading) (crossSides n)

theorem edge_eq_iff {side other : Side K} : side.edge = other.edge ↔
    (side.tail = other.tail ∧ side.head = other.head) ∨ (side.tail = other.head ∧ side.head = other.tail) := by
  simp [Side.edge]

theorem nodup_edges_along (side : ℕ → Side K) {count : ℕ}
    (h : ∀ j < count, ∀ k < count, (side j).edge = (side k).edge → j = k) :
    (((List.range' 0 count).map side).map Side.edge).Nodup := by
  rw [List.map_map, ← List.range_eq_range']
  refine List.nodup_range.map_on fun j hj k hk heq => h j (List.mem_range.mp hj) k (List.mem_range.mp hk) heq

theorem disjoint_edges_along (side : ℕ → Side K) {count : ℕ} {sides : List (Side K)}
    (h : ∀ j < count, ∀ other ∈ sides, (side j).edge ≠ other.edge) :
    (((List.range' 0 count).map side).map Side.edge).Disjoint (sides.map Side.edge) := by
  rw [List.map_map, ← List.range_eq_range']
  intro edge hedge hother
  obtain ⟨j, hj, rfl⟩ := List.mem_map.mp hedge
  obtain ⟨other, hmem, heq⟩ := List.mem_map.mp hother
  exact h j (List.mem_range.mp hj) other hmem heq.symm

theorem mem_along {side : ℕ → Side K} {count : ℕ} {other : Side K} :
    other ∈ (List.range' 0 count).map side ↔ ∃ k < count, other = side k := by
  rw [← List.range_eq_range', List.mem_map]
  simp only [List.mem_range, eq_comm]

section Distinct
variable [One K] (nRadial : ℕ) (radialGrading : K) (nWake : ℤ) (wakeGrading : K) (edgeCells : ℤ) (width : ℕ → ℤ)

def outletSides (n nRadial : ℕ) (radialGrading : K) (nWake : ℤ) (wakeGrading : K) (edgeCells : ℤ) : List (Side K) :=
  endSides n nRadial radialGrading nWake wakeGrading ++ wakeSides n nWake wakeGrading ++ crossSides n edgeCells

omit [One K] in
theorem radial_inj {j k : ℕ} (hj : j < 2 * n + 1) (hk : k < 2 * n + 1)
    (h : (radialSide n nRadial radialGrading j).edge = (radialSide n nRadial radialGrading k).edge) : j = k := by
  have hinner := innerVertex_cases n j
  have hinner' := innerVertex_cases n k
  have houter := outerVertex_cases n j
  have houter' := outerVertex_cases n k
  simp only [edge_eq_iff, radialSide] at h
  omega

theorem row_inj {j k : ℕ} (hj : j < 2 * n) (hk : k < 2 * n) :
    ((rowSide (innerVertex n) width j : Side K).edge = (rowSide (innerVertex n) width k : Side K).edge → j = k) ∧
      ((rowSide (outerVertex n) width j : Side K).edge = (rowSide (outerVertex n) width k : Side K).edge →
        j = k) := by
  have hinner := innerVertex_cases n j
  have hinner' := innerVertex_cases n k
  have hinnerNext := innerVertex_cases n (j + 1)
  have hinnerNext' := innerVertex_cases n (k + 1)
  have houter := outerVertex_cases n j
  have houter' := outerVertex_cases n k
  have houterNext := outerVertex_cases n (j + 1)
  have houterNext' := outerVertex_cases n (k + 1)
  simp only [edge_eq_iff, rowSide]
  omega

theorem radial_ne_row {j k : ℕ} (hj : j < 2 * n + 1) (hk : k < 2 * n) :
    (radialSide n nRadial radialGrading j).edge ≠ (rowSide (innerVertex n) width k : Side K).edge ∧
      (radialSide n nRadial radialGrading j).edge ≠ (rowSide (outerVertex n) width k : Side K).edge := by
  have hinner := innerVertex_cases n j
  have hinner' := innerVertex_cases n k
  have hinnerNext' := innerVertex_cases n (k + 1)
  have houter := outerVertex_cases n j
  have houter' := outerVertex_cases n k
  have houterNext' := outerVertex_cases n (k + 1)
  simp only [Ne, edge_eq_iff, radialSide, rowSide]
  omega

theorem inner_ne_outer {j k : ℕ} (hj : j < 2 * n) (hk : k < 2 * n) :
    (rowSide (innerVertex n) width j : Side K).edge ≠ (rowSide (outerVertex n) width k : Side K).edge := by
  have hinner := innerVertex_cases n j
  have hinnerNext := innerVertex_cases n (j + 1)
  have houter' := outerVertex_cases n k
  have houterNext' := outerVertex_cases n (k + 1)
  simp only [Ne, edge_eq_iff, rowSide]
  omega

theorem outletSides_distinct (hn : 0 < n) :
    ((outletSides n nRadial radialGrading nWake wakeGrading edgeCells).map Side.edge).Nodup := by
  have hinner := innerVertex_cases n 0
  have hinner' := innerVertex_cases n (2 * n)
  have houter := outerVertex_cases n 0
  have houter' := outerVertex_cases n (2 * n)
  simp only [outletSides, endSides, wakeSides, crossSides, List.cons_append, List.nil_append, List.map_cons,
    List.map_nil, List.nodup_cons, List.mem_cons, List.not_mem_nil, or_false, edge_eq_iff, not_false_eq_true,
    List.nodup_nil, and_true]
  omega

theorem mem_outletSides {other : Side K} :
    other ∈ outletSides n nRadial radialGrading nWake wakeGrading edgeCells ↔
      other = ⟨outerVertex n 0, 4 * n + 2, nWake, wakeGrading⟩ ∨
        other = ⟨outerVertex n (2 * n), 4 * n + 5, nWake, wakeGrading⟩ ∨
          other = ⟨4 * n + 3, 4 * n + 2, nRadial, radialGrading⟩ ∨
            other = ⟨4 * n + 4, 4 * n + 5, nRadial, radialGrading⟩ ∨
              other = ⟨innerVertex n 0, 4 * n + 3, nWake, wakeGrading⟩ ∨
                other = ⟨innerVertex n (2 * n), 4 * n + 4, nWake, wakeGrading⟩ ∨
                  other = ⟨4 * n + 4, 4 * n + 3, edgeCells, 1⟩ ∨
                    other = ⟨innerVertex n (2 * n), innerVertex n 0, edgeCells, 1⟩ := by
  simp only [outletSides, endSides, wakeSides, crossSides, List.cons_append, List.nil_append, List.mem_cons,
    List.not_mem_nil, or_false]

theorem row_ne_outlet (hn : 0 < n) {j : ℕ} (hj : j < 2 * n) {other : Side K}
    (hother : other ∈ outletSides n nRadial radialGrading nWake wakeGrading edgeCells) :
    (rowSide (innerVertex n) width j : Side K).edge ≠ other.edge ∧
      (rowSide (outerVertex n) width j : Side K).edge ≠ other.edge := by
  have hinner := innerVertex_cases n j
  have hinnerNext := innerVertex_cases n (j + 1)
  have hinnerFirst := innerVertex_cases n 0
  have hinnerLast := innerVertex_cases n (2 * n)
  have houter := outerVertex_cases n j
  have houterNext := outerVertex_cases n (j + 1)
  have houterFirst := outerVertex_cases n 0
  have houterLast := outerVertex_cases n (2 * n)
  rcases (mem_outletSides ..).mp hother with rfl | rfl | rfl | rfl | rfl | rfl | rfl | rfl <;>
    simp only [Ne, edge_eq_iff, rowSide] <;> omega

theorem radial_ne_outlet {j : ℕ} (hn : 0 < n) (hj : j < 2 * n + 1) {other : Side K}
    (hother : other ∈ outletSides n nRadial radialGrading nWake wakeGrading edgeCells) :
    (radialSide n nRadial radialGrading j).edge ≠ other.edge := by
  have hinner := innerVertex_cases n j
  have hinnerFirst := innerVertex_cases n 0
  have hinnerLast := innerVertex_cases n (2 * n)
  have houter := outerVertex_cases n j
  have houterFirst := outerVertex_cases n 0
  have houterLast := outerVertex_cases n (2 * n)
  rcases (mem_outletSides ..).mp hother with rfl | rfl | rfl | rfl | rfl | rfl | rfl | rfl <;>
    simp only [Ne, edge_eq_iff, radialSide] <;> omega

def allSides (n nRadial : ℕ) (radialGrading : K) (nWake : ℤ) (wakeGrading : K) (edgeCells : ℤ) (width : ℕ → ℤ) :
    List (Side K) :=
  (List.range' 0 (2 * n + 1)).map (radialSide n nRadial radialGrading) ++
    ((List.range' 0 (2 * n)).map (rowSide (innerVertex n) width) ++
      ((List.range' 0 (2 * n)).map (rowSide (outerVertex n) width) ++
        outletSides n nRadial radialGrading nWake wakeGrading edgeCells))

theorem edges_nodup (hn : 0 < n) :
    ((allSides n nRadial radialGrading nWake wakeGrading edgeCells width).map Side.edge).Nodup := by
  have hradial := nodup_edges_along (radialSide n nRadial radialGrading) fun j hj k hk =>
    radial_inj nRadial radialGrading hj hk
  have hinner := nodup_edges_along (rowSide (innerVertex n) width : ℕ → Side K) fun j hj k hk =>
    (row_inj width hj hk).1
  have houter := nodup_edges_along (rowSide (outerVertex n) width : ℕ → Side K) fun j hj k hk =>
    (row_inj width hj hk).2
  have houtlet := outletSides_distinct nRadial radialGrading nWake wakeGrading edgeCells hn
  rw [allSides, List.map_append, List.nodup_append', List.map_append, List.nodup_append', List.map_append,
    List.nodup_append', ← List.map_append, ← List.map_append]
  refine ⟨hradial, ⟨hinner, ⟨houter, houtlet, ?_⟩, ?_⟩, ?_⟩
  · exact disjoint_edges_along _ fun j hj other hother =>
      (row_ne_outlet nRadial radialGrading nWake wakeGrading edgeCells width hn hj hother).2
  · refine disjoint_edges_along _ fun j hj other hother => ?_
    obtain hrow | hrest := List.mem_append.mp hother
    · obtain ⟨k, hk, rfl⟩ := mem_along.mp hrow
      exact inner_ne_outer width hj hk
    · exact (row_ne_outlet nRadial radialGrading nWake wakeGrading edgeCells width hn hj hrest).1
  · refine disjoint_edges_along _ fun j hj other hother => ?_
    obtain hrow | hrest := List.mem_append.mp hother
    · obtain ⟨k, hk, rfl⟩ := mem_along.mp hrow
      exact (radial_ne_row nRadial radialGrading width hj hk).1
    obtain hrow | hrest := List.mem_append.mp hrest
    · obtain ⟨k, hk, rfl⟩ := mem_along.mp hrow
      exact (radial_ne_row nRadial radialGrading width hj hk).2
    · exact radial_ne_outlet nRadial radialGrading nWake wakeGrading edgeCells hn hj hrest

end Distinct

section Cover
variable [One K] (nRadial : ℕ) (radialGrading : K) (nWake : ℤ) (wakeGrading : K) (edge : Option ℤ) (width : ℕ → ℤ)

theorem sides_le_all :
    ((pairedSides n nRadial radialGrading nWake wakeGrading edge ++
      singleSides n nRadial radialGrading nWake wakeGrading edge width : List (Side K)) : Multiset (Side K)) ≤
      ↑(allSides n nRadial radialGrading nWake wakeGrading (edge.getD 0) width) := by
  simp only [pairedSides, singleSides, allSides, outletSides, ← Multiset.coe_add]
  cases edge with
  | none =>
    rw [le_iff_exists_add]
    refine ⟨↑(crossSides (K := K) n 0), ?_⟩
    simp only [Option.elim_none, Option.getD_none, Multiset.coe_nil]
    abel
  | some edgeCells =>
    refine le_of_eq ?_
    simp only [Option.elim_some, Option.getD_some]
    abel

theorem keys_nodup (hn : 0 < n) :
    ((pairedSides n nRadial radialGrading nWake wakeGrading edge ++
      singleSides n nRadial radialGrading nWake wakeGrading edge width).map Side.edge).Nodup := by
  have hall := edges_nodup nRadial radialGrading nWake wakeGrading (edge.getD 0) width hn
  refine Multiset.coe_nodup.mp (Multiset.nodup_of_le ?_ (Multiset.coe_nodup.mpr hall))
  rw [← Multiset.map_coe, ← Multiset.map_coe]
  exact Multiset.map_le_map (sides_le_all ..)

theorem sides_below {side : Side K} (h : side ∈ pairedSides n nRadial radialGrading nWake wakeGrading edge ∨
    side ∈ singleSides n nRadial radialGrading nWake wakeGrading edge width) :
    side.tail < 4 * n + 6 ∧ side.head < 4 * n + 6 := by
  have hmem : side ∈ allSides n nRadial radialGrading nWake wakeGrading (edge.getD 0) width :=
    Multiset.mem_coe.mp (Multiset.mem_of_le (sides_le_all nRadial radialGrading nWake wakeGrading edge width)
      (Multiset.mem_coe.mpr (List.mem_append.mpr h)))
  rw [allSides, List.mem_append, List.mem_append, List.mem_append, mem_along, mem_along, mem_along] at hmem
  obtain ⟨k, hk, rfl⟩ | ⟨k, hk, rfl⟩ | ⟨k, hk, rfl⟩ | houtlet := hmem
  · have hinner := innerVertex_cases n k
    have houter := outerVertex_cases n k
    simp only [radialSide]
    omega
  · have hinner := innerVertex_cases n k
    have hinnerNext := innerVertex_cases n (k + 1)
    simp only [rowSide]
    omega
  · have houter := outerVertex_cases n k
    have houterNext := outerVertex_cases n (k + 1)
    simp only [rowSide]
    omega
  · have hinnerFirst := innerVertex_cases n 0
    have hinnerLast := innerVertex_cases n (2 * n)
    have houterFirst := outerVertex_cases n 0
    have houterLast := outerVertex_cases n (2 * n)
    rcases (mem_outletSides ..).mp houtlet with rfl | rfl | rfl | rfl | rfl | rfl | rfl | rfl <;> dsimp only <;> omega

end Cover

end Sides

/-! ## The blocks -/

section Blocks
variable {K : Type} [Field K] {n : ℕ}

/-- The width of a segment, of the upper surface and then of the lower. -/
def segmentWidth (cuts : List ℤ) (n k : ℕ) : ℤ :=
  if k < n then cuts.getD (k + 1) 0 - cuts.getD k 0 else cuts.getD (k - n + 1) 0 - cuts.getD (k - n) 0

theorem upper_sides (base : List (K × K)) (cuts : List ℤ) (nRadial : ℕ) (radialGrading : K) :
    (((passageSpecs "UA" cuts (layout n base).upperInner (layout n base).upperOuter n).flatMap
        fun spec => spec.sides nRadial radialGrading : List (Side K)) : Multiset (Side K)) =
      along 0 n (radialSide n nRadial radialGrading) + along 1 n (radialSide n nRadial radialGrading) +
        along 0 n (rowSide (outerVertex n) (segmentWidth cuts n)) +
          along 0 n (rowSide (innerVertex n) (segmentWidth cuts n)) := by
  refine passage_sides (fun j hj => ?_) (fun j hj => ?_) fun j hj => ?_
  · rw [Nat.zero_add]
    exact upperInner_getD hj
  · rw [Nat.zero_add]
    exact upperOuter_getD hj
  · rw [Nat.zero_add, segmentWidth, if_pos hj]

theorem lower_sides (base : List (K × K)) (cuts : List ℤ) (nRadial : ℕ) (radialGrading : K) :
    (((passageSpecs "LA" cuts (layout n base).lowerInner (layout n base).lowerOuter n).flatMap
        fun spec => spec.sides nRadial radialGrading : List (Side K)) : Multiset (Side K)) =
      along n n (radialSide n nRadial radialGrading) + along (n + 1) n (radialSide n nRadial radialGrading) +
        along n n (rowSide (outerVertex n) (segmentWidth cuts n)) +
          along n n (rowSide (innerVertex n) (segmentWidth cuts n)) := by
  refine passage_sides (fun j hj => lowerInner_getD hj) (fun j hj => lowerOuter_getD hj) fun j hj => ?_
  rw [segmentWidth, if_neg (by omega), Nat.add_sub_cancel_left]

omit [Field K] in
theorem layout_ends (hn : 0 < n) (base : List (K × K)) :
    (layout n base).upperInner.headD 0 = innerVertex n 0 ∧ (layout n base).upperOuter.headD 0 = outerVertex n 0 ∧
      (layout n base).lowerInner.getLastD 0 = innerVertex n (2 * n) ∧
        (layout n base).lowerOuter.getLastD 0 = outerVertex n (2 * n) :=
  ⟨upperInner_getD (Nat.zero_le n), upperOuter_getD (Nat.zero_le n), lowerInner_last hn, lowerOuter_last hn⟩

omit [Field K] in
theorem wakeSpecs_sides (hn : 0 < n) (base : List (K × K)) (nRadial nWake : ℕ) (radialGrading wakeGrading : K) :
    (((wakeSpecs (layout n base) nWake wakeGrading).flatMap fun spec => spec.sides nRadial radialGrading :
        List (Side K)) : Multiset (Side K)) =
      {radialSide n nRadial radialGrading 0} + {radialSide n nRadial radialGrading (2 * n)} +
        ↑(endSides n nRadial radialGrading nWake wakeGrading) + ↑(wakeSides n nWake wakeGrading) := by
  obtain ⟨hupperEdge, hupperFar, hlowerEdge, hlowerFar⟩ := layout_ends hn base
  simp only [wakeSpecs, BlockSpec.sides, radialSide, endSides, wakeSides, List.flatMap_cons, List.flatMap_nil,
    List.append_nil, List.cons_append, List.nil_append, hupperEdge, hupperFar, hlowerEdge, hlowerFar,
    ← Multiset.cons_coe, ← Multiset.singleton_add, Multiset.coe_nil]
  dsimp only [layout]
  abel

theorem edgeBlock_sides (hn : 0 < n) (base : List (K × K)) (nWake : ℕ) (edgeCells : ℤ) (wakeGrading : K) :
    ((edgeBlock (layout n base) nWake edgeCells wakeGrading).sides : Multiset (Side K)) =
      ↑(wakeSides n nWake wakeGrading) + ↑(crossSides (K := K) n edgeCells) := by
  obtain ⟨hupperEdge, -, hlowerEdge, -⟩ := layout_ends hn base
  simp only [edgeBlock, Block.sides, wakeSides, crossSides, hupperEdge, hlowerEdge, ← Multiset.cons_coe,
    ← Multiset.singleton_add, Multiset.coe_nil]
  dsimp only [layout]
  abel

theorem specs_sides (hn : 0 < n) (base : List (K × K)) (cuts : List ℤ) (nRadial nWake : ℕ)
    (radialGrading wakeGrading : K) (edge : Option ℤ) :
    (((blockSpecs cuts (layout n base) n nWake wakeGrading).flatMap (fun spec => spec.sides nRadial radialGrading) :
        List (Side K)) : Multiset (Side K)) +
        ↑(edge.elim [] fun edgeCells => (edgeBlock (layout n base) nWake edgeCells wakeGrading).sides) =
      ↑(pairedSides n nRadial radialGrading nWake wakeGrading edge) +
        ↑(pairedSides n nRadial radialGrading nWake wakeGrading edge) +
          ↑(singleSides n nRadial radialGrading nWake wakeGrading edge (segmentWidth cuts n)) := by
  have hradial := along_radial n (radialSide n nRadial radialGrading)
  have houter := along_two n (rowSide (outerVertex n) (segmentWidth cuts n) : ℕ → Side K)
  have hinner := along_two n (rowSide (innerVertex n) (segmentWidth cuts n) : ℕ → Side K)
  have hpaired : (pairedSides n nRadial radialGrading nWake wakeGrading edge : Multiset (Side K)) =
      along 0 (2 * n + 1) (radialSide n nRadial radialGrading) +
        ((edge.elim [] fun _ => wakeSides n nWake wakeGrading : List (Side K)) : Multiset (Side K)) := by
    rw [pairedSides, ← Multiset.coe_add, along]
  have hsingle : (singleSides n nRadial radialGrading nWake wakeGrading edge (segmentWidth cuts n) :
      Multiset (Side K)) = along 0 (2 * n) (rowSide (innerVertex n) (segmentWidth cuts n)) +
        along 0 (2 * n) (rowSide (outerVertex n) (segmentWidth cuts n)) +
          (endSides n nRadial radialGrading nWake wakeGrading : Multiset (Side K)) +
            ((edge.elim (wakeSides n nWake wakeGrading) (crossSides n) : List (Side K)) : Multiset (Side K)) := by
    rw [singleSides, ← Multiset.coe_add, ← Multiset.coe_add, ← Multiset.coe_add, along, along]
  rw [blockSpecs, List.flatMap_append, List.flatMap_append, ← Multiset.coe_add, ← Multiset.coe_add, upper_sides,
    lower_sides, wakeSpecs_sides hn, hpaired, hsingle, ← hinner, ← houter]
  -- the line of the wake is one side of a wake block, and for a finite edge one of the block between them too
  cases edge with
  | none =>
    simp only [Option.elim_none, Multiset.coe_nil, add_zero]
    rw [← hradial]
    abel
  | some edgeCells =>
    simp only [Option.elim_some]
    rw [edgeBlock_sides hn, add_add_add_comm (along 0 (2 * n + 1) _), ← hradial]
    abel

end Blocks

end XFoilFoam.SegmentedDict
