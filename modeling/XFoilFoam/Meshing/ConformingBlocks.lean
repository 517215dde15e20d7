import XFoilFoam.Meshing.BlockSides
import Mathlib.Analysis.SpecialFunctions.Trigonometric.Basic

/-! The segmented dictionary is a conforming block topology. -/
namespace XFoilFoam.SegmentedDict
open Meshing KeyedCover
set_option autoImplicit false

/-! ## The cuts -/

section Cuts
variable {K : Type} [Field K] [LinearOrder K] [IsStrictOrderedRing K] [FloorRing K]

theorem pyRound_intCast (k : ℤ) : pyRound (k : K) = k := by simp [pyRound]

theorem pyRound_le (x : K) : (pyRound x : K) ≤ x + 1 / 2 := by
  have hfloor := Int.floor_le x
  unfold pyRound
  split_ifs with hlow hhigh hparity <;> push_cast <;> linarith

theorem le_pyRound (x : K) : x - 1 / 2 ≤ pyRound x := by
  have hfloor := Int.lt_floor_add_one x
  unfold pyRound
  split_ifs with hlow hhigh hparity <;> push_cast <;> linarith

theorem pyRound_lt {x y : K} (h : x + 1 < y) : pyRound x < pyRound y := by
  have hx := pyRound_le x
  have hy := le_pyRound y
  have hlt : (pyRound x : K) < pyRound y := by linarith
  exact_mod_cast hlt

omit [IsStrictOrderedRing K] in
theorem surfaceCuts_getElem? {n nSurface i : ℕ} (hi : i ≤ n) :
    (surfaceCuts K n nSurface)[i]? = some (pyRound (((i * nSurface : ℕ) : K) / (n : K))) := by
  rw [surfaceCuts, List.getElem?_map, List.getElem?_range (by omega)]
  rfl

omit [IsStrictOrderedRing K] in
theorem length_surfaceCuts (n nSurface : ℕ) : (surfaceCuts K n nSurface).length = n + 1 := by
  simp [surfaceCuts]

theorem surfaceCuts_first (n nSurface : ℕ) : (surfaceCuts K n nSurface).getD 0 0 = 0 := by
  rw [List.getD_eq_getElem?_getD, surfaceCuts_getElem? (Nat.zero_le n)]
  simpa using pyRound_intCast (K := K) 0

theorem surfaceCuts_last {n : ℕ} (hn : 0 < n) (nSurface : ℕ) : (surfaceCuts K n nSurface).getD n 0 = nSurface := by
  have hne : (n : K) ≠ 0 := by exact_mod_cast hn.ne'
  have hratio : ((n * nSurface : ℕ) : K) / (n : K) = ((nSurface : ℤ) : K) := by
    push_cast
    field_simp
  rw [List.getD_eq_getElem?_getD, surfaceCuts_getElem? le_rfl, hratio, pyRound_intCast]
  rfl

theorem surfaceCuts_pairwise {n nSurface : ℕ} (hn : 0 < n) (hle : n ≤ nSurface) :
    (surfaceCuts K n nSurface).Pairwise (· < ·) := by
  have hpos : (0 : K) < n := by exact_mod_cast hn
  rw [surfaceCuts, List.pairwise_map]
  refine List.pairwise_lt_range.imp fun {i j} hij => ?_
  obtain rfl | hlt := hle.eq_or_lt
  · have hself (k : ℕ) : ((k * n : ℕ) : K) / (n : K) = ((k : ℤ) : K) := by
      push_cast
      field_simp
    rw [hself, hself, pyRound_intCast, pyRound_intCast]
    exact_mod_cast hij
  · refine pyRound_lt ?_
    have hcells : i * nSurface + n < j * nSurface := by
      have hstep : (i + 1) * nSurface ≤ j * nSurface := Nat.mul_le_mul_right _ hij
      rw [Nat.add_mul, Nat.one_mul] at hstep
      omega
    have hcast : ((i * nSurface : ℕ) : K) + n < ((j * nSurface : ℕ) : K) := by exact_mod_cast hcells
    rw [lt_div_iff₀ hpos, add_mul, div_mul_cancel₀ _ hpos.ne', one_mul]
    exact hcast

end Cuts

/-! ## The patches -/

section Patches
variable {K : Type} [Field K] {n : ℕ}

theorem lateral_boundaryBlock (airfoil inlet outlet frontAndBack wakeUpper wakeLower : List Corners) :
    (((boundaryBlock airfoil inlet outlet frontAndBack wakeUpper wakeLower).filter
        fun patch => patch.name ≠ "frontAndBack").flatMap Patch.faces) =
      airfoil ++ inlet ++ outlet ++ wakeUpper ++ wakeLower := by
  cases wakeUpper <;> cases wakeLower <;> simp [boundaryBlock]

theorem plane_boundaryBlock (airfoil inlet outlet frontAndBack wakeUpper wakeLower : List Corners) :
    (((boundaryBlock airfoil inlet outlet frontAndBack wakeUpper wakeLower).filter
        fun patch => patch.name = "frontAndBack").flatMap Patch.faces) = frontAndBack := by
  cases wakeUpper <;> cases wakeLower <;> simp [boundaryBlock]

theorem rowFaces_eq {row : List ℕ} {vertex : ℕ → ℕ} {start : ℕ} (h : ∀ j ≤ n, row.getD j 0 = vertex (start + j))
    (offset : ℕ) (width : ℕ → ℤ) :
    rowFaces offset row n =
      ((List.range' start n).map (rowSide vertex width : ℕ → Side K)).map (Side.wall offset) := by
  rw [rowFaces, List.range'_eq_map_range, List.map_map, List.map_map]
  refine List.map_congr_left fun j hj => ?_
  have hlt : j < n := List.mem_range.mp hj
  simp only [Function.comp_apply, Side.wall, rowSide, h j hlt.le, h (j + 1) hlt]
  rfl

theorem rowFaces_append {upper lower : List ℕ} {vertex : ℕ → ℕ} (hupper : ∀ j ≤ n, upper.getD j 0 = vertex j)
    (hlower : ∀ j ≤ n, lower.getD j 0 = vertex (n + j)) (offset : ℕ) (width : ℕ → ℤ) :
    rowFaces offset upper n ++ rowFaces offset lower n =
      ((List.range' 0 (2 * n)).map (rowSide vertex width : ℕ → Side K)).map (Side.wall offset) := by
  have hupper' : ∀ j ≤ n, upper.getD j 0 = vertex (0 + j) := fun j hj => by rw [Nat.zero_add, hupper j hj]
  have hrange := List.range'_append_1 (s := 0) (m := n) (n := n)
  rw [Nat.zero_add, ← two_mul] at hrange
  rw [rowFaces_eq (K := K) hupper' offset width, rowFaces_eq (K := K) hlower offset width, ← List.map_append,
    ← List.map_append, hrange]

theorem lateral_boundary (hn : 0 < n) (base : List (K × K)) (blocks : List (Block K)) (nRadial nWake : ℕ)
    (radialGrading wakeGrading : K) (edge : Option ℤ) (width : ℕ → ℤ) :
    (((boundary (layout n base) blocks n edge.isSome).filter
        fun patch => patch.name ≠ "frontAndBack").flatMap Patch.faces).Perm
      ((singleSides n nRadial radialGrading nWake wakeGrading edge width).map (Side.wall base.length)) := by
  obtain ⟨hupperEdge, hupperFar, hlowerEdge, hlowerFar⟩ := layout_ends hn base
  have hairfoil := rowFaces_append (K := K) (n := n) (fun j hj => upperInner_getD hj) (fun j hj => lowerInner_getD hj)
    base.length width
  have hinlet := rowFaces_append (K := K) (n := n) (fun j hj => upperOuter_getD hj) (fun j hj => lowerOuter_getD hj)
    base.length width
  rw [boundary, lateral_boundaryBlock, hupperEdge, hupperFar, hlowerEdge, hlowerFar]
  dsimp only [layout]
  rw [hairfoil, hinlet, ← Multiset.coe_eq_coe]
  cases edge with
  | none =>
    simp only [singleSides, endSides, wakeSides, Option.elim_none, Option.isSome_none, Bool.false_eq_true, if_false,
      List.map_append, List.map_cons, List.map_nil, List.append_nil, ← Multiset.coe_add, ← Multiset.cons_coe,
      ← Multiset.singleton_add, Multiset.coe_nil, Side.wall]
    abel
  | some edgeCells =>
    simp only [singleSides, endSides, crossSides, Option.elim_some, Option.isSome_some, if_true,
      List.map_append, List.map_cons, List.map_nil, List.append_nil, ← Multiset.coe_add, ← Multiset.cons_coe,
      ← Multiset.singleton_add, Multiset.coe_nil, Side.wall]
    abel

end Patches

/-! ## The dictionary -/

section Corners
variable {K : Type}

theorem sides_nodup_of_quad {block : Block K} (h : block.quad.toList.Nodup) :
    (block.sides.map Side.edge).Nodup := by
  simp only [Corners.toList, List.nodup_cons, List.mem_cons, List.not_mem_nil, or_false, not_false_eq_true,
    List.nodup_nil, and_true] at h
  simp only [Block.sides, List.map_cons, List.map_nil, List.nodup_cons, List.mem_cons, List.not_mem_nil, or_false,
    edge_eq_iff, not_false_eq_true, List.nodup_nil, and_true]
  omega

theorem quad_orient [Field K] [LinearOrder K] (base : List (K × K)) (nRadial : ℕ) (radialGrading : K)
    (spec : BlockSpec K) :
    (orient base nRadial radialGrading spec).quad.toList.Perm [spec.c00, spec.c10, spec.c11, spec.c01] := by
  unfold orient
  dsimp only
  split
  · rfl
  · exact (List.reverse_perm [spec.c10, spec.c11, spec.c01]).cons spec.c00

variable [Field K] {n : ℕ}

theorem passage_corners {label : String} {cuts : List ℤ} {inner outer : List ℕ} {start : ℕ}
    (hstart : start ≤ n) (hinner : ∀ j ≤ n, inner.getD j 0 = innerVertex n (start + j))
    (houter : ∀ j ≤ n, outer.getD j 0 = outerVertex n (start + j)) :
    ∀ spec ∈ (passageSpecs label cuts inner outer n : List (BlockSpec K)),
      [spec.c00, spec.c10, spec.c11, spec.c01].Nodup := by
  intro spec hspec
  obtain ⟨j, hj, rfl⟩ := List.mem_map.mp hspec
  have hlt : j < n := List.mem_range.mp hj
  have hinnerFirst := innerVertex_cases n (start + j)
  have hinnerNext := innerVertex_cases n (start + (j + 1))
  have houterFirst := outerVertex_cases n (start + j)
  have houterNext := outerVertex_cases n (start + (j + 1))
  simp only [hinner j hlt.le, hinner (j + 1) hlt, houter j hlt.le, houter (j + 1) hlt, List.nodup_cons,
    List.mem_cons, List.not_mem_nil, or_false, not_false_eq_true, List.nodup_nil, and_true]
  omega

theorem specs_corners (hn : 0 < n) (base : List (K × K)) (cuts : List ℤ) (nWake : ℕ) (wakeGrading : K) :
    ∀ spec ∈ blockSpecs cuts (layout n base) n nWake wakeGrading,
      [spec.c00, spec.c10, spec.c11, spec.c01].Nodup := by
  intro spec hspec
  rw [blockSpecs, List.mem_append, List.mem_append] at hspec
  obtain (hupper | hlower) | hwake := hspec
  · refine passage_corners (Nat.zero_le n) (fun j hj => ?_) (fun j hj => ?_) spec hupper
    · rw [Nat.zero_add]
      exact upperInner_getD hj
    · rw [Nat.zero_add]
      exact upperOuter_getD hj
  · exact passage_corners le_rfl (fun j hj => lowerInner_getD hj) (fun j hj => lowerOuter_getD hj) spec hlower
  · obtain ⟨hupperEdge, hupperFar, hlowerEdge, hlowerFar⟩ := layout_ends hn base
    have hinnerFirst := innerVertex_cases n 0
    have hinnerLast := innerVertex_cases n (2 * n)
    have houterFirst := outerVertex_cases n 0
    have houterLast := outerVertex_cases n (2 * n)
    rw [wakeSpecs, hupperEdge, hupperFar, hlowerEdge, hlowerFar, List.mem_pair] at hwake
    obtain rfl | rfl := hwake <;>
      simp only [layout, List.nodup_cons, List.mem_cons, List.not_mem_nil, or_false, not_false_eq_true,
        List.nodup_nil, and_true] <;> omega

theorem edgeBlock_corners (hn : 0 < n) (base : List (K × K)) (nWake : ℕ) (edgeCells : ℤ) (wakeGrading : K) :
    (edgeBlock (layout n base) nWake edgeCells wakeGrading).quad.toList.Nodup := by
  obtain ⟨hupperEdge, -, hlowerEdge, -⟩ := layout_ends hn base
  have hinnerFirst := innerVertex_cases n 0
  have hinnerLast := innerVertex_cases n (2 * n)
  simp only [edgeBlock, Corners.toList, hupperEdge, hlowerEdge, List.nodup_cons, List.mem_cons, List.not_mem_nil,
    or_false, not_false_eq_true, List.nodup_nil, and_true]
  dsimp only [layout]
  omega

end Corners

section Shape
variable {K : Type} [Field K] [LinearOrder K] {n : ℕ}

/-- A dictionary of `n` segments over its own vertex table. -/
structure Shaped (dict : BlockMeshDict K) (n : ℕ) (cuts : List ℤ) (nRadial nWake : ℕ) (radialGrading wakeGrading : K)
    (edge : Option ℤ) : Prop where
  length : dict.base.length = 4 * n + 6
  blocks : dict.blocks = (blockSpecs cuts (layout n dict.base) n nWake wakeGrading).map
      (orient dict.base nRadial radialGrading) ++
    edge.elim [] fun edgeCells => [edgeBlock (layout n dict.base) nWake edgeCells wakeGrading]
  patches : dict.patches = boundary (layout n dict.base) dict.blocks n edge.isSome

namespace Shaped
variable {dict : BlockMeshDict K} {cuts : List ℤ} {nRadial nWake : ℕ} {radialGrading wakeGrading : K}
  {edge : Option ℤ}

theorem sides_perm (hn : 0 < n) (h : Shaped dict n cuts nRadial nWake radialGrading wakeGrading edge) :
    dict.sides.Perm (pairedSides n nRadial radialGrading nWake wakeGrading edge ++
      pairedSides n nRadial radialGrading nWake wakeGrading edge ++
        singleSides n nRadial radialGrading nWake wakeGrading edge (segmentWidth cuts n)) := by
  have hspecs := specs_sides hn dict.base cuts nRadial nWake radialGrading wakeGrading edge
  have horient : (((blockSpecs cuts (layout n dict.base) n nWake wakeGrading).map
      (orient dict.base nRadial radialGrading)).flatMap Block.sides).Perm
        ((blockSpecs cuts (layout n dict.base) n nWake wakeGrading).flatMap
          fun spec => spec.sides nRadial radialGrading) := by
    rw [List.flatMap_map]
    exact List.Perm.flatMap_left _ fun spec _ => sides_orient dict.base nRadial radialGrading spec
  have hedge : (edge.elim [] fun edgeCells => [edgeBlock (layout n dict.base) nWake edgeCells wakeGrading]).flatMap
      Block.sides = edge.elim [] fun edgeCells => (edgeBlock (layout n dict.base) nWake edgeCells wakeGrading).sides := by
    cases edge <;> simp
  rw [BlockMeshDict.sides, h.blocks, List.flatMap_append, hedge, ← Multiset.coe_eq_coe, ← Multiset.coe_add,
    Multiset.coe_eq_coe.mpr horient, hspecs, Multiset.coe_add, Multiset.coe_add]

theorem cover (hn : 0 < n) (h : Shaped dict n cuts nRadial nWake radialGrading wakeGrading edge) :
    Cover Side.edge Corners.edge (Side.wall dict.zOffset) dict.sides dict.lateralFaces
      (pairedSides n nRadial radialGrading nWake wakeGrading edge)
      (singleSides n nRadial radialGrading nWake wakeGrading edge (segmentWidth cuts n)) where
  twice := h.sides_perm hn
  keys := keys_nodup nRadial radialGrading nWake wakeGrading edge (segmentWidth cuts n) hn
  walled := by
    rw [BlockMeshDict.lateralFaces, h.patches]
    exact lateral_boundary hn dict.base dict.blocks nRadial nWake radialGrading wakeGrading edge _
  wall_key := fun _ => rfl

theorem quad_nodup (hn : 0 < n) (h : Shaped dict n cuts nRadial nWake radialGrading wakeGrading edge)
    {block : Block K} (hblock : block ∈ dict.blocks) : block.quad.toList.Nodup := by
  rw [h.blocks, List.mem_append] at hblock
  obtain hspec | hedge := hblock
  · obtain ⟨spec, hmem, rfl⟩ := List.mem_map.mp hspec
    exact (quad_orient dict.base nRadial radialGrading spec).nodup_iff.mpr (specs_corners hn dict.base cuts nWake
      wakeGrading spec hmem)
  · cases edge with
    | none => simp at hedge
    | some edgeCells =>
      obtain rfl := List.mem_singleton.mp hedge
      exact edgeBlock_corners hn dict.base nWake edgeCells wakeGrading

theorem vertex_below (hn : 0 < n) (h : Shaped dict n cuts nRadial nWake radialGrading wakeGrading edge)
    {block : Block K} (hblock : block ∈ dict.blocks) {vertex : ℕ} (hvertex : vertex ∈ block.quad.toList) :
    vertex < dict.base.length := by
  have hbelow (side : Side K) (hside : side ∈ block.sides) : side.tail < 4 * n + 6 ∧ side.head < 4 * n + 6 :=
    sides_below nRadial radialGrading nWake wakeGrading edge (segmentWidth cuts n)
      ((h.cover hn).mem_iff.mp (List.mem_flatMap.mpr ⟨block, hblock, hside⟩))
  have hfirst := hbelow ⟨block.quad.v0, block.quad.v1, block.cells₁, block.grading₁⟩ (by simp [Block.sides])
  have hsecond := hbelow ⟨block.quad.v3, block.quad.v2, block.cells₁, block.grading₁⟩ (by simp [Block.sides])
  simp only [Corners.toList, List.mem_cons, List.not_mem_nil, or_false] at hvertex
  dsimp only at hfirst hsecond
  rw [h.length]
  omega

theorem conforming (hn : 0 < n) (h : Shaped dict n cuts nRadial nWake radialGrading wakeGrading edge) :
    dict.Conforming where
  vertices := fun _ hblock _ hvertex => h.vertex_below hn hblock hvertex
  sides_nodup := fun _ hblock => sides_nodup_of_quad (h.quad_nodup hn hblock)
  shared := fun _ hside => (h.cover hn).shared_or_walled hside
  walls := fun _ hwall => (h.cover hn).wall_of_item hwall
  planes := by
    intro plane hplane
    rw [BlockMeshDict.planeFaces, h.patches, boundary, plane_boundaryBlock, List.mem_flatMap] at hplane
    obtain ⟨block, hblock, hface⟩ := hplane
    exact ⟨block, hblock, List.mem_pair.mp hface⟩

end Shaped

omit [LinearOrder K] in
theorem passage_cells (label : String) (cuts : List ℤ) (inner outer : List ℕ) (nSegments : ℕ) (factor : ℤ) :
    ((passageSpecs label cuts inner outer nSegments : List (BlockSpec K)).map
        fun spec => factor * spec.nStream).sum = factor * (cuts.getD nSegments 0 - cuts.getD 0 0) := by
  induction nSegments with
  | zero => simp [passageSpecs]
  | succ nSegments ih =>
    rw [passageSpecs] at ih
    rw [passageSpecs, List.range_succ, List.map_append, List.map_append, List.sum_append, ih]
    simp only [List.map_cons, List.map_nil, List.sum_cons, List.sum_nil]
    ring

theorem Shaped.cells_eq {dict : BlockMeshDict K} {cuts : List ℤ} {nRadial nWake : ℕ}
    {radialGrading wakeGrading : K} (h : Shaped dict n cuts nRadial nWake radialGrading wakeGrading none) :
    dict.cells = 2 * (cuts.getD n 0 - cuts.getD 0 0) * nRadial + 2 * nWake * nRadial := by
  have horient : dict.cells = ((blockSpecs cuts (layout n dict.base) n nWake wakeGrading).map
      fun spec => (nRadial : ℤ) * spec.nStream).sum := by
    rw [BlockMeshDict.cells, h.blocks, Option.elim_none, List.append_nil, List.map_map]
    exact congrArg List.sum (List.map_congr_left fun spec _ => cells_orient dict.base nRadial radialGrading spec)
  rw [horient, blockSpecs, List.map_append, List.map_append, List.sum_append, List.sum_append, passage_cells,
    passage_cells]
  simp only [wakeSpecs, List.map_cons, List.map_nil, List.sum_cons, List.sum_nil]
  ring

end Shape

/-! ## The builder -/

section Build
variable {K : Type} [Field K] [LinearOrder K]

theorem emit_shaped (plane : Plane K) (params : MeshParams K) (centerX radius radialGrading : K) {n : ℕ}
    (cuts : List ℤ) (upperPath lowerPath : SurfacePath K) {upperAngles lowerAngles : List K}
    {upperRows lowerRows : List (K × K)} (edge : Option (ℤ × K)) (hupper : upperRows.length = n + 1)
    (hupperAngles : upperAngles.length = n + 1) (hlower : lowerRows.length = n)
    (hlowerAngles : lowerAngles.length = n + 1) :
    Shaped (emit plane params centerX radius radialGrading n cuts upperPath lowerPath upperAngles lowerAngles
      upperRows lowerRows edge) n cuts params.nRadial params.nWake radialGrading (edge.elim wakeExpansion Prod.snd)
        (edge.map Prod.fst) := by
  obtain ⟨base, hlength, hnumber⟩ := number_layout
    (1 + params.wakeLengthChords, radius)
    (1 + params.wakeLengthChords, if edge.isSome then (upperPath.points.head upperPath.nonempty).2 else 0)
    (1 + params.wakeLengthChords, if edge.isSome then (lowerPath.points.getLast lowerPath.nonempty).2 else 0)
    (1 + params.wakeLengthChords, -radius) hupper
    ((List.length_map (outerPoint plane radius centerX)).trans hupperAngles) hlower
    (show (lowerAngles.tail.map (outerPoint plane radius centerX)).length = n by simp [hlowerAngles])
  unfold emit
  dsimp only
  rw [hnumber]
  refine ⟨hlength, ?_, ?_⟩
  · cases edge <;> rfl
  · cases edge <;> rfl

omit [Field K] [LinearOrder K] in
theorem rowsAt_length {path : SurfacePath K} {indices : List ℤ} {rows : List (K × K)}
    (h : rowsAt path indices = .ok rows) : rows.length = indices.length := by
  unfold rowsAt at h
  split at h
  · cases h
  · next rows' hrows =>
    cases h
    exact ((mapM_eq_some _ _ _).mp hrows).length_eq.symm

theorem preflightNamed_length {name : String} {plane : Plane K} {path : SurfacePath K} {cuts : List ℤ}
    {outerAngles : List K} {radius centerX : K}
    (h : preflightNamed name plane path cuts outerAngles radius centerX = .ok ()) :
    outerAngles.length = cuts.length := by
  by_contra hne
  simp [preflightNamed, preflightSegmentedPassage, hne, Except.mapError] at h

variable [FloorRing K]

theorem edgeWake_none {fuel : ℕ} {grid : CGrid} {params : MeshParams K} {upperPath lowerPath : SurfacePath K}
    {edge : Option (ℤ × K)} (h : edgeWake fuel grid params upperPath lowerPath = .ok edge)
    (hsharp : grid.topology ≠ .finiteEdge) : edge = none := by
  rw [edgeWake, if_neg hsharp] at h
  cases h
  rfl

theorem build_shaped {plane : Plane K} {fuel : ℕ} {grid : CGrid} {params : MeshParams K}
    {resampledSurfaces : ℕ → SurfacePath K × SurfacePath K} {segments : ℕ}
    (hsegments : grid.surfaceSegments = some segments) {dict : BlockMeshDict K}
    (h : buildSegmentedDict plane fuel grid params resampledSurfaces = .ok dict) :
    ∃ radialGrading wakeGrading edge,
      Shaped dict (min segments params.nSurface) (surfaceCuts K (min segments params.nSurface) params.nSurface)
        params.nRadial params.nWake radialGrading wakeGrading edge ∧
      (grid.topology ≠ .finiteEdge → edge = none) := by
  unfold buildSegmentedDict at h
  obtain ⟨⟨centerX, seam⟩, -, h⟩ := bind_eq_ok.mp h
  rw [hsegments] at h
  dsimp only at h
  split at h
  · cases h
  · cases h
  next radialGrading segments' hradial hsome =>
  cases hsome
  obtain ⟨edge, hedge, h⟩ := bind_eq_ok.mp h
  obtain ⟨_, hupper, h⟩ := bind_eq_ok.mp h
  obtain ⟨_, hlower, h⟩ := bind_eq_ok.mp h
  obtain ⟨upperRows, hupperRows, h⟩ := bind_eq_ok.mp h
  obtain ⟨lowerRows, hlowerRows, rfl⟩ := map_eq_ok.mp h
  have hcuts := length_surfaceCuts (K := K) (min segments params.nSurface) params.nSurface
  refine ⟨radialGrading, _, _, emit_shaped plane params centerX _ radialGrading _ _ _ edge ?_ ?_ ?_ ?_, ?_⟩
  · rw [rowsAt_length hupperRows, hcuts]
  · rw [preflightNamed_length hupper, hcuts]
  · rw [rowsAt_length hlowerRows, List.length_tail, hcuts, Nat.add_sub_cancel]
  · rw [preflightNamed_length hlower, hcuts]
  · intro hsharp
    rw [edgeWake_none hedge hsharp]
    rfl

variable [IsStrictOrderedRing K]

/-- A built dictionary is a conforming topology over increasing cuts, and without a finite edge its cells are the
ones `cell_count` gives. -/
theorem segmentedDict_conforming (plane : Plane K) (fuel : ℕ) (grid : CGrid) (params : MeshParams K)
    (resampledSurfaces : ℕ → SurfacePath K × SurfacePath K) {segments : ℕ}
    (hsegments : grid.surfaceSegments = some segments) (hpositive : 0 < segments) (hsurface : 0 < params.nSurface)
    {dict : BlockMeshDict K} (h : buildSegmentedDict plane fuel grid params resampledSurfaces = .ok dict) :
    ((surfaceCuts K (min segments params.nSurface) params.nSurface).head? = some 0 ∧
      (surfaceCuts K (min segments params.nSurface) params.nSurface).getLast? = some (params.nSurface : ℤ) ∧
        (surfaceCuts K (min segments params.nSurface) params.nSurface).Pairwise (· < ·)) ∧
      dict.Conforming ∧
        (grid.topology ≠ .finiteEdge → ∃ count : ℕ, grid.cellCount params = .ok count ∧ dict.cells = count) := by
  have hn : 0 < min segments params.nSurface := lt_min hpositive hsurface
  obtain ⟨radialGrading, wakeGrading, edge, hshaped, hsharp⟩ := build_shaped hsegments h
  have hlast := surfaceCuts_last (K := K) hn params.nSurface
  have hfirst := surfaceCuts_first (K := K) (min segments params.nSurface) params.nSurface
  refine ⟨⟨?_, ?_, surfaceCuts_pairwise hn (min_le_right _ _)⟩, hshaped.conforming hn, ?_⟩
  · rw [List.head?_eq_getElem?, surfaceCuts_getElem? (Nat.zero_le _)]
    rw [List.getD_eq_getElem?_getD, surfaceCuts_getElem? (Nat.zero_le _), Option.getD_some] at hfirst
    rw [hfirst]
  · rw [List.getLast?_eq_getElem?, length_surfaceCuts, Nat.add_sub_cancel, surfaceCuts_getElem? le_rfl]
    rw [List.getD_eq_getElem?_getD, surfaceCuts_getElem? le_rfl, Option.getD_some] at hlast
    rw [hlast]
  · intro htopology
    obtain rfl := hsharp htopology
    refine ⟨_, if_neg htopology, ?_⟩
    rw [hshaped.cells_eq, hlast, hfirst]
    push_cast
    ring

end Build

/-! ## A diamond -/

theorem normalAlignedOuterAngles_three {K : Type} [Field K] [LinearOrder K] [IsStrictOrderedRing K] [FloorRing K]
    (plane : Plane K) (path : SurfacePath K) (a b c : ℤ) {s e : K} (h : s < e) :
    normalAlignedOuterAngles plane path [a, b, c] s e = [s, 1 / 2 * (s + e), e] := by
  have hcount : (unwrap plane.pi ([a, b, c].foldl (rawAngle plane path s) [])).length = 3 := by
    rw [length_unwrap, length_rawAngles]
    rfl
  unfold normalAlignedOuterAngles
  rw [if_neg (by simp)]
  dsimp only
  rw [hcount]
  generalize unwrap plane.pi ([a, b, c].foldl (rawAngle plane path s) []) = unwrapped
  have hstep : max (1 : K) (20 * (((3 : ℕ) : K) - 1)) = 40 := by
    rw [max_eq_right (by norm_num)]
    norm_num
  rw [hstep]
  have hmid (x : K) : x + (s - x + (e - s) / 2) = 1 / 2 * (s + e) := by ring
  have hup : s + (e - s) / 40 ≤ 1 / 2 * (s + e) := by linarith
  have hdown : 1 / 2 * (s + e) ≤ e - (e - s) / 40 := by linarith
  have hmean : min (max (1 / 2 * (s + e)) (s + (e - s) / 40)) (e - (e - s) / 40) = 1 / 2 * (s + e) := by
    rw [max_eq_left hup, min_eq_left hdown]
  simpa [List.range_succ, setEnds, raiseAngles, lowerAngles, Sampling.linspace, Function.update, hmid] using hmean

noncomputable def diamondUpper : SurfacePath ℝ := ⟨[(0, 0), (1 / 2, 1 / 10), (1, 0)], List.cons_ne_nil _ _⟩

noncomputable def diamondLower : SurfacePath ℝ := ⟨[(0, 0), (1 / 2, -1 / 10), (1, 0)], List.cons_ne_nil _ _⟩

theorem surfaceCuts_two : surfaceCuts ℝ 2 2 = [0, 1, 2] := by
  have hzero := pyRound_intCast (K := ℝ) 0
  have hone := pyRound_intCast (K := ℝ) 1
  have htwo := pyRound_intCast (K := ℝ) 2
  norm_num [surfaceCuts, List.range_succ] at *
  exact ⟨hzero, hone, htwo⟩

theorem cos_seam : Real.cos (1 / 2 * (Real.pi / 2 + Real.pi)) = -(Real.sqrt 2 / 2) ∧
    Real.sin (1 / 2 * (Real.pi / 2 + Real.pi)) = Real.sqrt 2 / 2 := by
  have hangle : 1 / 2 * (Real.pi / 2 + Real.pi) = Real.pi - Real.pi / 4 := by ring
  rw [hangle, Real.cos_pi_sub, Real.sin_pi_sub, Real.cos_pi_div_four, Real.sin_pi_div_four]
  exact ⟨rfl, rfl⟩

theorem cos_lower_seam : Real.cos (1 / 2 * (Real.pi + 3 * Real.pi / 2)) = -(Real.sqrt 2 / 2) ∧
    Real.sin (1 / 2 * (Real.pi + 3 * Real.pi / 2)) = -(Real.sqrt 2 / 2) := by
  have hangle : 1 / 2 * (Real.pi + 3 * Real.pi / 2) = Real.pi / 4 + Real.pi := by ring
  rw [hangle, Real.cos_add_pi, Real.sin_add_pi, Real.cos_pi_div_four, Real.sin_pi_div_four]
  exact ⟨rfl, rfl⟩

theorem cos_bottom : Real.cos (3 * Real.pi / 2) = 0 ∧ Real.sin (3 * Real.pi / 2) = -1 := by
  have hangle : 3 * Real.pi / 2 = Real.pi / 2 + Real.pi := by ring
  rw [hangle, Real.cos_add_pi, Real.sin_add_pi, Real.cos_pi_div_two, Real.sin_pi_div_two, neg_zero]
  exact ⟨rfl, rfl⟩

theorem acceptable_of_pos {K : Type} [Field K] [LinearOrder K] [IsStrictOrderedRing K] {quad : Quad K}
    (harea : segmentedPreflightEpsilon < quad.signedArea)
    (hcorners : ∀ value ∈ quad.bilinearCornerJacobians, segmentedPreflightEpsilon < value) :
    acceptable quad = true := by
  have hpos : 0 < quad.signedArea := lt_trans (by unfold segmentedPreflightEpsilon; positivity) harea
  rw [acceptable, if_pos hpos, abs_of_pos hpos]
  simpa [harea] using hcorners

theorem acceptable_of_turns {quad : Quad ℝ} (harea : 1 / 10 < quad.signedArea)
    (hcorners : ∀ value ∈ quad.bilinearCornerJacobians, 1 / 10 < value) : acceptable quad = true := by
  have hsmall : (segmentedPreflightEpsilon : ℝ) < 1 / 10 := by norm_num [segmentedPreflightEpsilon]
  exact acceptable_of_pos (hsmall.trans harea) fun value hvalue => hsmall.trans (hcorners value hvalue)

theorem preflight_two {plane : Plane ℝ} {path : SurfacePath ℝ} {a b c : ℝ} {radius centerX : ℝ} {far : List (ℝ × ℝ)}
    (first second : Quad ℝ) (hab : a < b) (hbc : b < c) (hfar : [a, b, c].map (outerPoint plane radius centerX) = far)
    (hfirst : segmentQuad path [0, 1, 2] far 0 = some first) (hsecond : segmentQuad path [0, 1, 2] far 1 = some second)
    (haccept : acceptable first = true ∧ acceptable second = true) :
    preflightSegmentedPassage plane path [0, 1, 2] [a, b, c] radius centerX = .ok () := by
  have hordered : unordered [a, b, c] = false := by simp [unordered, hab, hbc]
  rw [preflightSegmentedPassage, if_neg (by simp), hordered, if_neg Bool.false_ne_true, forM_eq_ok, hfar]
  intro segment hsegment
  obtain rfl | rfl : segment = 0 ∨ segment = 1 := by
    have hlt : segment < 2 := List.mem_range.mp hsegment
    omega
  · rw [checkSegment, hfirst]
    exact if_pos haccept.1
  · rw [checkSegment, hsecond]
    exact if_pos haccept.2

theorem sqrt_two_bounds : Real.sqrt 2 * Real.sqrt 2 = 2 ∧ 7 / 5 < Real.sqrt 2 ∧ Real.sqrt 2 < 3 / 2 :=
  ⟨Real.mul_self_sqrt (by norm_num), Real.lt_sqrt_of_sq_lt (by norm_num),
    (Real.sqrt_lt' (by norm_num)).mpr (by norm_num)⟩

theorem diamond_upper_accepted :
    preflightSegmentedPassage realPlane (reversed diamondUpper) [0, 1, 2]
      [Real.pi / 2, 1 / 2 * (Real.pi / 2 + Real.pi), Real.pi] 2 0 = .ok () := by
  have hpi := Real.pi_pos
  obtain ⟨hsq, hlow, hhigh⟩ := sqrt_two_bounds
  have hfar : [Real.pi / 2, 1 / 2 * (Real.pi / 2 + Real.pi), Real.pi].map (outerPoint realPlane 2 0) =
      [(0, 2), (-Real.sqrt 2, Real.sqrt 2), (-2, 0)] := by
    simp only [List.map_cons, List.map_nil, outerPoint, realPlane, cos_seam.1, cos_seam.2, Real.cos_pi_div_two,
      Real.sin_pi_div_two, Real.cos_pi, Real.sin_pi]
    norm_num
    ring
  refine preflight_two ⟨(1, 0), (0, 2), (-Real.sqrt 2, Real.sqrt 2), (1 / 2, 1 / 10)⟩
    ⟨(1 / 2, 1 / 10), (-Real.sqrt 2, Real.sqrt 2), (-2, 0), (0, 0)⟩ (by linarith) (by linarith) hfar
    (by simp [segmentQuad, SurfacePath.row, reversed, diamondUpper])
    (by simp [segmentQuad, SurfacePath.row, reversed, diamondUpper])
    ⟨acceptable_of_turns ?_ ?_, acceptable_of_turns ?_ ?_⟩
  · norm_num [Quad.signedArea, cross]
    linarith
  · norm_num [Quad.bilinearCornerJacobians, Quad.jacobian, Quad.du, Quad.dv, cross]
    refine ⟨?_, ?_, ?_⟩ <;> nlinarith
  · norm_num [Quad.signedArea, cross]
    linarith
  · norm_num [Quad.bilinearCornerJacobians, Quad.jacobian, Quad.du, Quad.dv, cross]
    refine ⟨?_, ?_, ?_⟩ <;> nlinarith

theorem diamond_lower_accepted :
    preflightSegmentedPassage realPlane diamondLower [0, 1, 2]
      [Real.pi, 1 / 2 * (Real.pi + 3 * Real.pi / 2), 3 * Real.pi / 2] 2 0 = .ok () := by
  have hpi := Real.pi_pos
  obtain ⟨hsq, hlow, hhigh⟩ := sqrt_two_bounds
  have hfar : [Real.pi, 1 / 2 * (Real.pi + 3 * Real.pi / 2), 3 * Real.pi / 2].map (outerPoint realPlane 2 0) =
      [(-2, 0), (-Real.sqrt 2, -Real.sqrt 2), (0, -2)] := by
    simp only [List.map_cons, List.map_nil, outerPoint, realPlane, cos_lower_seam.1, cos_lower_seam.2, cos_bottom.1,
      cos_bottom.2, Real.cos_pi, Real.sin_pi]
    norm_num
    ring
  refine preflight_two ⟨(0, 0), (-2, 0), (-Real.sqrt 2, -Real.sqrt 2), (1 / 2, -1 / 10)⟩
    ⟨(1 / 2, -1 / 10), (-Real.sqrt 2, -Real.sqrt 2), (0, -2), (1, 0)⟩ (by linarith) (by linarith) hfar
    (by simp [segmentQuad, SurfacePath.row, diamondLower]) (by simp [segmentQuad, SurfacePath.row, diamondLower])
    ⟨acceptable_of_turns ?_ ?_, acceptable_of_turns ?_ ?_⟩
  · norm_num [Quad.signedArea, cross]
    linarith
  · norm_num [Quad.bilinearCornerJacobians, Quad.jacobian, Quad.du, Quad.dv, cross]
    refine ⟨?_, ?_, ?_⟩ <;> nlinarith
  · norm_num [Quad.signedArea, cross]
    linarith
  · norm_num [Quad.bilinearCornerJacobians, Quad.jacobian, Quad.du, Quad.dv, cross]
    refine ⟨?_, ?_, ?_⟩ <;> nlinarith

def diamondGrid : CGrid := ⟨.segmentedNormal, some 20, none⟩

noncomputable def diamondParams : MeshParams ℝ where
  farfieldRadiusChords := 2
  wakeLengthChords := 1
  spanChords := 1 / 10
  firstCellHeightChords := 1 / 100
  nSurface := 2
  nRadial := 1
  nWake := 1

noncomputable def diamondDict : BlockMeshDict ℝ :=
  emit realPlane diamondParams 0 2 1 2 [0, 1, 2] (reversed diamondUpper) diamondLower
    [Real.pi / 2, 1 / 2 * (Real.pi / 2 + Real.pi), Real.pi]
    [Real.pi, 1 / 2 * (Real.pi + 3 * Real.pi / 2), 3 * Real.pi / 2] [(1, 0), (1 / 2, 1 / 10), (0, 0)]
    [(1 / 2, -1 / 10), (1, 0)] none

theorem diamond_built : buildSegmentedDict realPlane 0 diamondGrid diamondParams
    (fun _ => (diamondUpper, diamondLower)) = .ok diamondDict := by
  have hpi := Real.pi_pos
  have hhigher : upperLower (diamondUpper, diamondLower) = (diamondUpper, diamondLower) := by
    norm_num [upperLower, diamondUpper, diamondLower, Sampling.mean]
  have hupper : normalAlignedOuterAngles realPlane (reversed diamondUpper) [0, 1, 2] (Real.pi / 2) Real.pi =
      [Real.pi / 2, 1 / 2 * (Real.pi / 2 + Real.pi), Real.pi] :=
    normalAlignedOuterAngles_three _ _ _ _ _ (by linarith)
  have hlower : normalAlignedOuterAngles realPlane diamondLower [0, 1, 2] Real.pi (3 * Real.pi / 2) =
      [Real.pi, 1 / 2 * (Real.pi + 3 * Real.pi / 2), 3 * Real.pi / 2] :=
    normalAlignedOuterAngles_three _ _ _ _ _ (by linarith)
  have hupperRows : rowsAt (reversed diamondUpper) [0, 1, 2] = .ok [(1, 0), (1 / 2, 1 / 10), (0, 0)] := by
    simp [rowsAt, SurfacePath.row, reversed, diamondUpper]
  have hlowerRows : rowsAt diamondLower [1, 2] = .ok [(1 / 2, -1 / 10), (1, 0)] := by
    simp [rowsAt, SurfacePath.row, diamondLower]
  have harc : outerArc realPlane diamondGrid = .ok (0, Real.pi) := rfl
  have hradial : solveExpansion 0 diamondParams.firstCellHeightChords 2 diamondParams.nRadial = some 1 := rfl
  have hsegments : diamondGrid.surfaceSegments = some 20 := rfl
  have hcuts : surfaceCuts ℝ (min 20 diamondParams.nSurface) diamondParams.nSurface = [0, 1, 2] := surfaceCuts_two
  have hedge : edgeWake 0 diamondGrid diamondParams (reversed diamondUpper) diamondLower = .ok none := rfl
  have hpi' : realPlane.pi = Real.pi := rfl
  have hradius : diamondParams.farfieldRadiusChords = 2 := rfl
  simp only [buildSegmentedDict, harc, Except.bind, hradius, add_zero, hradial, hsegments, hcuts, hhigher, hedge, hpi',
    hupper, hlower, preflightNamed, diamond_upper_accepted, diamond_lower_accepted, Except.mapError, hupperRows,
    List.tail_cons, hlowerRows, Except.map]
  rfl

theorem segmentedDict_conforming_diamond : diamondDict.Conforming ∧ diamondDict.cells = 6 := by
  have h := segmentedDict_conforming realPlane 0 diamondGrid diamondParams (fun _ => (diamondUpper, diamondLower))
    (show diamondGrid.surfaceSegments = some 20 from rfl) (by decide) two_pos diamond_built
  obtain ⟨count, hcount, hcells⟩ := h.2.2 (by decide)
  cases hcount
  exact ⟨h.2.1, hcells⟩
end XFoilFoam.SegmentedDict
