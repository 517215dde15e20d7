import XFoilFoam.Meshing.Expansion
import XFoilFoam.Meshing.Preflight

/-! The segmented block dictionary of `meshing/blockmesh.py`: the mesher's constructor, `cell_count` and
`_build_segmented_dict`. -/
namespace XFoilFoam.SegmentedDict
open Meshing Sampling
set_option autoImplicit false

/-! ## The mesher -/

inductive Topology where
  | legacy
  | segmentedNormal
  | segmentedTeNormal
  | segmentedCamber
  | finiteEdge
  deriving DecidableEq, Repr

/-- `BlockMeshCGrid`, with the fields the dictionary is made from. -/
structure CGrid where
  topology : Topology
  surfaceSegments : Option ℕ
  camberVariant : Option String
  deriving DecidableEq, Repr

def surfaceBlockSegments : ℕ := 20

def segmentedNormalCounts : List ℕ := [20, 24, 29, 32]

def segmentedTeNormalCounts : List ℕ := [20, 24]

/-- `SEGMENTED_CAMBER_VARIANTS`: the centre, the angle of the seam in degrees and the segments. -/
def segmentedCamberVariants (K : Type) [Field K] : List (String × K × K × ℕ) :=
  [("c150-a200-s5", 3 / 2, 200, 5), ("c300-a200-s10", 3, 200, 10), ("c150-a195-s12", 3 / 2, 195, 12),
    ("c300-a195-s26", 3, 195, 26)]

def countText : Option ℕ → String
  | none => "None"
  | some count => toString count

/-- `BlockMeshCGrid.__init__`; `reprText` is the `repr` of a variant's name. -/
def CGrid.init (reprText : Option String → String) (topology : Topology) (surfaceSegments : Option ℕ)
    (camberVariant : Option String) : Except String CGrid :=
  match topology with
  | .legacy =>
    if surfaceSegments.isSome then .error "legacy blockMesh C-grid does not accept surface_segments"
    else if camberVariant.isSome then .error "legacy blockMesh C-grid does not accept camber_variant"
    else .ok ⟨.legacy, none, none⟩
  | .segmentedNormal =>
    if camberVariant.isSome then .error "segmented-normal does not accept camber_variant"
    else if surfaceSegments.any segmentedNormalCounts.contains then .ok ⟨.segmentedNormal, surfaceSegments, none⟩
    else .error ("segmented-normal surface_segments must be one of (20, 24, 29, 32), got " ++
      countText surfaceSegments)
  | .segmentedTeNormal =>
    if camberVariant.isSome then .error "segmented-te-normal does not accept camber_variant"
    else if surfaceSegments.any segmentedTeNormalCounts.contains then
      .ok ⟨.segmentedTeNormal, surfaceSegments, none⟩
    else .error ("segmented-te-normal surface_segments must be one of (20, 24), got " ++ countText surfaceSegments)
  | .finiteEdge =>
    if surfaceSegments.isSome || camberVariant.isSome then .error "finite-edge does not accept variant overrides"
    else .ok ⟨.finiteEdge, some surfaceBlockSegments, none⟩
  | .segmentedCamber =>
    if surfaceSegments.isSome then .error "segmented-camber does not accept surface_segments"
    else match camberVariant.bind fun variant => (segmentedCamberVariants ℚ).lookup variant with
      | none => .error ("segmented-camber camber_variant must be one of ('c150-a200-s5', 'c300-a200-s10', " ++
          "'c150-a195-s12', 'c300-a195-s26'), got " ++ reprText camberVariant)
      | some (_, _, segments) => .ok ⟨.segmentedCamber, some segments, camberVariant⟩

structure MeshParams (K : Type) where
  farfieldRadiusChords : K
  wakeLengthChords : K
  spanChords : K
  firstCellHeightChords : K
  nSurface : ℕ
  nRadial : ℕ
  nWake : ℕ

def CGrid.cellCount {K : Type} (grid : CGrid) (params : MeshParams K) : Except String ℕ :=
  if grid.topology = .finiteEdge then
    .error "Finite-edge cell count requires the source geometry and generated mesh"
  else .ok (2 * params.nSurface * params.nRadial + 2 * params.nWake * params.nRadial)

/-! ## The dictionary -/

structure Corners where
  v0 : ℕ
  v1 : ℕ
  v2 : ℕ
  v3 : ℕ
  deriving DecidableEq, Repr

def Corners.shift (corners : Corners) (offset : ℕ) : Corners :=
  ⟨corners.v0 + offset, corners.v1 + offset, corners.v2 + offset, corners.v3 + offset⟩

def Corners.toList (corners : Corners) : List ℕ := [corners.v0, corners.v1, corners.v2, corners.v3]

/-- A `hex` entry: its base, the cells along its first two directions and their grading. The third direction has
one cell and grading one. -/
structure Block (K : Type) where
  label : Option String
  quad : Corners
  cells₁ : ℤ
  cells₂ : ℤ
  grading₁ : K
  grading₂ : K

inductive Curve (K : Type) where
  | spline (v0 v1 : ℕ) (points : List (K × K)) (z : K)
  | arc (v0 v1 : ℕ) (point : K × K) (z : K)

structure Patch where
  name : String
  kind : String
  faces : List Corners

/-- What is written, each vertex of `base` at depth zero and at depth `span`. -/
structure BlockMeshDict (K : Type) where
  base : List (K × K)
  span : K
  curves : List (Curve K)
  blocks : List (Block K)
  patches : List Patch
  mergeWake : Bool

def BlockMeshDict.zOffset {K : Type} (dict : BlockMeshDict K) : ℕ := dict.base.length

/-! ## The vertex table -/

/-- `[add(point) for point in points]`. -/
def addAll {K : Type} (base points : List (K × K)) : List (K × K) × List ℕ :=
  (base ++ points, List.range' base.length points.length)

structure Numbering (K : Type) where
  base : List (K × K)
  upperInner : List ℕ
  upperOuter : List ℕ
  lowerInner : List ℕ
  lowerOuter : List ℕ
  outletTop : ℕ
  outletWakeTop : ℕ
  outletWakeBottom : ℕ
  outletBottom : ℕ

/-- The front vertices of the lower passage are the last ones of the upper. -/
def number {K : Type} (upperRows upperFar lowerRows lowerFar : List (K × K))
    (top wakeTop wakeBottom bottom : K × K) : Numbering K :=
  let (base, upperInner) := addAll [] upperRows
  let (base, upperOuter) := addAll base upperFar
  let (base, lowerRest) := addAll base lowerRows
  let (base, lowerFarRest) := addAll base lowerFar
  { base := base ++ [top, wakeTop, wakeBottom, bottom]
    upperInner, upperOuter
    lowerInner := upperInner.getLastD 0 :: lowerRest
    lowerOuter := upperOuter.getLastD 0 :: lowerFarRest
    outletTop := base.length
    outletWakeTop := base.length + 1
    outletWakeBottom := base.length + 2
    outletBottom := base.length + 3 }

/-! ## Blocks, edges and patches -/

/-- A block before its orientation: corners keyed by `(radial, streamwise)`. -/
structure BlockSpec (K : Type) where
  label : String
  nStream : ℤ
  streamGrading : K
  c00 : ℕ
  c10 : ℕ
  c01 : ℕ
  c11 : ℕ

section Emit
variable {K : Type} [Field K]

/-- `f"{j:02d}"`. -/
def twoDigits (j : ℕ) : String := if j < 10 then "0" ++ toString j else toString j

def passageSpecs (label : String) (cuts : List ℤ) (inner outer : List ℕ) (nSegments : ℕ) : List (BlockSpec K) :=
  (List.range nSegments).map fun j =>
    { label := label ++ twoDigits j
      nStream := cuts.getD (j + 1) 0 - cuts.getD j 0
      streamGrading := 1
      c00 := inner.getD j 0
      c10 := outer.getD j 0
      c01 := inner.getD (j + 1) 0
      c11 := outer.getD (j + 1) 0 }

def wakeSpecs (vertices : Numbering K) (nWake : ℕ) (wakeGrading : K) : List (BlockSpec K) :=
  [⟨"UW", nWake, wakeGrading, vertices.upperInner.headD 0, vertices.upperOuter.headD 0, vertices.outletWakeTop,
      vertices.outletTop⟩,
    ⟨"LW", nWake, wakeGrading, vertices.lowerInner.getLastD 0, vertices.lowerOuter.getLastD 0,
      vertices.outletWakeBottom, vertices.outletBottom⟩]

def blockSpecs (cuts : List ℤ) (vertices : Numbering K) (nSegments nWake : ℕ) (wakeGrading : K) :
    List (BlockSpec K) :=
  passageSpecs "UA" cuts vertices.upperInner vertices.upperOuter nSegments ++
    passageSpecs "LA" cuts vertices.lowerInner vertices.lowerOuter nSegments ++ wakeSpecs vertices nWake wakeGrading

/-- Mapping A has the radial direction first; a block it would turn over gets mapping B, the transpose. -/
def orient [LinearOrder K] (base : List (K × K)) (nRadial : ℕ) (radialGrading : K) (spec : BlockSpec K) : Block K :=
  let coord (vertex : ℕ) : K × K := base.getD vertex (0, 0)
  if 0 < (Quad.mk (coord spec.c00) (coord spec.c10) (coord spec.c11) (coord spec.c01)).signedArea then
    { label := some spec.label
      quad := ⟨spec.c00, spec.c10, spec.c11, spec.c01⟩
      cells₁ := nRadial
      cells₂ := spec.nStream
      grading₁ := radialGrading
      grading₂ := spec.streamGrading }
  else
    { label := some spec.label
      quad := ⟨spec.c00, spec.c01, spec.c11, spec.c10⟩
      cells₁ := spec.nStream
      cells₂ := nRadial
      grading₁ := spec.streamGrading
      grading₂ := radialGrading }

def edgeBlock (vertices : Numbering K) (nWake : ℕ) (edgeCells : ℤ) (wakeGrading : K) : Block K where
  label := none
  quad := ⟨vertices.lowerInner.getLastD 0, vertices.outletWakeBottom, vertices.outletWakeTop,
    vertices.upperInner.headD 0⟩
  cells₁ := nWake
  cells₂ := edgeCells
  grading₁ := wakeGrading
  grading₂ := 1

/-- `face`: the wall on a side, from one plane to the other. -/
def face (offset v0 v1 : ℕ) : Corners := ⟨v0, v1, v1 + offset, v0 + offset⟩

def rowFaces (offset : ℕ) (row : List ℕ) (nSegments : ℕ) : List Corners :=
  (List.range nSegments).map fun j => face offset (row.getD j 0) (row.getD (j + 1) 0)

/-- `_boundary_block`: a wake patch without faces is not written. -/
def boundaryBlock (airfoil inlet outlet frontAndBack wakeUpper wakeLower : List Corners) : List Patch :=
  [⟨"airfoil", "wall", airfoil⟩, ⟨"inlet", "patch", inlet⟩, ⟨"outlet", "patch", outlet⟩,
      ⟨"frontAndBack", "empty", frontAndBack⟩] ++
    (if wakeUpper.isEmpty then [] else [⟨"wakeUpper", "patch", wakeUpper⟩]) ++
      if wakeLower.isEmpty then [] else [⟨"wakeLower", "patch", wakeLower⟩]

def boundary (vertices : Numbering K) (blocks : List (Block K)) (nSegments : ℕ) (finiteEdge : Bool) : List Patch :=
  let offset := vertices.base.length
  let upperEdge := vertices.upperInner.headD 0
  let lowerEdge := vertices.lowerInner.getLastD 0
  boundaryBlock
    (rowFaces offset vertices.upperInner nSegments ++ rowFaces offset vertices.lowerInner nSegments ++
      if finiteEdge then [face offset lowerEdge upperEdge] else [])
    (rowFaces offset vertices.upperOuter nSegments ++ rowFaces offset vertices.lowerOuter nSegments ++
      [face offset (vertices.upperOuter.headD 0) vertices.outletTop,
        face offset (vertices.lowerOuter.getLastD 0) vertices.outletBottom])
    ([face offset vertices.outletWakeTop vertices.outletTop,
        face offset vertices.outletWakeBottom vertices.outletBottom] ++
      if finiteEdge then [face offset vertices.outletWakeBottom vertices.outletWakeTop] else [])
    (blocks.flatMap fun block => [block.quad, block.quad.shift offset])
    (if finiteEdge then [] else [face offset upperEdge vertices.outletWakeTop])
    (if finiteEdge then [] else [face offset lowerEdge vertices.outletWakeBottom])

/-- The splines and arcs of one surface; a segment of one cell has no spline. -/
def passageCurves (plane : Plane K) (path : SurfacePath K) (cuts : List ℤ) (inner outer : List ℕ)
    (outerAngles : List K) (radius centerX span : K) (offset nSegments : ℕ) : List (Curve K) :=
  (List.range nSegments).flatMap fun j =>
    let start := (cuts.getD j 0 + 1).toNat
    let surfacePoints := (path.points.take (cuts.getD (j + 1) 0).toNat).drop start
    let midTheta := 1 / 2 * (outerAngles.getD j 0 + outerAngles.getD (j + 1) 0)
    [((0 : K), 0), (span, offset)].flatMap fun depth =>
      (if surfacePoints.isEmpty then []
        else [Curve.spline (inner.getD j 0 + depth.2) (inner.getD (j + 1) 0 + depth.2) surfacePoints depth.1]) ++
        [Curve.arc (outer.getD j 0 + depth.2) (outer.getD (j + 1) 0 + depth.2)
          (outerPoint plane radius centerX midTheta) depth.1]

end Emit

/-! ## The builder -/

/-- The ways a dictionary is refused; `unsettled` is no error of the source: the search for a grading was given too
few rounds. -/
inductive BuildError (K : Type) where
  | noVariant
  | unknownVariant
  | noSegments
  | edgeHeight
  | indexError
  | passage (name : String) (refused : PreflightError K)
  | unsettled

def BuildError.message {K : Type} (formatG6 : K → String) : BuildError K → String
  | noVariant => "segmented-camber topology has no configured variant"
  | unknownVariant => "KeyError"
  | noSegments => "segmented topology has no configured surface segment count"
  | edgeHeight => "Finite-edge wake requires vertically separated source endpoints"
  | indexError => "index out of bounds"
  | passage name refused => refused.message formatG6 name
  | unsettled => ""

section Build
variable {K : Type} [Field K] [LinearOrder K]

def outerArc (plane : Plane K) (grid : CGrid) : Except (BuildError K) (K × K) :=
  match grid.topology with
  | .segmentedTeNormal | .finiteEdge => .ok (1, plane.pi)
  | .segmentedCamber =>
    match grid.camberVariant with
    | none => .error .noVariant
    | some variant =>
      match (segmentedCamberVariants K).lookup variant with
      | none => .error .unknownVariant
      | some (centerX, angleDeg, _) => .ok (centerX, angleDeg * plane.pi / 180)
  | _ => .ok (0, plane.pi)

/-- `[round(i * n_surf / n_segments) for i in range(n_segments + 1)]`. -/
def surfaceCuts (K : Type) [Field K] [LinearOrder K] [FloorRing K] (nSegments nSurface : ℕ) : List ℤ :=
  (List.range (nSegments + 1)).map fun i => pyRound (((i * nSurface : ℕ) : K) / (nSegments : K))

/-- `path[::-1]`. -/
def reversed (path : SurfacePath K) : SurfacePath K :=
  ⟨path.points.reverse, mt List.reverse_eq_nil_iff.mp path.nonempty⟩

def upperLower (surfaces : SurfacePath K × SurfacePath K) : SurfacePath K × SurfacePath K :=
  if mean (surfaces.2.points.map Prod.snd) ≤ mean (surfaces.1.points.map Prod.snd) then surfaces
  else (surfaces.2, surfaces.1)

/-- The cells across a finite edge and the grading of its wake; `none` for the other topologies. -/
def edgeWake [FloorRing K] (fuel : ℕ) (grid : CGrid) (params : MeshParams K) (upperPath lowerPath : SurfacePath K) :
    Except (BuildError K) (Option (ℤ × K)) :=
  if grid.topology = .finiteEdge then
    let edgeHeight := (upperPath.points.head upperPath.nonempty).2 - (lowerPath.points.getLast lowerPath.nonempty).2
    if edgeHeight ≤ segmentedPreflightEpsilon then .error .edgeHeight
    else
      match solveExpansion fuel params.firstCellHeightChords params.wakeLengthChords params.nWake with
      | none => .error .unsettled
      | some grading => .ok (some (max 1 ⌈edgeHeight / params.firstCellHeightChords⌉, grading))
  else .ok none

/-- `_preflight_segmented_passage` of one of the two passages. -/
def preflightNamed (name : String) (plane : Plane K) (path : SurfacePath K) (cuts : List ℤ) (outerAngles : List K)
    (radius centerX : K) : Except (BuildError K) Unit :=
  (preflightSegmentedPassage plane path cuts outerAngles radius centerX).mapError (.passage name)

/-- `path[index]` for each of some indices. -/
def rowsAt (path : SurfacePath K) (indices : List ℤ) : Except (BuildError K) (List (K × K)) :=
  match indices.mapM path.row with
  | none => .error .indexError
  | some rows => .ok rows

def wakeExpansion : K := 50

/-- Everything that is written once the passages have been accepted. -/
def emit (plane : Plane K) (params : MeshParams K) (centerX radius radialGrading : K) (nSegments : ℕ)
    (cuts : List ℤ) (upperPath lowerPath : SurfacePath K) (upperAngles lowerAngles : List K)
    (upperRows lowerRows : List (K × K)) (edge : Option (ℤ × K)) : BlockMeshDict K :=
  let far := outerPoint plane radius centerX
  let exit := 1 + params.wakeLengthChords
  let wakeTop := if edge.isSome then (upperPath.points.head upperPath.nonempty).2 else 0
  let wakeBottom := if edge.isSome then (lowerPath.points.getLast lowerPath.nonempty).2 else 0
  let vertices := number upperRows (upperAngles.map far) lowerRows (lowerAngles.tail.map far)
    (exit, radius) (exit, wakeTop) (exit, wakeBottom) (exit, -radius)
  let offset := vertices.base.length
  let wakeGrading := edge.elim wakeExpansion Prod.snd
  let blocks := (blockSpecs cuts vertices nSegments params.nWake wakeGrading).map
      (orient vertices.base params.nRadial radialGrading) ++
    edge.elim [] fun cells => [edgeBlock vertices params.nWake cells.1 wakeGrading]
  { base := vertices.base
    span := params.spanChords
    curves := passageCurves plane upperPath cuts vertices.upperInner vertices.upperOuter upperAngles radius centerX
        params.spanChords offset nSegments ++
      passageCurves plane lowerPath cuts vertices.lowerInner vertices.lowerOuter lowerAngles radius centerX
        params.spanChords offset nSegments
    blocks
    patches := boundary vertices blocks nSegments edge.isSome
    mergeWake := !edge.isSome }

/-- `_build_segmented_dict`; `resampledSurfaces` is the contour's method of that name. -/
def buildSegmentedDict [FloorRing K] (plane : Plane K) (fuel : ℕ) (grid : CGrid) (params : MeshParams K)
    (resampledSurfaces : ℕ → SurfacePath K × SurfacePath K) : Except (BuildError K) (BlockMeshDict K) :=
  (outerArc plane grid).bind fun (centerX, seam) =>
    let radius := params.farfieldRadiusChords + centerX
    match solveExpansion fuel params.firstCellHeightChords radius params.nRadial, grid.surfaceSegments with
    | none, _ => .error .unsettled
    | _, none => .error .noSegments
    | some radialGrading, some segments =>
      let nSegments := min segments params.nSurface
      let cuts := surfaceCuts K nSegments params.nSurface
      let (upper, lowerPath) := upperLower (resampledSurfaces params.nSurface)
      let upperPath := reversed upper
      (edgeWake fuel grid params upperPath lowerPath).bind fun edge =>
        let upperAngles := normalAlignedOuterAngles plane upperPath cuts (plane.pi / 2) seam
        let lowerAngles := normalAlignedOuterAngles plane lowerPath cuts seam (3 * plane.pi / 2)
        (preflightNamed "upper" plane upperPath cuts upperAngles radius centerX).bind fun _ =>
          (preflightNamed "lower" plane lowerPath cuts lowerAngles radius centerX).bind fun _ =>
            (rowsAt upperPath cuts).bind fun upperRows =>
              (rowsAt lowerPath cuts.tail).map fun lowerRows =>
                emit plane params centerX radius radialGrading nSegments cuts upperPath lowerPath upperAngles
                  lowerAngles upperRows lowerRows edge

end Build

end XFoilFoam.SegmentedDict
