import XFoilFoam.Foundations.Literals
import Mathlib.Algebra.Order.Floor.Ring
import Mathlib.Data.List.Rotate
import Mathlib.Tactic.Linarith

/-! The concave curvature of a contour, twice: `airfoilConcaveCurvature` of `packages/core/src/wall-spacing.ts`, and
`Airfoil.from_contour` with `max_concave_curvature` of `airfoil.py`. -/
namespace XFoilFoam.Geometry
set_option autoImplicit false

@[ext]
structure PlanePoint (K : Type) where
  x : K
  y : K

/-- The functions of `Math` and of `math` and numpy. -/
structure PlaneFunctions (K : Type) where
  cos : K → K
  sin : K → K
  atan2 : K → K → K
  hypot : K → K → K
  sqrt : K → K

section Curvature
variable {K : Type} [Field K] [LinearOrder K] [FloorRing K] (fn : PlaneFunctions K)

def jsRemainder (x y : K) : K := x - y * if 0 ≤ x / y then (⌊x / y⌋ : K) else ⌈x / y⌉

def pyModulo (x y : K) : K := x - y * ⌊x / y⌋

def leftmost (first : PlanePoint K) (rest : List (PlanePoint K)) : PlanePoint K :=
  rest.foldl (fun minimum point => if point.x < minimum.x then point else minimum) first

def leftmostIndex (points : List (PlanePoint K)) : ℕ :=
  points.zipIdx.foldl (fun minimum point => if point.1.x < (points.getD minimum ⟨0, 0⟩).x then point.2 else minimum) 0

def maxX (first : PlanePoint K) (rest : List (PlanePoint K)) : K := rest.foldl (fun x point => max x point.x) first.x

def minX (first : PlanePoint K) (rest : List (PlanePoint K)) : K := rest.foldl (fun x point => min x point.x) first.x

/-! ## The control plane -/

/-- The contour on its chord, with both ends put on the trailing edge and the foremost point on the leading edge. -/
def normalizedContour (first : PlanePoint K) (rest : List (PlanePoint K)) : Option (List (PlanePoint K)) :=
  let leading := leftmost first rest
  let last := rest.getLastD first
  let trailing : PlanePoint K := ⟨(first.x + last.x) / 2, (first.y + last.y) / 2⟩
  let angle := -fn.atan2 (trailing.y - leading.y) (trailing.x - leading.x)
  let cosine := fn.cos angle
  let sine := fn.sin angle
  let chord := (trailing.x - leading.x) * cosine - (trailing.y - leading.y) * sine
  if ¬0 < chord then none
  else
    let normalized : List (PlanePoint K) := (first :: rest).map fun point =>
      ⟨((point.x - leading.x) * cosine - (point.y - leading.y) * sine) / chord,
        ((point.x - leading.x) * sine + (point.y - leading.y) * cosine) / chord⟩
    let normalized := (normalized.set 0 ⟨1, 0⟩).set (normalized.length - 1) ⟨1, 0⟩
    some (normalized.set (leftmostIndex normalized) ⟨0, 0⟩)

def keepDistinct (extent : K) (points : List (PlanePoint K)) (point : PlanePoint K) : List (PlanePoint K) :=
  let scaled : PlanePoint K := ⟨point.x / extent, point.y / extent⟩
  match points.getLast? with
  | none => points ++ [scaled]
  | some previous =>
    if 1 / 10 ^ 10 < fn.hypot (scaled.x - previous.x) (scaled.y - previous.y) then points ++ [scaled] else points

def distinctPoints (extent : K) (contour : List (PlanePoint K)) : List (PlanePoint K) :=
  let points := contour.foldl (keepDistinct fn extent) []
  match points.head?, points.getLast? with
  | some first, some last =>
    if 1 < points.length ∧ fn.hypot (first.x - last.x) (first.y - last.y) ≤ 1 / 10 ^ 10 then points.dropLast else points
  | _, _ => points

structure Walk (K : Type) where
  area : K
  cumulative : List K

def walkStep (points : List (PlanePoint K)) (walk : Walk K) (entry : PlanePoint K × ℕ) : Walk K :=
  let point := entry.1
  let next := points.getD ((entry.2 + 1) % points.length) ⟨0, 0⟩
  { area := walk.area + (point.x * next.y - next.x * point.y)
    cumulative := walk.cumulative ++ [walk.cumulative.getLastD 0 + fn.hypot (next.x - point.x) (next.y - point.y)] }

/-- The `while` loop of `pointAt`, on the bounds it has reached. -/
def bisectCumulative (cumulative : List K) (wrapped : K) (lower upper : ℕ) : ℕ :=
  if lower + 1 < upper then
    let middle := (lower + upper) / 2
    if cumulative.getD middle 0 ≤ wrapped then bisectCumulative cumulative wrapped middle upper
    else bisectCumulative cumulative wrapped lower middle
  else lower
  termination_by upper - lower

def pointAt (points : List (PlanePoint K)) (cumulative : List K) (total distance : K) : PlanePoint K :=
  let wrapped := jsRemainder (jsRemainder distance total + total) total
  let lower := bisectCumulative cumulative wrapped 0 points.length
  let length := cumulative.getD (lower + 1) 0 - cumulative.getD lower 0
  let point := points.getD lower ⟨0, 0⟩
  if length ≤ 1 / 10 ^ 12 then point
  else
    let fraction := (wrapped - cumulative.getD lower 0) / length
    let next := points.getD ((lower + 1) % points.length) ⟨0, 0⟩
    ⟨(1 - fraction) * point.x + fraction * next.x, (1 - fraction) * point.y + fraction * next.y⟩

def curvatureStep (points : List (PlanePoint K)) (walk : Walk K) (total window : K) (maximum : K)
    (entry : PlanePoint K × ℕ) : K :=
  let point := entry.1
  let previous := pointAt points walk.cumulative total (walk.cumulative.getD entry.2 0 - window)
  let next := pointAt points walk.cumulative total (walk.cumulative.getD entry.2 0 + window)
  let incoming : PlanePoint K := ⟨point.x - previous.x, point.y - previous.y⟩
  let outgoing : PlanePoint K := ⟨next.x - point.x, next.y - point.y⟩
  if fn.hypot incoming.x incoming.y ≤ 1 / 10 ^ 12 ∨ fn.hypot outgoing.x outgoing.y ≤ 1 / 10 ^ 12 then maximum
  else
    let curvature := fn.atan2 (incoming.x * outgoing.y - incoming.y * outgoing.x)
      (incoming.x * outgoing.x + incoming.y * outgoing.y) / window
    let concaveSign : K := if 0 < walk.area then -1 else 1
    if 0 < curvature * concaveSign then max maximum |curvature| else maximum

def walkedCurvature (points : List (PlanePoint K)) : Option K :=
  if points.length < 5 then none
  else
    let walk := points.zipIdx.foldl (walkStep fn points) ⟨0, [0]⟩
    let total := walk.cumulative.getLastD 0
    if |walk.area / 2| ≤ 1 / 10 ^ 12 ∨ ¬0 < total then none
    else
      let window := min (25 / 1000) (2 / 10 * total)
      some (points.zipIdx.foldl (curvatureStep fn points walk total window) 0)

/-- `airfoilConcaveCurvature`, on numbers that are all finite. -/
def airfoilConcaveCurvature (input : List (PlanePoint K)) : Option K :=
  match input with
  | [] => none
  | first :: rest =>
    if input.length < 5 ∨ 4096 < input.length then none
    else
      match normalizedContour fn first rest with
      | some (p :: ps) =>
        let extent := maxX p ps - minX p ps
        if ¬0 < extent then none else walkedCurvature fn (distinctPoints fn extent (p :: ps))
      | _ => none

/-! ## The engine -/

/-- `np.linalg.norm` of a vector. -/
def norm (v : PlanePoint K) : K := fn.sqrt (v.x * v.x + v.y * v.y)

structure Airfoil (K : Type) where
  contour : List (PlanePoint K)
  teGapOriginal : K

/-- `Airfoil.from_contour`. -/
def fromContour (points : List (PlanePoint K)) : Except String (Airfoil K) :=
  match points with
  | [] => .error "Airfoil contour must be an (N>=5, 2) array."
  | first :: rest =>
    if points.length < 5 then .error "Airfoil contour must be an (N>=5, 2) array."
    else
      let le := leftmost first rest
      let last := rest.getLastD first
      let te : PlanePoint K := ⟨1 / 2 * (first.x + last.x) - le.x, 1 / 2 * (first.y + last.y) - le.y⟩
      let theta := fn.atan2 te.y te.x
      let c := fn.cos (-theta)
      let s := fn.sin (-theta)
      let chord := te.x * c + te.y * -s
      if chord ≤ 0 then .error "Degenerate airfoil: non-positive chord after alignment."
      else
        .ok {
          contour := points.map fun p =>
            ⟨((p.x - le.x) * c + (p.y - le.y) * -s) / chord, ((p.x - le.x) * s + (p.y - le.y) * c) / chord⟩
          teGapOriginal := |first.y - last.y| / chord }

/-- One round of the loop of `_unit_chord_contour`. -/
def cleanedStep (cleaned : List (PlanePoint K)) (p : PlanePoint K) : List (PlanePoint K) :=
  match cleaned.getLast? with
  | none => cleaned ++ [p]
  | some last => if 1 / 10 ^ 10 < norm fn ⟨p.x - last.x, p.y - last.y⟩ then cleaned ++ [p] else cleaned

/-- `_unit_chord_contour`, on numbers that are all finite. -/
def unitChordContour (points : List (PlanePoint K)) : List (PlanePoint K) :=
  match points with
  | [] => []
  | first :: rest =>
    if points.length < 5 then []
    else
      let chord := maxX first rest - minX first rest
      if chord ≤ 0 then []
      else
        let scaled : List (PlanePoint K) := points.map fun p => ⟨p.x / chord, p.y / chord⟩
        let cleaned := scaled.foldl (cleanedStep fn) []
        let closed : List (PlanePoint K) :=
          match cleaned.head?, cleaned.getLast? with
          | some p, some q =>
            if 1 < cleaned.length ∧ norm fn ⟨p.x - q.x, p.y - q.y⟩ ≤ 1 / 10 ^ 10 then cleaned.dropLast else cleaned
          | _, _ => cleaned
        if 5 ≤ closed.length then closed else []

def signedArea (points : List (PlanePoint K)) : K :=
  1 / 2 * (List.zipWith (fun p q => p.x * q.y - q.x * p.y) points (points.rotate 1)).sum

/-- `point_at`; `searchsorted` counts the entries that are not beyond `s`. -/
def enginePointAt (pts : List (PlanePoint K)) (seg cum : List K) (total distance : K) : PlanePoint K :=
  let s := pyModulo distance total
  let idx := cum.countP (fun c => decide (c ≤ s)) - 1
  let idx := if pts.length ≤ idx then 0 else idx
  let length := seg.getD idx 0
  let point := pts.getD idx ⟨0, 0⟩
  if length ≤ 1 / 10 ^ 12 then point
  else
    let t := (s - cum.getD idx 0) / length
    let next := pts.getD ((idx + 1) % pts.length) ⟨0, 0⟩
    ⟨(1 - t) * point.x + t * next.x, (1 - t) * point.y + t * next.y⟩

def engineStep (pts : List (PlanePoint K)) (seg cum : List K) (area total window : K) (maximum : K)
    (entry : PlanePoint K × ℕ) : K :=
  let point := entry.1
  let s := cum.getD entry.2 0
  let prev := enginePointAt pts seg cum total (s - window)
  let nxt := enginePointAt pts seg cum total (s + window)
  let v1 : PlanePoint K := ⟨point.x - prev.x, point.y - prev.y⟩
  let v2 : PlanePoint K := ⟨nxt.x - point.x, nxt.y - point.y⟩
  if norm fn v1 ≤ 1 / 10 ^ 12 ∨ norm fn v2 ≤ 1 / 10 ^ 12 then maximum
  else
    let cross := v1.x * v2.y - v1.y * v2.x
    let dot := v1.x * v2.x + v1.y * v2.y
    let curvature := fn.atan2 cross dot / window
    let concaveSign : K := if 0 < area then -1 else 1
    if 0 < curvature * concaveSign then max maximum |curvature| else maximum

/-- `np.concatenate([[start], start + np.cumsum(lengths)])`. -/
def cumulativeFrom (start : K) : List K → List K
  | [] => [start]
  | length :: lengths => start :: cumulativeFrom (start + length) lengths

def unitContourCurvature (pts : List (PlanePoint K)) : K :=
  if pts.length < 5 then 0
  else
    let area := signedArea pts
    if |area| ≤ 1 / 10 ^ 12 then 0
    else
      let seg := List.zipWith (fun p q => norm fn ⟨q.x - p.x, q.y - p.y⟩) pts (pts.rotate 1)
      let total := seg.sum
      if total ≤ 0 then 0
      else
        let window := min (max (25 / 1000) (1 / 10 ^ 4)) (2 / 10 * total)
        pts.zipIdx.foldl (engineStep fn pts seg (cumulativeFrom 0 seg) area total window) 0

/-- `max_concave_curvature`, at its usual window. -/
def maxConcaveCurvature (points : List (PlanePoint K)) : K := unitContourCurvature fn (unitChordContour fn points)

end Curvature

end XFoilFoam.Geometry
