import XFoilFoam.Estimate.Observations
import XFoilFoam.Foundations.Literals
import Mathlib.Data.Matrix.Basic

/-! The arithmetic of the progressive estimate.  Everything that numpy and `math` do to numbers is an operation of
`Numpy`, so that the estimate is one program for every arithmetic, doubles and exact reals among them; arrays are
functions of their indices. -/
namespace XFoilFoam.Estimate
set_option autoImplicit false

/-! ## Operations -/

/-- The number type of the arrays with what is done to it; a factorisation or a solution that numpy refuses is an error. -/
structure Numpy (K : Type) where
  ofDouble : Double → K
  lit : ℚ → K
  neg : K → K
  add : K → K → K
  sub : K → K → K
  mul : K → K → K
  div : K → K → K
  square : K → K
  abs : K → K
  exp : K → K
  log : K → K
  log1p : K → K
  sqrt : K → K
  hypot : K → K → K
  maximum : K → K → K
  minimum : K → K → K
  lt : K → K → Bool
  le : K → K → Bool
  eq : K → K → Bool
  isFinite : K → Bool
  mean : List K → K
  median : List K → K
  /-- `np.interp(x, xp, fp)`. -/
  interp : K → List K → List K → K
  /-- `np.sum(matrix, axis=0)`. -/
  columnSum : {n m : ℕ} → Matrix (Fin n) (Fin m) K → Fin m → K
  dot : {n : ℕ} → (Fin n → K) → (Fin n → K) → K
  vecMat : {n m : ℕ} → (Fin n → K) → Matrix (Fin n) (Fin m) K → Fin m → K
  matVec : {n m : ℕ} → Matrix (Fin n) (Fin m) K → (Fin m → K) → Fin n → K
  matMul : {n m p : ℕ} → Matrix (Fin n) (Fin m) K → Matrix (Fin m) (Fin p) K → Matrix (Fin n) (Fin p) K
  cholesky : {n : ℕ} → Matrix (Fin n) (Fin n) K → Except String (Matrix (Fin n) (Fin n) K)
  solve : {n m : ℕ} → Matrix (Fin n) (Fin n) K → Matrix (Fin n) (Fin m) K → Except String (Matrix (Fin n) (Fin m) K)
  solveVec : {n : ℕ} → Matrix (Fin n) (Fin n) K → (Fin n → K) → Except String (Fin n → K)

namespace Numpy
variable {K : Type} (num : Numpy K)

def flag (b : Bool) : K := num.lit (if b then 1 else 0)

/-- Python's `max(x, y)`. -/
def pyMax (x y : K) : K := if num.lt x y then y else x

/-- Python's `x / y`. -/
def quotient (x y : K) : Except String K :=
  if num.eq y (num.lit 0) then .error "float division by zero" else .ok (num.div x y)

/-- `np.max`, of a vector that is not empty. -/
def vecMax {n : ℕ} (v : Fin n → K) : K :=
  match List.ofFn v with
  | [] => num.lit 0
  | x :: xs => xs.foldl num.maximum x

def vecMin {n : ℕ} (v : Fin n → K) : K :=
  match List.ofFn v with
  | [] => num.lit 0
  | x :: xs => xs.foldl num.minimum x

def insertUnique (x : K) : List K → List K
  | [] => [x]
  | y :: ys => if num.lt x y then x :: y :: ys else if num.eq x y then y :: ys else y :: insertUnique x ys

/-- `np.unique`: sorted, each value once. -/
def unique (xs : List K) : List K := xs.foldr num.insertUnique []

def eye {n : ℕ} (i j : Fin n) : K := num.flag (decide (i = j))

/-- `np.diag` of a vector. -/
def diagonal {n : ℕ} (v : Fin n → K) (i j : Fin n) : K := if i = j then v i else num.lit 0

/-- `np.clip(x, 0, 1)`. -/
def clip (x : K) : K := num.minimum (num.maximum x (num.lit 0)) (num.lit 1)

/-- `np.all(np.isfinite(array))`. -/
def allFinite {n : ℕ} (v : Fin n → K) : Bool := (List.ofFn v).all num.isFinite

def matFinite {n m : ℕ} (A : Matrix (Fin n) (Fin m) K) : Bool := (List.finRange n).all fun i => num.allFinite (A i)

/-! ## Reading the records -/

def entry (values : List Double) (j : ℕ) : K := num.ofDouble (values.getD j (Binary64.lit 0))

def table (rows : List (List Double)) {n : ℕ} (i : Fin n) (j : Fin 3) : K := num.entry (rows.getD i []) j

/-- The values of `_transformed`: drag by its logarithm. -/
def transformed {n : ℕ} (values : Fin n → Fin 3 → K) (i : Fin n) (j : Fin 3) : K :=
  if j = 1 then num.log (values i 1) else values i j

/-- The deviations of `_transformed`. -/
def transformedDeviation {n : ℕ} (values uncertainty : Fin n → Fin 3 → K) (i : Fin n) (j : Fin 3) : K :=
  if j = 1 then num.sqrt (num.log1p (num.square (num.div (uncertainty i 1) (values i 1)))) else uncertainty i j

end Numpy

/-! ## Arrays of a prior and of its observations -/

/-- What `_validate` and `_transformed` return of a prior, on its grid. -/
structure PriorArrays (K : Type) (m : ℕ) where
  angles : Fin m → K
  mean : Fin m → Fin 3 → K
  std : Fin m → Fin 3 → K

def priorArrays {K : Type} (num : Numpy K) (prior : PolarPrior) : PriorArrays K prior.alpha.length :=
  let coefficients : Fin prior.alpha.length → Fin 3 → K := num.table prior.coefficients
  { angles := fun i => num.ofDouble (prior.alpha.get i)
    mean := num.transformed coefficients
    std := num.transformedDeviation coefficients (num.table prior.standardDeviation) }

namespace PriorArrays
variable {K : Type} {m : ℕ} (arrays : PriorArrays K m) (num : Numpy K)

/-- `angles[k]`. -/
def angleAt (k : ℕ) : K := if h : k < m then arrays.angles ⟨k, h⟩ else num.lit 0

/-- `np.interp(x, angles, prior_mean[:, j])`. -/
def meanAt (j : Fin 3) (x : K) : K := num.interp x (List.ofFn arrays.angles) (List.ofFn fun i => arrays.mean i j)

/-- `max(float(angles[-1] - angles[0]), policy.correlation_length_deg)`. -/
def scale (policy : PolarModelPolicy) : K :=
  num.pyMax (num.sub (arrays.angleAt num (m - 1)) (arrays.angleAt num 0)) (num.ofDouble policy.correlationLengthDeg)

end PriorArrays

namespace PolarObservation

def fast (o : PolarObservation) : Bool := o.method == "openfoam_fast"

def precise (o : PolarObservation) : Bool := o.method == "openfoam_precise"

def uncertain (o : PolarObservation) : Bool :=
  o.fast && o.acceptedCfd == some false && !(["steady", "periodic", "aperiodic"].contains o.statisticalCertification)

end PolarObservation

/-- The arrays of a list of observations, before they are compared with a prior. -/
structure Observed (K : Type) (n : ℕ) where
  alpha : Fin n → K
  values : Fin n → Fin 3 → K
  errors : Fin n → Fin 3 → K

def observed {K : Type} (num : Numpy K) (policy : PolarModelPolicy) (rows : List PolarObservation) :
    Observed K rows.length :=
  let coefficients (i : Fin rows.length) (j : Fin 3) : K := num.entry ((rows.get i).coefficients.getD []) j
  let errors := num.transformedDeviation coefficients fun i j => num.entry ((rows.get i).standardError.getD []) j
  { alpha := fun i => num.ofDouble (rows.get i).alpha
    values := num.transformed coefficients
    errors := fun i j =>
      match policy.uncertifiedFastBiasStd with
      | none => errors i j
      | some bias => num.hypot (errors i j) (num.mul (num.flag (rows.get i).uncertain) (num.entry bias j)) }

/-- The matrix `lineage`. -/
def sameLineage (rows : List PolarObservation) (i j : Fin rows.length) : Bool :=
  (rows.get i).lineageId == (rows.get j).lineageId

def coefficientName (j : Fin 3) : String := ["cl", "log_cd", "cm"].getD j ""

end XFoilFoam.Estimate
