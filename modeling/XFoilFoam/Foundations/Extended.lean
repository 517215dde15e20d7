import XFoilFoam.Foundations.JsValue
import Mathlib.Algebra.Order.Floor.Ring
import Mathlib.Data.Rat.Cast.Order

/-! Exact arithmetic over an ordered field with the special values of IEEE 754. -/
namespace XFoilFoam
set_option autoImplicit false

/-- A number of the field, an infinity or NaN. -/
inductive Extended (K : Type) where
  | nan
  | negInf
  | posInf
  | fin (x : K)

namespace Extended
variable {K : Type} [Field K] [LinearOrder K]

def neg : Extended K → Extended K
  | nan => nan
  | negInf => posInf
  | posInf => negInf
  | fin x => fin (-x)

def add : Extended K → Extended K → Extended K
  | fin x, fin y => fin (x + y)
  | nan, _ => nan
  | _, nan => nan
  | posInf, negInf => nan
  | negInf, posInf => nan
  | posInf, _ => posInf
  | _, posInf => posInf
  | negInf, _ => negInf
  | _, negInf => negInf

/-- The infinity with the sign of `x`, and NaN at zero. -/
def infOf (x : K) : Extended K := if 0 < x then posInf else if x < 0 then negInf else nan

def mul : Extended K → Extended K → Extended K
  | fin x, fin y => fin (x * y)
  | nan, _ => nan
  | _, nan => nan
  | posInf, posInf => posInf
  | negInf, negInf => posInf
  | posInf, negInf => negInf
  | negInf, posInf => negInf
  | posInf, fin y => infOf y
  | fin x, posInf => infOf x
  | negInf, fin y => infOf (-y)
  | fin x, negInf => infOf (-x)

def div : Extended K → Extended K → Extended K
  | fin x, fin y => if y = 0 then infOf x else fin (x / y)
  | fin _, posInf => fin 0
  | fin _, negInf => fin 0
  | posInf, fin y => if y < 0 then negInf else posInf
  | negInf, fin y => if y < 0 then posInf else negInf
  | _, _ => nan

def lt : Extended K → Extended K → Bool
  | fin x, fin y => decide (x < y)
  | negInf, fin _ => true
  | fin _, posInf => true
  | negInf, posInf => true
  | _, _ => false

def eq : Extended K → Extended K → Bool
  | fin x, fin y => decide (x = y)
  | negInf, negInf => true
  | posInf, posInf => true
  | _, _ => false

def le (x y : Extended K) : Bool := lt x y || eq x y

def abs : Extended K → Extended K
  | nan => nan
  | fin x => fin (max x (-x))
  | _ => posInf

def max (x y : Extended K) : Extended K :=
  match x, y with
  | nan, _ => nan
  | _, nan => nan
  | _, _ => if lt x y then y else x

def min (x y : Extended K) : Extended K :=
  match x, y with
  | nan, _ => nan
  | _, nan => nan
  | _, _ => if lt y x then y else x

def sign : Extended K → Extended K
  | nan => nan
  | posInf => fin 1
  | negInf => fin (-1)
  | fin x => if 0 < x then fin 1 else if x < 0 then fin (-1) else fin 0

def isFinite : Extended K → Bool
  | fin _ => true
  | _ => false

variable [FloorRing K]

def ceil : Extended K → Extended K
  | fin x => fin ⌈x⌉
  | x => x

def isInteger : Extended K → Bool
  | fin x => decide ((⌊x⌋ : K) = x)
  | _ => false

def safeInteger : Extended K → Option ℤ
  | fin x => if (⌊x⌋ : K) = x ∧ -ExactNum.maxSafe ≤ ⌊x⌋ ∧ ⌊x⌋ ≤ ExactNum.maxSafe then some ⌊x⌋ else none
  | _ => none

instance : Binary64 (Extended K) where
  lit q := .fin q
  posInf := .posInf
  negInf := .negInf
  add := .add
  sub x y := .add x y.neg
  mul := .mul
  div := .div
  abs := .abs
  max := .max
  min := .min
  ceil := .ceil
  sign := .sign
  lt := Extended.lt
  le := Extended.le
  eq := Extended.eq
  isFinite := Extended.isFinite
  isInteger := Extended.isInteger
  safeInteger := Extended.safeInteger

/-! ## Operations on numbers of the field -/

open Binary64

@[simp] theorem lit_eq (q : ℚ) : (lit q : Extended K) = fin (q : K) := rfl

@[simp] theorem mul_fin (x y : K) : Binary64.mul (fin x) (fin y) = fin (x * y) := rfl

@[simp] theorem sub_fin (x y : K) : Binary64.sub (fin x) (fin y) = fin (x - y) := by
  rw [sub_eq_add_neg]
  rfl

@[simp] theorem div_fin {x y : K} (hy : y ≠ 0) : Binary64.div (fin x) (fin y) = fin (x / y) := if_neg hy

@[simp] theorem abs_fin (x : K) : Binary64.abs (fin x) = fin |x| := rfl

@[simp] theorem max_fin (x y : K) : Binary64.max (fin x) (fin y) = fin (Max.max x y) := by
  show (if decide (x < y) = true then fin y else fin x) = _
  rw [max_def_lt]
  simp only [decide_eq_true_eq]
  split_ifs <;> rfl

theorem add_fin (x y : K) : Binary64.add (fin x) (fin y) = fin (x + y) := rfl

theorem min_fin (x y : K) : Binary64.min (fin x) (fin y) = fin (Min.min x y) := by
  show (if decide (y < x) = true then fin y else fin x) = _
  rw [min_comm, min_def_lt]
  simp only [decide_eq_true_eq]
  split_ifs <;> rfl

@[simp] theorem lt_fin (x y : K) : Binary64.lt (fin x) (fin y) = decide (x < y) := rfl

@[simp] theorem le_fin (x y : K) : Binary64.le (fin x) (fin y) = decide (x ≤ y) := by
  show (decide (x < y) || decide (x = y)) = _
  rw [← Bool.decide_or, decide_eq_decide]
  exact le_iff_lt_or_eq.symm

@[simp] theorem eq_fin (x y : K) : Binary64.eq (fin x) (fin y) = decide (x = y) := rfl

@[simp] theorem isFinite_fin (x : K) : Binary64.isFinite (fin x) = true := rfl

@[simp] theorem isInteger_intCast [IsStrictOrderedRing K] (n : ℤ) :
    Binary64.isInteger (fin (n : K)) = true := by
  show decide (((⌊(n : K)⌋ : ℤ) : K) = n) = true
  rw [Int.floor_intCast]
  exact decide_eq_true rfl

@[simp] theorem finite_num (x : K) : (JsValue.num (fin x)).finite = true := rfl

@[simp] theorem finiteAnd_num (x : K) (p : Extended K → Bool) : (JsValue.num (fin x)).finiteAnd p = p (fin x) := rfl

end Extended

end XFoilFoam
