import Mathlib.Data.Rat.Floor
import Mathlib.Algebra.Order.Field.Rat
import Mathlib.Data.List.Infix

/-! Values of the sources.  `Binary64` is the list of operations that the TypeScript and Python
sources apply to a double; it carries no law, so a statement over an arbitrary instance holds of the
rounded arithmetic too.  `JsValue` is an `unknown`: what a JSON payload or an absent field can be. -/
namespace XFoilFoam
set_option autoImplicit false

/-! ## Numbers -/

/-- The operations on doubles that the modelled sources use. -/
class Binary64 (F : Type) where
  /-- A numeric literal of the source. -/
  lit : ℚ → F
  posInf : F
  negInf : F
  add : F → F → F
  sub : F → F → F
  mul : F → F → F
  div : F → F → F
  abs : F → F
  max : F → F → F
  min : F → F → F
  ceil : F → F
  sign : F → F
  lt : F → F → Bool
  le : F → F → Bool
  /-- `===` between two numbers. -/
  eq : F → F → Bool
  isFinite : F → Bool
  isInteger : F → Bool
  /-- The integer of a number that passes `Number.isSafeInteger`. -/
  safeInteger : F → Option ℤ

/-- Exact arithmetic with the special values of IEEE 754. -/
inductive ExactNum where
  | nan
  | negInf
  | posInf
  | fin (q : ℚ)
  deriving DecidableEq, Repr

namespace ExactNum

def neg : ExactNum → ExactNum
  | nan => nan
  | negInf => posInf
  | posInf => negInf
  | fin q => fin (-q)

def add : ExactNum → ExactNum → ExactNum
  | fin p, fin q => fin (p + q)
  | nan, _ => nan
  | _, nan => nan
  | posInf, negInf => nan
  | negInf, posInf => nan
  | posInf, _ => posInf
  | _, posInf => posInf
  | negInf, _ => negInf
  | _, negInf => negInf

/-- The infinity with the sign of `q`, and NaN at zero. -/
def infOf (q : ℚ) : ExactNum :=
  if 0 < q then posInf else if q < 0 then negInf else nan

def mul : ExactNum → ExactNum → ExactNum
  | fin p, fin q => fin (p * q)
  | nan, _ => nan
  | _, nan => nan
  | posInf, posInf => posInf
  | negInf, negInf => posInf
  | posInf, negInf => negInf
  | negInf, posInf => negInf
  | posInf, fin q => infOf q
  | fin q, posInf => infOf q
  | negInf, fin q => infOf (-q)
  | fin q, negInf => infOf (-q)

def div : ExactNum → ExactNum → ExactNum
  | fin p, fin q => if q = 0 then infOf p else fin (p / q)
  | fin _, posInf => fin 0
  | fin _, negInf => fin 0
  | posInf, fin q => if q < 0 then negInf else posInf
  | negInf, fin q => if q < 0 then posInf else negInf
  | _, _ => nan

def lt : ExactNum → ExactNum → Bool
  | fin p, fin q => decide (p < q)
  | negInf, fin _ => true
  | fin _, posInf => true
  | negInf, posInf => true
  | _, _ => false

def eq : ExactNum → ExactNum → Bool
  | nan, _ => false
  | x, y => decide (x = y)

def le (x y : ExactNum) : Bool := lt x y || eq x y

def abs : ExactNum → ExactNum
  | nan => nan
  | fin q => fin |q|
  | _ => posInf

def max (x y : ExactNum) : ExactNum :=
  if x = nan ∨ y = nan then nan else if lt x y then y else x

def min (x y : ExactNum) : ExactNum :=
  if x = nan ∨ y = nan then nan else if lt y x then y else x

def ceil : ExactNum → ExactNum
  | fin q => fin ⌈q⌉
  | x => x

def sign : ExactNum → ExactNum
  | nan => nan
  | posInf => fin 1
  | negInf => fin (-1)
  | fin q => if 0 < q then fin 1 else if q < 0 then fin (-1) else fin 0

def isFinite : ExactNum → Bool
  | fin _ => true
  | _ => false

def isInteger : ExactNum → Bool
  | fin q => decide (q.den = 1)
  | _ => false

/-- `Number.MAX_SAFE_INTEGER`. -/
def maxSafe : ℤ := 9007199254740991

def safeInteger : ExactNum → Option ℤ
  | fin q => if q.den = 1 ∧ -maxSafe ≤ q.num ∧ q.num ≤ maxSafe then some q.num else none
  | _ => none

end ExactNum

instance : Binary64 ExactNum where
  lit := .fin
  posInf := .posInf
  negInf := .negInf
  add := .add
  sub x y := .add x y.neg
  mul := .mul
  div := .div
  abs := .abs
  max := .max
  min := .min
  ceil := .ceil
  sign := .sign
  lt := ExactNum.lt
  le := ExactNum.le
  eq := ExactNum.eq
  isFinite := ExactNum.isFinite
  isInteger := ExactNum.isInteger
  safeInteger := ExactNum.safeInteger

/-! ## Unknown values -/

/-- An `unknown` of the source.  An object lists its own enumerable properties in key order. -/
inductive JsValue (F : Type) where
  | undefined
  | null
  | bool (b : Bool)
  | num (x : F)
  | str (s : String)
  | arr (xs : List (JsValue F))
  | obj (fields : List (String × JsValue F))

namespace JsValue
variable {F : Type}

/-- `value.key` on an object, and `undefined` everywhere else. -/
def get (v : JsValue F) (key : String) : JsValue F :=
  match v with
  | obj fields => (fields.find? (fun field => field.1 == key)).elim undefined Prod.snd
  | _ => undefined

/-- `Object.keys`. -/
def keys : JsValue F → List String
  | obj fields => fields.map Prod.fst
  | _ => []

/-- `isRecord`: an object that is neither `null` nor an array. -/
def isRecord : JsValue F → Bool
  | obj _ => true
  | _ => false

/-- `Object.hasOwn`. -/
def hasOwn (v : JsValue F) (key : String) : Bool := v.keys.contains key

/-- `value === text`. -/
def isStr (v : JsValue F) (text : String) : Bool :=
  match v with
  | str s => s == text
  | _ => false

/-- A text that satisfies `p`. -/
def isStrAnd (v : JsValue F) (p : String → Bool) : Bool :=
  match v with
  | str s => p s
  | _ => false

/-- `value === true`. -/
def isTrue : JsValue F → Bool
  | bool b => b
  | _ => false

def isUndefined : JsValue F → Bool
  | undefined => true
  | _ => false

def isNull : JsValue F → Bool
  | null => true
  | _ => false

/-- `value == null`. -/
def isNullish (v : JsValue F) : Bool := v.isUndefined || v.isNull

def elements : JsValue F → List (JsValue F)
  | arr xs => xs
  | _ => []

/-- `Array.isArray`. -/
def isArray : JsValue F → Bool
  | arr _ => true
  | _ => false

/-- `typeof value`. -/
def typeOf : JsValue F → String
  | undefined => "undefined"
  | bool _ => "boolean"
  | num _ => "number"
  | str _ => "string"
  | null => "object"
  | arr _ => "object"
  | obj _ => "object"

variable [Binary64 F]

/-- `typeof value === "number" && Number.isFinite(value)`, with the number. -/
def finite? : JsValue F → Option F
  | num x => if Binary64.isFinite x then some x else none
  | _ => none

def finite (v : JsValue F) : Bool := v.finite?.isSome

/-- A finite number that satisfies `p`. -/
def finiteAnd (v : JsValue F) (p : F → Bool) : Bool := v.finite?.any p

/-- `value === x` against a numeric literal. -/
def isLit (v : JsValue F) (q : ℚ) : Bool :=
  match v with
  | num x => Binary64.eq x (Binary64.lit q)
  | _ => false

end JsValue

/-! ## Text -/

/-- `if (condition) texts.push(text)` on a list that is only appended to. -/
def pushIf (condition : Bool) (text : String) : List String := if condition then [text] else []

@[simp] theorem mem_pushIf (condition : Bool) (text r : String) :
    r ∈ pushIf condition text ↔ condition = true ∧ r = text := by
  cases condition <;> simp [pushIf]

theorem pushIf_eq_nil {condition : Bool} {text : String} :
    pushIf condition text = [] ↔ condition = false := by
  cases condition <;> simp [pushIf]

/-- `text.includes(part)`. -/
def includes (text part : String) : Bool := decide (part.toList <:+: text.toList)

/-- What `trim` removes: the white space and line terminators of ECMAScript. -/
def jsWhitespace (c : Char) : Bool :=
  [0x9, 0xa, 0xb, 0xc, 0xd, 0x20, 0xa0, 0x1680, 0x2028, 0x2029, 0x202f, 0x205f, 0x3000, 0xfeff].contains
    c.toNat || (decide (0x2000 ≤ c.toNat) && decide (c.toNat ≤ 0x200a))

/-- `[0-9a-f]`. -/
def isLowerHex (c : Char) : Bool :=
  (decide ('0' ≤ c) && decide (c ≤ '9')) || (decide ('a' ≤ c) && decide (c ≤ 'f'))

/-- `SHA256_HEX`: `/^[0-9a-f]{64}$/`. -/
def isSha256Hex (s : String) : Bool :=
  s.toList.length == 64 && s.toList.all isLowerHex

/-- The lower case of an ASCII letter, for the `i` flag of an expression over ASCII classes. -/
def asciiLower (c : Char) : Char :=
  if decide ('A' ≤ c) && decide (c ≤ 'Z') then Char.ofNat (c.toNat + 32) else c

/-- One position of the UUID expressions: `-` at the four separators, a class elsewhere. -/
def uuidClass (digit version variant : Char → Bool) (i : ℕ) (c : Char) : Bool :=
  if i = 8 ∨ i = 13 ∨ i = 18 ∨ i = 23 then c == '-'
  else if i = 14 then version c
  else if i = 19 then variant c
  else digit c

/-- `UUID_TEXT`: a versioned UUID in either case. -/
def isUuidText (s : String) : Bool :=
  s.toList.length == 36 &&
    (s.toList.map asciiLower).zipIdx.all (fun ci =>
      uuidClass isLowerHex (fun c => decide ('1' ≤ c) && decide (c ≤ '8'))
        (fun c => c == '8' || c == '9' || c == 'a' || c == 'b') ci.2 ci.1)

end XFoilFoam
