import XFoilFoam.Foundations.JsValue
import Mathlib.Data.List.Sort

/-! JSON text with sorted keys.  `canonical` sorts the keys of every object, `tokens` is the text as
`JSON.stringify` lays it out, and reading a key gives the same before and after sorting. -/
namespace XFoilFoam
set_option autoImplicit false

/-- Comparison of keys by `localeCompare`: all that matters of a locale is which key stands first, and
that a key never stands behind itself. -/
structure KeyOrder where
  le : String → String → Bool
  refl : ∀ key, le key key = true

inductive JsonToken (F : Type) where
  | null
  | bool (b : Bool)
  | num (x : F)
  | str (s : String)
  | key (s : String)
  | openArr
  | closeArr
  | openObj
  | closeObj
  deriving DecidableEq

namespace JsValue
variable {F : Type}

/-! ## Sorting the keys -/

mutual
def canonical (order : KeyOrder) : JsValue F → JsValue F
  | arr xs => arr (canonicalList order xs)
  | obj fields =>
    obj ((canonicalFields order fields).insertionSort (fun x y => order.le x.1 y.1 = true))
  | undefined => undefined
  | null => null
  | bool b => bool b
  | num x => num x
  | str s => str s
def canonicalList (order : KeyOrder) : List (JsValue F) → List (JsValue F)
  | [] => []
  | x :: xs => canonical order x :: canonicalList order xs
def canonicalFields (order : KeyOrder) : List (String × JsValue F) → List (String × JsValue F)
  | [] => []
  | (key, x) :: fields => (key, canonical order x) :: canonicalFields order fields
end

attribute [local simp] canonical canonicalList canonicalFields

variable (order : KeyOrder)

theorem canonicalList_map (xs : List (JsValue F)) :
    canonicalList order xs = xs.map (canonical order) := by
  induction xs with
  | nil => simp
  | cons x xs ih => simp [ih]

theorem canonicalFields_find (fields : List (String × JsValue F)) (key : String) :
    (canonicalFields order fields).find? (fun field => field.1 == key) =
      (fields.find? (fun field => field.1 == key)).map
        (fun field => (field.1, canonical order field.2)) := by
  induction fields with
  | nil => simp
  | cons field fields ih =>
    obtain ⟨name, x⟩ := field
    by_cases hname : name == key
    · simp [hname]
    · simp [hname, ih]

theorem orderedInsert_find (field : String × JsValue F) (fields : List (String × JsValue F))
    (key : String) :
    (fields.orderedInsert (fun x y => order.le x.1 y.1 = true) field).find?
        (fun f => f.1 == key) =
      (field :: fields).find? (fun f => f.1 == key) := by
  induction fields with
  | nil => rfl
  | cons head fields ih =>
    rw [List.orderedInsert_cons]
    split
    · rfl
    · next hle =>
      by_cases hhead : head.1 == key
      · have hfield : (field.1 == key) = false := by
          rw [beq_eq_false_iff_ne]
          intro hkey
          apply hle
          rw [hkey, ← beq_iff_eq.mp hhead]
          exact order.refl _
        simp [hhead, hfield]
      · simp only [List.find?_cons] at ih ⊢
        simp only [Bool.not_eq_true] at hhead
        rw [hhead]
        exact ih

theorem insertionSort_find (fields : List (String × JsValue F)) (key : String) :
    (fields.insertionSort (fun x y => order.le x.1 y.1 = true)).find? (fun f => f.1 == key) =
      fields.find? (fun f => f.1 == key) := by
  induction fields with
  | nil => rfl
  | cons field fields ih =>
    rw [List.insertionSort_cons, orderedInsert_find, List.find?_cons, List.find?_cons, ih]

@[simp] theorem get_canonical (v : JsValue F) (key : String) :
    (canonical order v).get key = canonical order (v.get key) := by
  cases v with
  | obj fields =>
    simp only [canonical, get, insertionSort_find, canonicalFields_find]
    cases fields.find? (fun field => field.1 == key) with
    | none => simp
    | some field => simp
  | _ => simp [get]

@[simp] theorem isNull_canonical (v : JsValue F) : (canonical order v).isNull = v.isNull := by
  cases v <;> simp [isNull]

@[simp] theorem isRecord_canonical (v : JsValue F) : (canonical order v).isRecord = v.isRecord := by
  cases v <;> simp [isRecord]

@[simp] theorem isStr_canonical (v : JsValue F) (text : String) :
    (canonical order v).isStr text = v.isStr text := by
  cases v <;> simp [isStr]

@[simp] theorem elements_canonical (v : JsValue F) :
    (canonical order v).elements = v.elements.map (canonical order) := by
  cases v <;> simp [elements, canonicalList_map]

/-! ## Text -/

mutual
/-- What `JSON.stringify` prints, as tokens. -/
def tokens : JsValue F → List (JsonToken F)
  | undefined => []
  | null => [.null]
  | bool b => [.bool b]
  | num x => [.num x]
  | str s => [.str s]
  | arr xs => .openArr :: tokensList xs
  | obj fields => .openObj :: tokensFields fields
def tokensList : List (JsValue F) → List (JsonToken F)
  | [] => [.closeArr]
  | x :: xs => tokens x ++ tokensList xs
def tokensFields : List (String × JsValue F) → List (JsonToken F)
  | [] => [.closeObj]
  | (key, x) :: fields => .key key :: (tokens x ++ tokensFields fields)
end

variable [Binary64 F]

mutual
/-- A finite, explicit JSON value: no `undefined`, NaN or infinity anywhere. -/
def isJson : JsValue F → Bool
  | undefined => false
  | num x => Binary64.isFinite x
  | arr xs => isJsonList xs
  | obj fields => isJsonFields fields
  | null => true
  | bool _ => true
  | str _ => true
def isJsonList : List (JsValue F) → Bool
  | [] => true
  | x :: xs => isJson x && isJsonList xs
def isJsonFields : List (String × JsValue F) → Bool
  | [] => true
  | (_, x) :: fields => isJson x && isJsonFields fields
end

def canonicalAnalysisJson (v : JsValue F) : Except String (List (JsonToken F)) :=
  if v.isJson then .ok (v.canonical order).tokens
  else .error "Analysis identity requires finite, explicit JSON values"

end JsValue

end XFoilFoam
