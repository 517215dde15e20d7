import Mathlib.Order.Basic

/-! The three truth values of SQL conditions.  A `WHERE` keeps a row whose condition holds; one that is unknown is dropped
like one that fails. -/
namespace XFoilFoam
set_option autoImplicit false

inductive SqlTruth where
  | holds
  | unknown
  | fails
  deriving DecidableEq

namespace SqlTruth

def ofBool (b : Bool) : SqlTruth := if b then .holds else .fails

def not : SqlTruth → SqlTruth
  | .holds => .fails
  | .unknown => .unknown
  | .fails => .holds

def and : SqlTruth → SqlTruth → SqlTruth
  | .fails, _ => .fails
  | _, .fails => .fails
  | .holds, .holds => .holds
  | _, _ => .unknown

def or : SqlTruth → SqlTruth → SqlTruth
  | .holds, _ => .holds
  | _, .holds => .holds
  | .fails, .fails => .fails
  | _, _ => .unknown

/-- The rows of a `WHERE`. -/
def admits (t : SqlTruth) : Bool := decide (t = .holds)

def compare {α : Type} (r : α → α → Bool) : Option α → Option α → SqlTruth
  | some x, some y => ofBool (r x y)
  | _, _ => .unknown

/-- `EXISTS (SELECT 1 FROM rows WHERE …)`. -/
def existsRow {ρ : Type} (rows : List ρ) (condition : ρ → SqlTruth) : SqlTruth :=
  ofBool (rows.any fun row => (condition row).admits)

/-- A scalar subquery: without a row its value is null. -/
def scalar : Option SqlTruth → SqlTruth
  | some t => t
  | none => .unknown

def coalesce (t : SqlTruth) (default : Bool) : SqlTruth :=
  match t with
  | .unknown => ofBool default
  | _ => t

theorem ofBool_eq_holds {b : Bool} : ofBool b = .holds ↔ b = true := by
  cases b <;> simp [ofBool]

@[simp] theorem not_ofBool (b : Bool) : (ofBool b).not = ofBool (!b) := by
  cases b <;> rfl

@[simp] theorem and_ofBool (a b : Bool) : (ofBool a).and (ofBool b) = ofBool (a && b) := by
  cases a <;> cases b <;> rfl

@[simp] theorem coalesce_ofBool (b default : Bool) : (ofBool b).coalesce default = ofBool b := by
  cases b <;> rfl

theorem or_eq_holds {a b : SqlTruth} : a.or b = .holds ↔ a = .holds ∨ b = .holds := by
  cases a <;> cases b <;> simp [or]

theorem and_eq_holds {a b : SqlTruth} : a.and b = .holds ↔ a = .holds ∧ b = .holds := by
  cases a <;> cases b <;> simp [and]

theorem not_existsRow {ρ : Type} (rows : List ρ) (condition : ρ → SqlTruth) :
    (existsRow rows condition).not = ofBool (!rows.any fun row => (condition row).admits) := not_ofBool _

theorem not_existsRow_eq_holds {ρ : Type} {rows : List ρ} {condition : ρ → SqlTruth} :
    (existsRow rows condition).not = .holds ↔ ∀ row ∈ rows, condition row ≠ .holds := by
  rw [not_existsRow, ofBool_eq_holds, Bool.not_eq_true', List.any_eq_false]
  simp [admits]

end SqlTruth

end XFoilFoam
