import Mathlib.Algebra.Order.Ring.Nat
import Mathlib.Data.Nat.Cast.Defs

/-! The literals of the sources over an arbitrary field, each an instance of its own: a definition then elaborates to
the same term wherever it stands. -/
namespace XFoilFoam

instance atLeastTwo_two : Nat.AtLeastTwo 2 := ⟨by decide⟩
instance atLeastTwo_three : Nat.AtLeastTwo 3 := ⟨by decide⟩
instance atLeastTwo_four : Nat.AtLeastTwo 4 := ⟨by decide⟩
instance atLeastTwo_five : Nat.AtLeastTwo 5 := ⟨by decide⟩
instance atLeastTwo_six : Nat.AtLeastTwo 6 := ⟨by decide⟩
instance atLeastTwo_eight : Nat.AtLeastTwo 8 := ⟨by decide⟩
instance atLeastTwo_ten : Nat.AtLeastTwo 10 := ⟨by decide⟩
instance atLeastTwo_twenty : Nat.AtLeastTwo 20 := ⟨by decide⟩
instance atLeastTwo_hundred : Nat.AtLeastTwo 100 := ⟨by decide⟩
instance atLeastTwo_two_hundred : Nat.AtLeastTwo 200 := ⟨by decide⟩
instance atLeastTwo_thousand : Nat.AtLeastTwo 1000 := ⟨by decide⟩

/-- The indices of triples and of quadruples. -/
instance neZero_three : NeZero 3 := ⟨by decide⟩
instance neZero_four : NeZero 4 := ⟨by decide⟩

end XFoilFoam
