import Mathlib.Logic.Relation

/-! Runs of a step relation, and the rule that carries an invariant along them. -/
namespace XFoilFoam
set_option autoImplicit false

variable {σ : Type}

/-- The states some run reaches from an initial one. -/
def Reachable (init : σ → Prop) (step : σ → σ → Prop) (s : σ) : Prop :=
  ∃ s₀, init s₀ ∧ Relation.ReflTransGen step s₀ s

namespace Reachable
variable {init : σ → Prop} {step : σ → σ → Prop} {s s' : σ}

theorem start (h : init s) : Reachable init step s := ⟨s, h, .refl⟩

theorem next (h : Reachable init step s) (hs : step s s') : Reachable init step s' := by
  obtain ⟨s₀, h₀, hrun⟩ := h
  exact ⟨s₀, h₀, hrun.tail hs⟩

theorem invariant {P : σ → Prop} (h : Reachable init step s) (hinit : ∀ s, init s → P s)
    (hstep : ∀ s s', P s → step s s' → P s') : P s := by
  obtain ⟨s₀, h₀, hrun⟩ := h
  induction hrun with
  | refl => exact hinit s₀ h₀
  | tail _ hs ih => exact hstep _ _ ih hs

end Reachable

end XFoilFoam
