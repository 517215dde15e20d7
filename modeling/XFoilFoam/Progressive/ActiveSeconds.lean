import Mathlib.Tactic.Linarith
import XFoilFoam.Progressive.StepEffects

/-! No second is lost or counted twice: a unit's seconds are those of its attempts, and they only
grow. -/
namespace XFoilFoam.Progressive
set_option autoImplicit false

def attemptSeconds (u : CfdUnit) : ℚ := u.history.total Attempt.activeSeconds

structure Advances (u u' : CfdUnit) : Prop where
  drift : u'.activeSeconds - attemptSeconds u' = u.activeSeconds - attemptSeconds u
  unit : u.activeSeconds ≤ u'.activeSeconds
  attempt : ∀ token a, u.history.find? token = some a →
    ∃ a', u'.history.find? token = some a' ∧ a.activeSeconds ≤ a'.activeSeconds

namespace Advances
variable {u u' u'' : CfdUnit}

theorem refl (u : CfdUnit) : Advances u u := ⟨rfl, le_rfl, fun _ a h => ⟨a, h, le_rfl⟩⟩

theorem trans (h : Advances u u') (h' : Advances u' u'') : Advances u u'' := by
  refine ⟨h'.drift.trans h.drift, h.unit.trans h'.unit, ?_⟩
  intro token a ha
  obtain ⟨a', ha', hle⟩ := h.attempt token a ha
  obtain ⟨a'', ha'', hle'⟩ := h'.attempt token a' ha'
  exact ⟨a'', ha'', hle.trans hle'⟩

theorem of_map {f : Uuid → Attempt → Attempt} (hhistory : u'.history = u.history.map f)
    (hf : ∀ token a, (f token a).activeSeconds = a.activeSeconds)
    (hseconds : u'.activeSeconds = u.activeSeconds) : Advances u u' := by
  refine ⟨?_, hseconds.ge, ?_⟩
  · rw [hseconds, attemptSeconds, attemptSeconds, hhistory, Table.total_map _ _ _ hf]
  · intro token a ha
    refine ⟨f token a, ?_, (hf token a).ge⟩
    rw [hhistory, Table.find?_map, ha]
    rfl

end Advances

theorem RowEffect.advances {stray : Uuid → Prop} {u u' : CfdUnit} (h : RowEffect stray u u') :
    Advances u u' := by
  cases h with
  | keep hhistory _ hseconds =>
    refine ⟨?_, hseconds.ge, ?_⟩
    · rw [hseconds, attemptSeconds, attemptSeconds, hhistory]
    · intro token a ha
      exact ⟨a, hhistory ▸ ha, le_rfl⟩
  | lease token a hinsert hzero _ _ hseconds =>
    refine ⟨?_, hseconds.ge, ?_⟩
    · rw [hseconds, attemptSeconds, attemptSeconds, Table.total_insert _ hinsert, hzero, add_zero]
    · intro other b hb
      exact ⟨b, (Table.find?_insert hinsert).2 (.inl hb), le_rfl⟩
  | edit f hhistory hf _ _ hseconds => exact .of_map hhistory hf hseconds
  | settle token f hhistory hf _ _ hseconds =>
    refine .of_map hhistory ?_ hseconds
    intro other a
    split
    · exact hf a
    · rfl
  | measure token a f hfind hhistory _ hle _ hseconds =>
    refine ⟨?_, ?_, ?_⟩
    · rw [hseconds, attemptSeconds, attemptSeconds, hhistory, Table.total_modify f _ hfind]
      ring
    · rw [hseconds]
      linarith
    · intro other b hb
      by_cases hother : other = token
      · subst hother
        rw [hfind] at hb
        cases hb
        refine ⟨f a, ?_, hle⟩
        rw [hhistory, Table.find?_modify_self, hfind]
        rfl
      · refine ⟨b, ?_, le_rfl⟩
        rw [hhistory, Table.find?_modify_ne _ _ hother]
        exact hb

theorem Changes.advances {l : Ledger} {op : Op} {id : Uuid} {u u' : CfdUnit}
    (h : Changes l op id u u') : Advances u u' := by
  rcases h with hone | hmany
  · exact hone.advances
  · induction hmany with
    | refl => exact .refl u
    | tail _ hlast ih => exact ih.trans hlast.effect.advances

/-! ## Steps and runs -/

theorem step_advances {l l' : Ledger} (h : Step l l') :
    (∀ id u, l.units.find? id = some u → ∃ u', l'.units.find? id = some u' ∧ Advances u u') ∧
      ∀ id u', l'.units.find? id = some u' →
        (∃ u, l.units.find? id = some u ∧ Advances u u') ∨ u'.activeSeconds = attemptSeconds u' := by
  obtain ⟨op, -, hop⟩ := h
  rcases exec_changes hop with hrewrites | ⟨id, scope, hinsert⟩
  · have hrow : ∀ id u, l.units.find? id = some u →
        ∃ u', l'.units.find? id = some u' ∧ Advances u u' := by
      intro id u hfind
      obtain ⟨u', hfind', hchanges⟩ := hrewrites.row id u hfind
      exact ⟨u', hfind', hchanges.advances⟩
    refine ⟨hrow, ?_⟩
    intro id u' hfind'
    obtain ⟨u, hfind⟩ := hrewrites.known id u' hfind'
    obtain ⟨u'', hfind'', hadvances⟩ := hrow id u hfind
    rw [hfind'] at hfind''
    cases hfind''
    exact .inl ⟨u, hfind, hadvances⟩
  · obtain ⟨hunits, -⟩ := Ledger.insertUnit?_units hinsert
    refine ⟨fun id u hfind => ⟨u, (Table.find?_insert hunits).2 (.inl hfind), .refl u⟩, ?_⟩
    intro id' u' hfind'
    rcases (Table.find?_insert hunits).1 hfind' with hold | ⟨-, rfl⟩
    · exact .inl ⟨u', hold, .refl u'⟩
    · exact .inr rfl

def measuredRun : List Op :=
  [.insertUnit 1 sampleUnit, .claimUnit (sampleClaims 0) sampleInput 11,
    .compose (sampleCatalog 1) sampleCompose [sampleLease 11 900] 7,
    .heartbeat (sampleCatalog 2) (sampleLease 11 900) 20 120,
    .evidence (sampleCatalog 3) (sampleScope 7) .strict [sampleReceipt 7 30],
    .evidence (sampleCatalog 4) (sampleScope 7) .strict [sampleReceipt 7 30],
    .runtime (sampleCatalog 5) (sampleScope 7) ⟨5, [⟨0, true, 25, 900, "o"⟩]⟩]

end XFoilFoam.Progressive
