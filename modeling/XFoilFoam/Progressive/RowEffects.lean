import Mathlib.Tactic.Ring
import XFoilFoam.Progressive.Operations

/-! What an operation can do to the attempts, the extension and the seconds of one unit. Every
statement about whole runs is read off from this. -/
namespace XFoilFoam.Progressive
set_option autoImplicit false

def extensionHeldBy (u : CfdUnit) (token : Uuid) : Prop :=
  ∃ e, u.budgetExtension = some e ∧ e.state = .claimed token

/-- The five things an operation does to a unit; `stray` tells which attempts it may end without a
look at the extension. -/
inductive RowEffect (stray : Uuid → Prop) (u u' : CfdUnit) : Prop
  | keep (hhistory : u'.history = u.history) (hext : u'.budgetExtension = u.budgetExtension)
      (hseconds : u'.activeSeconds = u.activeSeconds)
  | lease (token : Uuid) (a : Attempt) (hinsert : u.history.insert? token a = some u'.history)
      (hzero : a.activeSeconds = 0) (hrunning : a.outcome = .running)
      (hext : u'.budgetExtension = u.budgetExtension.map (claimExtension token))
      (hseconds : u'.activeSeconds = u.activeSeconds)
  | edit (f : Uuid → Attempt → Attempt) (hhistory : u'.history = u.history.map f)
      (hf : ∀ token a, (f token a).activeSeconds = a.activeSeconds)
      (hend : ∀ token a, u.history.find? token = some a →
        (f token a).outcome = a.outcome ∨ stray token)
      (hext : u'.budgetExtension = u.budgetExtension)
      (hseconds : u'.activeSeconds = u.activeSeconds)
  | settle (token : Uuid) (f : Attempt → Attempt) (hhistory : u'.history = u.history.modify token f)
      (hf : ∀ a, (f a).activeSeconds = a.activeSeconds)
      (hext : ∀ e, u'.budgetExtension = some e → ∀ other, e.state = .claimed other →
        other ≠ token ∧ ∃ e', u.budgetExtension = some e' ∧ e'.state = .claimed other)
      (hgrants : u'.budgetExtension ≠ none → u.budgetExtension ≠ none ∨ extensible u = true)
      (hseconds : u'.activeSeconds = u.activeSeconds)
  | measure (token : Uuid) (a : Attempt) (f : Attempt → Attempt)
      (hfind : u.history.find? token = some a) (hhistory : u'.history = u.history.modify token f)
      (houtcome : (f a).outcome = a.outcome) (hle : a.activeSeconds ≤ (f a).activeSeconds)
      (hext : u'.budgetExtension = u.budgetExtension)
      (hseconds : u'.activeSeconds = u.activeSeconds + ((f a).activeSeconds - a.activeSeconds))

namespace RowEffect
variable {stray : Uuid → Prop} {u u' v : CfdUnit}

theorem refl (u : CfdUnit) : RowEffect stray u u := .keep rfl rfl rfl

theorem congr (h : RowEffect stray u u') (hhistory : v.history = u'.history)
    (hext : v.budgetExtension = u'.budgetExtension) (hseconds : v.activeSeconds = u'.activeSeconds) :
    RowEffect stray u v := by
  cases h with
  | keep h₁ h₂ h₃ => exact .keep (hhistory.trans h₁) (hext.trans h₂) (hseconds.trans h₃)
  | lease token a h₁ h₂ h₃ h₄ h₅ =>
    exact .lease token a (hhistory ▸ h₁) h₂ h₃ (hext.trans h₄) (hseconds.trans h₅)
  | edit f h₁ h₂ h₃ h₄ h₅ =>
    exact .edit f (hhistory.trans h₁) h₂ h₃ (hext.trans h₄) (hseconds.trans h₅)
  | settle token f h₁ h₂ h₃ h₄ h₅ =>
    exact .settle token f (hhistory.trans h₁) h₂ (by rw [hext]; exact h₃) (by rw [hext]; exact h₄)
      (hseconds.trans h₅)
  | measure token a f h₁ h₂ h₃ h₄ h₅ h₆ =>
    exact .measure token a f h₁ (hhistory.trans h₂) h₃ h₄ (hext.trans h₅) (hseconds.trans h₆)

theorem keepScope {f : Uuid → CfdUnit → CfdUnit} {id : Uuid} (h : RowEffect stray u (f id u)) :
    RowEffect stray u (Progressive.keepScope f id u) := h.congr rfl rfl rfl

theorem congr_left (h : RowEffect stray u u') (hscope : v.toUnitScope = u.toUnitScope)
    (hhistory : v.history = u.history)
    (hext : v.budgetExtension = u.budgetExtension) (hseconds : v.activeSeconds = u.activeSeconds) :
    RowEffect stray v u' := by
  cases h with
  | keep h₁ h₂ h₃ =>
    exact .keep (h₁.trans hhistory.symm) (h₂.trans hext.symm) (h₃.trans hseconds.symm)
  | lease token a h₁ h₂ h₃ h₄ h₅ =>
    exact .lease token a (hhistory ▸ h₁) h₂ h₃ (hext ▸ h₄) (h₅.trans hseconds.symm)
  | edit f h₁ h₂ h₃ h₄ h₅ =>
    exact .edit f (hhistory ▸ h₁) h₂ (hhistory ▸ h₃) (h₄.trans hext.symm) (h₅.trans hseconds.symm)
  | settle token f h₁ h₂ h₃ h₄ h₅ =>
    refine .settle token f (hhistory ▸ h₁) h₂ (hext ▸ h₃) ?_ (h₅.trans hseconds.symm)
    rw [extensible, hscope, hext]
    exact h₄
  | measure token a f h₁ h₂ h₃ h₄ h₅ h₆ =>
    exact .measure token a f (hhistory ▸ h₁) (hhistory ▸ h₂) h₃ h₄ (h₅.trans hext.symm)
      (by rw [h₆, hseconds])

theorem setAttempt {token : Uuid} {f : Attempt → Attempt} (hhistory : v.history = u.history.modify token f)
    (hf : ∀ a, (f a).activeSeconds = a.activeSeconds)
    (hend : ∀ a, u.history.find? token = some a → (f a).outcome = a.outcome ∨ stray token)
    (hext : v.budgetExtension = u.budgetExtension) (hseconds : v.activeSeconds = u.activeSeconds) :
    RowEffect stray u v := by
  refine .edit (fun k a => if k = token then f a else a) hhistory ?_ ?_ hext hseconds
  · intro k a
    split
    · exact hf a
    · rfl
  · intro k a hfind
    by_cases hk : k = token
    · subst hk
      rw [if_pos rfl]
      exact hend a hfind
    · rw [if_neg hk]
      exact .inl rfl

end RowEffect

/-! ## From rows to the ledger -/

/-- The same units, each changed as `R` allows. -/
structure Rewrites (R : Uuid → CfdUnit → CfdUnit → Prop) (l l' : Ledger) : Prop where
  row : ∀ id u, l.units.find? id = some u → ∃ u', l'.units.find? id = some u' ∧ R id u u'
  known : ∀ id u', l'.units.find? id = some u' → ∃ u, l.units.find? id = some u
  scope : ∀ id u u', l.units.find? id = some u → l'.units.find? id = some u' →
    u'.toUnitScope = u.toUnitScope

namespace Rewrites
variable {R S : Uuid → CfdUnit → CfdUnit → Prop} {l l' l'' : Ledger}

theorem of_units_eq (h : l'.units = l.units) (hrefl : ∀ id u, R id u u) : Rewrites R l l' := by
  constructor
  · intro id u hfind
    exact ⟨u, h ▸ hfind, hrefl id u⟩
  · intro id u' hfind
    exact ⟨u', h ▸ hfind⟩
  · intro id u u' hfind hfind'
    rw [h, hfind] at hfind'
    cases hfind'
    rfl

theorem mapUnits {f : Uuid → CfdUnit → CfdUnit} (hunits : l'.units = (l.mapUnits f).units)
    (hf : ∀ id u, l.units.find? id = some u → R id u (keepScope f id u)) : Rewrites R l l' := by
  constructor
  · intro id u hfind
    refine ⟨keepScope f id u, ?_, hf id u hfind⟩
    rw [hunits, Ledger.find?_mapUnits, hfind]
    rfl
  · intro id u' hfind
    rw [hunits, Ledger.find?_mapUnits, Option.map_eq_some_iff] at hfind
    obtain ⟨u, hu, -⟩ := hfind
    exact ⟨u, hu⟩
  · intro id u u' hfind hfind'
    rw [hunits, Ledger.find?_mapUnits, hfind] at hfind'
    cases hfind'
    rfl

theorem of_twice {f g : Uuid → CfdUnit → CfdUnit}
    (hunits : l'.units = ((l.mapUnits f).mapUnits g).units)
    (hrow : ∀ id u, l.units.find? id = some u → ∃ u', l'.units.find? id = some u' ∧ R id u u') :
    Rewrites R l l' := by
  constructor
  · exact hrow
  · intro id u' hfind
    rw [hunits, Ledger.find?_mapUnits, Ledger.find?_mapUnits] at hfind
    cases hu : l.units.find? id with
    | none => simp [hu] at hfind
    | some u => exact ⟨u, rfl⟩
  · intro id u u' hfind hfind'
    rw [hunits, Ledger.find?_mapUnits, Ledger.find?_mapUnits, hfind] at hfind'
    cases hfind'
    rfl

theorem modifyUnit {id : Uuid} {f : CfdUnit → CfdUnit} (hrefl : ∀ id u, R id u u)
    (hf : ∀ u, l.units.find? id = some u → R id u { f u with toUnitScope := u.toUnitScope }) :
    Rewrites R l (l.modifyUnit id f) := by
  apply mapUnits rfl
  intro id' u hfind
  by_cases hid : id' = id
  · subst hid
    simpa [keepScope] using hf u hfind
  · simpa [keepScope, hid] using hrefl id' u

theorem mono (h : Rewrites R l l')
    (hRS : ∀ id u u', l.units.find? id = some u → R id u u' → S id u u') : Rewrites S l l' := by
  constructor
  · intro id u hfind
    obtain ⟨u', hfind', hR⟩ := h.row id u hfind
    exact ⟨u', hfind', hRS id u u' hfind hR⟩
  · exact h.known
  · exact h.scope

theorem trans {R : CfdUnit → CfdUnit → Prop} (h : Rewrites (fun _ => Relation.ReflTransGen R) l l')
    (h' : Rewrites (fun _ => Relation.ReflTransGen R) l' l'') :
    Rewrites (fun _ => Relation.ReflTransGen R) l l'' := by
  constructor
  · intro id u hfind
    obtain ⟨u', hfind', hR⟩ := h.row id u hfind
    obtain ⟨u'', hfind'', hR'⟩ := h'.row id u' hfind'
    exact ⟨u'', hfind'', hR.trans hR'⟩
  · intro id u'' hfind
    obtain ⟨u', hfind'⟩ := h'.known id u'' hfind
    exact h.known id u' hfind'
  · intro id u u'' hfind hfind''
    obtain ⟨u', hfind'⟩ := h'.known id u'' hfind''
    exact (h'.scope id u' u'' hfind' hfind'').trans (h.scope id u u' hfind hfind')

end Rewrites

/-- An effect on a row in its place that ends no attempt outside a settlement. -/
structure CleanEffect (u u' : CfdUnit) : Prop where
  scope : u'.toUnitScope = u.toUnitScope
  effect : RowEffect (fun _ => False) u u'

abbrev Effects : Uuid → CfdUnit → CfdUnit → Prop := fun _ => Relation.ReflTransGen CleanEffect

theorem effects_refl (id : Uuid) (u : CfdUnit) : Effects id u u := Relation.ReflTransGen.refl

/-! ## Claims -/

theorem leaseRow_effect {cat : ClaimCatalog} {input : ClaimInput} {token : Uuid} {u : CfdUnit}
    (h : u.history.find? token = none) : RowEffect (fun _ => False) u (leaseRow cat input token u) := by
  obtain ⟨history, hinsert⟩ := Table.exists_insert h (newAttempt cat input u)
  refine .lease token (newAttempt cat input u) ?_ rfl rfl rfl rfl
  simp [leaseRow, hinsert]

theorem unused_token {l : Ledger} {token id : Uuid} {u : CfdUnit} (h : l.tokenUsed token = false)
    (hfind : l.units.find? id = some u) : u.history.find? token = none := by
  simp only [Ledger.tokenUsed, List.any_eq_false, Bool.not_eq_true] at h
  have hrow := h (id, u) (Table.mem_of_find? hfind)
  simpa using hrow

theorem claimUnit_cases {cat : ClaimCatalog} {input : ClaimInput} {token : Uuid} {l : Ledger}
    {result : Option (Ledger × CfdLease)} (h : claimProgressiveCfdUnit cat input token l = .ok result) :
    result = none ∨ ∃ id u, (candidates cat input l).head? = some (id, u) ∧ l.tokenUsed token = false ∧
      result = some (l.modifyUnit id (leaseRow cat input token), leaseOf cat input token id u) := by
  unfold claimProgressiveCfdUnit at h
  split at h
  · cases h
  split at h
  · cases h
    exact .inl rfl
  split at h
  · cases h
    exact .inl rfl
  split at h
  · cases h
    exact .inl rfl
  · split at h
    · cases h
    · rename_i id u hhead hfree
      cases h
      rw [Bool.not_eq_true, Bool.or_eq_false_iff] at hfree
      exact .inr ⟨id, u, hhead, hfree.1, rfl⟩

theorem claimUnit_effects {cat : ClaimCatalog} {input : ClaimInput} {token : Uuid} {l l' : Ledger}
    {lease : CfdLease} (h : claimProgressiveCfdUnit cat input token l = .ok (some (l', lease))) :
    Rewrites Effects l l' := by
  obtain hnone | ⟨id, u, -, hfree, hresult⟩ := claimUnit_cases h
  · cases hnone
  · cases hresult
    apply Rewrites.modifyUnit effects_refl
    intro v hfind
    exact .single ⟨rfl, (leaseRow_effect (unused_token hfree hfind)).congr rfl rfl rfl⟩

theorem claimRest_effects {cat : ClaimCatalog} {input : ClaimInput} {tokens : ℕ → Uuid} {n i : ℕ}
    {l l' : Ledger} {leases : List CfdLease} (h : claimRest cat input tokens n i l = .ok (l', leases)) :
    Rewrites Effects l l' := by
  induction n generalizing i l leases with
  | zero =>
    cases h
    exact Rewrites.of_units_eq rfl effects_refl
  | succ n ih =>
    unfold claimRest at h
    split at h
    · cases h
    · cases h
      exact Rewrites.of_units_eq rfl effects_refl
    · rename_i l₁ next hclaim
      split at h
      · cases h
        exact claimUnit_effects hclaim
      · split at h
        · cases h
        · rename_i l₂ rest hrest
          cases h
          exact (claimUnit_effects hclaim).trans (ih hrest)

theorem claimBatch_effects {cat : ClaimCatalog} {input : ClaimInput} {maximum : Option ℤ}
    {tokens : ℕ → Uuid} {l l' : Ledger} {leases : List CfdLease}
    (h : claimProgressiveCfdBatch cat input maximum tokens l = .ok (l', leases)) :
    Rewrites Effects l l' := by
  unfold claimProgressiveCfdBatch at h
  split at h
  · cases h
    exact Rewrites.of_units_eq rfl effects_refl
  split at h
  · cases h
  · cases h
    exact Rewrites.of_units_eq rfl effects_refl
  · rename_i l₁ first hclaim
    simp only at h
    split at h
    · cases h
    split at h
    · cases h
      exact claimUnit_effects hclaim
    split at h
    · cases h
    · rename_i l₂ rest hrest
      cases h
      exact (claimUnit_effects hclaim).trans (claimRest_effects hrest)

/-! ## Measured time -/

theorem heartbeat_effects {cat : Catalog} {lease : CfdLease} {seconds remaining : ℚ} {leaseSeconds : ℤ}
    {l l' : Ledger}
    (h : heartbeatProgressiveCfdUnit cat lease seconds leaseSeconds l = .ok (l', remaining)) :
    Rewrites Effects l l' := by
  unfold heartbeatProgressiveCfdUnit at h
  split at h
  · cases h
  split at h
  · cases h
  split at h
  · cases h
  split at h
  · cases h
  rename_i u hunit
  split at h
  · rename_i _ a _ hattempt
    split at h
    · cases h
    split at h
    · cases h
    rename_i hnot
    cases h
    apply Rewrites.modifyUnit effects_refl
    intro v hfind
    rw [hunit] at hfind
    cases hfind
    refine .single ⟨rfl, .measure lease.token a (fun a => { a with activeSeconds := seconds }) hattempt
      rfl rfl (not_lt.1 hnot) rfl ?_⟩
    simp only [heartbeatRow]
    ring
  · cases h

/-- The copies a loop works with agree with the rows they were read from, one copy for each unit. -/
structure Agrees (l : Ledger) (bound : List BoundUnit) : Prop where
  nodup : (bound.map BoundUnit.unitId).Nodup
  rows : ∀ b ∈ bound, ∃ u a, l.units.find? b.unitId = some u ∧ u.history.find? b.token = some a ∧
    a.activeSeconds = b.activeSeconds ∧ u.activeSeconds = b.unitSeconds

theorem boundRows_ids (scope : JobScope) (rows : List (Uuid × CfdUnit)) :
    List.Sublist ((rows.filterMap fun r => (r.2.attemptOf scope.simJobId).map fun attempt =>
      (r.2, attempt.2, boundUnit scope r.1 r.2 attempt.1 attempt.2)).map fun r => r.2.2.unitId)
      (rows.map Prod.fst) := by
  induction rows with
  | nil => exact .refl _
  | cons row rows ih =>
    cases hattempt : row.2.attemptOf scope.simJobId with
    | none =>
      rw [List.filterMap_cons_none (by rw [hattempt]; rfl), List.map_cons]
      exact ih.cons _
    | some attempt =>
      rw [List.filterMap_cons_some (by rw [hattempt]; rfl), List.map_cons, List.map_cons]
      exact ih.cons_cons _

theorem attemptOf_mem {u : CfdUnit} {job token : Uuid} {a : Attempt}
    (h : u.attemptOf job = some (token, a)) :
    u.history.find? token = some a ∧ a.simJobId = some job := by
  unfold CfdUnit.attemptOf at h
  exact ⟨Table.find?_of_mem (List.mem_of_find?_eq_some h), by simpa using List.find?_some h⟩

theorem lockJobScope_agrees {cat : Catalog} {scope : JobScope} {policy : JobScopePolicy} {l : Ledger}
    {bound : List BoundUnit} (h : lockJobScope cat scope policy l = .ok bound) : Agrees l bound := by
  unfold lockJobScope at h
  simp only at h
  split at h
  · cases h
  split at h
  · cases h
  cases h
  constructor
  · rw [List.map_map]
    exact (boundRows_ids scope l.units.rows).nodup l.units.nodup
  · intro b hb
    simp only [boundRows, List.mem_map, List.mem_filterMap, Option.map_eq_some_iff] at hb
    obtain ⟨row, ⟨⟨id, u⟩, hmem, ⟨token, a⟩, hattempt, rfl⟩, rfl⟩ := hb
    exact ⟨u, a, Table.find?_of_mem hmem, (attemptOf_mem hattempt).1, rfl, rfl⟩

theorem Agrees.advance {l : Ledger} {bound : List BoundUnit} {b b' : BoundUnit} {g : CfdUnit → CfdUnit}
    (h : Agrees l bound) (hb : b ∈ bound) (f : Attempt → Attempt) (observed : ℚ)
    (hunit : b'.unitId = b.unitId) (htoken : b'.token = b.token)
    (hactive : b'.activeSeconds = max b.activeSeconds observed)
    (hseconds : b'.unitSeconds = b.unitSeconds + max b.activeSeconds observed - b.activeSeconds)
    (hhistory : ∀ u, (g u).history = u.history.modify b.token f)
    (hf : ∀ a, (f a).activeSeconds = b'.activeSeconds) (houtcome : ∀ a, (f a).outcome = a.outcome)
    (hext : ∀ u, (g u).budgetExtension = u.budgetExtension)
    (hunitSeconds : ∀ u, (g u).activeSeconds = b'.unitSeconds) :
    Rewrites Effects l (l.modifyUnit b.unitId g) ∧
      Agrees (l.modifyUnit b.unitId g) (replaceBound bound b') := by
  obtain ⟨u, a, hfind, hattempt, ha, hu⟩ := h.rows b hb
  refine ⟨?_, ?_, ?_⟩
  · apply Rewrites.modifyUnit effects_refl
    intro v hv
    rw [hfind] at hv
    cases hv
    refine .single ⟨rfl, .measure b.token a f hattempt (hhistory u) (houtcome a) ?_ (hext u) ?_⟩
    · rw [hf, hactive, ha]
      exact le_max_left _ _
    · change (g u).activeSeconds = _
      rw [hunitSeconds, hf, hactive, hseconds, hu, ha]
      ring
  · have hids : (replaceBound bound b').map BoundUnit.unitId = bound.map BoundUnit.unitId := by
      rw [replaceBound, List.map_map]
      apply List.map_congr_left
      intro c _
      by_cases hc : c.unitId = b'.unitId
      · simp [hc]
      · simp [hc]
    rw [hids]
    exact h.nodup
  · intro c hc
    obtain ⟨c₀, hc₀, rfl⟩ := List.mem_map.1 hc
    by_cases hid : c₀.unitId = b'.unitId
    · rw [if_pos hid]
      refine ⟨{ g u with toUnitScope := u.toUnitScope }, f a, ?_, ?_, hf a, hunitSeconds u⟩
      · rw [Ledger.modifyUnit, Ledger.find?_mapUnits, hunit, hfind]
        simp [keepScope]
      · change (g u).history.find? b'.token = _
        rw [hhistory, htoken, Table.find?_modify_self, hattempt]
        rfl
    · rw [if_neg hid]
      obtain ⟨v, a', hv, ha', hrest⟩ := h.rows c₀ hc₀
      refine ⟨v, a', ?_, ha', hrest⟩
      rw [Ledger.modifyUnit, Ledger.find?_mapUnits, hv]
      simp [keepScope, hunit ▸ hid]

theorem runtimeCase_effects {cat : Catalog} {scope : JobScope} {observedAt : ℤ} {observed : ObservedCase}
    {seen : List ℚ} {l l' : Ledger} {bound bound' : List BoundUnit} (hagrees : Agrees l bound)
    (h : recordRuntimeCase cat scope observedAt observed seen l bound = .ok (l', bound')) :
    Rewrites Effects l l' ∧ Agrees l' bound' := by
  have hsame : Rewrites Effects l l ∧ Agrees l bound :=
    ⟨Rewrites.of_units_eq rfl effects_refl, hagrees⟩
  unfold recordRuntimeCase at h
  split at h
  · cases h
  rename_i b hb
  split at h
  · cases h
  split at h
  · cases h
    exact hsame
  simp only at h
  split at h
  · cases h
  · cases h
  · cases h
  · cases h
    exact hsame
  · cases h
    exact hsame
  · cases h
    exact hagrees.advance (List.mem_of_find?_eq_some hb) (runtimeAttempt _ _)
      observed.solverActiveSeconds rfl rfl rfl rfl (fun _ => rfl) (fun _ => rfl) (fun _ => rfl)
      (fun _ => rfl) (fun _ => rfl)

theorem runtimeCases_effects {cat : Catalog} {scope : JobScope} {observedAt : ℤ}
    {cases : List ObservedCase} {seen : List ℚ} {l l' : Ledger} {bound : List BoundUnit}
    (hagrees : Agrees l bound)
    (h : recordRuntimeCases cat scope observedAt cases seen l bound = .ok l') :
    Rewrites Effects l l' := by
  induction cases generalizing seen l bound with
  | nil =>
    cases h
    exact Rewrites.of_units_eq rfl effects_refl
  | cons observed rest ih =>
    unfold recordRuntimeCases at h
    split at h
    · cases h
    · rename_i l₁ bound₁ hcase
      obtain ⟨hstep, hagrees₁⟩ := runtimeCase_effects hagrees hcase
      exact hstep.trans (ih hagrees₁ h)

theorem runtime_effects {cat : Catalog} {scope : JobScope} {progress : RuntimeObservation} {l l' : Ledger}
    (h : recordProgressiveCfdRuntimeProgress cat scope progress l = .ok l') : Rewrites Effects l l' := by
  unfold recordProgressiveCfdRuntimeProgress at h
  split at h
  · cases h
  split at h
  · cases h
  · rename_i bound hlock
    exact runtimeCases_effects (lockJobScope_agrees hlock) h

theorem evidenceRow_effects {policy : JobScopePolicy} {row : EvidenceRow} {l l' : Ledger}
    {bound bound' : List BoundUnit} (hagrees : Agrees l bound)
    (h : recordEvidenceRow policy row l bound = .ok (l', bound')) :
    Rewrites Effects l l' ∧ Agrees l' bound' := by
  unfold recordEvidenceRow at h
  split at h
  · cases h
  rename_i b hb
  split at h
  · cases h
  split at h
  · cases h
  rename_i duration _
  split at h
  · cases h
  split at h
  · cases h
  simp only at h
  split at h
  · cases h
  · cases h
    exact hagrees.advance (List.mem_of_find?_eq_some hb) (evidenceAttempt _ _) duration rfl rfl rfl rfl
      (fun _ => rfl) (fun _ => rfl) (fun _ => rfl) (fun _ => rfl) (fun _ => rfl)

theorem evidenceRows_effects {policy : JobScopePolicy} {rows : List EvidenceRow} {l l' : Ledger}
    {bound bound' : List BoundUnit} (hagrees : Agrees l bound)
    (h : recordEvidenceRows policy rows l bound = .ok (l', bound')) : Rewrites Effects l l' := by
  induction rows generalizing l bound with
  | nil =>
    cases h
    exact Rewrites.of_units_eq rfl effects_refl
  | cons row rest ih =>
    unfold recordEvidenceRows at h
    split at h
    · cases h
    · rename_i l₁ bound₁ hrow
      obtain ⟨hstep, hagrees₁⟩ := evidenceRow_effects hagrees hrow
      exact hstep.trans (ih hagrees₁ h)

theorem evidence_effects {cat : Catalog} {scope : JobScope} {policy : JobScopePolicy}
    {rows : List EvidenceRow} {l l' : Ledger} {stop : Bool}
    (h : recordProgressiveCfdEvidence cat scope policy rows l = .ok (l', stop)) :
    Rewrites Effects l l' := by
  unfold recordProgressiveCfdEvidence at h
  split at h
  · cases h
  split at h
  · cases h
  rename_i bound hlock
  split at h
  · cases h
  · rename_i l₁ bound₁ hrows
    cases h
    exact evidenceRows_effects (lockJobScope_agrees hlock) hrows

end XFoilFoam.Progressive
