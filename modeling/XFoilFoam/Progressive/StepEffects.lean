import XFoilFoam.Foundations.ExceptLists
import XFoilFoam.Progressive.RowEffects

/-! The effect of settlements and recovery passes, and of every step. -/
namespace XFoilFoam.Progressive
set_option autoImplicit false

def runningFor (u : CfdUnit) (job token : Uuid) : Bool :=
  (u.attemptOf job).any fun attempt => attempt.1 = token && attempt.2.outcome = .running

/-- The job is terminal and read in, so the settlement goes on to its units. -/
def decidesUnits (cat : Catalog) (job : Uuid) (l : Ledger) : Bool :=
  (cat.job job).status ∈ [JobStatus.done, .failed, .cancelled, .ingesting] &&
    !awaitsIngestion cat job (l.mapUnits fun _ => expireLease cat job)

/-- The attempts an operation ends without moving an extension they claimed. -/
def endsOutsideSettlement (l : Ledger) (op : Op) (id : Uuid) (u : CfdUnit) (token : Uuid) : Bool :=
  match op with
  | .recoverUnbound cat campaign picked =>
    expiredUnbound cat u = some token && picked id && unboundScope cat l campaign u
  | .recoverTerminal cat facts => strandedAttempt cat facts l id u = some token
  | .releaseMissing cat job hasResultAttempts =>
    (cat.job job).status = .cancelled && (cat.job job).engineState = some .cancelled &&
      !(hasResultAttempts || (attemptsOf l job).any fun a => a.evidence ≠ []) && runningFor u job token
  | .settleInactive scope promiseInactive =>
    (l.stops.find? scope.simJobId).isSome && promiseInactive && runningFor u scope.simJobId token
  | .cancelObsolete cat campaign =>
    (cat.generation u.work.generationId).status = .cancelled &&
      (campaign.all fun c => (cat.generation u.work.generationId).campaignId = c) &&
      (u.history.find? token).any fun a => a.outcome = .running && a.simJobId = none
  | .settle cat input =>
    decidesUnits cat input.simJobId l &&
      ((settlingOf cat input l u).any fun s => s.token = token && s.attempt.outcome = .running &&
        (input.recoverStoredEvidence.isNone || s.historical)) &&
      (!cat.currentScope u.work || u.state = .cancelled)
  | _ => false

def Stray (l : Ledger) (op : Op) (id : Uuid) (u : CfdUnit) (token : Uuid) : Prop :=
  endsOutsideSettlement l op id u token = true

theorem keepScope_eq {f : Uuid → CfdUnit → CfdUnit} {id : Uuid} {u : CfdUnit}
    (h : (f id u).toUnitScope = u.toUnitScope) : keepScope f id u = f id u := by
  rw [keepScope, ← h]

/-! ## Settlement -/

theorem expireLease_columns (cat : Catalog) (job : Uuid) (u : CfdUnit) :
    (expireLease cat job u).toUnitScope = u.toUnitScope ∧
      (expireLease cat job u).history = u.history ∧
      (expireLease cat job u).budgetExtension = u.budgetExtension ∧
      (expireLease cat job u).activeSeconds = u.activeSeconds := by
  unfold expireLease
  split
  · split <;> exact ⟨rfl, rfl, rfl, rfl⟩
  · exact ⟨rfl, rfl, rfl, rfl⟩

theorem expireLease_cancelled {cat : Catalog} {job : Uuid} {u : CfdUnit}
    (h : (expireLease cat job u).state = .cancelled) : u.state = .cancelled := by
  unfold expireLease at h
  split at h
  · split at h
    · cases h
    · exact h
  · exact h

theorem attemptOf_congr {u v : CfdUnit} (h : v.history = u.history) (job : Uuid) :
    v.attemptOf job = u.attemptOf job := by
  rw [CfdUnit.attemptOf, CfdUnit.attemptOf, h]

namespace Settling

theorem verdict_scope (s : Settling) (u : CfdUnit) :
    ((s.verdict u).rowOr u).toUnitScope = u.toUnitScope := by
  unfold verdict
  repeat' split
  all_goals rfl

theorem admitted_pending {s : Settling} {u : CfdUnit} {e : BudgetExtension}
    (h : s.admitted u = some e) : e.state = .pending := by
  unfold admitted admitProgressiveCfdBudgetExtension at h
  split at h
  · split at h
    · obtain ⟨_, -, rfl⟩ := Option.map_eq_some_iff.1 h
      rfl
    · cases h
  · cases h

theorem settledExtension_claimed {s : Settling} {u : CfdUnit} {e : BudgetExtension} {other : Uuid}
    (h : s.settledExtension u = some e) (hstate : e.state = .claimed other) :
    other ≠ s.token ∧ ∃ e', u.budgetExtension = some e' ∧ e'.state = .claimed other := by
  unfold settledExtension at h
  split at h
  · rename_i e' hadmitted
    cases h
    rw [admitted_pending hadmitted] at hstate
    cases hstate
  · obtain ⟨e', he', rfl⟩ := Option.map_eq_some_iff.1 h
    by_cases hheld : e'.state = .claimed s.token
    · rw [if_pos hheld] at hstate
      dsimp only at hstate
      split at hstate <;> cases hstate
    · rw [if_neg hheld] at hstate
      refine ⟨?_, e', he', hstate⟩
      rintro rfl
      exact hheld hstate

theorem admitted_extensible {s : Settling} {u : CfdUnit} (h : s.admitted u ≠ none) :
    extensible u = true := by
  obtain ⟨e, he⟩ := Option.ne_none_iff_exists'.1 h
  unfold admitted admitProgressiveCfdBudgetExtension at he
  split at he
  · split at he
    · obtain ⟨receipt, hhead, -⟩ := Option.map_eq_some_iff.1 he
      have hmem := List.mem_of_mem_head? hhead
      rw [List.mem_insertionSort, List.mem_filter] at hmem
      have hcontinuable := hmem.2
      simp only [continuable, Bool.and_eq_true, Bool.or_eq_true, decide_eq_true_eq] at hcontinuable
      obtain ⟨⟨⟨⟨-, hstage⟩, -⟩, -⟩, -⟩ := hcontinuable
      rcases hstage with ⟨⟨hstage, hpurpose⟩, -⟩ | ⟨⟨hstage, hpurpose⟩, -⟩ <;>
        simp [extensible, hstage, hpurpose]
    · cases he
  · cases he

theorem settledExtension_extensible {s : Settling} {u : CfdUnit} (h : s.settledExtension u ≠ none) :
    u.budgetExtension ≠ none ∨ extensible u = true := by
  by_cases hadmitted : s.admitted u = none
  · left
    intro hnone
    simp [settledExtension, hadmitted, hnone] at h
  · exact .inr (admitted_extensible hadmitted)

theorem not_recovering_of_obsolete {s : Settling} {u : CfdUnit}
    (h : (!s.cat.currentScope u.work || u.state = .cancelled) = true) :
    s.recovering u = false ∧ s.recoveringStoredEvidence u = false := by
  rw [Bool.or_eq_true, Bool.not_eq_true', decide_eq_true_eq] at h
  rcases h with hscope | hstate
  · simp [recovering, recoveringStoredEvidence, hscope]
  · simp [recovering, recoveringStoredEvidence, expiredLease, hstate]

theorem verdict_effect (s : Settling) (u : CfdUnit) (stray : Uuid → Prop)
    (hstray : (s.input.recoverStoredEvidence.isNone || s.historical) = true →
      s.attempt.outcome = .running →
      (!s.cat.currentScope u.work || u.state = .cancelled) = true → stray s.token) :
    RowEffect stray u ((s.verdict u).rowOr u) := by
  unfold verdict
  split
  · exact .refl u
  rename_i hhistorical
  split
  · exact .keep rfl rfl rfl
  split
  · exact .refl u
  rename_i hended
  split
  · rename_i hobsolete
    obtain ⟨hrecovering, hstored⟩ := not_recovering_of_obsolete hobsolete
    have hrunning : s.attempt.outcome = .running := by
      by_contra hne
      exact hended (by simp [hne, hrecovering, hstored])
    have hreceipts : (s.input.recoverStoredEvidence.isNone || s.historical) = true := by
      cases hnone : s.input.recoverStoredEvidence with
      | none => rfl
      | some ids => simpa [hnone] using hhistorical
    exact .setAttempt (f := fun a => { a with outcome := .cancelled, error := some .obsolete })
      rfl (fun _ => rfl) (fun a _ => .inr (hstray hreceipts hrunning hobsolete)) rfl rfl
  split
  · exact .refl u
  split
  · exact .refl u
  · exact .settle s.token (fun a => { a with outcome := s.outcome u, error := s.reason u }) rfl
      (fun _ => rfl) (fun e he other hother => settledExtension_claimed he hother)
      settledExtension_extensible rfl

end Settling

theorem settle_cases {cat : Catalog} {input : SettleInput} {l l' : Ledger} {counts : SettleCounts}
    (h : settleProgressiveCfdExecution cat input l = .ok (l', counts)) :
    decidesUnits cat input.simJobId l = false ∧
        l' = (l.mapUnits fun _ => expireLease cat input.simJobId) ∨
      decidesUnits cat input.simJobId l = true ∧
      l' = settleUnits cat input (l.mapUnits fun _ => expireLease cat input.simJobId) := by
  unfold settleProgressiveCfdExecution at h
  split at h
  · cases h
  split at h
  · cases h
  split at h
  · cases h
  simp only at h
  split at h
  · rename_i hstatus
    cases h
    exact .inl ⟨by simp only [decidesUnits, hstatus, decide_false, Bool.false_and], rfl⟩
  rename_i hstatus
  rw [not_not] at hstatus
  split at h
  · cases h
  split at h
  · rename_i hawaits
    cases h
    exact .inl ⟨by simp only [decidesUnits, hawaits, Bool.not_true, Bool.and_false], rfl⟩
  rename_i hawaits
  rw [Bool.not_eq_true] at hawaits
  split at h
  · cases h
  split at h
  · cases h
  · cases h
    exact .inr ⟨by simp only [decidesUnits, hstatus, hawaits, decide_true, Bool.not_false, Bool.and_self], rfl⟩

theorem expired_row {cat : Catalog} {job id : Uuid} {l : Ledger} {u : CfdUnit}
    (h : l.units.find? id = some u) :
    (l.mapUnits fun _ => expireLease cat job).units.find? id = some (expireLease cat job u) := by
  rw [Ledger.find?_mapUnits, h, Option.map_some]
  exact congrArg some (keepScope_eq (expireLease_columns cat job u).1)

theorem settleUnits_row {cat : Catalog} {input : SettleInput} {id : Uuid} {l : Ledger} {u : CfdUnit}
    (h : l.units.find? id = some u) :
    (settleUnits cat input l).units.find? id = some (settleRow cat input l u) := by
  change (l.mapUnits _).units.find? id = _
  rw [Ledger.find?_mapUnits, h, Option.map_some, keepScope_eq]
  unfold settleRow verdictOf
  split
  · exact Settling.verdict_scope _ u
  · rfl

theorem settle_effect {cat : Catalog} {input : SettleInput} {l l' : Ledger} {counts : SettleCounts}
    (h : settleProgressiveCfdExecution cat input l = .ok (l', counts)) :
    Rewrites (fun id u => RowEffect (Stray l (.settle cat input) id u) u) l l' := by
  rcases settle_cases h with ⟨-, rfl⟩ | ⟨hdecides, rfl⟩
  · apply Rewrites.mapUnits rfl
    intro id u _
    obtain ⟨-, hhistory, hext, hseconds⟩ := expireLease_columns cat input.simJobId u
    exact .keep hhistory hext hseconds
  refine Rewrites.of_twice rfl ?_
  intro id u hfind
  refine ⟨_, settleUnits_row (expired_row hfind), ?_⟩
  obtain ⟨hscope, hhistory, hext, hseconds⟩ := expireLease_columns cat input.simJobId u
  refine RowEffect.congr_left ?_ hscope.symm hhistory.symm hext.symm hseconds.symm
  unfold settleRow verdictOf
  cases hs : settlingOf cat input (l.mapUnits fun _ => expireLease cat input.simJobId)
      (expireLease cat input.simJobId u) with
  | none => exact .refl _
  | some s =>
    apply Settling.verdict_effect
    intro hreceipts hrunning hobsolete
    -- the row under decision differs from the row before only in an expired lease
    have hpre : settlingOf cat input l u = some s := by
      rw [← hs, settlingOf, settlingOf, attemptOf_congr hhistory]
      rfl
    have hobsolete' : (!cat.currentScope u.work || u.state = .cancelled) = true := by
      obtain ⟨⟨token, a⟩, -, rfl⟩ := Option.map_eq_some_iff.1 hpre
      rw [Bool.or_eq_true, Bool.not_eq_true', decide_eq_true_eq] at hobsolete ⊢
      rcases hobsolete with hscope' | hstate
      · exact .inl (congrArg UnitScope.work hscope ▸ hscope')
      · exact .inr (expireLease_cancelled hstate)
    have hinput : s.input = input := by
      obtain ⟨_, -, rfl⟩ := Option.map_eq_some_iff.1 hpre
      rfl
    rw [hinput] at hreceipts
    simp only [Stray, endsOutsideSettlement, hdecides, hpre, hrunning, hreceipts, hobsolete',
      Option.any_some, decide_true, Bool.and_self]

theorem settle_stops {cat : Catalog} {input : SettleInput} {l l' : Ledger} {counts : SettleCounts}
    (h : settleProgressiveCfdExecution cat input l = .ok (l', counts)) : l'.stops = l.stops := by
  rcases settle_cases h with ⟨-, rfl⟩ | ⟨-, rfl⟩ <;> rfl

/-! ## Recovery passes -/

theorem recoverUnbound_effect (cat : Catalog) (campaign : Uuid) (picked : Uuid → Bool) (l : Ledger) :
    Rewrites (fun id u => RowEffect (Stray l (.recoverUnbound cat campaign picked) id u) u)
      l (recoverUnboundProgressiveCfdLeases cat campaign picked l) := by
  apply Rewrites.mapUnits rfl
  intro id u _
  apply RowEffect.keepScope
  unfold recoverUnboundRow
  split
  · rename_i token hexpired
    split
    · rename_i hscope
      rw [Bool.and_eq_true] at hscope
      exact .setAttempt (f := fun a =>
          { a with outcome := .expired, error := some (unboundReason l.stops u) })
        rfl (fun _ => rfl) (fun _ _ => .inr (by simp [Stray, endsOutsideSettlement, hexpired, hscope])) rfl rfl
    · exact .refl u
  · exact .refl u

theorem recoverInactive_effect {stray : Uuid → CfdUnit → Uuid → Prop} (cat : Catalog)
    (picked : Uuid → Bool) (l : Ledger) :
    Rewrites (fun id u => RowEffect (stray id u) u) l
      (recoverInactiveProgressiveRemoteGaps cat picked l) := by
  apply Rewrites.mapUnits rfl
  intro id u _
  apply RowEffect.keepScope
  unfold recoverInactiveRow
  split
  · exact .keep rfl rfl rfl
  · exact .refl u

theorem releaseStrandedRow_scope (cat : Catalog) (facts : TerminalFacts) (l : Ledger) (id : Uuid)
    (u : CfdUnit) : (releaseStrandedRow cat facts l id u).toUnitScope = u.toUnitScope := by
  unfold releaseStrandedRow
  split <;> rfl

theorem releaseStranded_row {cat : Catalog} {facts : TerminalFacts} {l : Ledger} {id : Uuid} {u : CfdUnit}
    (h : l.units.find? id = some u) :
    (releaseStranded cat facts l).units.find? id = some (releaseStrandedRow cat facts l id u) := by
  rw [releaseStranded, Ledger.find?_mapUnits, h, Option.map_some,
    keepScope_eq (releaseStrandedRow_scope cat facts l id u)]

theorem releaseStranded_effect (cat : Catalog) (facts : TerminalFacts) (l : Ledger) (id : Uuid)
    (u : CfdUnit) : RowEffect (Stray l (.recoverTerminal cat facts) id u) u
      (releaseStrandedRow cat facts l id u) := by
  unfold releaseStrandedRow
  split
  · rename_i token hstranded
    exact .setAttempt (f := fun a => { a with outcome := .failed, error := some .noMeasuredEvidence })
      rfl (fun _ => rfl) (fun _ _ => .inr (by simp [Stray, endsOutsideSettlement, hstranded])) rfl rfl
  · exact .refl u

theorem settleTerminalGap_columns (cat : Catalog) (facts : TerminalFacts) (l : Ledger) (id : Uuid)
    (u : CfdUnit) :
    (settleTerminalGap cat facts l id u).toUnitScope = u.toUnitScope ∧
      (settleTerminalGap cat facts l id u).history = u.history ∧
      (settleTerminalGap cat facts l id u).budgetExtension = u.budgetExtension ∧
      (settleTerminalGap cat facts l id u).activeSeconds = u.activeSeconds := by
  unfold settleTerminalGap
  repeat' split
  all_goals exact ⟨rfl, rfl, rfl, rfl⟩

theorem recoverTerminal_row {cat : Catalog} {facts : TerminalFacts} {l : Ledger} {id : Uuid} {u : CfdUnit}
    (h : (releaseStranded cat facts l).units.find? id = some u) :
    (recoverTerminalProgressiveNoEvidenceGaps cat facts l).units.find? id =
      some (settleTerminalGap cat facts (releaseStranded cat facts l) id u) := by
  change ((releaseStranded cat facts l).mapUnits _).units.find? id = _
  rw [Ledger.find?_mapUnits, h, Option.map_some, keepScope_eq]
  exact (settleTerminalGap_columns cat facts _ id u).1

theorem recoverTerminal_effect (cat : Catalog) (facts : TerminalFacts) (l : Ledger) :
    Rewrites (fun id u => RowEffect (Stray l (.recoverTerminal cat facts) id u) u)
      l (recoverTerminalProgressiveNoEvidenceGaps cat facts l) := by
  refine Rewrites.of_twice rfl ?_
  intro id u hfind
  obtain ⟨-, hhistory, hext, hseconds⟩ := settleTerminalGap_columns cat facts
    (releaseStranded cat facts l) id (releaseStrandedRow cat facts l id u)
  exact ⟨_, recoverTerminal_row (releaseStranded_row hfind),
    (releaseStranded_effect cat facts l id u).congr hhistory hext hseconds⟩

theorem dropAttempt_effect {stray : Uuid → Prop} {job : Uuid} {attemptError unitError : Reason}
    {u : CfdUnit}
    (hstray : ∀ token a, u.attemptOf job = some (token, a) → a.outcome = .running → stray token) :
    RowEffect stray u (dropAttempt job attemptError unitError u) := by
  unfold dropAttempt
  split
  · rename_i token a hattempt
    split
    · rename_i hrunning
      exact .setAttempt (f := fun a => { a with outcome := .cancelled, error := some attemptError })
        rfl (fun _ => rfl) (fun _ _ => .inr (hstray token a hattempt hrunning)) rfl rfl
    · exact .refl u
  · exact .refl u

theorem releaseMissing_effect (cat : Catalog) (job : Uuid) (hasResultAttempts : Bool) (l : Ledger) :
    Rewrites (fun id u =>
        RowEffect (Stray l (.releaseMissing cat job hasResultAttempts) id u) u)
      l (releaseMissingCancelledExecution cat job hasResultAttempts l) := by
  unfold releaseMissingCancelledExecution
  split
  · exact Rewrites.of_units_eq rfl fun _ _ => .refl _
  split
  · exact Rewrites.of_units_eq rfl fun _ _ => .refl _
  · rename_i hjob hevidence
    push Not at hjob
    rw [Bool.not_eq_true] at hevidence
    apply Rewrites.mapUnits rfl
    intro id u _
    exact RowEffect.keepScope (dropAttempt_effect fun token a hattempt hrunning => by
      simp only [Stray, endsOutsideSettlement, hevidence]
      simp [runningFor, hjob, hattempt, hrunning])

theorem settleInactive_effect {scope : StopScope} {promiseInactive : Bool} {l l' : Ledger}
    (h : settleInactiveUndeliveredExecution scope promiseInactive l = .ok l') :
    Rewrites (fun id u =>
        RowEffect (Stray l (.settleInactive scope promiseInactive) id u) u) l l' := by
  unfold settleInactiveUndeliveredExecution at h
  split at h
  · cases h
    exact Rewrites.of_units_eq rfl fun _ _ => .refl _
  rename_i proof hstop
  split at h
  · cases h
    exact Rewrites.of_units_eq rfl fun _ _ => .refl _
  rename_i hinactive
  rw [Bool.not_eq_true, Bool.not_eq_false'] at hinactive
  split at h
  · cases h
  split at h
  · cases h
  · cases h
    apply Rewrites.mapUnits rfl
    intro id u _
    exact RowEffect.keepScope (dropAttempt_effect fun token a hattempt hrunning => by
      simp [Stray, endsOutsideSettlement, runningFor, hstop, hinactive, hattempt, hrunning])

theorem cancelObsolete_effect (cat : Catalog) (campaign : Option Uuid) (l : Ledger) :
    Rewrites (fun id u => RowEffect (Stray l (.cancelObsolete cat campaign) id u) u)
      l (cancelObsoleteProgressiveCfdUnits cat campaign l) := by
  apply Rewrites.mapUnits rfl
  intro id u _
  apply RowEffect.keepScope
  unfold cancelObsoleteRow
  split
  · rename_i hcancelled
    rw [Bool.and_eq_true, decide_eq_true_eq] at hcancelled
    refine .edit (fun _ => cancelUnbound) rfl ?_ ?_ rfl rfl
    · intro token a
      unfold cancelUnbound
      split <;> rfl
    · intro token a hfind
      unfold cancelUnbound
      split
      · rename_i hopen
        rw [Bool.and_eq_true, decide_eq_true_eq, decide_eq_true_eq] at hopen
        exact .inr (by simp [Stray, endsOutsideSettlement, hcancelled, hfind, hopen])
      · exact .inl rfl
  · exact .refl u

/-! ## Composition, plans, publications -/

theorem bindRow_effect (leases : List CfdLease) (job id : Uuid) (u : CfdUnit) :
    RowEffect (fun _ => False) u (bindRow leases job id u) := by
  unfold bindRow
  split
  · exact .setAttempt (f := fun a => { a with simJobId := some job }) rfl (fun _ => rfl)
      (fun _ _ => .inl rfl) rfl rfl
  · exact .keep rfl rfl rfl

theorem compose_effects {cat : Catalog} {input : ComposeInput} {leases : List CfdLease} {job : Uuid}
    {l l' : Ledger} (h : composeProgressiveCfdJob cat input leases job l = .ok l') :
    Rewrites Effects l l' := by
  unfold composeProgressiveCfdJob at h
  split at h
  · cases h
  split at h
  · cases h
  simp only at h
  split at h
  · cases h
  split at h
  · split at h
    · cases h
    · cases h
      exact Rewrites.of_units_eq rfl effects_refl
  split at h
  · cases h
  split at h
  · cases h
  · cases h
    exact Rewrites.mapUnits rfl fun id u _ =>
      .single ⟨rfl, (bindRow_effect leases job id u).keepScope⟩

theorem recordPlan_effects (l : Ledger) (id : Uuid) (insert : PlanInsert) :
    Rewrites Effects l (l.modifyUnit id (recordPlan insert)) := by
  apply Rewrites.modifyUnit effects_refl
  intro u _
  cases insert <;> exact .single ⟨rfl, .keep rfl rfl rfl⟩

theorem recoverPublication_effects (cat : Catalog) (job : Uuid) (l : Ledger) :
    Rewrites Effects l (recoverPublication cat job l) := by
  apply Rewrites.mapUnits rfl
  intro id u _
  refine .single ⟨rfl, RowEffect.keepScope ?_⟩
  unfold recoverPublicationRow
  split
  · exact .keep rfl rfl rfl
  · exact .refl u

/-! ## Steps -/

theorem acknowledge_units {scope : StopScope} {proof : StopProof} {l l' : Ledger}
    (h : acknowledgeProgressiveCfdExecutionStop scope proof l = .ok l') : l'.units = l.units := by
  unfold acknowledgeProgressiveCfdExecutionStop at h
  split at h
  · cases h
  split at h
  · cases h
    rfl
  split at h
  · cases h
  · cases h
    rfl

/-- What an operation does to one unit: a single effect, or several that end no attempt. -/
def Changes (l : Ledger) (op : Op) (id : Uuid) (u u' : CfdUnit) : Prop :=
  RowEffect (Stray l op id u) u u' ∨ Effects id u u'

theorem exec_changes {l l' : Ledger} {op : Op} (h : exec l op = some l') :
    Rewrites (Changes l op) l l' ∨ ∃ id scope, l.insertUnit? id scope = some l' := by
  have hsame : l'.units = l.units → Rewrites (Changes l op) l l' :=
    fun hunits => Rewrites.of_units_eq hunits fun id u => .inr (effects_refl id u)
  have hmany : Rewrites Effects l l' → Rewrites (Changes l op) l l' :=
    fun heffects => heffects.mono fun _ _ _ _ => .inr
  have hone : Rewrites (fun id u => RowEffect (Stray l op id u) u) l l' →
      Rewrites (Changes l op) l l' := fun heffects => heffects.mono fun _ _ _ _ => .inl
  cases op with
  | insertUnit id scope => exact .inr ⟨id, scope, h⟩
  | claimUnit cat input token =>
    left
    simp only [exec] at h
    split at h
    · rename_i hclaim
      cases h
      exact hmany (claimUnit_effects hclaim)
    · cases h
      exact hsame rfl
    · cases h
  | claimBatch cat input maximum tokens =>
    left
    simp only [exec, Option.map_eq_some_iff] at h
    obtain ⟨⟨_, leases⟩, hbatch, rfl⟩ := h
    exact hmany (claimBatch_effects (toOption_eq_some.1 hbatch))
  | compose cat input leases job => exact .inl (hmany (compose_effects (toOption_eq_some.1 h)))
  | heartbeat cat lease seconds leaseSeconds =>
    left
    simp only [exec, Option.map_eq_some_iff] at h
    obtain ⟨⟨_, remaining⟩, hbeat, rfl⟩ := h
    exact hmany (heartbeat_effects (toOption_eq_some.1 hbeat))
  | runtime cat scope progress => exact .inl (hmany (runtime_effects (toOption_eq_some.1 h)))
  | evidence cat scope policy rows =>
    left
    simp only [exec, Option.map_eq_some_iff] at h
    obtain ⟨⟨_, stop⟩, hevidence, rfl⟩ := h
    exact hmany (evidence_effects (toOption_eq_some.1 hevidence))
  | acknowledgeStop scope proof => exact .inl (hsame (acknowledge_units (toOption_eq_some.1 h)))
  | settle cat input =>
    left
    simp only [exec, Option.map_eq_some_iff] at h
    obtain ⟨⟨_, counts⟩, hsettle, rfl⟩ := h
    exact hone (settle_effect (toOption_eq_some.1 hsettle))
  | recoverUnbound cat campaign picked =>
    cases h
    exact .inl (hone (recoverUnbound_effect cat campaign picked l))
  | recoverInactive cat picked =>
    cases h
    exact .inl (hone (recoverInactive_effect cat picked l))
  | recoverTerminal cat facts =>
    cases h
    exact .inl (hone (recoverTerminal_effect cat facts l))
  | releaseMissing cat job hasResultAttempts =>
    cases h
    exact .inl (hone (releaseMissing_effect cat job hasResultAttempts l))
  | settleInactive scope promiseInactive =>
    exact .inl (hone (settleInactive_effect (toOption_eq_some.1 h)))
  | cancelObsolete cat campaign =>
    cases h
    exact .inl (hone (cancelObsolete_effect cat campaign l))
  | recordPlan id insert =>
    cases h
    exact .inl (hmany (recordPlan_effects l id insert))
  | recoverPublication cat job =>
    cases h
    exact .inl (hmany (recoverPublication_effects cat job l))

theorem exec_keeps {l l' : Ledger} {op : Op} {id : Uuid} {u : CfdUnit} (hop : exec l op = some l')
    (hfind : l.units.find? id = some u) : ∃ u', l'.units.find? id = some u' := by
  rcases exec_changes hop with hrewrites | ⟨_, scope, hinsert⟩
  · obtain ⟨u', hfind', -⟩ := hrewrites.row id u hfind
    exact ⟨u', hfind'⟩
  · obtain ⟨hunits, -⟩ := Ledger.insertUnit?_units hinsert
    exact ⟨u, (Table.find?_insert hunits).2 (.inl hfind)⟩

theorem exec_rows {P : CfdUnit → Prop} {l l' : Ledger} {op : Op} (hop : exec l op = some l')
    (hfresh : ∀ scope : UnitScope, P scope.fresh)
    (hone : ∀ id u u', l.units.find? id = some u → u'.toUnitScope = u.toUnitScope →
      RowEffect (Stray l op id u) u u' → P u → P u')
    (hclean : ∀ u u', CleanEffect u u' → P u → P u')
    (h : ∀ id u, l.units.find? id = some u → P u) : ∀ id u, l'.units.find? id = some u → P u := by
  intro id u' hfind'
  rcases exec_changes hop with hrewrites | ⟨_, scope, hinsert⟩
  · obtain ⟨u, hfind⟩ := hrewrites.known id u' hfind'
    obtain ⟨u'', hfind'', hchanges⟩ := hrewrites.row id u hfind
    have hscope := hrewrites.scope id u u' hfind hfind'
    rw [hfind'] at hfind''
    cases hfind''
    rcases hchanges with heffect | hmany
    · exact hone id u u' hfind hscope heffect (h id u hfind)
    · clear hscope hfind'
      induction hmany with
      | refl => exact h id u hfind
      | tail _ hlast ih => exact hclean _ _ hlast ih
  · obtain ⟨hunits, -⟩ := Ledger.insertUnit?_units hinsert
    rcases (Table.find?_insert hunits).1 hfind' with hold | ⟨-, rfl⟩
    · exact h id u' hold
    · exact hfresh scope

theorem initial_rows {P : CfdUnit → Prop} {l : Ledger} (h : Initial l) :
    ∀ id u, l.units.find? id = some u → P u := by
  intro id u hfind
  have hmem := Table.mem_of_find? hfind
  rw [h.1] at hmem
  cases hmem

end XFoilFoam.Progressive
