import XFoilFoam.Progressive.StepEffects

/-! What the settlement decision leaves of a unit: the attempts it has used, the plans still unclaimed
and the seconds it may use. -/
namespace XFoilFoam.Progressive
set_option autoImplicit false

theorem settlingOf_spec {cat : Catalog} {input : SettleInput} {l : Ledger} {u : CfdUnit} {s : Settling}
    (h : settlingOf cat input l u = some s) :
    u.attemptOf input.simJobId = some (s.token, s.attempt) ∧ s.stops = l.stops ∧
      s.basis = stopBasis s.stops s.attempt := by
  obtain ⟨⟨token, a⟩, hattempt, rfl⟩ := Option.map_eq_some_iff.1 h
  refine ⟨hattempt, rfl, ?_⟩
  simp [stopBasis, (attemptOf_mem hattempt).2]

theorem expireLease_attempts (cat : Catalog) (job : Uuid) (u : CfdUnit) :
    (expireLease cat job u).attempts = u.attempts ∧
      (expireLease cat job u).publicationClaim = u.publicationClaim := by
  unfold expireLease
  split
  · split <;> exact ⟨rfl, rfl⟩
  · exact ⟨rfl, rfl⟩

theorem expireLease_ordinary (cat : Catalog) (job : Uuid) (stops : Table Uuid StopProof) (u : CfdUnit) :
    ordinaryAttemptCount stops (expireLease cat job u) = ordinaryAttemptCount stops u := by
  obtain ⟨-, hhistory, -, -⟩ := expireLease_columns cat job u
  obtain ⟨hattempts, hclaim⟩ := expireLease_attempts cat job u
  rw [ordinaryAttemptCount, ordinaryAttemptCount, neverStartedAttemptCount, neverStartedAttemptCount,
    hattempts, hclaim, hhistory]

namespace Settling
variable {s : Settling} {u : CfdUnit}

def decides (s : Settling) (u : CfdUnit) : Bool :=
  (s.input.recoverStoredEvidence.isNone || s.historical) && !s.staleTerminal u &&
    (s.attempt.outcome = .running || s.recovering u || s.recoveringStoredEvidence u) &&
    s.cat.currentScope u.work && u.state ≠ .cancelled &&
    (s.recovering u || s.recoveringStoredEvidence u || ownsUnit u) && !s.awaitsFit u

theorem rowOr_verdict (s : Settling) (u : CfdUnit) :
    (s.decides u = true ∧ (s.verdict u).rowOr u = s.settledRow u) ∨
      (s.decides u = false ∧ ((s.verdict u).rowOr u).budgetExtension = u.budgetExtension ∧
        (((s.verdict u).rowOr u).state = .pending → u.state = .pending)) := by
  unfold verdict
  split
  · rename_i hscope
    refine .inr ⟨?_, rfl, id⟩
    cases hstored : s.input.recoverStoredEvidence <;> simp_all [decides]
  rename_i hscope
  split
  · rename_i hstale
    exact .inr ⟨by simp [decides, hstale], rfl, by simp [SettleVerdict.rowOr]⟩
  rename_i hstale
  split
  · rename_i hended
    exact .inr ⟨by simp_all [decides], rfl, id⟩
  rename_i hended
  split
  · rename_i hobsolete
    refine .inr ⟨?_, rfl, by simp [SettleVerdict.rowOr, obsoleteRow]⟩
    rw [Bool.or_eq_true, Bool.not_eq_true', decide_eq_true_eq] at hobsolete
    rcases hobsolete with hobsolete | hobsolete <;> simp [decides, hobsolete]
  rename_i hobsolete
  split
  · rename_i hrefused
    exact .inr ⟨by simp_all [decides], rfl, id⟩
  rename_i hrefused
  split
  · rename_i hfit
    exact .inr ⟨by simp [decides, hfit], rfl, id⟩
  rename_i hfit
  refine .inl ⟨?_, rfl⟩
  cases hstored : s.input.recoverStoredEvidence <;> simp_all [decides] <;> grind

/-! ## Attempts -/

theorem receipts_eq_nil_iff (h : s.decides u = true) : s.receipts = [] ↔ s.attempt.evidence = [] := by
  simp only [decides, Bool.and_eq_true] at h
  obtain ⟨⟨⟨⟨⟨⟨hscope, -⟩, -⟩, -⟩, -⟩, -⟩, -⟩ := h
  unfold receipts
  cases hstored : s.input.recoverStoredEvidence with
  | none => exact Iff.rfl
  | some ids =>
    simp only [historical, hstored, Option.isNone_some, Bool.false_or, Option.any_some,
      List.any_eq_true, decide_eq_true_eq] at hscope
    obtain ⟨receipt, hmem, hid⟩ := hscope
    have hreceipts : (s.attempt.evidence.filter fun e => e.resultAttemptId ∈ ids) ≠ [] :=
      List.ne_nil_of_mem (List.mem_filter.2 ⟨hmem, by simpa using hid⟩)
    exact ⟨fun hnil => absurd hnil hreceipts, fun hnil => absurd hnil (List.ne_nil_of_mem hmem)⟩

theorem neverStarted_eq (hbasis : s.basis = stopBasis s.stops s.attempt) (h : s.decides u = true) :
    s.neverStarted = leftNoTrace s.stops s.attempt := by
  rw [Bool.eq_iff_iff]
  simp only [neverStarted, leftNoTrace, hbasis, Bool.and_eq_true, decide_eq_true_eq,
    receipts_eq_nil_iff h]
  tauto

theorem not_cancelled_of_leftNoTrace (h : s.decides u = true)
    (htrace : leftNoTrace s.stops s.attempt = true) : s.attempt.outcome ≠ .cancelled := by
  intro hcancelled
  simp only [decides, Bool.and_eq_true, Bool.or_eq_true, decide_eq_true_eq] at h
  obtain ⟨⟨⟨⟨⟨⟨-, -⟩, hended⟩, -⟩, -⟩, -⟩, -⟩ := h
  rcases hended with (hrunning | hrecovering) | hstored
  · rw [hrunning] at hcancelled
    cases hcancelled
  · simp [recovering, hcancelled] at hrecovering
  · simp only [recoveringStoredEvidence, historical, Bool.and_eq_true] at hstored
    obtain ⟨⟨⟨⟨⟨⟨hhistorical, -⟩, -⟩, -⟩, -⟩, -⟩, -⟩ := hstored
    obtain ⟨ids, -, hreceipt⟩ := (Option.any_eq_true _ _).1 hhistorical
    obtain ⟨receipt, hmem, -⟩ := List.any_eq_true.1 hreceipt
    simp only [leftNoTrace, Bool.and_eq_true, decide_eq_true_eq] at htrace
    exact List.ne_nil_of_mem hmem htrace.2

theorem outcome_eq_cancelled_iff (hcomplete : s.complete u = false) :
    s.outcome u = .cancelled ↔ s.neverStarted = true := by
  unfold outcome
  rw [if_neg (by simp [hcomplete])]
  split <;> simp_all

theorem neverStartedCount_settledRow (hfind : u.history.find? s.token = some s.attempt)
    (hbasis : s.basis = stopBasis s.stops s.attempt) (h : s.decides u = true)
    (hcomplete : s.complete u = false) :
    (neverStartedAttemptCount s.stops (s.settledRow u) : ℤ) =
      neverStartedAttemptCount s.stops u + if s.neverStarted then 1 else 0 := by
  have hcount := Table.count_modify (fun a => { a with outcome := s.outcome u, error := s.reason u })
    (fun a => a.outcome = .cancelled && leftNoTrace s.stops a) hfind
  have hbefore : (decide (s.attempt.outcome = .cancelled) && leftNoTrace s.stops s.attempt) = false := by
    by_contra hcounted
    rw [Bool.not_eq_false, Bool.and_eq_true, decide_eq_true_eq] at hcounted
    exact not_cancelled_of_leftNoTrace h hcounted.2 hcounted.1
  have hafter : (decide (s.outcome u = .cancelled) && leftNoTrace s.stops s.attempt) = s.neverStarted := by
    rw [← neverStarted_eq hbasis h, Bool.eq_iff_iff, Bool.and_eq_true, decide_eq_true_eq,
      outcome_eq_cancelled_iff hcomplete, and_self]
  have htrace : leftNoTrace s.stops { s.attempt with outcome := s.outcome u, error := s.reason u } =
      leftNoTrace s.stops s.attempt := rfl
  rw [htrace, hbefore, hafter] at hcount
  simp only [Bool.false_eq_true, if_false, sub_zero] at hcount
  exact hcount

theorem ordinary_settledRow (hfind : u.history.find? s.token = some s.attempt)
    (hbasis : s.basis = stopBasis s.stops s.attempt) (h : s.decides u = true)
    (hcomplete : s.complete u = false) :
    ordinaryAttemptCount s.stops (s.settledRow u) = s.ordinaryAttempts u := by
  have hcount := neverStartedCount_settledRow hfind hbasis h hcomplete
  rw [ordinaryAttempts, ordinaryAttemptCount, ordinaryAttemptCount, hcount]
  change (u.attempts : ℤ) - (if u.publicationClaim.isSome then 1 else 0) - _ = _
  ring

theorem planUnclaimed_settledRow (hfind : u.history.find? s.token = some s.attempt)
    (hbasis : s.basis = stopBasis s.stops s.attempt) (h : s.decides u = true)
    (hcomplete : s.complete u = false) (plan : PlanOrdinal) :
    planUnclaimed s.stops (s.settledRow u) plan none = planUnclaimed s.stops u plan (some s.token) := by
  have hrows : (s.settledRow u).history.rows = u.history.rows.map fun r =>
      (r.1, if r.1 = s.token then { r.2 with outcome := s.outcome u, error := s.reason u } else r.2) := rfl
  rw [planUnclaimed, planUnclaimed, hrows, List.all_map, Bool.eq_iff_iff, List.all_eq_true,
    List.all_eq_true]
  refine forall₂_congr ?_
  rintro ⟨token, a⟩ hmem
  by_cases htoken : token = s.token
  · subst htoken
    have hattempt := Table.find?_of_mem hmem
    rw [hfind] at hattempt
    cases hattempt
    have hcancelled : decide (s.outcome u = .cancelled) = leftNoTrace s.stops s.attempt := by
      rw [← neverStarted_eq hbasis h, Bool.eq_iff_iff, decide_eq_true_eq,
        outcome_eq_cancelled_iff hcomplete]
    have htrace : leftNoTrace s.stops { s.attempt with outcome := s.outcome u, error := s.reason u } =
        leftNoTrace s.stops s.attempt := rfl
    simp [htrace, hcancelled]
  · simp [htoken, Ne.symm htoken]

/-! ## Extensions -/

variable {e : BudgetExtension}

theorem admitted_spec (h : s.admitted u = some e) :
    s.complete u = false ∧ u.attempts = 2 ∧ u.work.stage ≠ .baseline ∧ u.budgetExtension = none ∧
      s.attempt.evidence ≠ [] ∧ e.extensionSeconds = extensionSecondsFor u.work.stage := by
  unfold admitted at h
  split at h
  · rename_i hunit
    unfold admitProgressiveCfdBudgetExtension at h
    split at h
    · rename_i hrow
      obtain ⟨receipt, hhead, rfl⟩ := Option.map_eq_some_iff.1 h
      have hmem := List.mem_of_mem_head? hhead
      rw [List.mem_insertionSort, List.mem_filter] at hmem
      simp only [Bool.and_eq_true, Bool.not_eq_true', decide_eq_true_eq] at hunit hrow
      exact ⟨hunit.1.1.1, hunit.2, hunit.1.1.2, Option.isNone_iff_eq_none.1 hrow.2,
        List.ne_nil_of_mem hmem.1, rfl⟩
    · cases h
  · cases h

theorem neverStarted_of_admitted (h : s.decides u = true) (hadmitted : s.admitted u = some e) :
    s.neverStarted = false := by
  obtain ⟨-, -, -, -, hevidence, -⟩ := admitted_spec hadmitted
  rw [Ne, ← receipts_eq_nil_iff h] at hevidence
  simp [neverStarted, hevidence]

theorem effective_admitted (hadmitted : s.admitted u = some e) :
    effectiveBudgetSeconds (s.settledRow u) =
      u.activeBudgetSeconds + extensionSecondsFor u.work.stage := by
  obtain ⟨-, -, -, -, -, hlength⟩ := admitted_spec hadmitted
  have hextension : (s.settledRow u).budgetExtension = some e := by
    simp [settledRow, settledExtension, hadmitted]
  rw [effectiveBudgetSeconds, hextension]
  simp only [admitted_pending hadmitted, extensionCounts, if_true, hlength]
  rfl

theorem effectiveBudget_admitted (hadmitted : s.admitted u = some e) :
    s.effectiveBudget u = u.activeBudgetSeconds + fastBudgetExtensionSeconds := by
  obtain ⟨-, -, -, hnone, -, -⟩ := admitted_spec hadmitted
  simp [effectiveBudget, effectiveBudgetSeconds, hnone, hadmitted]

theorem budgetExtensionRetry_admitted (h : s.decides u = true) (hadmitted : s.admitted u = some e) :
    s.budgetExtensionRetry u = true ↔ ordinaryAttemptCount s.stops u = 2 ∧
      u.activeSeconds < u.activeBudgetSeconds + fastBudgetExtensionSeconds := by
  obtain ⟨hcomplete, -, hstage, -, -, -⟩ := admitted_spec hadmitted
  simp [budgetExtensionRetry, hcomplete, hadmitted, hstage, ordinaryAttempts,
    neverStarted_of_admitted h hadmitted, effectiveBudget_admitted hadmitted]

theorem reason_continuation (hcomplete : s.complete u = false) :
    s.reason u = some .continuation ↔ s.budgetExtensionRetry u = true := by
  unfold reason
  rw [if_neg (by simp [hcomplete])]
  constructor
  · intro h
    by_contra hretry
    rw [if_neg hretry] at h
    repeat' split at h
    all_goals cases h
  · intro hretry
    rw [if_pos hretry]

theorem settledRow_pending_iff : (s.settledRow u).state = .pending ↔
    s.complete u = false ∧ s.retry u = true := by
  by_cases hcomplete : s.complete u = true
  · simp [settledRow, kind, hcomplete]
  · by_cases hretry : s.retry u = true <;> simp [settledRow, kind, hcomplete, hretry]

end Settling

theorem expireLease_pending {cat : Catalog} {job : Uuid} {u : CfdUnit} :
    (expireLease cat job u).state = .pending ↔ u.state = .pending := by
  unfold expireLease
  split
  · rename_i hstate
    split <;> simp [hstate]
  · rfl

theorem settle_row {cat : Catalog} {input : SettleInput} {l l' : Ledger} {counts : SettleCounts} {id : Uuid}
    {u u' : CfdUnit} (h : settleProgressiveCfdExecution cat input l = .ok (l', counts))
    (hfind : l.units.find? id = some u) (hfind' : l'.units.find? id = some u') :
    (∃ s, decidesUnits cat input.simJobId l = true ∧
        settlingOf cat input l (expireLease cat input.simJobId u) = some s ∧
        s.decides (expireLease cat input.simJobId u) = true ∧
        u' = s.settledRow (expireLease cat input.simJobId u)) ∨
      ((decidesUnits cat input.simJobId l = true →
          ∀ s, settlingOf cat input l (expireLease cat input.simJobId u) = some s →
            s.decides (expireLease cat input.simJobId u) = false) ∧
        u'.budgetExtension = u.budgetExtension ∧ (u'.state = .pending → u.state = .pending)) := by
  obtain ⟨-, -, hext, -⟩ := expireLease_columns cat input.simJobId u
  rcases settle_cases h with ⟨hnot, rfl⟩ | ⟨hdecides, rfl⟩
  · rw [expired_row hfind] at hfind'
    cases hfind'
    exact .inr ⟨fun hunits => by simp [hnot] at hunits, hext, expireLease_pending.1⟩
  · rw [settleUnits_row (expired_row hfind)] at hfind'
    cases hfind'
    have hsettling : settlingOf cat input (l.mapUnits fun _ => expireLease cat input.simJobId)
        (expireLease cat input.simJobId u) =
        settlingOf cat input l (expireLease cat input.simJobId u) := rfl
    unfold settleRow verdictOf
    rw [hsettling]
    cases hs : settlingOf cat input l (expireLease cat input.simJobId u) with
    | none => exact .inr ⟨fun _ _ hnone => absurd hnone (by simp), hext, expireLease_pending.1⟩
    | some s =>
      rcases s.rowOr_verdict (expireLease cat input.simJobId u) with ⟨hyes, hrow⟩ | ⟨hno, hrow, hstate⟩
      · exact .inl ⟨s, hdecides, rfl, hyes, hrow⟩
      · refine .inr ⟨?_, hrow.trans hext, fun hpending => expireLease_pending.1 (hstate hpending)⟩
        intro _ s' hs'
        cases hs'
        exact hno

end XFoilFoam.Progressive
