import Mathlib.Tactic.Linarith
import XFoilFoam.Progressive.Decision

/-! Requeueing: when the operations that make a unit pending leave it such that a claim can take it. -/
namespace XFoilFoam.Progressive
set_option autoImplicit false

/-! ## Extensions belong to extensible units -/

def ExtensionScoped (u : CfdUnit) : Prop := u.budgetExtension ≠ none → extensible u = true

theorem RowEffect.extensionScoped {stray : Uuid → Prop} {u u' : CfdUnit} (h : RowEffect stray u u')
    (hscope : u'.toUnitScope = u.toUnitScope) (hu : ExtensionScoped u) : ExtensionScoped u' := by
  have hsame : extensible u' = extensible u := by
    rw [extensible, extensible, hscope]
  intro hext'
  rw [hsame]
  cases h with
  | keep _ hext _ => exact hu (hext ▸ hext')
  | lease _ _ _ _ _ hext _ =>
    rw [hext, Ne, Option.map_eq_none_iff] at hext'
    exact hu hext'
  | edit _ _ _ _ hext _ => exact hu (hext ▸ hext')
  | settle _ _ _ _ _ hgrants _ => exact (hgrants hext').elim hu id
  | measure _ _ _ _ _ _ _ hext _ => exact hu (hext ▸ hext')

theorem reachable_extensionScoped {l : Ledger} (h : Reachable Initial Step l) :
    ∀ id u, l.units.find? id = some u → ExtensionScoped u := by
  apply h.invariant (P := fun l => ∀ id u, l.units.find? id = some u → ExtensionScoped u)
  · exact fun l hinit => initial_rows hinit
  · rintro l l' hscoped ⟨op, -, hop⟩
    refine exec_rows hop ?_ ?_ ?_ hscoped
    · exact fun scope hext => absurd rfl hext
    · exact fun id u u' _ hscope heffect => heffect.extensionScoped hscope
    · exact fun u u' hclean => hclean.effect.extensionScoped hclean.scope

/-! ## A settled unit -/

theorem activeBudget_le_effective (u : CfdUnit) : u.activeBudgetSeconds ≤ effectiveBudgetSeconds u := by
  unfold effectiveBudgetSeconds
  split
  · rename_i e _
    split
    · have hpositive := e.secondsBounded.1
      linarith
    · simp
  · simp

/-- A fourth attempt ends the unit, a fifth one if it may use a precise extension. -/
def withinAttempts (u : CfdUnit) : Bool :=
  u.attempts < 4 ||
    u.work.stage = .precise && u.purpose = .precise && u.attempts < 5 && extensionPending u

namespace Settling
variable {s : Settling} {u : CfdUnit}

/-- The attempt claimed the extension, which ends with it, and the budget without it is used up. -/
def spendsExtension (s : Settling) (u : CfdUnit) : Bool :=
  (u.budgetExtension.any fun e => e.state = .claimed s.token) && u.activeBudgetSeconds ≤ u.activeSeconds

def keepsRoute (s : Settling) (u : CfdUnit) : Bool :=
  s.ordinaryAttempts u < 2 || s.budgetExtensionRetry u || s.unusedPreciseVerification u ||
    publicationRecoveryAvailable u || materialDomainRecoveryAvailable s.stops u (some s.token)

def keepsClaimable (s : Settling) (u : CfdUnit) : Bool :=
  !s.spendsExtension u && withinAttempts u && s.keepsRoute u

theorem retry_spec (h : s.retry u = true) :
    s.complete u = false ∧ u.activeSeconds < s.effectiveBudget u ∧
      (s.ordinaryAttempts u < 2 ∨ s.ordinaryAttempts u = 2 ∧
        (s.budgetExtensionRetry u = true ∨ u.work.stage = .precise)) := by
  rw [retry, Bool.or_eq_true] at h
  rcases h with h | h
  · have hretry := h
    simp only [budgetExtensionRetry, Bool.and_eq_true, Bool.not_eq_true', decide_eq_true_eq] at h
    exact ⟨h.1.1.1.1, h.2, .inr ⟨h.1.2, .inl hretry⟩⟩
  · simp only [ordinaryRetry, exhausted, Bool.and_eq_true, Bool.or_eq_true, Bool.not_eq_true',
      decide_eq_true_eq, decide_eq_false_iff_not, not_le] at h
    obtain ⟨⟨⟨⟨hcomplete, hseconds⟩, -⟩, hordinary⟩, -⟩ := h
    refine ⟨hcomplete, hseconds, hordinary.imp id ?_⟩
    rintro ⟨⟨htwo, hstage⟩, -⟩
    exact ⟨htwo, .inr hstage⟩

theorem budgetExtensionRetry_iff_of_retry (h : s.retry u = true) :
    s.budgetExtensionRetry u = true ↔
      ((s.admitted u).isSome = true ∨ extensionPending u = true) ∧ u.work.stage ≠ .baseline ∧
        s.ordinaryAttempts u = 2 := by
  obtain ⟨hcomplete, hseconds, -⟩ := retry_spec h
  simp [budgetExtensionRetry, hcomplete, hseconds, and_assoc]

theorem retry_reason (h : s.retry u = true) {reason : Reason} (hreason : s.reason u = some reason) :
    reason ∉ boundedRecoveryReasons ∧ ∀ stage, reason ∉ completionRetryReasons stage := by
  obtain ⟨hcomplete, -, -⟩ := retry_spec h
  have hretry : reason = .continuation ∨ reason = .preciseVerification ∨ reason = .ransDiagnosis ∨
      reason = .neverStarted ∨ reason = .infrastructure := by
    unfold Settling.reason at hreason
    rw [if_neg (by simp [hcomplete]), if_pos h] at hreason
    repeat' split at hreason
    all_goals cases hreason; simp
  rcases hretry with rfl | rfl | rfl | rfl | rfl <;>
    exact ⟨by decide, fun stage => by cases stage <;> decide⟩

theorem extensionPending_settledRow (hcomplete : s.complete u = false) :
    extensionPending (s.settledRow u) = ((s.admitted u).isSome || extensionPending u) := by
  cases hadmitted : s.admitted u with
  | some e =>
    have hpending := admitted_pending hadmitted
    simp [extensionPending, settledRow, settledExtension, hadmitted, hpending]
  | none =>
    cases hext : u.budgetExtension with
    | none => simp [extensionPending, settledRow, settledExtension, hadmitted, hext]
    | some e =>
      by_cases hclaimed : e.state = .claimed s.token
      · simp [extensionPending, settledRow, settledExtension, hadmitted, hext, hclaimed, hcomplete]
      · simp [extensionPending, settledRow, settledExtension, hadmitted, hext, hclaimed]

theorem seconds_settledRow (h : s.retry u = true) :
    (s.settledRow u).activeSeconds < effectiveBudgetSeconds (s.settledRow u) ↔
      s.spendsExtension u = false := by
  obtain ⟨hcomplete, hseconds, -⟩ := retry_spec h
  cases hadmitted : s.admitted u with
  | some e =>
    obtain ⟨-, -, -, hnone, -, -⟩ := admitted_spec hadmitted
    rw [effectiveBudget_admitted hadmitted] at hseconds
    have hlength : fastBudgetExtensionSeconds ≤ extensionSecondsFor u.work.stage := by
      cases u.work.stage <;> simp [extensionSecondsFor, fastBudgetExtensionSeconds,
        preciseBudgetExtensionSeconds, preciseInitialActiveSeconds] <;> norm_num
    have hactive : (s.settledRow u).activeSeconds = u.activeSeconds := rfl
    rw [effective_admitted hadmitted, hactive]
    simp only [spendsExtension, hnone, Option.any_none, Bool.false_and, iff_true]
    linarith
  | none =>
    have heffective : s.effectiveBudget u = effectiveBudgetSeconds u := by
      simp [effectiveBudget, hadmitted]
    rw [heffective] at hseconds
    cases hext : u.budgetExtension with
    | none =>
      simp only [effectiveBudgetSeconds, hext] at hseconds
      simpa [effectiveBudgetSeconds, settledRow, settledExtension, spendsExtension, CfdUnit.setAttempt,
        hadmitted, hext] using hseconds
    | some e =>
      by_cases hclaimed : e.state = .claimed s.token
      · simp [effectiveBudgetSeconds, settledRow, settledExtension, spendsExtension, CfdUnit.setAttempt,
          hadmitted, hext, hclaimed, hcomplete, extensionCounts]
      · simp only [effectiveBudgetSeconds, hext] at hseconds
        simpa [effectiveBudgetSeconds, settledRow, settledExtension, spendsExtension, CfdUnit.setAttempt,
          hadmitted, hext, hclaimed] using hseconds

theorem standingRoute_settledRow (hfind : u.history.find? s.token = some s.attempt)
    (hbasis : s.basis = stopBasis s.stops s.attempt) (h : s.decides u = true)
    (hcomplete : s.complete u = false) :
    standingRoute s.stops (s.settledRow u) = true ↔
      publicationRecoveryAvailable u = true ∨
      materialDomainRecoveryAvailable s.stops u (some s.token) = true ∨
      (s.ordinaryAttempts u = 2 ∧ u.work.stage = .precise ∧ s.unusedPreciseVerification u = true) ∨
      (s.ordinaryAttempts u = 2 ∧ extensible u = true ∧
        ((s.admitted u).isSome = true ∨ extensionPending u = true)) := by
  have hpublication : publicationRecoveryAvailable (s.settledRow u) = publicationRecoveryAvailable u := rfl
  have hmaterial : materialDomainRecoveryAvailable s.stops (s.settledRow u) none =
      materialDomainRecoveryAvailable s.stops u (some s.token) := by
    rw [materialDomainRecoveryAvailable, materialDomainRecoveryAvailable,
      planUnclaimed_settledRow hfind hbasis h hcomplete]
    rfl
  have hprecise : preciseVerificationAvailable s.stops (s.settledRow u) none =
      preciseVerificationAvailable s.stops u (some s.token) := by
    rw [preciseVerificationAvailable, preciseVerificationAvailable,
      planUnclaimed_settledRow hfind hbasis h hcomplete]
    rfl
  have hextensible : extensible (s.settledRow u) = extensible u := rfl
  have hstage : (s.settledRow u).work.stage = u.work.stage := rfl
  have hpolicy : (s.settledRow u).policyVersion = u.policyVersion := rfl
  simp only [standingRoute, ordinary_settledRow hfind hbasis h hcomplete,
    extensionPending_settledRow hcomplete, hpublication, hmaterial, hprecise, hextensible, hstage, hpolicy,
    unusedPreciseVerification, Bool.or_eq_true, Bool.and_eq_true, decide_eq_true_eq]
  tauto

theorem attemptAvailable_settledRow (cat : Catalog) (hfind : u.history.find? s.token = some s.attempt)
    (hbasis : s.basis = stopBasis s.stops s.attempt) (h : s.decides u = true) (hretry : s.retry u = true) :
    attemptAvailable cat s.stops (s.settledRow u) = true ↔
      (u.attempts < 4 ∧ (s.ordinaryAttempts u < 2 ∨ standingRoute s.stops (s.settledRow u) = true)) ∨
      (u.work.stage = .precise ∧ u.purpose = .precise ∧ u.attempts < 5 ∧
        ((s.admitted u).isSome = true ∨ extensionPending u = true)) := by
  obtain ⟨hcomplete, -, -⟩ := retry_spec hretry
  have hbounded : boundedNoEvidenceRecoveryAvailable cat s.stops (s.settledRow u) = false := by
    have herror : ((s.settledRow u).error.any fun reason => reason ∈ boundedRecoveryReasons) = false := by
      rw [Option.any_eq_false]
      intro reason hreason
      simpa using (retry_reason hretry hreason).1
    simp [boundedNoEvidenceRecoveryAvailable, herror]
  have hcompletion : completionRetryAvailable (s.settledRow u) = false := by
    have herror : ((s.settledRow u).error.any fun reason =>
        reason ∈ completionRetryReasons (s.settledRow u).work.stage) = false := by
      rw [Option.any_eq_false]
      intro reason hreason
      simpa using (retry_reason hretry hreason).2 (s.settledRow u).work.stage
    simp [completionRetryAvailable, herror]
  have hattempts : (s.settledRow u).attempts = u.attempts := rfl
  have hstage : (s.settledRow u).work.stage = u.work.stage := rfl
  have hpurpose : (s.settledRow u).purpose = u.purpose := rfl
  simp only [attemptAvailable, hbounded, hcompletion, ordinary_settledRow hfind hbasis h hcomplete,
    extensionPending_settledRow hcomplete, hattempts, hstage, hpurpose, Bool.or_false, Bool.or_eq_true,
    Bool.and_eq_true, decide_eq_true_eq, and_assoc]

theorem claimable_settledRow (cat : Catalog) (hfind : u.history.find? s.token = some s.attempt)
    (hbasis : s.basis = stopBasis s.stops s.attempt) (h : s.decides u = true) (hretry : s.retry u = true)
    (hscoped : ExtensionScoped u) :
    claimable cat s.stops (s.settledRow u) = true ↔ s.keepsClaimable u = true := by
  obtain ⟨hcomplete, -, hordinary⟩ := retry_spec hretry
  have hadmitted : (s.admitted u).isSome = true → u.attempts = 2 ∧ extensible u = true := by
    intro hsome
    obtain ⟨e, he⟩ := Option.isSome_iff_exists.1 hsome
    exact ⟨(admitted_spec he).2.1, admitted_extensible (s := s) (by simp [he])⟩
  have hpending : extensionPending u = true → extensible u = true := by
    intro hpending
    apply hscoped
    rintro hnone
    simp [extensionPending, hnone] at hpending
  have hbaseline : extensible u = true → u.work.stage ≠ .baseline := by
    intro hextensible hstage
    simp [extensible, hstage] at hextensible
  have hcontinues := budgetExtensionRetry_iff_of_retry hretry
  rw [claimable, Bool.and_eq_true, decide_eq_true_eq, seconds_settledRow hretry,
    attemptAvailable_settledRow cat hfind hbasis h hretry,
    standingRoute_settledRow hfind hbasis h hcomplete]
  simp only [keepsClaimable, keepsRoute, withinAttempts, Bool.and_eq_true, Bool.or_eq_true,
    Bool.not_eq_true', decide_eq_true_eq]
  constructor
  · rintro ⟨⟨hfour, hroute⟩ | ⟨hstage, hpurpose, hfive, hext⟩, hseconds⟩
    · refine ⟨⟨hseconds, .inl hfour⟩, ?_⟩
      rcases hroute with hless | hpub | hmaterial | ⟨-, -, hunused⟩ | ⟨htwo, hextensible, hext⟩
      · exact .inl (.inl (.inl (.inl hless)))
      · exact .inl (.inr hpub)
      · exact .inr hmaterial
      · exact .inl (.inl (.inr hunused))
      · exact .inl (.inl (.inl (.inr (hcontinues.2 ⟨hext, hbaseline hextensible, htwo⟩))))
    · refine ⟨⟨hseconds, ?_⟩, ?_⟩
      · rcases hext with hext | hext
        · have htwo := (hadmitted hext).1
          exact .inl (by omega)
        · exact .inr ⟨⟨⟨hstage, hpurpose⟩, hfive⟩, hext⟩
      · rcases hordinary with hless | ⟨htwo, -⟩
        · exact .inl (.inl (.inl (.inl hless)))
        · exact .inl (.inl (.inl (.inr (hcontinues.2 ⟨hext, by simp [hstage], htwo⟩))))
  · rintro ⟨⟨hseconds, hfour | ⟨⟨⟨hstage, hpurpose⟩, hfive⟩, hext⟩⟩, hroute⟩
    · refine ⟨.inl ⟨hfour, ?_⟩, hseconds⟩
      rcases hordinary with hless | ⟨htwo, hwhich⟩
      · exact .inl hless
      right
      rcases hroute with (((hless | hretries) | hunused) | hpub) | hmaterial
      · omega
      · obtain ⟨hext, -, -⟩ := hcontinues.1 hretries
        exact .inr (.inr (.inr ⟨htwo, hext.elim (fun hsome => (hadmitted hsome).2) hpending, hext⟩))
      · rcases hwhich with hretries | hstage
        · obtain ⟨hext, -, -⟩ := hcontinues.1 hretries
          exact .inr (.inr (.inr ⟨htwo, hext.elim (fun hsome => (hadmitted hsome).2) hpending, hext⟩))
        · exact .inr (.inr (.inl ⟨htwo, hstage, hunused⟩))
      · exact .inl hpub
      · exact .inr (.inl hmaterial)
    · exact ⟨.inr ⟨hstage, hpurpose, hfive, .inr hext⟩, hseconds⟩

theorem not_pending_of_decides (h : s.decides u = true) : u.state ≠ .pending := by
  intro hpending
  simp only [decides, Bool.and_eq_true, Bool.or_eq_true] at h
  obtain ⟨⟨-, howner⟩, -⟩ := h
  simp [recovering, recoveringStoredEvidence, expiredLease, ownsUnit, hpending] at howner

end Settling

/-! ## The operations -/

def RequeuedClaimable (cat : Catalog) (stops : Table Uuid StopProof) (u u' : CfdUnit) : Prop :=
  u.state ≠ .pending → u'.state = .pending →
    attemptAvailable cat stops u' = true ∧ u'.activeSeconds < effectiveBudgetSeconds u'

theorem RequeuedClaimable.refl (cat : Catalog) (stops : Table Uuid StopProof) (u : CfdUnit) :
    RequeuedClaimable cat stops u u := fun hstate hpending => absurd hpending hstate

def Op.requeueCatalog : Op → Option Catalog
  | .settle cat _ | .recoverUnbound cat _ _ | .recoverInactive cat _ | .recoverTerminal cat _ => some cat
  | _ => none

/-- A unit the operation sends back has, before it, what the next claim will ask for. -/
def requeuedWell (l : Ledger) (op : Op) (id : Uuid) (u : CfdUnit) : Bool :=
  match op with
  | .settle cat input =>
    let v := expireLease cat input.simJobId u
    !decidesUnits cat input.simJobId l ||
      (settlingOf cat input l v).all fun s => !(s.decides v && s.retry v) || s.keepsClaimable v
  | .recoverUnbound cat campaign picked =>
    !((expiredUnbound cat u).isSome && picked id && unboundScope cat l campaign u &&
      unboundRetry l.stops u) || withinAttempts u
  | .recoverInactive cat picked =>
    !(picked id && inactiveGap cat l u) || ordinaryAttemptCount l.stops u < 2 || standingRoute l.stops u
  | _ => true

theorem settle_requeued {cat : Catalog} {input : SettleInput} {l l' : Ledger} {counts : SettleCounts}
    {id : Uuid} {u u' : CfdUnit} (h : settleProgressiveCfdExecution cat input l = .ok (l', counts))
    (hfind : l.units.find? id = some u) (hfind' : l'.units.find? id = some u')
    (hscoped : ExtensionScoped u) :
    RequeuedClaimable cat l'.stops u u' ↔ requeuedWell l (.settle cat input) id u = true := by
  rw [settle_stops h]
  rcases settle_row h hfind hfind' with ⟨s, hunits, hs, hdecides, rfl⟩ | ⟨hnot, -, hpending⟩
  · obtain ⟨hattempt, hstops, hbasis⟩ := settlingOf_spec hs
    have hscoped' : ExtensionScoped (expireLease cat input.simJobId u) := by
      obtain ⟨hscope, -, hext, -⟩ := expireLease_columns cat input.simJobId u
      rw [ExtensionScoped, extensible, hscope, hext]
      exact hscoped
    have hstate : u.state ≠ .pending := fun hpending =>
      Settling.not_pending_of_decides hdecides (expireLease_pending.2 hpending)
    simp only [requeuedWell, hunits, hs, hdecides, Option.all_some, Bool.not_true, Bool.false_or,
      Bool.true_and]
    by_cases hretry : s.retry (expireLease cat input.simJobId u) = true
    · obtain ⟨hcomplete, -, -⟩ := Settling.retry_spec hretry
      have hclaimable := Settling.claimable_settledRow cat (attemptOf_mem hattempt).1 hbasis hdecides
        hretry hscoped'
      rw [claimable, Bool.and_eq_true, decide_eq_true_eq, hstops] at hclaimable
      simp [RequeuedClaimable, hstate, Settling.settledRow_pending_iff, hcomplete, hretry, hclaimable]
    · simp [RequeuedClaimable, Settling.settledRow_pending_iff, hretry]
  · refine iff_of_true (fun hstate hpending' => absurd (hpending hpending') hstate) ?_
    simp only [requeuedWell, Bool.or_eq_true, Bool.not_eq_true', Option.all_eq_true]
    by_cases hunits : decidesUnits cat input.simJobId l = true
    · right
      intro s hs
      simp [hnot hunits s hs]
    · exact .inl (by simpa using hunits)

theorem expiredUnbound_spec {cat : Catalog} {u : CfdUnit} {token : Uuid}
    (h : expiredUnbound cat u = some token) :
    u.state ≠ .pending ∧ ∃ a, u.history.find? token = some a ∧ a.outcome = .running := by
  unfold expiredUnbound at h
  split at h
  · rename_i lease hstate
    split at h
    · rename_i hlease
      cases h
      simp only [Bool.and_eq_true, Option.any_eq_true, decide_eq_true_eq] at hlease
      obtain ⟨-, a, ha, hrunning, -⟩ := hlease
      exact ⟨by simp [hstate], a, ha, hrunning⟩
    · cases h
  · cases h

theorem ordinary_releaseUnbound {stops : Table Uuid StopProof} {u : CfdUnit} {token : Uuid} {a : Attempt}
    (hfind : u.history.find? token = some a) (hrunning : a.outcome = .running) :
    ordinaryAttemptCount stops (releaseUnbound stops token u) = ordinaryAttemptCount stops u := by
  have hcount := Table.count_modify
    (fun a => { a with outcome := .expired, error := some (unboundReason stops u) })
    (fun a => a.outcome = .cancelled && leftNoTrace stops a) hfind
  simp only [hrunning, reduceCtorEq, decide_false, Bool.false_and, Bool.false_eq_true, if_false,
    sub_zero, add_zero, Nat.cast_inj] at hcount
  have hsame : neverStartedAttemptCount stops (releaseUnbound stops token u) =
      neverStartedAttemptCount stops u := hcount
  rw [ordinaryAttemptCount, ordinaryAttemptCount, hsame]
  rfl

theorem recoverUnbound_requeued (cat : Catalog) (campaign : Uuid) (picked : Uuid → Bool) (l : Ledger)
    (id : Uuid) (u : CfdUnit) :
    RequeuedClaimable cat l.stops u (recoverUnboundRow cat campaign picked l id u) ↔
      requeuedWell l (.recoverUnbound cat campaign picked) id u = true := by
  unfold recoverUnboundRow
  cases hexpired : expiredUnbound cat u with
  | none => exact iff_of_true (.refl _ _ u) (by simp [requeuedWell, hexpired])
  | some token =>
    obtain ⟨hstate, a, ha, hrunning⟩ := expiredUnbound_spec hexpired
    simp only [requeuedWell, hexpired, Option.isSome_some, Bool.true_and]
    by_cases hscope : (picked id && unboundScope cat l campaign u) = true
    · rw [if_pos hscope, hscope, Bool.true_and]
      by_cases hretry : unboundRetry l.stops u = true
      · have hbudget := hretry
        simp only [unboundRetry, Bool.and_eq_true, decide_eq_true_eq] at hbudget
        have hseconds : (releaseUnbound l.stops token u).activeSeconds <
            effectiveBudgetSeconds (releaseUnbound l.stops token u) :=
          lt_of_lt_of_le hbudget.2 (activeBudget_le_effective (releaseUnbound l.stops token u))
        have hless : ordinaryAttemptCount l.stops (releaseUnbound l.stops token u) < 2 :=
          ordinary_releaseUnbound ha hrunning ▸ hbudget.1
        have hpending : (releaseUnbound l.stops token u).state = .pending := by
          simp [releaseUnbound, hretry]
        have hattempts : attemptAvailable cat l.stops (releaseUnbound l.stops token u) =
            withinAttempts u := by
          simp only [attemptAvailable, hless, decide_true, Bool.true_or, Bool.and_true]
          rfl
        simp [RequeuedClaimable, hstate, hpending, hattempts, hseconds, hretry]
      · refine iff_of_true ?_ (by simp [hretry])
        intro _ hpending
        simp [releaseUnbound, hretry] at hpending
    · rw [if_neg hscope]
      exact iff_of_true (.refl _ _ u) (by simp [hscope])

theorem attemptAvailable_reopenInactive (cat : Catalog) {stops : Table Uuid StopProof} {u : CfdUnit}
    (hattempts : u.attempts < 3) :
    attemptAvailable cat stops (reopenInactive u) =
      (decide (ordinaryAttemptCount stops u < 2) || standingRoute stops u) := by
  have hbounded : boundedNoEvidenceRecoveryAvailable cat stops (reopenInactive u) = false := by
    simp [boundedNoEvidenceRecoveryAvailable, reopenInactive, boundedRecoveryReasons]
  have hcompletion : completionRetryAvailable (reopenInactive u) = false := by
    cases hstage : u.work.stage <;>
      simp [completionRetryAvailable, reopenInactive, completionRetryReasons, hstage]
  have hordinary : ordinaryAttemptCount stops (reopenInactive u) = ordinaryAttemptCount stops u := rfl
  have hroute : standingRoute stops (reopenInactive u) = standingRoute stops u := rfl
  have hless : (reopenInactive u).attempts < 4 := by
    change u.attempts < 4
    omega
  -- a precise extension is a standing route already: at most two attempts were made
  have hprecise : (decide ((reopenInactive u).work.stage = .precise) &&
      decide ((reopenInactive u).purpose = .precise) && decide ((reopenInactive u).attempts < 5) &&
      extensionPending (reopenInactive u)) = true →
      (decide (ordinaryAttemptCount stops u < 2) || standingRoute stops u) = true := by
    intro h
    simp only [Bool.and_eq_true, decide_eq_true_eq] at h
    obtain ⟨⟨⟨hstage, hpurpose⟩, -⟩, hpending⟩ := h
    change u.work.stage = .precise at hstage
    change u.purpose = .precise at hpurpose
    change extensionPending u = true at hpending
    by_cases htwo : ordinaryAttemptCount stops u = 2
    · simp [standingRoute, htwo, extensible, hstage, hpurpose, hpending]
    · have hle := ordinary_le_attempts stops u
      have hfew : ordinaryAttemptCount stops u < 2 := by omega
      simp [hfew]
  rw [Bool.eq_iff_iff, attemptAvailable, Bool.or_eq_true]
  simp only [hbounded, hcompletion, hordinary, hroute, hless, decide_true, Bool.true_and, Bool.or_false]
  exact ⟨fun h => h.elim id hprecise, .inl⟩

theorem recoverInactive_requeued (cat : Catalog) (picked : Uuid → Bool) (l : Ledger) (id : Uuid)
    (u : CfdUnit) :
    RequeuedClaimable cat l.stops u (recoverInactiveRow cat picked l id u) ↔
      requeuedWell l (.recoverInactive cat picked) id u = true := by
  unfold recoverInactiveRow
  by_cases hgap : (picked id && inactiveGap cat l u) = true
  · rw [if_pos hgap]
    simp only [requeuedWell, hgap, Bool.not_true, Bool.false_or]
    simp only [inactiveGap, Bool.and_eq_true, decide_eq_true_eq] at hgap
    obtain ⟨-, ⟨⟨⟨-, hstate⟩, -⟩, hattempts⟩, hbudget⟩ := hgap
    have hseconds : (reopenInactive u).activeSeconds < effectiveBudgetSeconds (reopenInactive u) :=
      lt_of_lt_of_le hbudget (activeBudget_le_effective (reopenInactive u))
    have hpending : (reopenInactive u).state = .pending := rfl
    rw [← attemptAvailable_reopenInactive cat hattempts]
    simp [RequeuedClaimable, hstate, hpending, hseconds]
  · rw [if_neg hgap]
    exact iff_of_true (.refl _ _ u) (by simp [requeuedWell, hgap])

theorem claimable_reopenTerminal {cat : Catalog} {facts : TerminalFacts} {l : Ledger} {id : Uuid}
    {u : CfdUnit} (h : terminalGap cat facts l id u = true) (heligible : requeueEligible l.stops u = true) :
    claimable cat l.stops (reopenTerminal cat u) = true := by
  have hattempts : u.attempts < 3 ∨ boundedNoEvidenceRecoveryAvailable cat l.stops u = true := by
    simp only [terminalGap, Bool.and_eq_true, Bool.or_eq_true, decide_eq_true_eq] at h
    exact h.1.1.1.1.1.2
  simp only [requeueEligible, Bool.and_eq_true, Bool.or_eq_true, decide_eq_true_eq] at heligible
  obtain ⟨hseconds, havailable⟩ := heligible
  have hseconds' : (reopenTerminal cat u).activeSeconds <
      effectiveBudgetSeconds (reopenTerminal cat u) := hseconds
  have hordinary : ordinaryAttemptCount l.stops (reopenTerminal cat u) = ordinaryAttemptCount l.stops u := rfl
  have hroute : standingRoute l.stops (reopenTerminal cat u) = standingRoute l.stops u := rfl
  have hcount : (reopenTerminal cat u).attempts = u.attempts := rfl
  -- the error text is kept from the second attempt on, and only those attempts have routes that read it
  have hbounded : boundedNoEvidenceRecoveryAvailable cat l.stops u = true →
      boundedNoEvidenceRecoveryAvailable cat l.stops (reopenTerminal cat u) = true ∧ u.attempts = 3 := by
    intro hbounded
    have hthree : u.attempts = 3 := by
      simp only [boundedNoEvidenceRecoveryAvailable, Bool.and_eq_true, decide_eq_true_eq] at hbounded
      exact hbounded.1.1.1
    refine ⟨?_, hthree⟩
    simpa [boundedNoEvidenceRecoveryAvailable, reopenTerminal, hthree, noAcceptedHistoryAndSettled]
      using hbounded
  have hcompletion : completionRetryAvailable u = true →
      completionRetryAvailable (reopenTerminal cat u) = true := by
    intro hcompletion
    have htwo : u.attempts = 2 := by
      simp only [completionRetryAvailable, Bool.and_eq_true, decide_eq_true_eq] at hcompletion
      exact hcompletion.1.1
    simpa [completionRetryAvailable, reopenTerminal, htwo] using hcompletion
  simp only [claimable, attemptAvailable, hseconds', hordinary, hroute, hcount, decide_true, Bool.and_true,
    Bool.or_eq_true, Bool.and_eq_true, decide_eq_true_eq]
  left
  rcases hattempts with hless | hthree
  · refine ⟨by omega, ?_⟩
    have hterminal : terminalAttemptAvailable l.stops u = true := havailable.resolve_left (by omega)
    simp only [terminalAttemptAvailable, Bool.or_eq_true, Bool.and_eq_true, decide_eq_true_eq] at hterminal
    rcases hterminal with (((hfew | hretry) | hpub) | hprecise) | hfast
    · exact .inl (.inl (.inl hfew))
    · exact .inl (.inr (hcompletion hretry))
    · exact .inr (by simp [standingRoute, hpub])
    · exact .inr (by simp [standingRoute, hprecise])
    · exact .inr (by simp [standingRoute, extensible, hfast])
  · obtain ⟨hkept, hthree'⟩ := hbounded hthree
    exact ⟨by omega, .inl (.inl (.inr hkept))⟩

theorem recoverTerminal_requeued {cat : Catalog} {facts : TerminalFacts} {l : Ledger} {id : Uuid}
    {u u' : CfdUnit} (hfind : l.units.find? id = some u)
    (hfind' : (recoverTerminalProgressiveNoEvidenceGaps cat facts l).units.find? id = some u') :
    RequeuedClaimable cat l.stops u u' := by
  rw [recoverTerminal_row (releaseStranded_row hfind)] at hfind'
  cases hfind'
  intro hstate hpending
  have hreleased : (releaseStrandedRow cat facts l id u).state ≠ .pending := by
    unfold releaseStrandedRow
    split
    · simp
    · exact hstate
  unfold settleTerminalGap at hpending ⊢
  split at hpending
  · rename_i hgap
    rw [if_pos hgap]
    split at hpending
    · rename_i heligible
      rw [if_pos heligible]
      rw [Bool.and_eq_true] at heligible
      have hclaimable := claimable_reopenTerminal hgap heligible.2
      rwa [claimable, Bool.and_eq_true, decide_eq_true_eq] at hclaimable
    · split at hpending
      · cases hpending
      · exact absurd hpending hreleased
  · exact absurd hpending hreleased

theorem recoverUnbound_row {cat : Catalog} {campaign : Uuid} {picked : Uuid → Bool} {l : Ledger} {id : Uuid}
    {u : CfdUnit} (h : l.units.find? id = some u) :
    (recoverUnboundProgressiveCfdLeases cat campaign picked l).units.find? id =
      some (recoverUnboundRow cat campaign picked l id u) := by
  rw [recoverUnboundProgressiveCfdLeases, Ledger.find?_mapUnits, h, Option.map_some, keepScope_eq]
  unfold recoverUnboundRow
  split
  · split <;> rfl
  · rfl

theorem recoverInactive_row {cat : Catalog} {picked : Uuid → Bool} {l : Ledger} {id : Uuid} {u : CfdUnit}
    (h : l.units.find? id = some u) :
    (recoverInactiveProgressiveRemoteGaps cat picked l).units.find? id =
      some (recoverInactiveRow cat picked l id u) := by
  rw [recoverInactiveProgressiveRemoteGaps, Ledger.find?_mapUnits, h, Option.map_some, keepScope_eq]
  unfold recoverInactiveRow
  split <;> rfl

theorem exec_requeued {cat : Catalog} {l l' : Ledger} {op : Op} {id : Uuid} {u u' : CfdUnit}
    (hop : exec l op = some l') (hcat : op.requeueCatalog = some cat) (hfind : l.units.find? id = some u)
    (hfind' : l'.units.find? id = some u') (hscoped : ExtensionScoped u) :
    RequeuedClaimable cat l'.stops u u' ↔ requeuedWell l op id u = true := by
  unfold Op.requeueCatalog at hcat
  split at hcat
  · rename_i input
    cases hcat
    simp only [exec, Option.map_eq_some_iff] at hop
    obtain ⟨⟨_, counts⟩, hsettle, rfl⟩ := hop
    exact settle_requeued (toOption_eq_some.1 hsettle) hfind hfind' hscoped
  · rename_i campaign picked
    cases hcat
    cases hop
    rw [recoverUnbound_row hfind] at hfind'
    cases hfind'
    exact recoverUnbound_requeued cat campaign picked l id u
  · rename_i picked
    cases hcat
    cases hop
    rw [recoverInactive_row hfind] at hfind'
    cases hfind'
    exact recoverInactive_requeued cat picked l id u
  · rename_i facts
    cases hcat
    cases hop
    have hstops : (recoverTerminalProgressiveNoEvidenceGaps cat facts l).stops = l.stops := rfl
    rw [hstops]
    exact iff_of_true (recoverTerminal_requeued hfind hfind') rfl
  · cases hcat

/-- From every reachable ledger, each of the four operations leaves the units it makes pending open to a
claim exactly when those units had, before it, what the claim will ask for. -/
theorem requeued_claimable_iff {cat : Catalog} {l l' : Ledger} {op : Op} (h : Reachable Initial Step l)
    (hop : exec l op = some l') (hcat : op.requeueCatalog = some cat) :
    (∀ id u u', l.units.find? id = some u → l'.units.find? id = some u' → u.state ≠ .pending →
        u'.state = .pending →
        attemptAvailable cat l'.stops u' = true ∧ u'.activeSeconds < effectiveBudgetSeconds u') ↔
      ∀ id u, l.units.find? id = some u → requeuedWell l op id u = true := by
  have hscoped := reachable_extensionScoped h
  constructor
  · intro hclaimable id u hfind
    obtain ⟨u', hfind'⟩ := exec_keeps hop hfind
    exact (exec_requeued hop hcat hfind hfind' (hscoped id u hfind)).1 (hclaimable id u u' hfind hfind')
  · intro hwell id u u' hfind hfind'
    exact (exec_requeued hop hcat hfind hfind' (hscoped id u hfind)).2 (hwell id u hfind)

def undeliveredRun : List Op :=
  [.insertUnit 1 sampleUnit, .claimUnit (sampleClaims 0) sampleInput 11,
    .recoverUnbound (sampleCatalog 200) 1 (fun _ => true), .claimUnit (sampleClaims 201) sampleInput 12,
    .compose (sampleCatalog 202) sampleCompose [sampleLease 12 900] 7,
    .acknowledgeStop ⟨7, true, false⟩ ⟨"7", some .recordedExecutionNamespace⟩,
    .settleInactive ⟨7, true, false⟩ true]

theorem undeliveredRun_outcomes :
    ((runWhile (fun _ _ => true) sampleLedger (undeliveredRun.take 2)).any fun l =>
        (exec l (.recoverUnbound (sampleCatalog 200) 1 fun _ => true)).any fun l' =>
          (l.units.find? 1).any fun u => (l'.units.find? 1).any fun u' =>
            u.state ≠ .pending && u'.state = .pending &&
              l.units.rows.all fun r =>
                requeuedWell l (.recoverUnbound (sampleCatalog 200) 1 fun _ => true) r.1 r.2) = true ∧
      ((runWhile (fun _ _ => true) sampleLedger undeliveredRun).any fun l =>
        (exec l (.recoverInactive (sampleCatalog 300) fun _ => true)).any fun l' =>
          (l.units.find? 1).any fun u => (l'.units.find? 1).any fun u' =>
            u.state ≠ .pending && u'.state = .pending &&
              attemptAvailable (sampleCatalog 300) l'.stops u' = false) = true := by
  decide +kernel

theorem requeued_claimable_first_expiry :
    ∃ l l' u u', runWhile (fun _ _ => true) sampleLedger (undeliveredRun.take 2) = some l ∧
      exec l (.recoverUnbound (sampleCatalog 200) 1 fun _ => true) = some l' ∧
      l.units.find? 1 = some u ∧ l'.units.find? 1 = some u' ∧ u.state ≠ .pending ∧
      u'.state = .pending ∧ attemptAvailable (sampleCatalog 200) l'.stops u' = true ∧
      u'.activeSeconds < effectiveBudgetSeconds u' := by
  have h := undeliveredRun_outcomes.1
  simp only [Option.any_eq_true, Bool.and_eq_true, decide_eq_true_eq] at h
  obtain ⟨l, hrun, l', hop, u, hfind, u', hfind', ⟨hstate, hpending⟩, hwell⟩ := h
  have hreach : Reachable Initial Step l :=
    reachable_of_runWhile (fun _ _ _ => trivial) (.start ⟨rfl, rfl⟩) hrun
  have hclaimable := (requeued_claimable_iff hreach hop rfl).2 fun id v hv =>
    List.all_eq_true.1 hwell (id, v) (Table.mem_of_find? hv)
  exact ⟨l, l', u, u', hrun, hop, hfind, hfind', hstate, hpending,
    hclaimable 1 u u' hfind hfind' hstate hpending⟩

/-- Two ordinary attempts are used up; the pass over inactive deliveries requeues the unit all the same. -/
theorem inactive_unit_requeued_unclaimable :
    ∃ l l' u u', Reachable Initial Step l ∧
      exec l (.recoverInactive (sampleCatalog 300) fun _ => true) = some l' ∧
      l.units.find? 1 = some u ∧ l'.units.find? 1 = some u' ∧ u.state ≠ .pending ∧
      u'.state = .pending ∧ attemptAvailable (sampleCatalog 300) l'.stops u' = false := by
  have h := undeliveredRun_outcomes.2
  simp only [Option.any_eq_true, Bool.and_eq_true, decide_eq_true_eq] at h
  obtain ⟨l, hrun, l', hop, u, hfind, u', hfind', ⟨hstate, hpending⟩, hunavailable⟩ := h
  exact ⟨l, l', u, u', reachable_of_runWhile (fun _ _ _ => trivial) (.start ⟨rfl, rfl⟩) hrun, hop, hfind,
    hfind', hstate, hpending, hunavailable⟩

end XFoilFoam.Progressive
