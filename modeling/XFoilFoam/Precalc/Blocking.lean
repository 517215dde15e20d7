import XFoilFoam.Precalc.Settlement

/-! When a settlement blocks an obligation.  The recovery plan is chosen from texts and the state from typed flags: a
plan that consumes no attempt and is no exact continuation falls through to the last branch of the cascade, which blocks
although a physical attempt is left. -/
namespace XFoilFoam.Precalc
open Polar (FailureDisposition)
set_option autoImplicit false

variable {F : Type} [Binary64 F]

/-! ## Plans -/

def strandingText (text : String) : Bool := infrastructureText text || includes text "deterministic-mesh"

theorem plan_retries_iff {input : PolicyInput F} (hstatus : input.status.isSome = true)
    (hmaterial : input.failureDisposition ≠ some (.typed .materialDomain))
    (hinfrastructure : input.failureDisposition ≠ some (.typed .infrastructure))
    (hmesh : input.failureDisposition ≠ some (.typed .deterministicMesh))
    (hmedia : (planPrecalcRecovery input).action ≠ .repairMedia) :
    ((planPrecalcRecovery input).action = .continueExactCase ∧ input.hasRestartableEvidence = true ∨
      (planPrecalcRecovery input).consumesSolverAttempt = true) ↔
      strandingText (normalizedText input) = false := by
  have hnone : input.status.isNone = false := by
    rw [Option.isNone_eq_false_iff]
    exact hstatus
  unfold planPrecalcRecovery at hmedia ⊢
  simp only [hmaterial, hinfrastructure, hmesh, hnone, decide_false, Bool.false_or, Bool.or_false, if_false,
    strandingText] at hmedia ⊢
  by_cases htext : infrastructureText (normalizedText input) = true
  · simp [htext]
  · by_cases hmeshText : includes (normalizedText input) "deterministic-mesh" = true
    · simp [htext, hmeshText]
    · simp only [htext, hmeshText, Bool.false_eq_true, if_false, Bool.or_self, iff_true] at hmedia ⊢
      split_ifs at hmedia ⊢ with hvideo hmean hcontinue hnoise
      · exact absurd rfl hmedia
      · exact .inr rfl
      · simp only [Bool.and_eq_true] at hcontinue
        exact .inl ⟨rfl, hcontinue.1.1⟩
      · exact .inr rfl
      · exact .inr rfl

theorem plan_action_of_stranding {input : PolicyInput F} (h : strandingText (normalizedText input) = true) :
    (planPrecalcRecovery input).action ≠ .repairMedia := by
  rw [strandingText, Bool.or_eq_true] at h
  unfold planPrecalcRecovery
  simp only
  split_ifs with hmaterial hinfrastructure hmesh <;> intro hmedia <;> try cases hmedia
  simp only [Bool.or_eq_true, not_or] at hinfrastructure hmesh
  obtain htext | htext := h
  · exact hinfrastructure.2 htext
  · exact hmesh.2 htext

/-! ## The cascade -/

def evidenceText (j : Judgement F) (segment : Segment) : String := normalizedText (policyInput j segment)

structure Untyped (j : Judgement F) (segment : Segment) : Prop where
  permanent : j.continuationPermanent = false
  exhausted : noProgressExhausted j segment = false
  infrastructure : j.infrastructure = false
  deterministic : j.deterministic = false
  explicit : j.cancellation ≠ some .explicit

theorem untyped_retries_iff {j : Judgement F} {segment : Segment} (h : Untyped j segment)
    (hmedia : (recoveryPlan j segment).action ≠ .repairMedia) :
    ((recoveryPlan j segment).action = .continueExactCase ∧ j.restartable = true ∨
      (recoveryPlan j segment).consumesSolverAttempt = true) ↔
      strandingText (evidenceText j segment) = false := by
  have hkind : j.failureKind = none := by
    have hpermanent := h.permanent
    have hinfrastructure := h.infrastructure
    cases hk : j.failureKind with
    | none => rfl
    | some kind =>
      cases kind with
      | transient => simp [Judgement.infrastructure, hk] at hinfrastructure
      | permanent => simp [Judgement.continuationPermanent, hk] at hpermanent
  have hdeterministic := h.deterministic
  rw [Judgement.deterministic, hkind, Option.isNone_none, Bool.true_and] at hdeterministic
  have hstatus : (policyInput j segment).status.isSome = true := by
    cases hjudged : j.judged with
    | some row => simp [policyInput, hjudged]
    | none =>
      have hcancelled : j.cancellation = none := by
        have hinfrastructure := h.infrastructure
        cases hc : j.cancellation with
        | none => rfl
        | some c =>
          cases c with
          | transient => simp [Judgement.infrastructure, hc, hjudged] at hinfrastructure
          | explicit => exact absurd hc h.explicit
      simp [policyInput, hjudged, hcancelled]
  have hinfrastructure : j.failureDisposition ≠ some (.typed .infrastructure) := by
    intro hd
    have hflag := h.infrastructure
    simp [Judgement.infrastructure, hd] at hflag
  have hmaterial : j.failureDisposition ≠ some (.typed .materialDomain) := by
    intro hd
    simp [hd] at hdeterministic
  have hmesh : j.failureDisposition ≠ some (.typed .deterministicMesh) := by
    intro hd
    simp [hd] at hdeterministic
  exact plan_retries_iff hstatus hmaterial hinfrastructure hmesh hmedia

theorem retryOr_eq_blocked {left : Bool} : retryOr left = .blocked ↔ left = false := by
  cases left <;> simp [retryOr]

theorem verdict_blocked_iff {j : Judgement F} {segment : Segment} (haccepted : j.accepted = none)
    (hlive : j.live = true) (hdeterministic : j.deterministic = false)
    (hmedia : (recoveryPlan j segment).action ≠ .repairMedia)
    (hexhausted : noProgressExhausted j segment = false) :
    (verdict j segment true).state = .blocked ↔
      Untyped j segment ∧ strandingText (evidenceText j segment) = true := by
  by_cases huntyped : Untyped j segment
  · have hretry := untyped_retries_iff huntyped hmedia
    have hstate : (verdict j segment true).state =
        retryOr ((decide ((recoveryPlan j segment).action = .continueExactCase) && j.restartable) ||
          ((recoveryPlan j segment).consumesSolverAttempt && true)) := by
      simp only [verdict, haccepted, hlive, huntyped.permanent, hexhausted, huntyped.infrastructure, hdeterministic,
        huntyped.explicit, hmedia, Option.isSome_none, Bool.not_true, Bool.false_eq_true, if_false]
    rw [hstate, retryOr_eq_blocked, and_iff_right huntyped, ← Bool.not_eq_false, ← hretry, Bool.and_true,
      ← Bool.not_eq_true, Bool.or_eq_true, Bool.and_eq_true, decide_eq_true_eq]
  · have hstate : (verdict j segment true).state = .pending := by
      simp only [verdict, haccepted, hlive, hexhausted, hdeterministic, Option.isSome_none, Bool.not_true,
        Bool.false_eq_true, if_false]
      by_cases hpermanent : j.continuationPermanent = true
      · simp [hpermanent, retryOr]
      · by_cases hinfrastructure : j.infrastructure = true
        · simp [hpermanent, hinfrastructure]
        · by_cases hexplicit : j.cancellation = some .explicit
          · simp [hpermanent, hinfrastructure, hexplicit, retryOr]
          · exact absurd ⟨Bool.eq_false_of_not_eq_true hpermanent, hexhausted,
              Bool.eq_false_of_not_eq_true hinfrastructure, hdeterministic, hexplicit⟩ huntyped
    rw [hstate]
    exact iff_of_false (fun hblocked => by cases hblocked) (fun hstranded => huntyped hstranded.1)

/-! ## One turn -/

section Turn
variable (t : Settling) (j : Judgement F) (l : Ledger F)

/-- The settlement blocks the obligation for one of the reasons it may. -/
def BlocksForReason : Prop :=
  l.obligation.state ≠ .blocked → (settleLedger t j l).obligation.state = .blocked →
    (settleLedger t j l).obligation.exhausted = true ∨ j.deterministic = true ∨
      (recoveryPlan j (t.segment j l)).action = .repairMedia ∨ noProgressExhausted j (t.segment j l) = true

/-- The obligation is open to the job and owned, an attempt is left, no typed flag decides, and a text of the evidence
reads as infrastructure or mesh work. -/
structure Stranded : Prop where
  writes : t.writes l = true
  rejected : j.accepted = none
  live : j.live = true
  attemptsLeft : t.kept j l < l.obligation.maxAttempts
  untyped : Untyped j (t.segment j l)
  text : strandingText (evidenceText j (t.segment j l)) = true

theorem verdict_of_left (h : t.kept j l < l.obligation.maxAttempts) :
    t.verdict j l = verdict j (t.segment j l) true := by
  rw [Settling.verdict, recovered_maxAttempts, decide_eq_true h]

theorem blocksForReason_iff : BlocksForReason t j l ↔ ¬Stranded t j l := by
  constructor
  · intro hreason hstranded
    have hwritten := settleLedger_written t j l hstranded.rejected hstranded.writes
    have hopen : l.obligation.state ≠ .blocked := by
      intro hblocked
      have hwrites := hstranded.writes
      simp [Settling.writes, Obligation.closed, hblocked] at hwrites
    have hmedia : (recoveryPlan j (t.segment j l)).action ≠ .repairMedia := plan_action_of_stranding hstranded.text
    have hblocked := (verdict_blocked_iff hstranded.rejected hstranded.live hstranded.untyped.deterministic hmedia
      hstranded.untyped.exhausted).mpr ⟨hstranded.untyped, hstranded.text⟩
    rw [BlocksForReason, hwritten, Ledger.setObligation_obligation, settledObligation_state, verdict_of_left t j l
      hstranded.attemptsLeft] at hreason
    obtain hexhausted | hdeterministic | hrepair | hprogress := hreason hopen hblocked
    · rw [Obligation.exhausted, settledObligation_maxAttempts, settledObligation_attemptCount,
        decide_eq_true_eq] at hexhausted
      exact absurd hstranded.attemptsLeft (not_lt.mpr hexhausted)
    · rw [hstranded.untyped.deterministic] at hdeterministic
      cases hdeterministic
    · exact hmedia hrepair
    · rw [hstranded.untyped.exhausted] at hprogress
      cases hprogress
  · intro hstranded hbefore hafter
    cases haccepted : j.accepted with
    | some attemptId =>
      rw [settleLedger_accepted t j l haccepted] at hafter
      cases hafter
    | none =>
      cases hwrites : t.writes l with
      | false =>
        rw [settleLedger_left t j l haccepted hwrites, finished_obligation, recovered_state] at hafter
        exact absurd hafter hbefore
      | true =>
        rw [settleLedger_written t j l haccepted hwrites] at hafter ⊢
        by_contra hnone
        simp only [not_or, Bool.not_eq_true] at hnone
        obtain ⟨hleft, hdeterministic, hmedia, hprogress⟩ := hnone
        have hkept : t.kept j l < l.obligation.maxAttempts := by
          rw [Ledger.setObligation_obligation, Obligation.exhausted, settledObligation_maxAttempts,
            settledObligation_attemptCount, decide_eq_false_iff_not, not_le] at hleft
          exact hleft
        rw [Ledger.setObligation_obligation, settledObligation_state, verdict_of_left t j l hkept] at hafter
        have hlive : j.live = true := by
          by_contra hdead
          simp only [verdict, haccepted, Option.isSome_none, Bool.eq_false_of_not_eq_true hdead, Bool.not_false,
            Bool.false_eq_true, if_false, if_true] at hafter
          cases hafter
        obtain ⟨huntyped, htext⟩ := (verdict_blocked_iff haccepted hlive hdeterministic hmedia hprogress).mp hafter
        exact hstranded ⟨hwrites, haccepted, hlive, hkept, huntyped, htext⟩

end Turn

/-! ## The settlement -/

/-- A settlement blocks an obligation that it lists only for an exhausted budget, a deterministic failure, a media repair
or an exhausted continuation, exactly when it does not strand it: an untyped failure with an attempt left, in whose
texts the policy reads infrastructure or mesh work. -/
theorem settlement_blocks_for_reason_iff (w : World F) (jobId : String) (job : SimJob F) (opts : SettlementOptions)
    (now : ℕ) {obligations : Table String (Ledger F)} {id : String} {l : Ledger F}
    (hfind : obligations.find? id = some l)
    (hlisted : ((precalcObligationIds job.requestPayload).contains id && ofJobCell job l.obligation) = true) :
    (∀ l', (settlePrecalcObligationsForJob w jobId job opts now obligations).find? id = some l' →
        l.obligation.state ≠ .blocked → l'.obligation.state = .blocked →
          l'.obligation.exhausted = true ∨ (judgementOf w jobId job opts obligations id l).deterministic = true ∨
            (recoveryPlan (judgementOf w jobId job opts obligations id l)
              ((settlingOf jobId job now).segment (judgementOf w jobId job opts obligations id l) l)).action =
                .repairMedia ∨
            noProgressExhausted (judgementOf w jobId job opts obligations id l)
              ((settlingOf jobId job now).segment (judgementOf w jobId job opts obligations id l) l) = true) ↔
      ¬Stranded (settlingOf jobId job now) (judgementOf w jobId job opts obligations id l) l := by
  rw [← blocksForReason_iff]
  have hsettled := find?_settle w jobId job opts now hfind
  rw [if_pos hlisted] at hsettled
  constructor
  · intro h
    exact h _ hsettled
  · intro h l' hl'
    rw [hsettled] at hl'
    cases hl'
    exact h

def runningLedger : Ledger ExactNum where
  obligation := { freshObligation with
    state := .running
    attemptCount := 1
    latestSimJobId := some "job"
    attempts_le := oneAttempt_le }
  submissions := [.submitted "job" 1 (some 1) true]
  apart := List.pairwise_singleton _ _

def runningTable : Table String (Ledger ExactNum) := ⟨[("obligation", runningLedger)], by decide⟩

def workerRestart : SettlementOptions := { noOptions with terminalError := some "engine lost: worker restart" }

def runningJudgement (opts : SettlementOptions) : Judgement ExactNum :=
  judgementOf quietWorld "job" (solveJob ["obligation"]) opts runningTable "obligation" runningLedger

/-- A failure without such a text leaves the obligation its second attempt. -/
theorem silent_failure_keeps_attempt :
    runningTable.find? "obligation" = some runningLedger ∧
      ∀ l', (settlePrecalcObligationsForJob quietWorld "job" (solveJob ["obligation"]) noOptions 0
          runningTable).find? "obligation" = some l' →
        runningLedger.obligation.state ≠ .blocked → l'.obligation.state = .blocked →
          l'.obligation.exhausted = true ∨ (runningJudgement noOptions).deterministic = true ∨
            (recoveryPlan (runningJudgement noOptions)
              ((settlingOf "job" (solveJob ["obligation"]) 0).segment (runningJudgement noOptions)
                runningLedger)).action = .repairMedia ∨
            noProgressExhausted (runningJudgement noOptions)
              ((settlingOf "job" (solveJob ["obligation"]) 0).segment (runningJudgement noOptions)
                runningLedger) = true := by
  have hsilent : strandingText (evidenceText (runningJudgement noOptions)
      ((settlingOf "job" (solveJob ["obligation"]) 0).segment (runningJudgement noOptions) runningLedger)) =
        false := by decide +kernel
  refine ⟨rfl, (settlement_blocks_for_reason_iff quietWorld "job" (solveJob ["obligation"]) noOptions 0 rfl
    (by decide +kernel)).mpr ?_⟩
  intro hstranded
  have htext : strandingText (evidenceText (runningJudgement noOptions)
    ((settlingOf "job" (solveJob ["obligation"]) 0).segment (runningJudgement noOptions) runningLedger)) = true :=
      hstranded.text
  rw [hsilent] at htext
  cases htext

/-- The text of a worker restart blocks an owned obligation that has an attempt left, on a plan to retry. -/
theorem worker_restart_text_blocks :
    ∃ l', (settlePrecalcObligationsForJob quietWorld "job" (solveJob ["obligation"]) workerRestart 0
        runningTable).find? "obligation" = some l' ∧
      l'.obligation.state = .blocked ∧ l'.obligation.exhausted = false ∧
      runningLedger.obligation.state ≠ .blocked ∧ (runningJudgement workerRestart).live = true ∧
      (runningJudgement workerRestart).accepted = none ∧ (runningJudgement workerRestart).deterministic = false ∧
      (recoveryPlan (runningJudgement workerRestart)
        ((settlingOf "job" (solveJob ["obligation"]) 0).segment (runningJudgement workerRestart)
          runningLedger)).action = .retryInfrastructure ∧
      noProgressExhausted (runningJudgement workerRestart)
        ((settlingOf "job" (solveJob ["obligation"]) 0).segment (runningJudgement workerRestart)
          runningLedger) = false := by
  refine ⟨_, find?_settle quietWorld "job" (solveJob ["obligation"]) workerRestart 0 rfl, ?_⟩
  exact ⟨by decide +kernel, by decide +kernel, by decide +kernel, by decide +kernel, by decide +kernel,
    by decide +kernel, by decide +kernel, by decide +kernel⟩

end XFoilFoam.Precalc
