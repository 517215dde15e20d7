import Mathlib.Tactic.Linarith
import XFoilFoam.Progressive.Decision

/-! Budget extensions: who holds a claimed one, and when a unit that earned one goes on. -/
namespace XFoilFoam.Progressive
set_option autoImplicit false

/-! ## A claimed extension and its attempt -/

def ClaimedRunning (u : CfdUnit) : Prop :=
  ∀ e token, u.budgetExtension = some e → e.state = .claimed token →
    ∃ a, u.history.find? token = some a ∧ a.outcome = .running

theorem claimExtension_claimed {token other : Uuid} {e : BudgetExtension}
    (h : (claimExtension token e).state = .claimed other) :
    other = token ∨ e.state = .claimed other := by
  unfold claimExtension at h
  split at h
  · cases h
    exact .inl rfl
  · exact .inr h

theorem RowEffect.claimedRunning {stray : Uuid → Prop} {u u' : CfdUnit} (h : RowEffect stray u u')
    (hstray : ∀ token, stray token → ¬ extensionHeldBy u token) (hu : ClaimedRunning u) :
    ClaimedRunning u' := by
  intro e' token he' hstate
  cases h with
  | keep hhistory hext _ =>
    rw [hext] at he'
    rw [hhistory]
    exact hu e' token he' hstate
  | lease own a hinsert _ hrunning hext _ =>
    rw [hext, Option.map_eq_some_iff] at he'
    obtain ⟨e, he, rfl⟩ := he'
    rcases claimExtension_claimed hstate with rfl | hold
    · exact ⟨a, (Table.find?_insert hinsert).2 (.inr ⟨rfl, rfl⟩), hrunning⟩
    · obtain ⟨b, hb, hbrunning⟩ := hu e token he hold
      exact ⟨b, (Table.find?_insert hinsert).2 (.inl hb), hbrunning⟩
  | edit f hhistory _ hend hext _ =>
    rw [hext] at he'
    obtain ⟨a, ha, hrunning⟩ := hu e' token he' hstate
    refine ⟨f token a, by rw [hhistory, Table.find?_map, ha]; rfl, ?_⟩
    rcases hend token a ha with hsame | hstrayed
    · rw [hsame, hrunning]
    · exact absurd ⟨e', he', hstate⟩ (hstray token hstrayed)
  | settle own f hhistory _ hext _ _ =>
    obtain ⟨hne, e, he, hold⟩ := hext e' he' token hstate
    obtain ⟨a, ha, hrunning⟩ := hu e token he hold
    exact ⟨a, by rw [hhistory, Table.find?_modify_ne _ _ hne]; exact ha, hrunning⟩
  | measure own a f hfind hhistory houtcome _ hext _ =>
    rw [hext] at he'
    obtain ⟨b, hb, hrunning⟩ := hu e' token he' hstate
    by_cases hown : token = own
    · subst hown
      rw [hfind] at hb
      cases hb
      exact ⟨f a, by rw [hhistory, Table.find?_modify_self, hfind]; rfl, houtcome.trans hrunning⟩
    · exact ⟨b, by rw [hhistory, Table.find?_modify_ne _ _ hown]; exact hb, hrunning⟩

/-- The operation ends no attempt that holds an extension, other than by settling it. -/
def keepsExtensions (l : Ledger) (op : Op) : Bool :=
  l.units.rows.all fun r =>
    match r.2.budgetExtension with
    | some e =>
      match e.state with
      | .claimed token => !endsOutsideSettlement l op r.1 r.2 token
      | _ => true
    | none => true

theorem not_held_of_keepsExtensions {l : Ledger} {op : Op} {id token : Uuid} {u : CfdUnit}
    (h : keepsExtensions l op = true) (hfind : l.units.find? id = some u)
    (hstray : Stray l op id u token) : ¬ extensionHeldBy u token := by
  rintro ⟨e, he, hstate⟩
  have hrow := List.all_eq_true.1 h (id, u) (Table.mem_of_find? hfind)
  simp only [he, hstate] at hrow
  rw [Stray] at hstray
  rw [hstray] at hrow
  cases hrow

theorem exec_claimedRunning {l l' : Ledger} {op : Op} (hop : exec l op = some l')
    (hkeeps : keepsExtensions l op = true)
    (h : ∀ id u, l.units.find? id = some u → ClaimedRunning u) :
    ∀ id u, l'.units.find? id = some u → ClaimedRunning u := by
  refine exec_rows hop ?_ ?_ ?_ h
  · intro scope e token he
    cases he
  · intro id u u' hfind _ heffect
    exact heffect.claimedRunning fun _ => not_held_of_keepsExtensions hkeeps hfind
  · intro u u' hclean
    exact hclean.effect.claimedRunning fun _ hfalse => hfalse.elim

/-- In every run whose operations end no holder of an extension outside its settlement, the attempt
that claimed an extension is still running while the extension is claimed. -/
theorem claimed_extension_running {l : Ledger}
    (h : Reachable Initial (StepWhen fun l op => keepsExtensions l op = true) l) :
    ∀ id u, l.units.find? id = some u → ∀ e token, u.budgetExtension = some e →
      e.state = .claimed token → ∃ a, u.history.find? token = some a ∧ a.outcome = .running := by
  apply h.invariant (P := fun l => ∀ id u, l.units.find? id = some u → ClaimedRunning u)
  · exact fun l hinit => initial_rows hinit
  · rintro l l' hclaimed ⟨op, hkeeps, hop⟩
    exact exec_claimedRunning hop hkeeps hclaimed

def extensionRun : List Op :=
  [.insertUnit 1 sampleUnit, .claimUnit (sampleClaims 0) sampleInput 11,
    .recoverUnbound (sampleCatalog 200) 1 (fun _ => true), .claimUnit (sampleClaims 201) sampleInput 12,
    .compose (sampleCatalog 202) sampleCompose [sampleLease 12 900] 7,
    .evidence (sampleCatalog 203) (sampleScope 7) .strict [sampleReceipt 7 900],
    .acknowledgeStop ⟨7, true, true⟩ ⟨"7", some .recordedExecutionNamespace⟩,
    .settle (sampleCatalog 204) settleJob,
    .claimUnit (sampleClaims 205) sampleInput 13]

/-- The third attempt claims the extension, its lease can expire, and the settlement that grants the
extension is one of a stage-2 unit. -/
theorem extensionRun_outcomes :
    ((runWhile keepsExtensions sampleLedger extensionRun).any fun l =>
        (l.units.find? 1).any fun u => u.budgetExtension.any fun e => e.state = .claimed 13) = true ∧
      ((runWhile (fun _ _ => true) sampleLedger
        (extensionRun ++ [.recoverUnbound (sampleCatalog 400) 1 fun _ => true])).any fun l =>
        (l.units.find? 1).any fun u => (u.budgetExtension.any fun e => e.state = .claimed 13) &&
          (u.history.find? 13).any fun a => a.outcome = .expired) = true ∧
      ((runWhile (fun _ _ => true) sampleLedger (extensionRun.take 7)).any fun l =>
        (settleProgressiveCfdExecution (sampleCatalog 204) settleJob l).toOption.any fun settled =>
          (l.units.find? 1).any fun u => (settled.1.units.find? 1).any fun u' =>
            u.budgetExtension = none && u'.budgetExtension ≠ none && u.work.stage = .fast) = true := by
  decide +kernel

theorem claimed_extension_running_third_attempt :
    ∃ l u e, runWhile keepsExtensions sampleLedger extensionRun = some l ∧ l.units.find? 1 = some u ∧
      u.budgetExtension = some e ∧ e.state = .claimed 13 ∧
      ∃ a, u.history.find? 13 = some a ∧ a.outcome = .running := by
  obtain ⟨l, hrun, u, hfind, e, he, hstate⟩ : ∃ l,
      runWhile keepsExtensions sampleLedger extensionRun = some l ∧ ∃ u, l.units.find? 1 = some u ∧
        ∃ e, u.budgetExtension = some e ∧ e.state = .claimed 13 := by
    simpa [Option.any_eq_true] using extensionRun_outcomes.1
  have hreach : Reachable Initial (StepWhen fun l op => keepsExtensions l op = true) l :=
    reachable_of_runWhile (fun _ _ h => h) (.start ⟨rfl, rfl⟩) hrun
  exact ⟨l, u, e, hrun, hfind, he, hstate, claimed_extension_running hreach 1 u hfind e 13 he hstate⟩

/-- The lease of the third attempt expires unbound: the attempt ends, its extension stays claimed. -/
theorem expired_attempt_keeps_extension :
    ∃ l u e a, Reachable Initial Step l ∧ l.units.find? 1 = some u ∧ u.budgetExtension = some e ∧
      e.state = .claimed 13 ∧ u.history.find? 13 = some a ∧ a.outcome = .expired := by
  have h := extensionRun_outcomes.2.1
  simp only [Option.any_eq_true, Bool.and_eq_true, decide_eq_true_eq] at h
  obtain ⟨l, hrun, u, hfind, ⟨e, he, hstate⟩, a, ha, hexpired⟩ := h
  exact ⟨l, u, e, a, reachable_of_runWhile (fun _ _ _ => trivial) (.start ⟨rfl, rfl⟩) hrun, hfind, he,
    hstate, ha, hexpired⟩

/-! ## Continuation after an admitted extension -/

theorem continuation_lengths {stage : Stage} (hstage : stage ≠ .baseline) (ordinary : ℤ)
    (active budget : ℚ) :
    (ordinary = 2 ∧ active < budget + fastBudgetExtensionSeconds ↔
        ordinary = 2 ∧ active < budget + extensionSecondsFor stage) ↔
      stage = .fast ∨ ordinary ≠ 2 ∨ active < budget + fastBudgetExtensionSeconds ∨
        budget + preciseBudgetExtensionSeconds ≤ active := by
  have hlong : fastBudgetExtensionSeconds < preciseBudgetExtensionSeconds := by
    norm_num [fastBudgetExtensionSeconds, preciseBudgetExtensionSeconds, preciseInitialActiveSeconds]
  cases stage with
  | baseline => exact absurd rfl hstage
  | fast => simp [extensionSecondsFor]
  | precise =>
    simp only [extensionSecondsFor, if_true, reduceCtorEq, false_or]
    by_cases htwo : ordinary = 2
    · simp only [htwo, true_and, ne_eq, not_true_eq_false, false_or]
      constructor
      · intro hiff
        by_contra hnot
        push Not at hnot
        exact absurd (hiff.2 hnot.2) (not_lt.2 hnot.1)
      · rintro (hbelow | habove)
        · exact ⟨fun _ => by linarith, fun _ => hbelow⟩
        · exact ⟨fun hlt => by linarith, fun hlt => absurd hlt (not_lt.2 habove)⟩
    · simp [htwo]

/-- The settlement that admits an extension sends the unit on exactly when the extended budget allows
it, except for a stage-3 unit that overshot its budget by the stage-2 length or more. -/
theorem admitted_continuation_iff {cat : Catalog} {input : SettleInput} {l l' : Ledger}
    {counts : SettleCounts} {id : Uuid} {u u' : CfdUnit}
    (h : settleProgressiveCfdExecution cat input l = .ok (l', counts))
    (hfind : l.units.find? id = some u) (hfind' : l'.units.find? id = some u')
    (hnone : u.budgetExtension = none) (hsome : u'.budgetExtension ≠ none) :
    (u'.state = .pending ∧ u'.error = some .continuation ↔
        ordinaryAttemptCount l'.stops u' = 2 ∧ u'.activeSeconds < effectiveBudgetSeconds u') ↔
      u.work.stage = .fast ∨ ordinaryAttemptCount l.stops u ≠ 2 ∨
        u.activeSeconds < u.activeBudgetSeconds + fastBudgetExtensionSeconds ∨
        u.activeBudgetSeconds + preciseBudgetExtensionSeconds ≤ u.activeSeconds := by
  rw [settle_stops h]
  rcases settle_row h hfind hfind' with ⟨s, -, hs, hdecides, rfl⟩ | ⟨-, hext, -⟩
  swap
  · exact absurd (hext.trans hnone) hsome
  obtain ⟨hscope, -, hext, hseconds⟩ := expireLease_columns cat input.simJobId u
  have hordinary := expireLease_ordinary cat input.simJobId l.stops u
  -- from here on the row is the one the decision saw, with the columns of `u`
  generalize expireLease cat input.simJobId u = v at *
  obtain ⟨hattempt, hstops, hbasis⟩ := settlingOf_spec hs
  obtain ⟨e, hadmitted⟩ : ∃ e, s.admitted v = some e := by
    rw [← Option.ne_none_iff_exists']
    intro hadmitted
    simp [Settling.settledRow, Settling.settledExtension, hadmitted, hext, hnone] at hsome
  obtain ⟨hcomplete, -, hstage, -, -, -⟩ := Settling.admitted_spec hadmitted
  have hcount : ordinaryAttemptCount l.stops (s.settledRow v) = ordinaryAttemptCount l.stops u := by
    rw [← hordinary, ← hstops,
      Settling.ordinary_settledRow (attemptOf_mem hattempt).1 hbasis hdecides hcomplete]
    simp [Settling.ordinaryAttempts, Settling.neverStarted_of_admitted hdecides hadmitted]
  have hcontinues : (s.settledRow v).state = .pending ∧ (s.settledRow v).error = some .continuation ↔
      ordinaryAttemptCount l.stops u = 2 ∧
        u.activeSeconds < u.activeBudgetSeconds + fastBudgetExtensionSeconds := by
    have hretry := Settling.budgetExtensionRetry_admitted hdecides hadmitted
    rw [hstops, hordinary, hseconds, hscope] at hretry
    rw [← hretry, Settling.settledRow_pending_iff]
    change _ ∧ s.reason v = _ ↔ _
    rw [Settling.reason_continuation hcomplete]
    simp only [hcomplete, Settling.retry, Bool.or_eq_true, true_and]
    tauto
  have hactive : (s.settledRow v).activeSeconds = u.activeSeconds := hseconds
  rw [hcontinues, hcount, hactive, Settling.effective_admitted hadmitted, hscope]
  exact continuation_lengths (hscope ▸ hstage) _ _ _

theorem admitted_continuation_second_attempt :
    ∃ l l' counts u u', runWhile (fun _ _ => true) sampleLedger (extensionRun.take 7) = some l ∧
      settleProgressiveCfdExecution (sampleCatalog 204) settleJob l = .ok (l', counts) ∧
      l.units.find? 1 = some u ∧ l'.units.find? 1 = some u' ∧ u.budgetExtension = none ∧
      u'.budgetExtension ≠ none ∧
      (u'.state = .pending ∧ u'.error = some .continuation ↔
        ordinaryAttemptCount l'.stops u' = 2 ∧ u'.activeSeconds < effectiveBudgetSeconds u') := by
  have h := extensionRun_outcomes.2.2
  simp only [Option.any_eq_true, Bool.and_eq_true, decide_eq_true_eq] at h
  obtain ⟨l, hrun, ⟨l', counts⟩, hsettle, u, hfind, u', hfind', ⟨hnone, hsome⟩, hfast⟩ := h
  rw [toOption_eq_some] at hsettle
  exact ⟨l, l', counts, u, u', hrun, hsettle, hfind, hfind', hnone, hsome,
    (admitted_continuation_iff hsettle hfind hfind' hnone hsome).2 (.inl hfast)⟩

/-- The stage-2 unit of a target ends as a gap; the second attempt at its stage-3 unit is stopped by the
wall clock 1000 s after its budget. -/
def overshootRun : List Op :=
  [.insertUnit 1 sampleUnit, .claimUnit (sampleClaims 0) sampleInput 11,
    .recoverUnbound (sampleCatalog 200) 1 (fun _ => true), .claimUnit (sampleClaims 201) sampleInput 12,
    .recoverUnbound (sampleCatalog 400) 1 (fun _ => true), .insertUnit 2 preciseUnit,
    .claimUnit (sampleClaims 401) sampleInput 13,
    .recoverUnbound (sampleCatalog 600) 1 (fun _ => true), .claimUnit (sampleClaims 601) sampleInput 14,
    .compose (sampleCatalog 602) sampleCompose [{ sampleLease 14 43200 with id := 2, work := preciseWork }] 7,
    .evidence (sampleCatalog 603) (sampleScope 7) .strict [sampleReceipt 7 44200],
    .acknowledgeStop ⟨7, true, true⟩ ⟨"7", some .recordedExecutionNamespace⟩]

/-- The settlement inserts an extension of 43200 s and closes the unit as exhausted. -/
theorem overshoot_closes_extended_unit :
    ∃ l l' counts u u', Reachable Initial Step l ∧
      settleProgressiveCfdExecution (fullFidelity 604) settleJob l = .ok (l', counts) ∧
      l.units.find? 2 = some u ∧ l'.units.find? 2 = some u' ∧ u.budgetExtension = none ∧
      (u'.budgetExtension.any fun e => e.extensionSeconds = 43200) = true ∧
      u'.state = .gap ∧ u'.error = some .budgetExhausted ∧
      ¬ (u'.state = .pending ∧ u'.error = some .continuation ↔
        ordinaryAttemptCount l'.stops u' = 2 ∧ u'.activeSeconds < effectiveBudgetSeconds u') := by
  have h : ((runWhile (fun _ _ => true) twoStageLedger overshootRun).any fun l =>
      (settleProgressiveCfdExecution (fullFidelity 604) settleJob l).toOption.any fun settled =>
        (l.units.find? 2).any fun u => (settled.1.units.find? 2).any fun u' =>
          u.budgetExtension = none && (u'.budgetExtension.any fun e => e.extensionSeconds = 43200) &&
            u'.state = .gap && u'.error = some .budgetExhausted &&
            ordinaryAttemptCount settled.1.stops u' = 2 &&
            u'.activeSeconds < effectiveBudgetSeconds u') = true := by decide +kernel
  simp only [Option.any_eq_true, Bool.and_eq_true, decide_eq_true_eq] at h
  obtain ⟨l, hrun, ⟨l', counts⟩, hsettle, u, hfind, u', hfind', ⟨⟨⟨⟨hnone, hlength⟩, hstate⟩, herror⟩,
    hordinary⟩, hseconds⟩ := h
  refine ⟨l, l', counts, u, u', reachable_of_runWhile (fun _ _ _ => trivial) (.start ⟨rfl, rfl⟩) hrun,
    toOption_eq_some.1 hsettle, hfind, hfind', hnone, ?_, hstate, herror, ?_⟩
  · simpa [Option.any_eq_true] using hlength
  · intro hiff
    have hpending := (hiff.2 ⟨hordinary, hseconds⟩).1
    rw [hstate] at hpending
    cases hpending

end XFoilFoam.Progressive
