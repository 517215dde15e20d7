import XFoilFoam.Foundations.JsValue
import XFoilFoam.Foundations.Runs
import Mathlib.Logic.Function.Basic
import Mathlib.Tactic.Linarith

/-! `BudgetedRunner` of `openfoam/budget.py`: threads that share one budget of solver seconds per physical case.  A
call of `solver` holds the case's execution lock from reading what remains to its return; between two atomic steps
of a call the other threads may do anything and the clock may advance.  Seconds are exact. -/
namespace XFoilFoam.BudgetedRunner
set_option autoImplicit false

/-! ## Cases and their limits -/

structure CaseSpec where
  chord : ExactNum
  speed : ExactNum
  aoaDeg : ExactNum
  deriving DecidableEq

abbrev CaseKey := ℚ × ℚ × ℚ

structure SolverCaseAllocation where
  chord : ℚ
  speed : ℚ
  aoaDeg : ℚ
  limitSeconds : ℚ
  chord_pos : 0 < chord
  speed_pos : 0 < speed
  limit_pos : 0 < limitSeconds
  limit_le : limitSeconds ≤ 43200

def SolverCaseAllocation.key (allocation : SolverCaseAllocation) : CaseKey :=
  (allocation.chord, allocation.speed, allocation.aoaDeg)

inductive Failure where
  | valueError (text : String)
  | infrastructureError (text : String)
  | insufficientMpiSlots (requested available : ℤ)
  /-- What the inner runner raised. -/
  | inner (text : String)
  deriving DecidableEq

structure Budgets where
  limitOf : CaseKey → Option ℚ
  positive : ∀ key limit, limitOf key = some limit → 0 < limit

def Budgets.shared (seconds : ℚ) (h : 0 < seconds) : Budgets where
  limitOf _ := some seconds
  positive := by
    rintro _ _ ⟨⟩
    exact h

def Budgets.allocated (allocations : List SolverCaseAllocation) : Budgets where
  limitOf key := (allocations.find? (fun a => a.key == key)).map SolverCaseAllocation.limitSeconds
  positive := by
    intro key limit h
    obtain ⟨a, -, rfl⟩ := Option.map_eq_some_iff.mp h
    exact a.limit_pos

/-- `BudgetedRunner.__init__`. -/
def init (perCaseSeconds : Option ExactNum) (caseAllocations : Option (List SolverCaseAllocation)) :
    Except Failure Budgets :=
  match perCaseSeconds, caseAllocations with
  | some (.fin seconds), none =>
    if h : 0 < seconds ∧ seconds ≤ 43200 then .ok (.shared seconds h.1)
    else .error (.valueError "A solver case budget must be finite, positive and at most twelve hours")
  | some _, none => .error (.valueError "A solver case budget must be finite, positive and at most twelve hours")
  | none, some allocations =>
    if allocations.length < 1 ∨ 512 < allocations.length then
      .error (.valueError "Expected between one and 512 solver case allocations")
    else if (allocations.map SolverCaseAllocation.key).Nodup then .ok (.allocated allocations)
    else .error (.valueError "Solver case allocations must have unique physical identities")
  | _, _ => .error (.valueError "Specify one shared case budget or exact case allocations")

/-! ## One call of `solver` -/

structure RunResult where
  command : String
  returncode : ℤ
  stdout : String
  timedOut : Bool
  deriving DecidableEq

def RunResult.ok (result : RunResult) : Bool := result.returncode == 0

abbrev Outcome := Except Failure RunResult

/-- `_CaseBudget`; `holder` is the thread in the execution lock. -/
structure CaseBudget where
  limitSeconds : ℚ
  consumed : ℚ
  startedAt : Option ℚ
  holder : Option ℕ
  deriving DecidableEq

def CaseBudget.charge (budget : CaseBudget) (elapsed : ℚ) : CaseBudget :=
  { budget with consumed := budget.consumed + elapsed, startedAt := none }

inductive Stage where
  | waiting
  | entered (remaining : ℚ)
  | decomposing (remaining : ℚ)
  | prepared (remaining : ℚ) (preparation : String)
  | running (remaining : ℚ) (preparation : String) (started : ℚ)
  | reconstructing (result : RunResult)
  deriving DecidableEq

/-- A call in progress; its timeout has been checked. -/
structure Work where
  key : CaseKey
  app : String
  nProc : ℤ
  timeout : ℚ
  timeout_pos : 0 < timeout
  restart : Bool
  stage : Stage

inductive Process where
  | solver
  | application
  deriving DecidableEq

structure Launch where
  key : CaseKey
  process : Process
  command : String
  timeout : ℚ
  callerTimeout : ℚ
  deriving DecidableEq

/-- What one step of a call leaves: the budget, the call or its outcome, and a command that it launches. -/
structure Turn where
  budget : CaseBudget
  progress : Outcome ⊕ Work
  launch : Option Launch

def leave (budget : CaseBudget) (outcome : Outcome) : Turn := ⟨{ budget with holder := none }, .inl outcome, none⟩

def Work.to (work : Work) (stage : Stage) : Work := { work with stage := stage }

def Work.application (work : Work) (command : String) : Launch :=
  ⟨work.key, .application, command, work.timeout, work.timeout⟩

def Work.decomposeCommand (work : Work) : String :=
  if work.restart then "decomposePar -latestTime -force" else "decomposePar -force"

def Work.solverCommand (work : Work) : String :=
  if 1 < work.nProc then
    "mpirun --allow-run-as-root --bind-to none --use-hwthread-cpus -np " ++ toString work.nProc ++ " " ++ work.app ++
      " -parallel"
  else work.app

def proceed (available : ℤ) (now : ℚ) (thread : ℕ) (budget : CaseBudget) (work : Work) : Option Turn :=
  match work.stage with
  | .waiting =>
    if budget.holder.isNone then
      some ⟨{ budget with holder := some thread },
        .inr (work.to (.entered (budget.limitSeconds - budget.consumed))), none⟩
    else none
  | .entered remaining =>
    if remaining ≤ 0 then
      some (leave budget (.ok ⟨work.app, 124,
        "Active solver budget exhausted; no new solver process was launched", true⟩))
    else if 1 < work.nProc then
      if available < work.nProc then some (leave budget (.error (.insufficientMpiSlots work.nProc available)))
      else some ⟨budget, .inr (work.to (.decomposing remaining)), some (work.application work.decomposeCommand)⟩
    else some ⟨budget, .inr (work.to (.prepared remaining "")), none⟩
  | .prepared remaining preparation =>
    some ⟨{ budget with startedAt := some now }, .inr (work.to (.running remaining preparation now)),
      some ⟨work.key, .solver, work.solverCommand, min work.timeout remaining, work.timeout⟩⟩
  | _ => none

/-- A launched command returns or raises.  The inner runner respects the timeout of a solver process. -/
def finish (now : ℚ) (budget : CaseBudget) (work : Work) (outcome : Outcome) : Option Turn :=
  match work.stage with
  | .decomposing remaining =>
    match outcome with
    | .error failure => some (leave budget (.error failure))
    | .ok decomposed =>
      if decomposed.ok then some ⟨budget, .inr (work.to (.prepared remaining decomposed.stdout)), none⟩
      else some (leave budget (.ok decomposed))
  | .running remaining preparation started =>
    if max 0 (now - started) ≤ min work.timeout remaining then
      let budget := budget.charge (max 0 (now - started))
      match outcome with
      | .error failure => some (leave budget (.error failure))
      | .ok result =>
        if 1 < work.nProc then
          let result := { result with stdout := preparation ++ "\n" ++ result.stdout }
          if result.ok then
            some ⟨budget, .inr (work.to (.reconstructing result)),
              some (work.application "reconstructPar -latestTime")⟩
          else some (leave budget (.ok result))
        else some (leave budget (.ok result))
    else none
  | .reconstructing result =>
    match outcome with
    | .error failure => some (leave budget (.error failure))
    | .ok reconstructed =>
      let result := { result with stdout := result.stdout ++ "\n" ++ reconstructed.stdout }
      some (leave budget (.ok (if reconstructed.ok then result
        else { result with returncode := reconstructed.returncode, timedOut := reconstructed.timedOut })))
  | _ => none

/-! ## Threads -/

structure Thread where
  current : Option CaseKey
  work : Option Work
  outcome : Option Outcome

structure State where
  cases : CaseKey → Option CaseBudget
  threads : ℕ → Thread
  now : ℚ

def State.start (now : ℚ) : State := ⟨fun _ => none, fun _ => ⟨none, none, none⟩, now⟩

def State.setThread (s : State) (thread : ℕ) (value : Thread) : State :=
  { s with threads := Function.update s.threads thread value }

def State.setBudget (s : State) (key : CaseKey) (value : CaseBudget) : State :=
  { s with cases := Function.update s.cases key (some value) }

section Updates
variable (s : State) {thread other : ℕ} {key key' : CaseKey} (value : Thread) (budget : CaseBudget)

@[simp] theorem State.cases_setThread : (s.setThread thread value).cases = s.cases := rfl

@[simp] theorem State.threads_setBudget : (s.setBudget key budget).threads = s.threads := rfl

@[simp] theorem State.threads_setThread_self : (s.setThread thread value).threads thread = value :=
  Function.update_self _ _ _

theorem State.threads_setThread_of_ne (h : other ≠ thread) :
    (s.setThread thread value).threads other = s.threads other := Function.update_of_ne h _ _

@[simp] theorem State.cases_setBudget_self : (s.setBudget key budget).cases key = some budget :=
  Function.update_self _ _ _

theorem State.cases_setBudget_of_ne (h : key' ≠ key) : (s.setBudget key budget).cases key' = s.cases key' :=
  Function.update_of_ne h _ _

end Updates

/-- `(float(spec.chord), float(spec.speed), float(spec.aoa_deg))` when all three are finite. -/
def CaseSpec.key (spec : CaseSpec) : Option CaseKey :=
  match spec.chord, spec.speed, spec.aoaDeg with
  | .fin chord, .fin speed, .fin aoaDeg => some (chord, speed, aoaDeg)
  | _, _, _ => none

def registerCase (budgets : Budgets) (s : State) (spec : CaseSpec) : Except Failure (CaseKey × State) :=
  match spec.key with
  | none => .error (.valueError "Solver budget identity requires a finite physical case")
  | some key =>
    match budgets.limitOf key with
    | none => .error (.infrastructureError "Physical case has no exact solver budget allocation")
    | some limit =>
      .ok (key, if (s.cases key).isSome then s else s.setBudget key ⟨limit, 0, none, none⟩)

def State.consumed (s : State) (spec : CaseSpec) : Option ℚ :=
  (spec.key.bind s.cases).map CaseBudget.consumed

/-- The arguments of `solver`. -/
structure SolverCall where
  app : String
  nProc : ℤ
  timeout : ExactNum
  restart : Bool

inductive Action where
  | tick (seconds : ℚ)
  | registerCase (spec : CaseSpec)
  | beginCase (thread : ℕ) (spec : CaseSpec)
  | solver (thread : ℕ) (call : SolverCall)
  | proceed (thread : ℕ)
  | finish (thread : ℕ) (outcome : Outcome)

/-- `solver` up to its execution lock. -/
def enterSolver (thread : Thread) (call : SolverCall) : Thread :=
  match thread.current with
  | none =>
    { thread with outcome := some (.error (.infrastructureError "Budgeted solver has no physical-case ownership")) }
  | some key =>
    match call.timeout with
    | .fin timeout =>
      if h : 0 < timeout then
        { thread with work := some ⟨key, call.app, call.nProc, timeout, h, call.restart, .waiting⟩ }
      else
        { thread with outcome := some (.error (.valueError "Solver invocation timeout must be finite and positive")) }
    | _ => { thread with outcome := some (.error (.valueError "Solver invocation timeout must be finite and positive")) }

/-- A step of the call that a thread has in progress. -/
def applyTurn (s : State) (thread : ℕ) (turn : CaseBudget → Work → Option Turn) : Option (State × Option Launch) :=
  match (s.threads thread).work with
  | none => none
  | some work =>
    match s.cases work.key with
    | none => none
    | some budget =>
      (turn budget work).map fun t =>
        ((s.setBudget work.key t.budget).setThread thread (match t.progress with
          | .inl outcome => { s.threads thread with work := none, outcome := some outcome }
          | .inr work => { s.threads thread with work := some work }), t.launch)

/-- One step; `available` is the worker's CPU budget. -/
def step (budgets : Budgets) (available : ℤ) (s : State) : Action → Option (State × Option Launch)
  | .tick seconds => if 0 ≤ seconds then some ({ s with now := s.now + seconds }, none) else none
  | .registerCase spec =>
    match registerCase budgets s spec with
    | .ok (_, s') => some (s', none)
    | .error _ => some (s, none)
  | .beginCase thread spec =>
    if (s.threads thread).work.isNone then
      match registerCase budgets s spec with
      | .ok (key, s') => some (s'.setThread thread { s.threads thread with current := some key }, none)
      | .error failure =>
        some (s.setThread thread { s.threads thread with current := none, outcome := some (.error failure) }, none)
    else none
  | .solver thread call =>
    if (s.threads thread).work.isNone then some (s.setThread thread (enterSolver (s.threads thread) call), none)
    else none
  | .proceed thread => applyTurn s thread (proceed available s.now thread)
  | .finish thread outcome => applyTurn s thread fun budget work => finish s.now budget work outcome

/-! ## What one call may do to its budget -/

def CaseBudget.Within (budget : CaseBudget) : Prop := 0 ≤ budget.consumed ∧ budget.consumed ≤ budget.limitSeconds

/-- A call behind the lock is its holder, and what it read as remaining still is. -/
def Owns (thread : ℕ) (budget : CaseBudget) : Stage → Prop
  | .waiting => True
  | .entered remaining => budget.holder = some thread ∧ remaining = budget.limitSeconds - budget.consumed
  | .decomposing remaining | .prepared remaining _ | .running remaining _ _ =>
    budget.holder = some thread ∧ remaining = budget.limitSeconds - budget.consumed ∧ 0 < remaining
  | .reconstructing _ => budget.holder = some thread

/-- A step of a call keeps to the budget: nobody else holds it, it only grows, up to its limit, and a solver process
is given no more than what remains. -/
structure Keeps (thread : ℕ) (budget : CaseBudget) (work : Work) (turn : Turn) : Prop where
  free : budget.holder = none ∨ budget.holder = some thread
  limit : turn.budget.limitSeconds = budget.limitSeconds
  grows : budget.consumed ≤ turn.budget.consumed
  within : turn.budget.consumed ≤ turn.budget.limitSeconds
  progress : ∀ work', turn.progress = .inr work' → work'.key = work.key ∧ Owns thread turn.budget work'.stage
  launch : ∀ l, turn.launch = some l → l.key = work.key ∧ (l.process = .solver → budget.consumed < budget.limitSeconds ∧
    0 < l.timeout ∧ l.timeout ≤ l.callerTimeout ∧ l.timeout ≤ budget.limitSeconds - budget.consumed)

section Turns
variable {available : ℤ} {now : ℚ} {thread : ℕ} {budget : CaseBudget} {work : Work} {turn : Turn} {outcome : Outcome}

theorem keeps_leave (hholder : budget.holder = some thread) (hwithin : budget.Within) (outcome : Outcome) :
    Keeps thread budget work (leave budget outcome) where
  free := .inr hholder
  limit := rfl
  grows := le_rfl
  within := hwithin.2
  progress := by
    rintro work' ⟨⟩
  launch := by
    rintro l ⟨⟩

theorem keeps_stage (hholder : budget.holder = some thread) (hwithin : budget.Within) (stage : Stage)
    (howns : Owns thread budget stage) {launch : Option Launch}
    (hlaunch : ∀ l, launch = some l → l.key = work.key ∧ l.process = .application) :
    Keeps thread budget work ⟨budget, .inr (work.to stage), launch⟩ where
  free := .inr hholder
  limit := rfl
  grows := le_rfl
  within := hwithin.2
  progress := by
    rintro work' ⟨⟩
    exact ⟨rfl, howns⟩
  launch := by
    intro l hl
    obtain ⟨hkey, happlication⟩ := hlaunch l hl
    exact ⟨hkey, fun hsolver => nomatch happlication.symm.trans hsolver⟩

theorem proceed_keeps (h : proceed available now thread budget work = some turn) (howns : Owns thread budget work.stage)
    (hwithin : budget.Within) : Keeps thread budget work turn := by
  unfold proceed at h
  split at h
  · split at h
    · next hfree =>
      cases h
      refine ⟨.inl (Option.isNone_iff_eq_none.mp hfree), rfl, le_rfl, hwithin.2, ?_, ?_⟩
      · rintro work' ⟨⟩
        exact ⟨rfl, rfl, rfl⟩
      · rintro l ⟨⟩
    · cases h
  · next remaining hstage =>
    rw [hstage] at howns
    obtain ⟨hholder, hremaining⟩ := howns
    split at h
    · cases h
      exact keeps_leave hholder hwithin _
    · next hleft =>
      split at h
      · split at h
        · cases h
          exact keeps_leave hholder hwithin _
        · cases h
          refine keeps_stage hholder hwithin (.decomposing remaining) ⟨hholder, hremaining, not_le.mp hleft⟩ ?_
          rintro l ⟨⟩
          exact ⟨rfl, rfl⟩
      · cases h
        refine keeps_stage hholder hwithin (.prepared remaining "") ⟨hholder, hremaining, not_le.mp hleft⟩ ?_
        rintro l ⟨⟩
  · next remaining preparation hstage =>
    rw [hstage] at howns
    obtain ⟨hholder, hremaining, hpos⟩ := howns
    cases h
    refine ⟨.inr hholder, rfl, le_rfl, hwithin.2, ?_, ?_⟩
    · rintro work' ⟨⟩
      exact ⟨rfl, hholder, hremaining, hpos⟩
    · rintro l ⟨⟩
      refine ⟨rfl, fun _ => ⟨?_, lt_min work.timeout_pos hpos, min_le_left _ _, ?_⟩⟩
      · linarith
      · rw [← hremaining]
        exact min_le_right _ _
  · cases h

theorem keeps_charge {elapsed : ℚ} (hholder : budget.holder = some thread) (helapsed : 0 ≤ elapsed) {next : Turn}
    (hnext : Keeps thread (budget.charge elapsed) work next) : Keeps thread budget work next where
  free := .inr hholder
  limit := hnext.limit
  grows := by
    have hgrows : budget.consumed + elapsed ≤ next.budget.consumed := hnext.grows
    linarith
  within := hnext.within
  progress := hnext.progress
  launch := by
    intro l hl
    obtain ⟨hkey, hsolver⟩ := hnext.launch l hl
    refine ⟨hkey, fun hprocess => ?_⟩
    obtain ⟨hlt, hpos, hcaller, hremaining⟩ := hsolver hprocess
    have hlimit : (budget.charge elapsed).limitSeconds = budget.limitSeconds := rfl
    have hconsumed : (budget.charge elapsed).consumed = budget.consumed + elapsed := rfl
    rw [hlimit, hconsumed] at hlt hremaining
    exact ⟨by linarith, hpos, hcaller, by linarith⟩

theorem finish_keeps (h : finish now budget work outcome = some turn) (howns : Owns thread budget work.stage)
    (hwithin : budget.Within) : Keeps thread budget work turn := by
  unfold finish at h
  split at h
  · next remaining hstage =>
    rw [hstage] at howns
    obtain ⟨hholder, hremaining, hpos⟩ := howns
    split at h
    · cases h
      exact keeps_leave hholder hwithin _
    · split at h
      · cases h
        refine keeps_stage hholder hwithin (.prepared remaining _) ⟨hholder, hremaining, hpos⟩ ?_
        rintro l ⟨⟩
      · cases h
        exact keeps_leave hholder hwithin _
  · next remaining preparation started hstage =>
    rw [hstage] at howns
    obtain ⟨hholder, hremaining, -⟩ := howns
    split at h
    · next helapsed =>
      have hnonneg : 0 ≤ max 0 (now - started) := le_max_left 0 _
      have hle : max 0 (now - started) ≤ budget.limitSeconds - budget.consumed := by
        rw [← hremaining]
        exact helapsed.trans (min_le_right _ _)
      refine keeps_charge hholder hnonneg ?_
      have hcharged : (budget.charge (max 0 (now - started))).Within :=
        ⟨add_nonneg hwithin.1 hnonneg, le_sub_iff_add_le'.mp hle⟩
      have hheld : (budget.charge (max 0 (now - started))).holder = some thread := hholder
      dsimp only at h
      split at h
      · cases h
        exact keeps_leave hheld hcharged _
      · split at h
        · split at h
          · cases h
            refine keeps_stage hheld hcharged (.reconstructing _) hheld ?_
            rintro l ⟨⟩
            exact ⟨rfl, rfl⟩
          · cases h
            exact keeps_leave hheld hcharged _
        · cases h
          exact keeps_leave hheld hcharged _
    · cases h
  · next result hstage =>
    rw [hstage] at howns
    split at h
    · cases h
      exact keeps_leave howns hwithin _
    · cases h
      exact keeps_leave howns hwithin _
  · cases h

end Turns

/-! ## All threads -/

/-- Every case has its limit and stays within it, and every call owns the budget of its case. -/
structure Sound (budgets : Budgets) (s : State) : Prop where
  limit : ∀ key budget, s.cases key = some budget → budgets.limitOf key = some budget.limitSeconds
  within : ∀ key budget, s.cases key = some budget → budget.Within
  owns : ∀ thread work, (s.threads thread).work = some work →
    ∃ budget, s.cases work.key = some budget ∧ Owns thread budget work.stage
  current : ∀ thread key, (s.threads thread).current = some key → (s.cases key).isSome = true

/-- The budgets afterwards: none is lost, no limit changes and nothing consumed is given back. -/
def Grows (s s' : State) : Prop :=
  ∀ key budget, s.cases key = some budget →
    ∃ budget', s'.cases key = some budget' ∧ budget'.limitSeconds = budget.limitSeconds ∧
      budget.consumed ≤ budget'.consumed

/-- A solver process launched in `s` has something left, and gets no more than that or than its caller asked for. -/
def WithinRemaining (s : State) (launch : Launch) : Prop :=
  ∃ budget, s.cases launch.key = some budget ∧ budget.consumed < budget.limitSeconds ∧ 0 < launch.timeout ∧
    launch.timeout ≤ launch.callerTimeout ∧ launch.timeout ≤ budget.limitSeconds - budget.consumed

section Steps
variable {budgets : Budgets} {available : ℤ} {s s' : State} {thread : ℕ} {launch : Option Launch}

theorem Grows.of_cases_eq (h : s'.cases = s.cases) : Grows s s' := by
  intro key budget hcase
  exact ⟨budget, by rw [h, hcase], rfl, le_rfl⟩

theorem Grows.trans {s'' : State} (h : Grows s s') (h' : Grows s' s'') : Grows s s'' := by
  intro key budget hcase
  obtain ⟨budget', hcase', hlimit, hle⟩ := h key budget hcase
  obtain ⟨budget'', hcase'', hlimit', hle'⟩ := h' key budget' hcase'
  exact ⟨budget'', hcase'', hlimit'.trans hlimit, hle.trans hle'⟩

theorem sound_start (budgets : Budgets) (now : ℚ) : Sound budgets (.start now) where
  limit := by rintro key budget ⟨⟩
  within := by rintro key budget ⟨⟩
  owns := by rintro thread work ⟨⟩
  current := by rintro thread key ⟨⟩

theorem Sound.setThread (h : Sound budgets s) {value : Thread}
    (hwork : ∀ work, value.work = some work → ∃ budget, s.cases work.key = some budget ∧ Owns thread budget work.stage)
    (hcurrent : ∀ key, value.current = some key → (s.cases key).isSome = true) :
    Sound budgets (s.setThread thread value) where
  limit := h.limit
  within := h.within
  owns := by
    intro other work hother
    by_cases hsame : other = thread
    · subst hsame
      rw [State.threads_setThread_self] at hother
      exact hwork work hother
    · rw [State.threads_setThread_of_ne _ _ hsame] at hother
      exact h.owns other work hother
  current := by
    intro other key hother
    by_cases hsame : other = thread
    · subst hsame
      rw [State.threads_setThread_self] at hother
      exact hcurrent key hother
    · rw [State.threads_setThread_of_ne _ _ hsame] at hother
      exact h.current other key hother

theorem registerCase_sound {spec : CaseSpec} {key : CaseKey} (h : Sound budgets s)
    (hregister : registerCase budgets s spec = .ok (key, s')) :
    Sound budgets s' ∧ Grows s s' ∧ spec.key = some key ∧ (s'.cases key).isSome = true ∧ s'.threads = s.threads ∧
      (∀ other, other ≠ key → s'.cases other = s.cases other) ∧
      ∀ budget, s.cases key = some budget → s'.cases key = some budget := by
  unfold registerCase at hregister
  split at hregister
  · cases hregister
  · next key' hkey =>
    split at hregister
    · cases hregister
    · next limit hlimit =>
      cases hregister
      split
      · next hsome => exact ⟨h, .of_cases_eq rfl, hkey, hsome, rfl, fun _ _ => rfl, fun _ hcase => hcase⟩
      · next hnone =>
        rw [Option.not_isSome_iff_eq_none] at hnone
        -- the case is new, so that no thread works on it
        have hother : ∀ {k : CaseKey} {budget : CaseBudget}, s.cases k = some budget → k ≠ key := by
          rintro k budget hcase rfl
          rw [hnone] at hcase
          cases hcase
        refine ⟨⟨?_, ?_, ?_, ?_⟩, ?_, hkey, ?_, rfl, fun other hne => State.cases_setBudget_of_ne _ _ hne, ?_⟩
        · intro k budget hcase
          by_cases hk : k = key
          · subst hk
            rw [State.cases_setBudget_self] at hcase
            cases hcase
            exact hlimit
          · rw [State.cases_setBudget_of_ne _ _ hk] at hcase
            exact h.limit k budget hcase
        · intro k budget hcase
          by_cases hk : k = key
          · subst hk
            rw [State.cases_setBudget_self] at hcase
            cases hcase
            exact ⟨le_rfl, (budgets.positive _ _ hlimit).le⟩
          · rw [State.cases_setBudget_of_ne _ _ hk] at hcase
            exact h.within k budget hcase
        · intro thread work hwork
          obtain ⟨budget, hcase, howns⟩ := h.owns thread work hwork
          exact ⟨budget, by rw [State.cases_setBudget_of_ne _ _ (hother hcase), hcase], howns⟩
        · intro thread k hcurrent
          by_cases hk : k = key
          · rw [hk, State.cases_setBudget_self]
            rfl
          · rw [State.cases_setBudget_of_ne _ _ hk]
            exact h.current thread k hcurrent
        · intro k budget hcase
          exact ⟨budget, by rw [State.cases_setBudget_of_ne _ _ (hother hcase), hcase], rfl, le_rfl⟩
        · rw [State.cases_setBudget_self]
          rfl
        · intro budget hcase
          exact absurd rfl (hother hcase)

theorem Owns.holder {budget : CaseBudget} {stage : Stage} (h : Owns thread budget stage) :
    stage = .waiting ∨ budget.holder = some thread := by
  cases stage with
  | waiting => exact .inl rfl
  | reconstructing result => exact .inr h
  | _ => exact .inr h.1

theorem applyTurn_sound {turn : CaseBudget → Work → Option Turn} (h : Sound budgets s)
    (hturn : ∀ budget work t, turn budget work = some t → Owns thread budget work.stage → budget.Within →
      Keeps thread budget work t)
    (hstep : applyTurn s thread turn = some (s', launch)) :
    Sound budgets s' ∧ Grows s s' ∧ ∀ l, launch = some l → l.process = .solver → WithinRemaining s l := by
  unfold applyTurn at hstep
  split at hstep
  · cases hstep
  · next work hwork =>
    obtain ⟨budget, hcase, howns⟩ := h.owns thread work hwork
    rw [hcase] at hstep
    obtain ⟨t, ht, heq⟩ := Option.map_eq_some_iff.mp hstep
    cases heq
    have hkeeps := hturn budget work t ht howns (h.within _ _ hcase)
    refine ⟨⟨?_, ?_, ?_, ?_⟩, ?_, ?_⟩
    · intro key budget' hcase'
      by_cases hkey : key = work.key
      · subst hkey
        rw [State.cases_setThread, State.cases_setBudget_self] at hcase'
        cases hcase'
        rw [hkeeps.limit]
        exact h.limit _ _ hcase
      · rw [State.cases_setThread, State.cases_setBudget_of_ne _ _ hkey] at hcase'
        exact h.limit key budget' hcase'
    · intro key budget' hcase'
      by_cases hkey : key = work.key
      · subst hkey
        rw [State.cases_setThread, State.cases_setBudget_self] at hcase'
        cases hcase'
        exact ⟨(h.within _ _ hcase).1.trans hkeeps.grows, hkeeps.within⟩
      · rw [State.cases_setThread, State.cases_setBudget_of_ne _ _ hkey] at hcase'
        exact h.within key budget' hcase'
    · intro other work' hwork'
      by_cases hother : other = thread
      · subst hother
        rw [State.threads_setThread_self] at hwork'
        split at hwork'
        · cases hwork'
        · next next hprogress =>
          cases hwork'
          obtain ⟨hkey, hnext⟩ := hkeeps.progress _ hprogress
          exact ⟨t.budget, by rw [State.cases_setThread, hkey, State.cases_setBudget_self], hnext⟩
      · rw [State.threads_setThread_of_ne _ _ hother] at hwork'
        obtain ⟨budget', hcase', howns'⟩ := h.owns other work' hwork'
        by_cases hkey : work'.key = work.key
        · rw [hkey, hcase] at hcase'
          cases hcase'
          -- another thread is not behind the lock
          refine ⟨t.budget, by rw [State.cases_setThread, hkey, State.cases_setBudget_self], ?_⟩
          obtain hwaiting | hholder := howns'.holder
          · rw [hwaiting]
            trivial
          · obtain hfree | hfree := hkeeps.free
            · rw [hfree] at hholder
              cases hholder
            · rw [hfree] at hholder
              exact absurd (Option.some.inj hholder).symm hother
        · exact ⟨budget', by rw [State.cases_setThread, State.cases_setBudget_of_ne _ _ hkey, hcase'], howns'⟩
    · intro other key hcurrent
      have hold : (s.cases key).isSome = true := by
        by_cases hother : other = thread
        · subst hother
          rw [State.threads_setThread_self] at hcurrent
          split at hcurrent
          · exact h.current _ _ hcurrent
          · exact h.current _ _ hcurrent
        · rw [State.threads_setThread_of_ne _ _ hother] at hcurrent
          exact h.current other key hcurrent
      by_cases hkey : key = work.key
      · rw [State.cases_setThread, hkey, State.cases_setBudget_self]
        rfl
      · rw [State.cases_setThread, State.cases_setBudget_of_ne _ _ hkey]
        exact hold
    · intro key budget' hcase'
      by_cases hkey : key = work.key
      · subst hkey
        rw [hcase] at hcase'
        cases hcase'
        exact ⟨t.budget, by rw [State.cases_setThread, State.cases_setBudget_self], hkeeps.limit, hkeeps.grows⟩
      · exact ⟨budget', by rw [State.cases_setThread, State.cases_setBudget_of_ne _ _ hkey, hcase'], rfl, le_rfl⟩
    · intro l hl hsolver
      obtain ⟨hkey, hlaunch⟩ := hkeeps.launch l hl
      exact ⟨budget, by rw [hkey, hcase], hlaunch hsolver⟩

theorem Sound.enterSolver (h : Sound budgets s) (call : SolverCall) (hidle : (s.threads thread).work = none) :
    Sound budgets (s.setThread thread (enterSolver (s.threads thread) call)) := by
  have hstay : ∀ outcome : Option Outcome,
      Sound budgets (s.setThread thread { s.threads thread with outcome := outcome }) := by
    intro outcome
    refine h.setThread (fun work hwork => ?_) fun key hkey => h.current thread key hkey
    rw [hidle] at hwork
    cases hwork
  unfold BudgetedRunner.enterSolver
  split
  · exact hstay _
  · next key hcurrent =>
    split
    · split
      · refine h.setThread (fun work hwork => ?_) fun key hkey => h.current thread key hkey
        cases hwork
        obtain ⟨budget, hcase⟩ := Option.isSome_iff_exists.mp (h.current thread key hcurrent)
        exact ⟨budget, hcase, trivial⟩
      · exact hstay _
    · exact hstay _

theorem step_sound {action : Action} (h : Sound budgets s)
    (hstep : step budgets available s action = some (s', launch)) :
    Sound budgets s' ∧ Grows s s' ∧ ∀ l, launch = some l → l.process = .solver → WithinRemaining s l := by
  have hquiet : ∀ l, (none : Option Launch) = some l → l.process = .solver → WithinRemaining s l := by
    rintro l ⟨⟩
  cases action with
  | tick seconds =>
    rw [step] at hstep
    split at hstep
    · cases hstep
      exact ⟨⟨h.limit, h.within, h.owns, h.current⟩, .of_cases_eq rfl, hquiet⟩
    · cases hstep
  | registerCase spec =>
    rw [step] at hstep
    split at hstep
    · next key registered hregister =>
      cases hstep
      obtain ⟨hsound, hgrows, -⟩ := registerCase_sound h hregister
      exact ⟨hsound, hgrows, hquiet⟩
    · cases hstep
      exact ⟨h, .of_cases_eq rfl, hquiet⟩
  | beginCase thread spec =>
    rw [step] at hstep
    split at hstep
    · next hidle =>
      rw [Option.isNone_iff_eq_none] at hidle
      split at hstep
      · next key registered hregister =>
        cases hstep
        obtain ⟨hsound, hgrows, -, hsome, hthreads, -⟩ := registerCase_sound h hregister
        refine ⟨hsound.setThread (fun work hwork => ?_) (fun key' hkey' => ?_), hgrows, hquiet⟩
        · rw [hidle] at hwork
          cases hwork
        · cases hkey'
          exact hsome
      · cases hstep
        refine ⟨h.setThread (fun work hwork => ?_) (fun key' hkey' => ?_), .of_cases_eq rfl, hquiet⟩
        · rw [hidle] at hwork
          cases hwork
        · cases hkey'
    · cases hstep
  | solver thread call =>
    rw [step] at hstep
    split at hstep
    · next hidle =>
      cases hstep
      exact ⟨h.enterSolver call (Option.isNone_iff_eq_none.mp hidle), .of_cases_eq rfl, hquiet⟩
    · cases hstep
  | proceed thread => exact applyTurn_sound h (fun budget work t ht howns hwithin => proceed_keeps ht howns hwithin) hstep
  | finish thread outcome =>
    exact applyTurn_sound h (fun budget work t ht howns hwithin => finish_keeps ht howns hwithin) hstep

theorem step_beginCase {spec : CaseSpec} (h : Sound budgets s)
    (hstep : step budgets available s (.beginCase thread spec) = some (s', launch)) :
    (∀ key, some key ≠ spec.key → s'.cases key = s.cases key) ∧
      ∀ key budget, s.cases key = some budget → s'.cases key = some budget := by
  rw [step] at hstep
  split at hstep
  · split at hstep
    · next key registered hregister =>
      cases hstep
      obtain ⟨-, -, hkey, -, -, hothers, hown⟩ := registerCase_sound h hregister
      have hsame : ∀ other, other ≠ key → registered.cases other = s.cases other := hothers
      refine ⟨fun other hother => hsame other fun heq => hother (by rw [heq, hkey]), fun other budget hcase => ?_⟩
      rw [State.cases_setThread]
      by_cases heq : other = key
      · subst heq
        exact hown budget hcase
      · rw [hsame other heq, hcase]
    · cases hstep
      exact ⟨fun _ _ => rfl, fun _ _ hcase => hcase⟩
  · cases hstep

end Steps

/-! ## Runs -/

def Steps (budgets : Budgets) (available : ℤ) (s s' : State) : Prop :=
  ∃ action launch, step budgets available s action = some (s', launch)

def Reached (budgets : Budgets) (available : ℤ) : State → Prop :=
  Reachable (fun s => ∃ now, s = .start now) (Steps budgets available)

theorem sound_of_reached {budgets : Budgets} {available : ℤ} {s : State} (h : Reached budgets available s) :
    Sound budgets s := by
  refine Reachable.invariant h ?_ ?_
  · rintro _ ⟨now, rfl⟩
    exact sound_start budgets now
  · rintro s s' hs ⟨action, launch, hstep⟩
    exact (step_sound hs hstep).1

theorem grows_of_run {budgets : Budgets} {available : ℤ} {s s' : State} (h : Sound budgets s)
    (hrun : Relation.ReflTransGen (Steps budgets available) s s') : Grows s s' := by
  have hboth : Sound budgets s' ∧ Grows s s' := by
    induction hrun with
    | refl => exact ⟨h, .of_cases_eq rfl⟩
    | tail _ hlast ih =>
      obtain ⟨action, launch, hstep⟩ := hlast
      obtain ⟨hsound, hgrows, -⟩ := step_sound ih.1 hstep
      exact ⟨hsound, ih.2.trans hgrows⟩
  exact hboth.2

/-- In every run the seconds of a case never decrease and stay within its limit; a solver process is launched only
while something is left, with no more than that or than its caller asked for; and beginning a case changes what no
case has consumed. -/
theorem budgets_kept {budgets : Budgets} {available : ℤ} {s : State} (h : Reached budgets available s) :
    (∀ key budget, s.cases key = some budget →
      budgets.limitOf key = some budget.limitSeconds ∧ 0 ≤ budget.consumed ∧ budget.consumed ≤ budget.limitSeconds) ∧
    (∀ s', Relation.ReflTransGen (Steps budgets available) s s' → Grows s s') ∧
    ∀ action s' launch, step budgets available s action = some (s', launch) →
      (∀ l, launch = some l → l.process = .solver → WithinRemaining s l) ∧
      ∀ thread spec, action = .beginCase thread spec →
        (∀ key, some key ≠ spec.key → s'.cases key = s.cases key) ∧
          ∀ key budget, s.cases key = some budget → s'.cases key = some budget := by
  have hsound := sound_of_reached h
  refine ⟨fun key budget hcase => ⟨hsound.limit key budget hcase, hsound.within key budget hcase⟩,
    fun s' hrun => grows_of_run hsound hrun, fun action s' launch hstep => ⟨(step_sound hsound hstep).2.2, ?_⟩⟩
  rintro thread spec rfl
  exact step_beginCase hsound hstep

/-! ### One case of ten seconds -/

def run (budgets : Budgets) (available : ℤ) (s : State) (actions : List Action) : Option State :=
  actions.foldlM (fun s action => (step budgets available s action).map Prod.fst) s

theorem reached_run {budgets : Budgets} {available : ℤ} {s s' : State} {actions : List Action}
    (h : Reached budgets available s) (hrun : run budgets available s actions = some s') :
    Reached budgets available s' := by
  induction actions generalizing s with
  | nil =>
    cases hrun
    exact h
  | cons action actions ih =>
    obtain ⟨s₁, hfirst, hrest⟩ := Option.bind_eq_some_iff.mp hrun
    obtain ⟨⟨s₂, launch⟩, hstep, rfl⟩ := Option.map_eq_some_iff.mp hfirst
    exact ih (Reachable.next h ⟨action, launch, hstep⟩) hrest

def tenSeconds : Budgets := .shared 10 (by norm_num)

def sampleCase : CaseSpec := ⟨.fin 1, .fin 30, .fin 0⟩

def fourSeconds : List Action :=
  [.beginCase 0 sampleCase, .solver 0 ⟨"simpleFoam", 1, .fin 7200, false⟩, .proceed 0, .proceed 0, .proceed 0, .tick 4,
    .finish 0 (.ok ⟨"simpleFoam", 0, "", false⟩)]

theorem fourSeconds_kept : ∃ s, run tenSeconds 4 (.start 0) fourSeconds = some s ∧
    s.consumed sampleCase = some 4 ∧ ∀ key budget, s.cases key = some budget →
      tenSeconds.limitOf key = some budget.limitSeconds ∧ 0 ≤ budget.consumed ∧
        budget.consumed ≤ budget.limitSeconds := by
  have hconsumed : (run tenSeconds 4 (.start 0) fourSeconds).bind (fun s => s.consumed sampleCase) = some 4 := by
    decide +kernel
  obtain ⟨s, hrun, hfour⟩ := Option.bind_eq_some_iff.mp hconsumed
  exact ⟨s, hrun, hfour, (budgets_kept (reached_run (Reachable.start ⟨0, rfl⟩) hrun)).1⟩

def preparing : List Action :=
  [.beginCase 0 sampleCase, .solver 0 ⟨"simpleFoam", 2, .fin 7200, false⟩, .proceed 0]

/-- The decomposition for several processes gets the caller's timeout, whatever remains. -/
theorem decomposition_exceeds_remaining :
    ¬∀ (budgets : Budgets) (available : ℤ) (s : State), Reached budgets available s →
      ∀ action s' launch, step budgets available s action = some (s', launch) →
        ∀ l, launch = some l → WithinRemaining s l := by
  intro h
  have hlaunch : (run tenSeconds 4 (.start 0) preparing).bind
      (fun s => (step tenSeconds 4 s (.proceed 0)).map fun t => (t.2, s.cases (1, 30, 0))) =
      some (some ⟨(1, 30, 0), .application, "decomposePar -force", 7200, 7200⟩, some ⟨10, 0, none, some 0⟩) := by
    decide +kernel
  obtain ⟨s, hrun, hstep⟩ := Option.bind_eq_some_iff.mp hlaunch
  obtain ⟨⟨s', launch⟩, hstep, heq⟩ := Option.map_eq_some_iff.mp hstep
  obtain ⟨hl, hcase⟩ := Prod.mk.inj heq
  obtain ⟨budget, hbudget, -, -, -, hle⟩ :=
    h _ _ s (reached_run (Reachable.start ⟨0, rfl⟩) hrun) _ s' launch hstep _ hl
  rw [hcase] at hbudget
  cases hbudget
  norm_num at hle

end XFoilFoam.BudgetedRunner
