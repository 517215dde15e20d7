import XFoilFoam.Foundations.JsValue
import XFoilFoam.Foundations.Runs
import Mathlib.Data.Finset.Basic
import Mathlib.Data.List.Sort
import Mathlib.Algebra.Order.BigOperators.Group.List
import Mathlib.Tactic.Linarith

/-! `CpuTokenPool` of `src/airfoilfoam/resources.py`: worker processes that share one ledger file of
CPU-token leases.  Each operation takes the file lock, reads the ledger, drops the leases it finds
dead, refuses to work beside another budget, edits and writes back; so one call of `withState` is
one atomic step, and a run is any sequence of steps by any pools. -/
namespace XFoilFoam.CpuTokenPool
set_option autoImplicit false

/-! ## Data -/

/-- One element of `state["leases"]`; `none` is a key the JSON object does not have. -/
structure Lease (F : Type) where
  id : Option String
  owner : Option String
  pid : Option ℤ
  pidStart : Option String
  tokens : Option ℤ
  budget : Option ℤ
  ts : Option F
  heartbeatAt : Option F

structure Ledger (F : Type) where
  leases : List (Lease F)
  budget : Option ℤ

inductive StateFile (F : Type) where
  | empty
  | undecodable
  | ledger (state : Ledger F)

def StateFile.read {F : Type} : StateFile F → Ledger F
  | .empty => ⟨[], none⟩
  | .undecodable => ⟨[], none⟩
  | .ledger state => state

/-- What `os.kill(pid, 0)` reports. -/
inductive KillProbe where
  | delivered
  | noSuchProcess
  | notPermitted
  deriving DecidableEq

/-- What one call reads from the system: clock readings, its own pid and the process table. -/
structure Env (F : Type) where
  now : F
  ts : F
  beat : F
  selfPid : ℤ
  kill : ℤ → KillProbe
  startTime : ℤ → Option String

/-- `CpuTokenBudgetMismatch`, with what its two texts name. -/
inductive BudgetMismatch where
  | unknownForeignBudget
  | differentBudget (active : List ℤ) (own : ℤ)
  deriving DecidableEq

def BudgetMismatch.message : BudgetMismatch → String
  | .unknownForeignBudget => "shared CPU-token budget is unknown for a live foreign worker lease"
  | .differentBudget active own =>
    "shared CPU-token budget mismatch: active worker budget(s) " ++ toString active ++
      ", this worker budget " ++ toString own

structure TokenSnapshot (F : Type) where
  budget : ℤ
  used : ℤ
  available : ℤ
  leases : List (Lease F)

section Model
variable {F : Type} [Binary64 F]
open Binary64

/-- A constructed pool: the budget is at least one and the TTL at least 0.05 s. -/
structure Pool (F : Type) where
  owner : String
  budget : ℤ
  foreignLeaseTtl : F

def Pool.init (owner : String) (budget : ℤ) (foreignLeaseTtl : F) : Pool F :=
  ⟨owner, max 1 budget, if lt (lit (1 / 20)) foreignLeaseTtl then foreignLeaseTtl else lit (1 / 20)⟩

def pidAlive (env : Env F) (pid : ℤ) : Bool :=
  if pid ≤ 0 then false else env.kill pid != .noSuchProcess

/-- `str` of an optional text. -/
def pyStr : Option String → String
  | some s => s
  | none => "None"

def leaseAlive (lease : Lease F) (currentOwner : String) (env : Env F) (foreignTtl : F) : Bool :=
  if lease.owner ≠ some currentOwner then
    match lease.heartbeatAt <|> lease.ts with
    | some heartbeatAt => le (sub env.now heartbeatAt) foreignTtl
    | none => false
  else
    let pid := lease.pid.getD (-1)
    pidAlive env pid && (lease.pidStart.isNone || pyStr lease.pidStart == pyStr (env.startTime pid))

def leaseTokens (lease : Lease F) : ℤ := lease.tokens.getD 0

/-- `sum(int(lease.get("tokens", 0)) for lease in leases)`. -/
def usedTokens (leases : List (Lease F)) : ℤ := (leases.map leaseTokens).sum

def activeBudgets (leases : List (Lease F)) : Finset ℤ := (leases.filterMap Lease.budget).toFinset

/-- `sorted(active_budgets)`. -/
def sortedBudgets (leases : List (Lease F)) : List ℤ :=
  (leases.filterMap Lease.budget).dedup.insertionSort (· ≤ ·)

def keptLeases (pool : Pool F) (env : Env F) (file : StateFile F) : List (Lease F) :=
  file.read.leases.filter (fun lease => leaseAlive lease pool.owner env pool.foreignLeaseTtl)

/-- `_with_state`: prune, check the budgets, edit the kept leases and write them back. -/
def withState {α : Type} (pool : Pool F) (env : Env F)
    (edit : List (Lease F) → List (Lease F) × α) (file : StateFile F) :
    StateFile F × Except BudgetMismatch α :=
  if (keptLeases pool env file).any
      (fun lease => decide (lease.owner ≠ some pool.owner) && lease.budget.isNone) then
    (file, .error .unknownForeignBudget)
  else if (activeBudgets (keptLeases pool env file)).Nonempty ∧
      activeBudgets (keptLeases pool env file) ≠ {pool.budget} then
    (file, .error (.differentBudget (sortedBudgets (keptLeases pool env file)) pool.budget))
  else
    (.ledger ⟨(edit (keptLeases pool env file)).1, some pool.budget⟩,
      .ok (edit (keptLeases pool env file)).2)

/-- The edit of `_try_acquire`. -/
def acquireEdit (pool : Pool F) (env : Env F) (leaseId : String) (tokens : ℤ)
    (leases : List (Lease F)) : List (Lease F) × Bool :=
  if usedTokens leases + tokens > pool.budget then (leases, false)
  else
    (leases ++ [{ id := some leaseId, owner := some pool.owner, pid := some env.selfPid,
                  pidStart := env.startTime env.selfPid, tokens := some tokens,
                  budget := some pool.budget, ts := some env.ts, heartbeatAt := some env.beat }], true)

/-- The edit of `_release`. -/
def releaseEdit (leaseId : String) (leases : List (Lease F)) : List (Lease F) × Unit :=
  (leases.filter (fun lease => lease.id ≠ some leaseId), ())

/-- The edit of one round of `_heartbeat_loop`: stamp the first lease of this id and owner. -/
def heartbeatEdit (pool : Pool F) (env : Env F) (leaseId : String) :
    List (Lease F) → List (Lease F) × Bool
  | [] => ([], false)
  | lease :: leases =>
    if lease.id = some leaseId ∧ lease.owner = some pool.owner then
      ({ lease with heartbeatAt := some env.beat } :: leases, true)
    else
      let rest := heartbeatEdit pool env leaseId leases
      (lease :: rest.1, rest.2)

def snapshotEdit (pool : Pool F) (leases : List (Lease F)) :
    List (Lease F) × TokenSnapshot F :=
  let used := usedTokens leases
  (leases, ⟨pool.budget, used, max 0 (pool.budget - used), leases⟩)

inductive Op where
  | acquire (leaseId : String) (tokens : ℤ)
  | release (leaseId : String)
  | heartbeat (leaseId : String)
  | snapshot

inductive Answer (F : Type) where
  | acquired (granted : Bool)
  | released
  | beat (found : Bool)
  | snapshot (value : TokenSnapshot F)

/-- The edit of an operation; `acquire` first clamps the requested tokens. -/
def opEdit (pool : Pool F) (env : Env F) (op : Op) (leases : List (Lease F)) :
    List (Lease F) × Answer F :=
  match op with
  | .acquire leaseId tokens =>
    let out := acquireEdit pool env leaseId (max 1 (min tokens pool.budget)) leases
    (out.1, .acquired out.2)
  | .release leaseId => ((releaseEdit leaseId leases).1, .released)
  | .heartbeat leaseId =>
    let out := heartbeatEdit pool env leaseId leases
    (out.1, .beat out.2)
  | .snapshot =>
    let out := snapshotEdit pool leases
    (out.1, .snapshot out.2)

def perform (pool : Pool F) (env : Env F) (op : Op) (file : StateFile F) :
    StateFile F × Except BudgetMismatch (Answer F) :=
  withState pool env (opEdit pool env op) file

/-- All a call can do: refuse and leave the file, or write the edit of the kept leases, whose
budgets are then all its own. -/
theorem perform_cases (pool : Pool F) (env : Env F) (op : Op) (file : StateFile F) :
    (∃ e, perform pool env op file = (file, .error e)) ∨
      (∀ lease ∈ keptLeases pool env file, ∀ b, lease.budget = some b → b = pool.budget) ∧
        perform pool env op file =
          (.ledger ⟨(opEdit pool env op (keptLeases pool env file)).1, some pool.budget⟩,
            .ok (opEdit pool env op (keptLeases pool env file)).2) := by
  unfold perform withState
  split
  · exact Or.inl ⟨_, rfl⟩
  · split
    · exact Or.inl ⟨_, rfl⟩
    · next hbudget =>
      refine Or.inr ⟨?_, rfl⟩
      intro lease hlease b hb
      have hmem : b ∈ activeBudgets (keptLeases pool env file) := by
        simp only [activeBudgets, List.mem_toFinset, List.mem_filterMap]
        exact ⟨lease, hlease, hb⟩
      by_contra hne
      refine hbudget ⟨⟨b, hmem⟩, ?_⟩
      intro heq
      have hmem' : b ∈ ({pool.budget} : Finset ℤ) := heq ▸ hmem
      exact hne (Finset.mem_singleton.mp hmem')

/-! ## The ledger invariant -/

omit [Binary64 F] in
theorem usedTokens_append (l l' : List (Lease F)) :
    usedTokens (l ++ l') = usedTokens l + usedTokens l' := by simp [usedTokens]

def budgetedTokens (leases : List (Lease F)) : ℤ :=
  usedTokens (leases.filter (fun lease => lease.budget.isSome))

def OneBudget (leases : List (Lease F)) (budget : ℤ) : Prop :=
  (∀ lease ∈ leases, ∀ b, lease.budget = some b → b = budget) ∧ budgetedTokens leases ≤ budget

structure Consistent (leases : List (Lease F)) : Prop where
  tokens_nonneg : ∀ lease ∈ leases, 0 ≤ leaseTokens lease
  one_budget : ∃ budget, OneBudget leases budget

omit [Binary64 F] in
theorem usedTokens_sublist {sub l : List (Lease F)} (h : sub.Sublist l)
    (hl : ∀ lease ∈ l, 0 ≤ leaseTokens lease) : usedTokens sub ≤ usedTokens l := by
  apply (h.map leaseTokens).sum_le_sum
  intro n hn
  obtain ⟨lease, hlease, rfl⟩ := List.mem_map.mp hn
  exact hl lease hlease

omit [Binary64 F] in
theorem OneBudget.sublist {sub l : List (Lease F)} {budget : ℤ} (h : OneBudget l budget)
    (hl : ∀ lease ∈ l, 0 ≤ leaseTokens lease) (hsub : sub.Sublist l) : OneBudget sub budget := by
  refine ⟨fun lease hlease => h.1 lease (hsub.subset hlease), ?_⟩
  refine le_trans (usedTokens_sublist (hsub.filter _) ?_) h.2
  exact fun lease hlease => hl lease (List.mem_of_mem_filter hlease)

omit [Binary64 F] in
theorem Consistent.sublist {sub l : List (Lease F)} (h : Consistent l) (hsub : sub.Sublist l) :
    Consistent sub := by
  obtain ⟨budget, hb⟩ := h.one_budget
  exact ⟨fun lease hlease => h.tokens_nonneg lease (hsub.subset hlease),
    budget, hb.sublist h.tokens_nonneg hsub⟩

def Lease.core (lease : Lease F) : Lease F := { lease with heartbeatAt := none }

omit [Binary64 F] in
theorem Consistent.of_core {l l' : List (Lease F)} (h : Consistent l)
    (heq : l'.map Lease.core = l.map Lease.core) : Consistent l' := by
  have hmem : ∀ lease' ∈ l', ∃ lease ∈ l, lease.core = lease'.core := by
    intro lease' hlease'
    have hc : lease'.core ∈ l.map Lease.core := heq ▸ List.mem_map_of_mem hlease'
    exact List.mem_map.mp hc
  have hused : budgetedTokens l' = budgetedTokens l := by
    have key : ∀ k : List (Lease F), budgetedTokens k =
        (((k.map Lease.core).filter (fun lease => lease.budget.isSome)).map leaseTokens).sum := by
      intro k
      rw [List.filter_map, List.map_map]
      rfl
    rw [key l', key l, heq]
  obtain ⟨budget, hb, hle⟩ := h.one_budget
  refine ⟨?_, budget, ?_, hused ▸ hle⟩
  · intro lease' hlease'
    obtain ⟨lease, hlease, hc⟩ := hmem lease' hlease'
    have ht : leaseTokens lease.core = leaseTokens lease'.core := by rw [hc]
    exact le_of_le_of_eq (h.tokens_nonneg lease hlease) ht
  · intro lease' hlease' b hbud
    obtain ⟨lease, hlease, hc⟩ := hmem lease' hlease'
    exact hb lease hlease b ((congrArg Lease.budget hc).trans hbud)

/-! ## The edits -/

omit [Binary64 F] in
theorem acquireEdit_consistent (pool : Pool F) (env : Env F) (leaseId : String) (tokens : ℤ)
    (ht : 0 ≤ tokens) {l : List (Lease F)} (h : Consistent l)
    (hown : ∀ lease ∈ l, ∀ b, lease.budget = some b → b = pool.budget) :
    Consistent (acquireEdit pool env leaseId tokens l).1 := by
  unfold acquireEdit
  split
  · exact h
  · next hfit =>
    refine ⟨?_, pool.budget, ?_, ?_⟩
    · intro lease hlease
      rcases List.mem_append.mp hlease with hlease | hlease
      · exact h.tokens_nonneg lease hlease
      · rw [List.mem_singleton.mp hlease]
        exact ht
    · intro lease hlease b hb
      rcases List.mem_append.mp hlease with hlease | hlease
      · exact hown lease hlease b hb
      · rw [List.mem_singleton.mp hlease] at hb
        exact (Option.some.inj hb).symm
    · have hle : budgetedTokens l ≤ usedTokens l :=
        usedTokens_sublist List.filter_sublist h.tokens_nonneg
      simp only [budgetedTokens, List.filter_append, usedTokens_append] at hle ⊢
      simp only [usedTokens, leaseTokens, List.filter_cons, Option.isSome_some, if_true,
        List.filter_nil, List.map_cons, List.map_nil, List.sum_cons, List.sum_nil,
        Option.getD_some] at hle hfit ⊢
      linarith

omit [Binary64 F] in
theorem heartbeatEdit_core (pool : Pool F) (env : Env F) (leaseId : String) (l : List (Lease F)) :
    (heartbeatEdit pool env leaseId l).1.map Lease.core = l.map Lease.core := by
  induction l with
  | nil => rfl
  | cons lease l ih =>
    simp only [heartbeatEdit]
    split
    · rfl
    · simp only [List.map_cons, ih]

omit [Binary64 F] in
theorem opEdit_consistent (pool : Pool F) (env : Env F) (op : Op) {l : List (Lease F)}
    (h : Consistent l) (hown : ∀ lease ∈ l, ∀ b, lease.budget = some b → b = pool.budget) :
    Consistent (opEdit pool env op l).1 := by
  cases op with
  | acquire leaseId tokens =>
    exact acquireEdit_consistent pool env leaseId _ (le_trans zero_le_one (le_max_left _ _)) h hown
  | release leaseId => exact h.sublist List.filter_sublist
  | heartbeat leaseId => exact h.of_core (heartbeatEdit_core pool env leaseId l)
  | snapshot => exact h

omit [Binary64 F] in
theorem opEdit_keeps (pool : Pool F) (env : Env F) (op : Op) {l : List (Lease F)} {lease : Lease F}
    (hmem : lease ∈ l) (hop : ∀ leaseId, op = .release leaseId → lease.id ≠ some leaseId) :
    ∃ lease' ∈ (opEdit pool env op l).1, lease'.core = lease.core := by
  cases op with
  | acquire leaseId tokens =>
    refine ⟨lease, ?_, rfl⟩
    simp only [opEdit, acquireEdit]
    split
    · exact hmem
    · exact List.mem_append_left _ hmem
  | release leaseId =>
    refine ⟨lease, ?_, rfl⟩
    simp only [opEdit, releaseEdit, List.mem_filter, decide_eq_true_eq]
    exact ⟨hmem, hop leaseId rfl⟩
  | heartbeat leaseId =>
    have hc : lease.core ∈ (heartbeatEdit pool env leaseId l).1.map Lease.core := by
      rw [heartbeatEdit_core]
      exact List.mem_map_of_mem hmem
    exact List.mem_map.mp hc
  | snapshot => exact ⟨lease, hmem, rfl⟩

/-! ## Runs -/

/-- A file no budgeted lease was written to yet: absent, unreadable, or leases of an older version. -/
def Initial (file : StateFile F) : Prop :=
  ∀ lease ∈ file.read.leases, lease.budget = none ∧ 0 ≤ leaseTokens lease

def Step (file file' : StateFile F) : Prop :=
  ∃ (pool : Pool F) (env : Env F) (op : Op), file' = (perform pool env op file).1

omit [Binary64 F] in
theorem initial_consistent {file : StateFile F} (h : Initial file) : Consistent file.read.leases := by
  have hnil : file.read.leases.filter (fun lease => lease.budget.isSome) = [] := by
    rw [List.filter_eq_nil_iff]
    intro lease hlease
    simp [(h lease hlease).1]
  refine ⟨fun lease hlease => (h lease hlease).2, 0, ?_, ?_⟩
  · intro lease hlease b hb
    rw [(h lease hlease).1] at hb
    cases hb
  · simp [budgetedTokens, hnil, usedTokens]

theorem step_consistent {file file' : StateFile F} (h : Consistent file.read.leases)
    (hs : Step file file') : Consistent file'.read.leases := by
  obtain ⟨pool, env, op, rfl⟩ := hs
  rcases perform_cases pool env op file with ⟨e, he⟩ | ⟨hown, heq⟩
  · rw [he]
    exact h
  · rw [heq]
    exact opEdit_consistent pool env op (h.sublist List.filter_sublist) hown

theorem reachable_consistent {file : StateFile F} (h : Reachable Initial Step file) :
    Consistent file.read.leases :=
  h.invariant (P := fun file => Consistent file.read.leases) (fun _ => initial_consistent)
    (fun _ _ => step_consistent)

/-- A lease the acting pool has to keep: foreign with a heartbeat within the TTL, or its own with
the process alive under the recorded start time. -/
def MustKeep (pool : Pool F) (env : Env F) (lease : Lease F) : Prop :=
  (lease.owner ≠ some pool.owner ∧
      ∃ beat, (lease.heartbeatAt <|> lease.ts) = some beat ∧
        le (sub env.now beat) pool.foreignLeaseTtl = true) ∨
    (lease.owner = some pool.owner ∧
      ∃ pid, lease.pid = some pid ∧ pidAlive env pid = true ∧
        (lease.pidStart = none ∨ lease.pidStart = env.startTime pid))

theorem mustKeep_kept {pool : Pool F} {env : Env F} {file : StateFile F} {lease : Lease F}
    (hmem : lease ∈ file.read.leases) (h : MustKeep pool env lease) :
    lease ∈ keptLeases pool env file := by
  refine List.mem_filter.mpr ⟨hmem, ?_⟩
  unfold leaseAlive
  rcases h with ⟨howner, beat, hbeat, hle⟩ | ⟨howner, pid, hpid, halive, hstart⟩
  · rw [if_pos howner, hbeat]
    exact hle
  · rw [if_neg (not_not.mpr howner)]
    rcases hstart with hstart | hstart
    · simp [hpid, halive, hstart]
    · simp [hpid, halive, hstart]

/-- Over every run of any pools on one file. -/
theorem shared_ledger_safe {file : StateFile F} (h : Reachable Initial Step file) :
    (∃ budget, OneBudget file.read.leases budget) ∧
      ∀ (pool : Pool F) (env : Env F) (op : Op),
        (∀ lease ∈ file.read.leases, MustKeep pool env lease →
          (∀ leaseId, op = .release leaseId → lease.id ≠ some leaseId) →
          ∃ lease' ∈ (perform pool env op file).1.read.leases, lease'.core = lease.core) ∧
        (∀ e, (perform pool env op file).2 = .error e → (perform pool env op file).1 = file) := by
  refine ⟨(reachable_consistent h).one_budget, fun pool env op => ⟨?_, ?_⟩⟩
  · intro lease hmem hkeep hop
    rcases perform_cases pool env op file with ⟨e, he⟩ | ⟨-, heq⟩
    · rw [he]
      exact ⟨lease, hmem, rfl⟩
    · rw [heq]
      exact opEdit_keeps pool env op (mustKeep_kept hmem hkeep) hop
  · intro e he
    rcases perform_cases pool env op file with ⟨e', he'⟩ | ⟨-, heq⟩
    · rw [he']
    · rw [heq] at he
      cases he

end Model

def workerEnv : Env ExactNum :=
  { now := .fin 100, ts := .fin 100, beat := .fin 100, selfPid := 7,
    kill := fun pid => if pid = 7 then .delivered else .noSuchProcess,
    startTime := fun pid => if pid = 7 then some "4242" else none }

def workerA : Pool ExactNum := Pool.init "worker-a" 4 (.fin 120)

def workerB : Pool ExactNum := Pool.init "worker-b" 2 (.fin 120)

def oneLeaseFile : StateFile ExactNum :=
  (perform workerA workerEnv (.acquire "lease-1" 3) .empty).1

theorem shared_ledger_safe_two_workers :
    (∃ budget, OneBudget oneLeaseFile.read.leases budget) ∧
      (∃ e, (perform workerB workerEnv .snapshot oneLeaseFile).2 = .error e) ∧
      (perform workerB workerEnv .snapshot oneLeaseFile).1 = oneLeaseFile := by
  have hrun : Reachable Initial Step oneLeaseFile :=
    (Reachable.start (s := StateFile.empty) (fun lease hlease => nomatch hlease)).next
      ⟨workerA, workerEnv, .acquire "lease-1" 3, rfl⟩
  obtain ⟨hbudget, hsteps⟩ := shared_ledger_safe hrun
  have hok : (perform workerB workerEnv .snapshot oneLeaseFile).2.isOk = false := by decide +kernel
  cases herr : (perform workerB workerEnv .snapshot oneLeaseFile).2 with
  | ok answer =>
    rw [herr] at hok
    cases hok
  | error e => exact ⟨hbudget, ⟨e, rfl⟩, (hsteps workerB workerEnv .snapshot).2 e herr⟩

end XFoilFoam.CpuTokenPool
