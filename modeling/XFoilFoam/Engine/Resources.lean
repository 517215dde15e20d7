import XFoilFoam.Engine.Request

/-! `execution_unit_count` and `resolve_resources` of `src/airfoilfoam/resources.py`: how many cases
of one job run at once, and on how many CPU tokens. -/
namespace XFoilFoam.Engine
set_option autoImplicit false

structure Settings where
  solverProcesses : ℕ+
  caseConcurrency : ℕ+
  workerCpuBudget : Option ℕ+
  dockerCpuQuota : Option ℤ
  cpuCount : Option ℕ

/-- `resolved_worker_cpu_budget`; `os.cpu_count() or 1` is what remains without a quota. -/
def Settings.resolvedWorkerCpuBudget (settings : Settings) : ℕ :=
  match settings.workerCpuBudget with
  | some budget => max 1 budget
  | none =>
    match settings.dockerCpuQuota with
    | some quota => max 1 quota.toNat
    | none => max 1 (settings.cpuCount.getD 1)

/-- What the resolver observes of the load: the override, the broker's queue and the token ledger,
each absent when it was not given or could not be read. -/
structure Pressure where
  queueDepthOverride : Option ℕ
  queueDepth : Option ℕ
  cpuTokenPressure : Option ℕ

structure ResolvedResources where
  requestedPolicy : ResourcePolicy
  resolvedPolicy : ResourcePolicy
  workerCpuBudget : ℕ
  resolvedCpuBudget : ℕ
  resolvedCaseConcurrency : ℕ
  solverProcesses : ℕ
  queueDepth : Option ℕ
  deriving DecidableEq, Repr

def executionUnitCount (chordCount speedCount aoaCount : ℕ) (warmStart : Bool) : ℕ :=
  if warmStart then max 1 chordCount * max 1 speedCount
  else max 1 chordCount * max 1 speedCount * max 1 aoaCount

/-- The executable units that `jobs.py` hands to the resolver. -/
def PolarRequest.executableUnits (request : PolarRequest) : ℕ :=
  executionUnitCount request.chordLengths.length request.speeds.length request.aoa.expand.length
    request.warmStart

/-- The depth that `policy=auto` looks at. -/
def resolvedDepth (resources : ResourceParams) (pressure : Pressure) : Option ℕ :=
  let depth := resources.queuePressure.or (pressure.queueDepthOverride.or pressure.queueDepth)
  match pressure.cpuTokenPressure with
  | some used => some (max (depth.getD 0) used)
  | none => depth

/-- The policy after `auto` is resolved against the depth. -/
def resolvedPolicyAt (policy : ResourcePolicy) (depth : Option ℕ) : ResourcePolicy :=
  match policy with
  | .auto => if 0 < depth.getD 0 then .airfoilParallel else .caseParallel
  | policy => policy

def resolveResources (resources : ResourceParams) (settings : Settings) (aoaCaseCount : ℕ)
    (pressure : Pressure) : ResolvedResources :=
  let workerBudget := max 1 settings.resolvedWorkerCpuBudget
  let depth := resolvedDepth resources pressure
  let solverProcesses : ℕ :=
    max 1 (min (resources.solverProcesses.getD settings.solverProcesses) workerBudget)
  let policy := resolvedPolicyAt resources.policy depth
  let cpuBudget : ℕ :=
    match resources.cpuBudget with
    | some budget => max solverProcesses (min budget workerBudget)
    | none =>
      match policy with
      | .exclusive => workerBudget
      | .airfoilParallel => solverProcesses
      | _ => min workerBudget (max solverProcesses (settings.caseConcurrency * solverProcesses))
  let maxCasesByBudget := max 1 (cpuBudget / solverProcesses)
  let wanted : ℕ :=
    match resources.caseConcurrency with
    | some cases => cases
    | none =>
      match policy with
      | .airfoilParallel => 1
      | _ => settings.caseConcurrency
  { requestedPolicy := resources.policy
    resolvedPolicy := policy
    workerCpuBudget := workerBudget
    resolvedCpuBudget := max solverProcesses (min cpuBudget workerBudget)
    resolvedCaseConcurrency := max 1 (min (min wanted maxCasesByBudget) (max 1 aoaCaseCount))
    solverProcesses := solverProcesses
    queueDepth := depth }

theorem executionUnitCount_pos (chordCount speedCount aoaCount : ℕ) (warmStart : Bool) :
    0 < executionUnitCount chordCount speedCount aoaCount warmStart := by
  have hpos : ∀ n : ℕ, 0 < max 1 n := fun n => by omega
  unfold executionUnitCount
  split
  · exact Nat.mul_pos (hpos _) (hpos _)
  · exact Nat.mul_pos (Nat.mul_pos (hpos _) (hpos _)) (hpos _)

/-- Resources that name a concurrency and the budget it fills: the worker resolves the same process
count and budget, and as many of the cases as there are units for, under every policy and load. -/
theorem resolve_exact (resources : ResourceParams) (settings : Settings) (units : ℕ)
    (pressure : Pressure) {processes cases budget : ℕ+}
    (hbudget : resources.cpuBudget = some budget)
    (hcases : resources.caseConcurrency = some cases)
    (hprocesses : resources.solverProcesses.getD settings.solverProcesses = processes)
    (hfull : (budget : ℕ) = cases * processes)
    (hworker : (budget : ℕ) ≤ settings.resolvedWorkerCpuBudget) (hunits : 0 < units) :
    (resolveResources resources settings units pressure).solverProcesses = processes ∧
      (resolveResources resources settings units pressure).resolvedCpuBudget = budget ∧
      (resolveResources resources settings units pressure).resolvedCaseConcurrency =
        min (cases : ℕ) units := by
  have hc : 0 < (cases : ℕ) := cases.pos
  have hp : 0 < (processes : ℕ) := processes.pos
  have hle : (processes : ℕ) ≤ budget := by
    rw [hfull]
    exact Nat.le_mul_of_pos_left _ hc
  have hworker1 : max 1 settings.resolvedWorkerCpuBudget = settings.resolvedWorkerCpuBudget := by
    omega
  have hprocs : max 1 (min (processes : ℕ) settings.resolvedWorkerCpuBudget) = processes := by
    omega
  have hcpu : max (processes : ℕ) (min (budget : ℕ) settings.resolvedWorkerCpuBudget) = budget := by
    omega
  have hdiv : (budget : ℕ) / processes = cases := by
    rw [hfull]
    exact Nat.mul_div_cancel _ hp
  refine ⟨?_, ?_, ?_⟩
  · simp only [resolveResources, hprocesses, hworker1, hprocs]
  · simp only [resolveResources, hprocesses, hworker1, hprocs, hbudget, hcpu]
  · simp only [resolveResources, hprocesses, hworker1, hprocs, hbudget, hcpu, hcases, hdiv]
    omega

theorem resolvedCpuBudget_between (resources : ResourceParams) (settings : Settings) (units : ℕ)
    (pressure : Pressure) :
    (resolveResources resources settings units pressure).solverProcesses ≤
        (resolveResources resources settings units pressure).resolvedCpuBudget ∧
      (resolveResources resources settings units pressure).resolvedCpuBudget ≤
        (resolveResources resources settings units pressure).workerCpuBudget := by
  simp only [resolveResources]
  constructor
  · exact le_max_left _ _
  · apply max_le
    · exact max_le (le_max_left _ _) (min_le_right _ _)
    · exact min_le_right _ _

theorem resolvedCaseConcurrency_le (resources : ResourceParams) (settings : Settings) (units : ℕ)
    (pressure : Pressure) :
    (resolveResources resources settings units pressure).resolvedCaseConcurrency ≤
      max 1 ((resolveResources resources settings units pressure).resolvedCpuBudget /
        (resolveResources resources settings units pressure).solverProcesses) := by
  simp only [resolveResources]
  generalize resolvedPolicyAt resources.policy (resolvedDepth resources pressure) = policy
  generalize hworker : max 1 settings.resolvedWorkerCpuBudget = worker
  generalize hsolver : max 1 (min (resources.solverProcesses.getD settings.solverProcesses : ℕ) worker) = solver
  generalize hcpu : (match resources.cpuBudget with
    | some budget => max solver (min (budget : ℕ) worker)
    | none => match policy with
      | .exclusive => worker
      | .airfoilParallel => solver
      | _ => min worker (max solver (settings.caseConcurrency * solver))) = cpu
  have hle : solver ≤ worker := by omega
  have hbetween : solver ≤ cpu ∧ cpu ≤ worker := by
    rw [← hcpu]
    split
    · omega
    · split
      · exact ⟨hle, le_rfl⟩
      · exact ⟨le_rfl, hle⟩
      · exact ⟨le_min hle (le_max_left _ _), min_le_left _ _⟩
  have hclamp : max solver (min cpu worker) = cpu := by omega
  rw [hclamp]
  exact max_le (le_max_left _ _) ((min_le_left _ _).trans (min_le_right _ _))

/-- The three numbers are at least one, and the processes of all cases fit the budget, which fits the
worker. -/
theorem resolve_within_worker (resources : ResourceParams) (settings : Settings) (units : ℕ)
    (pressure : Pressure) :
    1 ≤ (resolveResources resources settings units pressure).solverProcesses ∧
      1 ≤ (resolveResources resources settings units pressure).resolvedCaseConcurrency ∧
      1 ≤ (resolveResources resources settings units pressure).resolvedCpuBudget ∧
      (resolveResources resources settings units pressure).solverProcesses *
          (resolveResources resources settings units pressure).resolvedCaseConcurrency ≤
        (resolveResources resources settings units pressure).resolvedCpuBudget ∧
      (resolveResources resources settings units pressure).resolvedCpuBudget ≤
        (resolveResources resources settings units pressure).workerCpuBudget := by
  have hcases := resolvedCaseConcurrency_le resources settings units pressure
  obtain ⟨hroom, hworker⟩ := resolvedCpuBudget_between resources settings units pressure
  have hsolver : 1 ≤ (resolveResources resources settings units pressure).solverProcesses := le_max_left _ _
  have hone : 1 ≤ (resolveResources resources settings units pressure).resolvedCaseConcurrency := le_max_left _ _
  refine ⟨hsolver, hone, hsolver.trans hroom, ?_, hworker⟩
  generalize (resolveResources resources settings units pressure).solverProcesses = solver at *
  generalize (resolveResources resources settings units pressure).resolvedCpuBudget = cpu at *
  rw [max_eq_right (Nat.div_pos hroom hsolver)] at hcases
  calc
    solver * (resolveResources resources settings units pressure).resolvedCaseConcurrency ≤
        solver * (cpu / solver) := Nat.mul_le_mul_left solver hcases
    _ ≤ cpu := Nat.mul_div_le cpu solver

end XFoilFoam.Engine
