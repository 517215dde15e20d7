import XFoilFoam.Foundations.JsValue
import XFoilFoam.Engine.Resources

/-! `admissionCpuSlotsForRequest` and `pinAdmissionCpuSlotsForRequest` of
`apps/sweeper/src/build-request.ts` against the resolver of the engine that receives the request. -/
namespace XFoilFoam.Sweeper
open XFoilFoam.Engine
set_option autoImplicit false

/-! ## Requests of the control plane -/

/-- `ResourceParams` of the client; `none` is `null` or an absent field. -/
structure ResourceFields where
  cpuBudget : Option ExactNum
  caseConcurrency : Option ExactNum
  solverProcesses : Option ExactNum
  queuePressure : Option ℕ
  policy : Option ResourcePolicy
  deriving DecidableEq, Repr

structure AoAFields where
  angles : Option (List ℚ)
  start : Option ℚ
  stop : Option ℚ
  step : Option ℚ
  deriving DecidableEq, Repr

structure SolverFields where
  warmStart : Option Bool
  forceTransient : Option Bool
  deriving DecidableEq, Repr

/-- The parts of a client's `PolarRequest` that admission reads. -/
structure AdmissionRequest where
  resources : Option ResourceFields
  aoa : Option AoAFields
  speeds : Option (List ℚ)
  chordLengths : Option (List ℚ)
  solver : Option SolverFields
  deriving DecidableEq, Repr

/-- `Number.isInteger(value) && (value ?? 0) > 0`, with the number. -/
def positiveInteger : Option ExactNum → Option ℕ+
  | some (.fin q) =>
    if h : q.den = 1 ∧ 0 < q.num.toNat then some ⟨q.num.toNat, h.2⟩ else none
  | _ => none

namespace AdmissionRequest

def cpuBudget (request : AdmissionRequest) : Option ℕ+ :=
  positiveInteger (request.resources.bind ResourceFields.cpuBudget)

def caseConcurrency (request : AdmissionRequest) : Option ℕ+ :=
  positiveInteger (request.resources.bind ResourceFields.caseConcurrency)

/-- One process where the request names no positive count. -/
def solverProcesses (request : AdmissionRequest) : ℕ+ :=
  (positiveInteger (request.resources.bind ResourceFields.solverProcesses)).getD 1

def warmStartedRans (request : AdmissionRequest) : Bool :=
  (request.solver.bind SolverFields.warmStart == some true) &&
    !(request.solver.bind SolverFields.forceTransient == some true)

/-- `caseCount`: zero when the angles are not listed. -/
def caseCount (request : AdmissionRequest) : ℕ :=
  let angleCount := ((request.aoa.bind AoAFields.angles).getD []).length
  let speedCount := (request.speeds.getD []).length
  let chordCount := (request.chordLengths.getD []).length
  if request.warmStartedRans then max 1 speedCount * max 1 chordCount
  else angleCount * max 1 speedCount * max 1 chordCount

end AdmissionRequest

def admissionCpuSlotsForRequest (request : AdmissionRequest) : ℕ :=
  match request.caseConcurrency with
  | some cases =>
    let effective : ℕ := if 0 < request.caseCount then min cases request.caseCount else cases
    max 1 (request.solverProcesses * effective)
  | none =>
    match request.cpuBudget with
    | some budget =>
      if 0 < request.caseCount then
        max 1 (min budget (request.caseCount * request.solverProcesses))
      else 1
    | none => 1

/-- `Math.min(naturalSlots, …)`: only a finite limit bounds the slots. -/
def boundedSlots (natural : ℕ) : ExactNum → ℕ
  | .fin limit => min natural (max 0 ⌊limit⌋).toNat
  | _ => natural

def ResourceFields.empty : ResourceFields := ⟨none, none, none, none, none⟩

def ResourceFields.withCounts (fields : ResourceFields) (cpuBudget caseConcurrency : Option ExactNum) :
    ResourceFields :=
  { fields with cpuBudget := cpuBudget, caseConcurrency := caseConcurrency }

def AdmissionRequest.withCounts (request : AdmissionRequest)
    (cpuBudget caseConcurrency : Option ExactNum) : AdmissionRequest :=
  { request with
    resources := some
      ((request.resources.getD ResourceFields.empty).withCounts cpuBudget caseConcurrency) }

/-- The request with `pinnedResources` for this many cases at once. -/
def AdmissionRequest.pinned (request : AdmissionRequest) (cases : ℕ) : AdmissionRequest :=
  request.withCounts (some (.fin (cases * request.solverProcesses : ℕ))) (some (.fin cases))

/-- `pinAdmissionCpuSlotsForRequest`, with the request it leaves behind. -/
def pinAdmissionCpuSlotsForRequest (request : AdmissionRequest) (maxCpuSlots : ExactNum) :
    ℕ × AdmissionRequest :=
  if request.cpuBudget = none ∧ request.caseConcurrency = none then
    (admissionCpuSlotsForRequest request, request)
  else
    let bounded := boundedSlots (admissionCpuSlotsForRequest request) maxCpuSlots
    if bounded < request.solverProcesses then (0, request)
    else
      let cases := max 1 (bounded / request.solverProcesses)
      (cases * request.solverProcesses, request.pinned cases)

/-! ## What the engine reads -/

/-- An optional count of at least one: absent, accepted, or refused by the validators.  A number that
is not finite is `null` in JSON. -/
def readCount : Option ExactNum → Option (Option ℕ+)
  | some (.fin q) => (positiveInteger (some (.fin q))).map some
  | _ => some none

def readAoA (aoa : AoAFields) : Option AoASpec :=
  if h : (aoa.angles.isSome ∨ (aoa.start.isSome ∧ aoa.stop.isSome ∧ aoa.step.isSome)) ∧
      aoa.step ≠ some 0 then
    some ⟨aoa.angles, aoa.start, aoa.stop, aoa.step, h.1, h.2⟩
  else none

def readResources (resources : ResourceFields) : Option ResourceParams := do
  let cpuBudget ← readCount resources.cpuBudget
  let caseConcurrency ← readCount resources.caseConcurrency
  let solverProcesses ← readCount resources.solverProcesses
  return ⟨cpuBudget, caseConcurrency, solverProcesses, resources.queuePressure,
    resources.policy.getD .auto⟩

/-- The validator of `PolarRequest` on the two lists. -/
def ScopeValid (chords speeds : List ℚ) : Prop :=
  chords ≠ [] ∧ speeds ≠ [] ∧ (∀ chord ∈ chords, 0 < chord) ∧ ∀ speed ∈ speeds, 0 < speed

instance (chords speeds : List ℚ) : Decidable (ScopeValid chords speeds) :=
  inferInstanceAs (Decidable (_ ∧ _ ∧ _ ∧ _))

def readScope (chords speeds : List ℚ) (aoa : AoASpec) (warmStart : Bool)
    (resources : ResourceParams) : Option PolarRequest :=
  if h : ScopeValid chords speeds then
    some
      { chordLengths := chords
        speeds := speeds
        aoa := aoa
        warmStart := warmStart
        resources := resources
        chords_ne := h.1
        speeds_ne := h.2.1
        chords_pos := h.2.2.1
        speeds_pos := h.2.2.2 }
  else none

/-- The engine's `PolarRequest` of a client's request, with the defaults of absent fields. -/
def readRequest (request : AdmissionRequest) : Option PolarRequest := do
  let aoa ← request.aoa.bind readAoA
  let resources ← readResources (request.resources.getD ResourceFields.empty)
  readScope (request.chordLengths.getD [1]) (request.speeds.getD [50]) aoa
    ((request.solver.bind SolverFields.warmStart).getD false) resources

/-- The units the engine can run of a request, read without its budget and concurrency. -/
def engineUnits (request : AdmissionRequest) : Option ℕ :=
  (readRequest (request.withCounts none none)).map PolarRequest.executableUnits

theorem positiveInteger_nat (n : ℕ+) : positiveInteger (some (.fin (n : ℕ))) = some n := by
  have hn : (((n : ℕ) : ℚ).num).toNat = n := by simp
  have hpos : ((n : ℕ) : ℚ).den = 1 ∧ 0 < (((n : ℕ) : ℚ).num).toNat := by
    rw [hn]
    exact ⟨Rat.den_natCast _, n.pos⟩
  rw [positiveInteger, dif_pos hpos]
  congr

theorem readCount_nat (n : ℕ+) : readCount (some (.fin (n : ℕ))) = some (some n) := by
  rw [readCount, positiveInteger_nat, Option.map_some]

theorem readCount_none : readCount none = some none := rfl

theorem readResources_withCounts (fields : ResourceFields) {budget cases : Option ExactNum}
    {budget' cases' : Option ℕ+} (hbudget : readCount budget = some budget')
    (hcases : readCount cases = some cases') :
    readResources (fields.withCounts budget cases) =
      (readCount fields.solverProcesses).map (fun processes =>
        ⟨budget', cases', processes, fields.queuePressure, fields.policy.getD .auto⟩) := by
  simp only [readResources, ResourceFields.withCounts, hbudget, hcases]
  cases readCount fields.solverProcesses <;> rfl

/-- Two readable pairs of counts: the engine reads both requests or neither, and they differ in
nothing but these counts. -/
theorem readRequest_withCounts (request : AdmissionRequest) {budget cases budget₁ cases₁ : Option ExactNum}
    {budget' cases' budget₁' cases₁' : Option ℕ+}
    (hbudget : readCount budget = some budget') (hcases : readCount cases = some cases')
    (hbudget₁ : readCount budget₁ = some budget₁') (hcases₁ : readCount cases₁ = some cases₁')
    {engine : PolarRequest} (hread : readRequest (request.withCounts budget cases) = some engine) :
    engine.resources.cpuBudget = budget' ∧ engine.resources.caseConcurrency = cases' ∧
      readCount (request.resources.getD ResourceFields.empty).solverProcesses =
        some engine.resources.solverProcesses ∧
      ∃ engine₁, readRequest (request.withCounts budget₁ cases₁) = some engine₁ ∧
        engine₁.executableUnits = engine.executableUnits ∧
        engine₁.resources.solverProcesses = engine.resources.solverProcesses := by
  simp only [readRequest, AdmissionRequest.withCounts, Option.getD_some, Option.bind_eq_bind,
    Option.bind_eq_some_iff, readResources_withCounts _ hbudget hcases,
    readResources_withCounts _ hbudget₁ hcases₁, Option.map_eq_some_iff] at hread ⊢
  obtain ⟨aoa, haoa, params, ⟨processes, hprocesses, hparams⟩, hscope⟩ := hread
  obtain ⟨hvalid, hengine⟩ := Option.dite_none_right_eq_some.mp hscope
  cases hengine
  subst hparams
  exact ⟨rfl, rfl, hprocesses, _, ⟨aoa, haoa, _, ⟨processes, hprocesses, rfl⟩, dif_pos hvalid⟩,
    rfl, rfl⟩

/-! ## What a pin grants -/

/-- The cases at once that a request asks for: its concurrency, or what its budget holds, within the
cases the control plane counts. -/
def requestedCases (request : AdmissionRequest) : ℕ :=
  match request.caseConcurrency, request.cpuBudget with
  | some cases, _ => if 0 < request.caseCount then min cases request.caseCount else cases
  | none, some budget =>
    if 0 < request.caseCount then min (budget / request.solverProcesses) request.caseCount
    else 1 / request.solverProcesses
  | none, none => 0

def groupsWithin (limit : ℚ) (processes : ℕ+) : ℕ := (max 0 ⌊limit⌋).toNat / processes

def grantedCases (request : AdmissionRequest) : ExactNum → ℕ
  | .fin limit => min (requestedCases request) (groupsWithin limit request.solverProcesses)
  | _ => requestedCases request

theorem div_min (a b c : ℕ) : min a b / c = min (a / c) (b / c) :=
  Monotone.map_min (f := fun n => n / c) (fun _ _ h => Nat.div_le_div_right h)

theorem admission_div (request : AdmissionRequest)
    (hexplicit : ¬ (request.cpuBudget = none ∧ request.caseConcurrency = none)) :
    admissionCpuSlotsForRequest request / request.solverProcesses = requestedCases request := by
  have hp : 0 < (request.solverProcesses : ℕ) := request.solverProcesses.pos
  unfold admissionCpuSlotsForRequest requestedCases
  cases hcases : request.caseConcurrency with
  | some cases =>
    have hpos : 0 < (if 0 < request.caseCount then min (cases : ℕ) request.caseCount else cases) := by
      have := cases.pos
      split <;> omega
    have hone := Nat.mul_pos hp hpos
    simp only
    rw [Nat.max_eq_right hone]
    exact Nat.mul_div_cancel_left _ hp
  | none =>
    cases hbudget : request.cpuBudget with
    | none => exact absurd ⟨hbudget, hcases⟩ hexplicit
    | some budget =>
      simp only
      split
      · next hcount =>
        have hone : 1 ≤ min (budget : ℕ) (request.caseCount * request.solverProcesses) :=
          Nat.le_min.mpr ⟨budget.pos, Nat.mul_pos hcount hp⟩
        rw [Nat.max_eq_right hone, div_min, Nat.mul_div_cancel _ hp]
      · rfl

theorem bounded_div (request : AdmissionRequest) (maxCpuSlots : ExactNum)
    (hexplicit : ¬ (request.cpuBudget = none ∧ request.caseConcurrency = none)) :
    boundedSlots (admissionCpuSlotsForRequest request) maxCpuSlots / request.solverProcesses =
      grantedCases request maxCpuSlots := by
  have h := admission_div request hexplicit
  cases maxCpuSlots with
  | fin limit => rw [boundedSlots, div_min, h]; rfl
  | nan => exact h
  | negInf => exact h
  | posInf => exact h

theorem pin_eq (request : AdmissionRequest) (maxCpuSlots : ExactNum)
    (hexplicit : ¬ (request.cpuBudget = none ∧ request.caseConcurrency = none)) :
    pinAdmissionCpuSlotsForRequest request maxCpuSlots =
      if grantedCases request maxCpuSlots = 0 then (0, request)
      else (grantedCases request maxCpuSlots * request.solverProcesses,
        request.pinned (grantedCases request maxCpuSlots)) := by
  have hp : 0 < (request.solverProcesses : ℕ) := request.solverProcesses.pos
  have hgranted := bounded_div request maxCpuSlots hexplicit
  rw [pinAdmissionCpuSlotsForRequest, if_neg hexplicit]
  by_cases hfits :
      boundedSlots (admissionCpuSlotsForRequest request) maxCpuSlots < request.solverProcesses
  · have hzero : grantedCases request maxCpuSlots = 0 := by
      rw [← hgranted]
      exact Nat.div_eq_of_lt hfits
    simp only [hfits, hzero, if_true]
  · have hne : grantedCases request maxCpuSlots ≠ 0 := by
      rw [← hgranted]
      exact (Nat.div_pos (not_lt.mp hfits) hp).ne'
    have hmax : max 1 (grantedCases request maxCpuSlots) = grantedCases request maxCpuSlots := by
      omega
    simp only [hfits, if_false, hgranted, hne, hmax]

theorem requestedCases_le_caseCount (request : AdmissionRequest) (hcount : 0 < request.caseCount) :
    requestedCases request ≤ request.caseCount := by
  unfold requestedCases
  split
  · rw [if_pos hcount]
    exact Nat.min_le_right _ _
  · rw [if_pos hcount]
    exact Nat.min_le_right _ _
  · exact Nat.zero_le _

theorem granted_le_requested (request : AdmissionRequest) (maxCpuSlots : ExactNum) :
    grantedCases request maxCpuSlots ≤ requestedCases request := by
  cases maxCpuSlots with
  | fin limit => exact Nat.min_le_left _ _
  | nan => exact le_rfl
  | negInf => exact le_rfl
  | posInf => exact le_rfl

/-! ## Pinning again -/

@[simp] theorem solverProcesses_pinned (request : AdmissionRequest) (cases : ℕ) :
    (request.pinned cases).solverProcesses = request.solverProcesses := by
  cases hresources : request.resources with
  | none => simp [AdmissionRequest.solverProcesses, AdmissionRequest.pinned,
      AdmissionRequest.withCounts, ResourceFields.withCounts, ResourceFields.empty, hresources]
  | some fields => simp [AdmissionRequest.solverProcesses, AdmissionRequest.pinned,
      AdmissionRequest.withCounts, ResourceFields.withCounts, hresources]

@[simp] theorem caseCount_pinned (request : AdmissionRequest) (cases : ℕ) :
    (request.pinned cases).caseCount = request.caseCount := rfl

theorem caseConcurrency_pinned (request : AdmissionRequest) (cases : ℕ+) :
    (request.pinned cases).caseConcurrency = some cases := positiveInteger_nat cases

theorem pinned_pinned (request : AdmissionRequest) (cases : ℕ) :
    (request.pinned cases).pinned cases = request.pinned cases := by
  rw [AdmissionRequest.pinned, solverProcesses_pinned]
  rfl

theorem requestedCases_pinned (request : AdmissionRequest) (cases : ℕ+)
    (hcases : (cases : ℕ) ≤ requestedCases request) :
    requestedCases (request.pinned cases) = cases := by
  rw [requestedCases, caseConcurrency_pinned, caseCount_pinned]
  show (if 0 < request.caseCount then min (cases : ℕ) request.caseCount else cases) = cases
  split
  · next hcount =>
    exact Nat.min_eq_left (hcases.trans (requestedCases_le_caseCount request hcount))
  · rfl

theorem grantedCases_pinned (request : AdmissionRequest) (maxCpuSlots : ExactNum) (cases : ℕ+)
    (hcases : grantedCases request maxCpuSlots = cases) :
    grantedCases (request.pinned cases) maxCpuSlots = cases := by
  have hle : (cases : ℕ) ≤ requestedCases request := hcases ▸ granted_le_requested request maxCpuSlots
  have hrequested := requestedCases_pinned request cases hle
  cases maxCpuSlots with
  | fin limit =>
    have hgroups : (cases : ℕ) ≤ groupsWithin limit request.solverProcesses :=
      hcases ▸ Nat.min_le_right _ _
    rw [grantedCases, hrequested, solverProcesses_pinned]
    exact Nat.min_eq_left hgroups
  | nan => exact hrequested
  | negInf => exact hrequested
  | posInf => exact hrequested

theorem pin_again (request : AdmissionRequest) (maxCpuSlots : ExactNum) (cases : ℕ+)
    (hcases : grantedCases request maxCpuSlots = cases) :
    pinAdmissionCpuSlotsForRequest (request.pinned cases) maxCpuSlots =
      ((cases : ℕ) * request.solverProcesses, request.pinned cases) := by
  have hexplicit : ¬ ((request.pinned cases).cpuBudget = none ∧
      (request.pinned cases).caseConcurrency = none) := by
    rw [caseConcurrency_pinned]
    simp
  rw [pin_eq _ _ hexplicit, grantedCases_pinned request maxCpuSlots cases hcases,
    if_neg cases.ne_zero, solverProcesses_pinned, pinned_pinned]

/-! ## The contract of a pin -/

structure PinHonoured (request : AdmissionRequest) (maxCpuSlots : ExactNum) : Prop where
  within_limit :
    maxCpuSlots.lt (.fin (pinAdmissionCpuSlotsForRequest request maxCpuSlots).1) = false
  within_budget : ∀ budget, request.cpuBudget = some budget →
    (pinAdmissionCpuSlotsForRequest request maxCpuSlots).1 ≤ budget
  again :
    pinAdmissionCpuSlotsForRequest (pinAdmissionCpuSlotsForRequest request maxCpuSlots).2
        maxCpuSlots = pinAdmissionCpuSlotsForRequest request maxCpuSlots
  resolved : ∀ engine settings pressure,
    readRequest (pinAdmissionCpuSlotsForRequest request maxCpuSlots).2 = some engine →
    engine.resources.solverProcesses.getD settings.solverProcesses = request.solverProcesses →
    (pinAdmissionCpuSlotsForRequest request maxCpuSlots).1 ≤ settings.resolvedWorkerCpuBudget →
    let plan := resolveResources engine.resources settings engine.executableUnits pressure
    plan.solverProcesses * plan.resolvedCaseConcurrency =
        (pinAdmissionCpuSlotsForRequest request maxCpuSlots).1 ∧
      plan.resolvedCpuBudget = (pinAdmissionCpuSlotsForRequest request maxCpuSlots).1

/-- The requests and limits whose pin is honoured.  The requested cases, or the groups within a finite
limit, must fit the explicit budget and the units the engine counts for itself. -/
structure PinFits (request : AdmissionRequest) (maxCpuSlots : ExactNum) : Prop where
  limit : maxCpuSlots ≠ .negInf
  budget : ∀ budget, request.cpuBudget = some budget → request.caseConcurrency ≠ none →
    requestedCases request * request.solverProcesses ≤ budget ∨
      ∃ limit, maxCpuSlots = .fin limit ∧
        groupsWithin limit request.solverProcesses * request.solverProcesses ≤ budget
  units : ∀ units, engineUnits request = some units →
    requestedCases request ≤ units ∨
      ∃ limit, maxCpuSlots = .fin limit ∧ groupsWithin limit request.solverProcesses ≤ units

theorem granted_le_iff (request : AdmissionRequest) (maxCpuSlots : ExactNum) (bound : ℕ) :
    grantedCases request maxCpuSlots ≤ bound ↔
      requestedCases request ≤ bound ∨
        ∃ limit, maxCpuSlots = .fin limit ∧ groupsWithin limit request.solverProcesses ≤ bound := by
  cases maxCpuSlots with
  | fin limit => simp [grantedCases]
  | nan => simp [grantedCases]
  | negInf => simp [grantedCases]
  | posInf => simp [grantedCases]

theorem granted_within_limit (request : AdmissionRequest) (maxCpuSlots : ExactNum)
    (hpos : 0 < grantedCases request maxCpuSlots) :
    maxCpuSlots.lt (.fin (grantedCases request maxCpuSlots * request.solverProcesses : ℕ)) = false ↔
      maxCpuSlots ≠ .negInf := by
  cases maxCpuSlots with
  | nan => simp [ExactNum.lt]
  | negInf => simp [ExactNum.lt]
  | posInf => simp [ExactNum.lt]
  | fin limit =>
    have hgroups : grantedCases request (.fin limit) * request.solverProcesses ≤
        (max 0 ⌊limit⌋).toNat :=
      (Nat.mul_le_mul_right _ (Nat.min_le_right _ _)).trans (Nat.div_mul_le_self _ _)
    have hslots : 0 < grantedCases request (.fin limit) * (request.solverProcesses : ℕ) :=
      Nat.mul_pos hpos request.solverProcesses.pos
    have hfloor : ((grantedCases request (.fin limit) * request.solverProcesses : ℕ) : ℤ) ≤ ⌊limit⌋ := by
      omega
    have hle : ((grantedCases request (.fin limit) * request.solverProcesses : ℕ) : ℚ) ≤ limit := by
      exact_mod_cast Int.le_floor.mp hfloor
    simp only [ExactNum.lt, ne_eq, reduceCtorEq, not_false_eq_true, iff_true, decide_eq_false_iff_not,
      not_lt]
    exact hle

theorem requested_within_budget (request : AdmissionRequest) (budget : ℕ+)
    (hbudget : request.cpuBudget = some budget) (hcases : request.caseConcurrency = none) :
    requestedCases request * request.solverProcesses ≤ budget := by
  rw [requestedCases, hcases, hbudget]
  show (if 0 < request.caseCount then min ((budget : ℕ) / request.solverProcesses) request.caseCount
    else 1 / request.solverProcesses) * (request.solverProcesses : ℕ) ≤ budget
  split
  · exact (Nat.mul_le_mul_right _ (Nat.min_le_left _ _)).trans (Nat.div_mul_le_self _ _)
  · exact (Nat.div_mul_le_self _ _).trans budget.pos

theorem granted_within_budget_iff (request : AdmissionRequest) (maxCpuSlots : ExactNum)
    (budget : ℕ) :
    grantedCases request maxCpuSlots * request.solverProcesses ≤ budget ↔
      requestedCases request * request.solverProcesses ≤ budget ∨
        ∃ limit, maxCpuSlots = .fin limit ∧
          groupsWithin limit request.solverProcesses * request.solverProcesses ≤ budget := by
  have h := granted_le_iff request maxCpuSlots (budget / request.solverProcesses)
  simpa only [Nat.le_div_iff_mul_le request.solverProcesses.pos] using h

theorem resolve_pinned (request : AdmissionRequest) (cases : ℕ+) {engine : PolarRequest}
    (hread : readRequest (request.pinned cases) = some engine) (settings : Settings)
    (pressure : Pressure)
    (hprocesses : engine.resources.solverProcesses.getD settings.solverProcesses =
      request.solverProcesses)
    (hworker : (cases * request.solverProcesses : ℕ) ≤ settings.resolvedWorkerCpuBudget) :
    let plan := resolveResources engine.resources settings engine.executableUnits pressure
    plan.solverProcesses = request.solverProcesses ∧
      plan.resolvedCpuBudget = cases * request.solverProcesses ∧
      plan.resolvedCaseConcurrency = min (cases : ℕ) engine.executableUnits := by
  obtain ⟨hbudget, hcases, -, -⟩ := readRequest_withCounts request
    (readCount_nat (cases * request.solverProcesses)) (readCount_nat cases)
    (readCount_nat 1) (readCount_nat 1) hread
  exact resolve_exact engine.resources settings engine.executableUnits pressure hbudget hcases
    hprocesses rfl hworker (executionUnitCount_pos _ _ _ _)

theorem readCount_solverProcesses (request : AdmissionRequest) {processes : Option ℕ+}
    (hread : readCount (request.resources.getD ResourceFields.empty).solverProcesses =
      some processes) :
    processes.getD request.solverProcesses = request.solverProcesses := by
  cases processes with
  | none => rfl
  | some count =>
    cases hresources : request.resources with
    | none =>
      rw [hresources] at hread
      simp [ResourceFields.empty, readCount] at hread
    | some fields =>
      rw [hresources, Option.getD_some] at hread
      have hcount : positiveInteger fields.solverProcesses = some count := by
        unfold readCount at hread
        split at hread
        · next q hq =>
          rw [hq]
          simpa using hread
        · cases hread
      simp [AdmissionRequest.solverProcesses, hresources, hcount]

/-- A request the engine reads without its counts is read after the pin, for the same units, on a
worker that is as large as the reservation. -/
theorem exists_pinned_engine (request : AdmissionRequest) (cases : ℕ+) {units : ℕ}
    (hunits : engineUnits request = some units) :
    ∃ (engine : PolarRequest) (settings : Settings),
      readRequest (request.pinned cases) = some engine ∧ engine.executableUnits = units ∧
      engine.resources.solverProcesses.getD settings.solverProcesses = request.solverProcesses ∧
      (cases * request.solverProcesses : ℕ) ≤ settings.resolvedWorkerCpuBudget := by
  obtain ⟨free, hfree, hcount⟩ := Option.map_eq_some_iff.mp hunits
  obtain ⟨-, -, hprocesses, engine, hread, hsame, hsolver⟩ := readRequest_withCounts request
    readCount_none readCount_none
    (readCount_nat (cases * request.solverProcesses)) (readCount_nat cases) hfree
  rw [← hsolver] at hprocesses
  refine ⟨engine, ⟨request.solverProcesses, 1, some (cases * request.solverProcesses), none, none⟩,
    hread, hsame.trans hcount, readCount_solverProcesses request hprocesses, ?_⟩
  exact le_max_right _ _

def coldSweep (cpuBudget caseConcurrency : Option ExactNum) : AdmissionRequest where
  resources := some ⟨cpuBudget, caseConcurrency, none, none, none⟩
  aoa := some ⟨some [-4, 0, 4], none, none, none⟩
  speeds := some [30]
  chordLengths := none
  solver := none

end XFoilFoam.Sweeper
