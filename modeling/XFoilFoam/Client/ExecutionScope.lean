import XFoilFoam.Foundations.Decimal
import XFoilFoam.Foundations.DoubleOrder
import XFoilFoam.Foundations.ExceptLists
import Mathlib.Data.List.Dedup
import Mathlib.Data.List.Perm.Subperm

/-! The engine client's check of a progressive request: `solverBudgetCaseKey` and
`resolveSolverCaseAllocations` of `solver-budget.ts`, `validateProgressiveExecutionScope` of
`progressive-execution.ts`.  Requests and scopes are `unknown` values; arrays have no holes. -/
namespace XFoilFoam.Client
open Binary64
set_option autoImplicit false

abbrev Payload := JsValue Double

/-- `if (!condition) throw new Error(message)`. -/
def require (condition : Bool) (message : String) : Except String Unit :=
  if condition then .ok () else .error message

@[simp] theorem require_eq_ok (condition : Bool) (message : String) (u : Unit) :
    require condition message = .ok u ↔ condition = true := by
  cases condition <;> simp [require]

/-! ## Solver allocations -/

/-- `solverBudgetCaseKey`: the JSON text of the three numbers. -/
def solverBudgetCaseKey (chord speed aoaDeg : Payload) : Except String String :=
  match chord.finite?, speed.finite?, aoaDeg.finite? with
  | some c, some s, some a =>
    if le c (lit 0) || le s (lit 0) then .error "Solver allocation requires a finite physical case"
    else .ok ("[" ++ Decimal.numberText c ++ "," ++ Decimal.numberText s ++ "," ++ Decimal.numberText a ++ "]")
  | _, _, _ => .error "Solver allocation requires a finite physical case"

/-- A `Map` from case keys to seconds. -/
abbrev Allocations := List (String × Double)

def Allocations.get (allocations : Allocations) (key : String) : Option Double :=
  (allocations.find? fun entry => entry.1 == key).map Prod.snd

/-- `validLimit`, with the number. -/
def validLimit? (v : Payload) : Option Double :=
  v.finite?.filter fun x => lt (lit 0) x && le x (lit 43200)

/-- The loop over `case_solver_allocations`. -/
def resolveFrom (scope : List String) (resolved : Allocations) : List Payload → Except String Allocations
  | [] => .ok resolved
  | value :: rest =>
    if !value.isRecord then .error "Malformed solver case allocation"
    else
      match solverBudgetCaseKey (value.get "chord") (value.get "speed") (value.get "aoa_deg") with
      | .error e => .error e
      | .ok key =>
        match validLimit? (value.get "limit_seconds") with
        | some limit =>
          if !scope.contains key || (resolved.get key).isSome then
            .error "Solver allocation differs from its exact physical case scope"
          else resolveFrom scope (resolved ++ [(key, limit)]) rest
        | none => .error "Solver allocation differs from its exact physical case scope"

/-- `resolveSolverCaseAllocations`; a case is a chord, a speed and an angle. -/
def resolveSolverCaseAllocations (resources : Payload) (cases : List (Double × Double × Double))
    (expectedVersion : Payload) : Except String Allocations := do
  require resources.isRecord "Solver allocation resources are missing"
  require (expectedVersion.isNullish || expectedVersion.isLit 2)
    "Solver allocation contract version differs from version two"
  let keys ← cases.mapM fun c => solverBudgetCaseKey (.num c.1) (.num c.2.1) (.num c.2.2)
  let scope := keys.dedup
  require (!scope.isEmpty && decide (scope.length ≤ 512) && scope.length == cases.length)
    "Solver allocation scope must contain one to 512 unique physical cases"
  let shared := resources.get "case_solver_budget_seconds"
  let allocations := resources.get "case_solver_allocations"
  if allocations.isNullish then
    match validLimit? shared with
    | some limit => .ok (scope.map fun key => (key, limit))
    | none => .error "A finite positive shared solver allocation is required"
  else
    require (shared.isNullish && expectedVersion.isLit 2 && allocations.isArray &&
      allocations.elements.length == scope.length)
      "Exact solver allocations require version two and complete exclusive scope"
    resolveFrom scope [] allocations.elements

/-! ## The scope -/

structure ExecutionUnit where
  unitId : String
  alpha : Double
  token : String
  activeBudgetSeconds : Double
  deriving DecidableEq

structure ExecutionContinuation where
  extensionId : String
  sourceResultAttemptId : String
  engineJobId : String
  engineCaseSlug : String
  extensionSeconds : Double
  deriving DecidableEq

structure ScopeOwner where
  executionId : String
  epochId : String
  generationId : String
  targetId : String
  stage : ℕ
  recipeId : String
  deriving DecidableEq

structure ExecutionScope where
  owner : ScopeOwner
  tokens : List String
  units : List ExecutionUnit
  continuation : Option ExecutionContinuation
  deriving DecidableEq

/-- `UUID`: `/^[0-9a-f]{8}-[0-9a-f]{4}-[0-9a-f]{4}-[0-9a-f]{4}-[0-9a-f]{12}$/`. -/
def isUuid (s : String) : Bool :=
  s.toList.length == 36 &&
    s.toList.zipIdx.all fun ci => uuidClass isLowerHex isLowerHex isLowerHex ci.2 ci.1

/-- `identifier(value, pattern)`, with the text. -/
def identifier? (v : Payload) (pattern : String → Bool) : Option String :=
  match v with
  | .str s => if pattern s then some s else none
  | _ => none

def exactKeys (v : Payload) (keys : List String) : Bool := v.keys.length == keys.length && keys.all v.hasOwn

/-- `text.length`, in UTF-16 units. -/
def utf16Length (s : String) : ℕ := (s.toList.map fun c => if 0x10000 ≤ c.toNat then 2 else 1).sum

/-- `!!text.trim()`. -/
def notBlank (s : String) : Bool := s.toList.any fun c => !jsWhitespace c

/-- A safe integer from `least` on. -/
def isVersionFrom (v : Payload) (least : ℤ) : Bool :=
  match v with
  | .num x => (safeInteger x).any fun n => decide (least ≤ n)
  | _ => false

/-- `value === x` for a number. -/
def isNumber (v : Payload) (x : Double) : Bool :=
  match v with
  | .num y => eq y x
  | _ => false

def stage? (v : Payload) : Option ℕ := if v.isLit 2 then some 2 else if v.isLit 3 then some 3 else none

def hasContinuation (value : Payload) : Bool := value.isRecord && value.hasOwn "continuation"

def ownerKeys : List String :=
  ["executionContract", "executionId", "epochId", "generationId", "targetId", "stage", "recipeId", "tokens", "units"]

def owner? (value : Payload) : Option ScopeOwner := do
  guard (value.isRecord && exactKeys value (ownerKeys ++ if hasContinuation value then ["continuation"] else []) &&
    (value.get "executionContract").isStr "progressive-cfd-v1")
  let executionId ← identifier? (value.get "executionId") isUuid
  let epochId ← identifier? (value.get "epochId") isUuid
  let generationId ← identifier? (value.get "generationId") isUuid
  let targetId ← identifier? (value.get "targetId") isSha256Hex
  let recipeId ← identifier? (value.get "recipeId") isSha256Hex
  let stage ← stage? (value.get "stage")
  pure ⟨executionId, epochId, generationId, targetId, stage, recipeId⟩

def isEngineIdentity (v : Payload) : Bool :=
  v.isRecord && (v.get "family").isStrAnd (fun s => s != "") && (v.get "distribution").isStrAnd (fun s => s != "") &&
    (v.get "version").isStrAnd (fun s => s != "") && (v.get "numerics_revision").isStrAnd (fun s => s != "") &&
    isVersionFrom (v.get "adapter_contract_version") 1

def continuationKeys : List String :=
  ["extensionId", "sourceResultAttemptId", "engineJobId", "engineCaseSlug", "extensionSeconds"]

def continuation? (request : Payload) (stage : ℕ) (candidate : Payload) : Option ExecutionContinuation := do
  guard (candidate.isRecord && exactKeys candidate continuationKeys)
  let extensionId ← identifier? (candidate.get "extensionId") isUuid
  let sourceResultAttemptId ← identifier? (candidate.get "sourceResultAttemptId") isUuid
  let engineJobId ← identifier? (candidate.get "engineJobId") isUuid
  let engineCaseSlug ← identifier? (candidate.get "engineCaseSlug") fun s =>
    notBlank s && decide (utf16Length s ≤ 512)
  let extensionSeconds ← validLimit? (candidate.get "extensionSeconds")
  guard (!(request.get "continue_from").isNullish &&
    ((request.get "continue_from").get "engine_job_id").isStr engineJobId &&
    ((request.get "continue_from").get "case_slug").isStr engineCaseSlug &&
    isNumber (request.get "budget_override_s") extensionSeconds &&
    (request.get "corrective_tail_periods").isNullish &&
    ((request.get "solver").get "force_transient").isTrue &&
    ((request.get "solver").get "urans_fidelity").isStr (if stage = 2 then "precalc" else "full") &&
    isVersionFrom (request.get "expected_urans_recovery_version") 2)
  pure ⟨extensionId, sourceResultAttemptId, engineJobId, engineCaseSlug, extensionSeconds⟩

/-- One entry of `units`. -/
def unit? (stage : ℕ) (v : Payload) : Option ExecutionUnit := do
  guard (v.isRecord && exactKeys v ["unitId", "alpha", "token", "activeBudgetSeconds"])
  let unitId ← identifier? (v.get "unitId") isUuid
  let token ← identifier? (v.get "token") isUuid
  let alpha ← (v.get "alpha").finite?
  let seconds ← (v.get "activeBudgetSeconds").finite?
  guard (lt (lit 0) seconds && le seconds (lit (if stage = 2 then 900 else 43200)))
  pure ⟨unitId, alpha, token, seconds⟩

/-- The number of an `unknown`. -/
def number? : Payload → Option Double
  | .num x => some x
  | _ => none

/-- `new Set(xs).size === n && !xs.some(x => !allowed.has(x))`. -/
def sameSet {α : Type} [DecidableEq α] (xs allowed : List α) (n : ℕ) : Bool :=
  xs.dedup.length == n && xs.all fun x => allowed.contains x

/-- The exact case scope: one chord, one speed and the angles of the units. -/
def caseScope? (request : Payload) (units : List ExecutionUnit) : Option (Double × Double) :=
  match request.get "chord_lengths", request.get "speeds", ((request.get "aoa").get "angles").elements.mapM number? with
  | .arr [chord], .arr [speed], some angles =>
    match chord.finite?, speed.finite? with
    | some c, some s =>
      if lt (lit 0) c && lt (lit 0) s && (request.get "aoa").isRecord && exactKeys (request.get "aoa") ["angles"] &&
        ((request.get "aoa").get "angles").isArray && angles.length == units.length &&
        sameSet angles (units.map ExecutionUnit.alpha) units.length
      then some (c, s) else none
    | _, _ => none
  | _, _, _ => none

def caseKey (chord speed : Double) (unit : ExecutionUnit) : Except String String :=
  solverBudgetCaseKey (.num chord) (.num speed) (.num unit.alpha)

/-- `allocations.get(solverBudgetCaseKey(...)) !== unit.activeBudgetSeconds` for no unit. -/
def allocatedExactly (allocations : Allocations) (chord speed : Double) (unit : ExecutionUnit) : Bool :=
  match caseKey chord speed unit with
  | .ok key => (allocations.get key).any fun seconds => eq seconds unit.activeBudgetSeconds
  | .error _ => false

def orThrow {α : Type} (x : Option α) (message : String) : Except String α :=
  match x with
  | some a => .ok a
  | none => .error message

@[simp] theorem orThrow_eq_ok {α : Type} (x : Option α) (message : String) (a : α) :
    orThrow x message = .ok a ↔ x = some a := by
  cases x <;> simp [orThrow]

def scopeContinuation (request value : Payload) (stage : ℕ) : Except String (Option ExecutionContinuation) :=
  if hasContinuation value then do
    let continuation ← orThrow (continuation? request stage (value.get "continuation"))
      "Progressive continuation is not bound to its exact saved URANS case"
    pure (some continuation)
  else do
    require ((request.get "continue_from").isNullish && (request.get "budget_override_s").isNullish &&
      (request.get "corrective_tail_periods").isNullish)
      "Progressive execution cannot override its immutable case allocations"
    pure none

def validateProgressiveExecutionScope (request value : Payload) : Except String ExecutionScope := do
  let owner ← orThrow (owner? value) "Progressive execution requires an exact versioned owner scope"
  require ((request.get "execution_id").isStr owner.executionId &&
    (request.get "expected_solver_budget_version").isLit 2)
    "Progressive request execution identity or budget version differs"
  require (isEngineIdentity (request.get "expected_engine") &&
    (request.get "expected_execution_pool").isStrAnd notBlank &&
    isVersionFrom (request.get "expected_mesh_recovery_version") 0)
    "Progressive request requires an explicit engine, pool and mesh capability"
  let continuation ← scopeContinuation request value owner.stage
  require (((request.get "resources").get "case_concurrency").isLit 1 &&
    ((request.get "solver").get "warm_start").isTrue)
    "Progressive execution must preserve its shared-mesh marched request"
  let rawUnits := (value.get "units").elements
  require ((value.get "units").isArray && decide (1 ≤ rawUnits.length) && decide (rawUnits.length ≤ 512) &&
    (continuation.isNone || rawUnits.length == 1) && (value.get "tokens").isArray &&
    (value.get "tokens").elements.length == rawUnits.length)
    "Progressive execution requires a bounded complete unit scope"
  let units ← orThrow (rawUnits.mapM (unit? owner.stage))
    "Progressive execution contains an invalid or unbounded unit"
  let tokens ← orThrow ((value.get "tokens").elements.mapM fun token => identifier? token isUuid)
    "Progressive execution unit, angle and attempt identities must be unique and complete"
  require ((units.map ExecutionUnit.unitId).dedup.length == units.length &&
    (units.map ExecutionUnit.token).dedup.length == units.length &&
    (units.map ExecutionUnit.alpha).dedup.length == units.length &&
    sameSet tokens (units.map ExecutionUnit.token) units.length)
    "Progressive execution unit, angle and attempt identities must be unique and complete"
  let physical ← orThrow (caseScope? request units) "Progressive request differs from its exact physical case scope"
  let allocations ← resolveSolverCaseAllocations (request.get "resources")
    (units.map fun unit => (physical.1, physical.2, unit.alpha)) (request.get "expected_solver_budget_version")
  require (units.all (allocatedExactly allocations physical.1 physical.2))
    "Progressive request changed an owned case allocation"
  pure ⟨owner, tokens, units, continuation⟩

/-! ## What an accepted scope is -/

section Accepted
variable {α : Type} [DecidableEq α] {xs ys : List α}

theorem nodup_of_dedup_length (h : xs.dedup.length = xs.length) : xs.Nodup := by
  have hsame : xs.dedup = xs := (List.dedup_sublist xs).eq_of_length h
  rw [← hsame]
  exact List.nodup_dedup xs

theorem perm_of_sameSet (h : sameSet xs ys ys.length = true) (hlength : xs.length = ys.length) : xs.Perm ys := by
  simp only [sameSet, Bool.and_eq_true, beq_iff_eq, List.all_eq_true, List.contains_iff_mem] at h
  have hnodup := nodup_of_dedup_length (h.1.trans hlength.symm)
  exact (hnodup.subperm h.2).perm_of_length_le hlength.ge

theorem identifier?_eq_some {v : Payload} {pattern : String → Bool} {s : String}
    (h : identifier? v pattern = some s) : v = .str s := by
  unfold identifier? at h
  split at h
  · split at h
    · cases h
      rfl
    · cases h
  · cases h

theorem finite?_eq_some {v : Payload} {x : Double} (h : v.finite? = some x) : v = .num x := by
  unfold JsValue.finite? at h
  split at h
  · split at h
    · cases h
      rfl
    · cases h
  · cases h

theorem number?_eq_some {v : Payload} {x : Double} (h : number? v = some x) : v = .num x := by
  unfold number? at h
  split at h
  · cases h
    rfl
  · cases h

theorem map_of_mapM {β : Type} {f : Payload → Option β} {g : β → Payload}
    (hf : ∀ {v b}, f v = some b → v = g b) {vs : List Payload} {k : List β} (h : vs.mapM f = some k) :
    vs = k.map g := by
  rw [mapM_eq_some] at h
  induction h with
  | nil => rfl
  | cons hb _ ih => rw [List.map_cons, ← hf hb, ← ih]

theorem caseScope?_spec {request : Payload} {units : List ExecutionUnit} {physical : Double × Double}
    (h : caseScope? request units = some physical) :
    request.get "chord_lengths" = .arr [.num physical.1] ∧ request.get "speeds" = .arr [.num physical.2] ∧
      ∃ angles : List Double, (request.get "aoa").get "angles" = .arr (angles.map .num) ∧
        angles.Perm (units.map ExecutionUnit.alpha) := by
  unfold caseScope? at h
  split at h
  · rename_i chord speed angles hchord hspeed hangles
    split at h
    · rename_i c s hc hs
      split at h
      · rename_i hchecks
        cases h
        simp only [Bool.and_eq_true, beq_iff_eq] at hchecks
        obtain ⟨⟨⟨-, harray⟩, hlength⟩, hsame⟩ := hchecks
        have helements := map_of_mapM number?_eq_some hangles
        refine ⟨by rw [hchord, finite?_eq_some hc], by rw [hspeed, finite?_eq_some hs], angles, ?_, ?_⟩
        · cases hvalue : (request.get "aoa").get "angles" with
          | arr xs =>
            rw [hvalue] at helements
            exact congrArg JsValue.arr helements
          | _ => rw [hvalue] at harray; cases harray
        · exact perm_of_sameSet (by rw [List.length_map]; exact hsame) (by rw [List.length_map]; exact hlength)
      · cases h
    · cases h
  · cases h

theorem allocatedExactly_spec {allocations : Allocations} {chord speed : Double} {unit : ExecutionUnit}
    (h : allocatedExactly allocations chord speed unit = true) :
    ∃ key, caseKey chord speed unit = .ok key ∧ allocations.get key = some unit.activeBudgetSeconds := by
  unfold allocatedExactly at h
  split at h
  · rename_i key hkey
    refine ⟨key, hkey, ?_⟩
    cases hseconds : allocations.get key with
    | none =>
      rw [hseconds] at h
      cases h
    | some seconds =>
      rw [hseconds, Option.any_some] at h
      rw [Double.eq_of_numeric_eq h]
  · cases h

/-- The tokens and the angles are those of the units in some order, nothing is repeated, and each unit's case
is allocated exactly its seconds. -/
theorem accepted_scope_exact {request value : Payload} {scope : ExecutionScope}
    (h : validateProgressiveExecutionScope request value = .ok scope) :
    (value.get "units").elements.mapM (unit? scope.owner.stage) = some scope.units ∧
      value.get "tokens" = .arr (scope.tokens.map .str) ∧
      scope.tokens.Perm (scope.units.map ExecutionUnit.token) ∧
      (∃ angles : List Double, (request.get "aoa").get "angles" = .arr (angles.map .num) ∧
        angles.Perm (scope.units.map ExecutionUnit.alpha)) ∧
      (scope.units.map ExecutionUnit.unitId).Nodup ∧ (scope.units.map ExecutionUnit.token).Nodup ∧
      (scope.units.map ExecutionUnit.alpha).Nodup ∧
      ∃ chord speed, request.get "chord_lengths" = .arr [.num chord] ∧ request.get "speeds" = .arr [.num speed] ∧
        ∃ allocations, resolveSolverCaseAllocations (request.get "resources")
            (scope.units.map fun unit => (chord, speed, unit.alpha))
            (request.get "expected_solver_budget_version") = .ok allocations ∧
          ∀ unit ∈ scope.units, ∃ key, caseKey chord speed unit = .ok key ∧
            allocations.get key = some unit.activeBudgetSeconds := by
  unfold validateProgressiveExecutionScope at h
  simp only [bind, pure, bind_eq_ok, orThrow_eq_ok, require_eq_ok, Except.pure, Except.ok.injEq] at h
  obtain ⟨owner, howner, -, -, -, -, continuation, hcontinuation, -, -, -, hbounds, units, hunits, tokens, htokens,
    -, hunique, physical, hphysical, allocations, hallocations, -, hexact, rfl⟩ := h
  simp only [Bool.and_eq_true, beq_iff_eq] at hbounds hunique
  obtain ⟨⟨-, htokenArray⟩, htokenLength⟩ := hbounds
  obtain ⟨⟨⟨hids, htokenIds⟩, halphas⟩, hsame⟩ := hunique
  have hunitLength : (value.get "units").elements.length = units.length := ((mapM_eq_some _ _ _).mp hunits).length_eq
  have hlength : tokens.length = units.length := by
    rw [← ((mapM_eq_some _ _ _).mp htokens).length_eq, htokenLength, hunitLength]
  have helements := map_of_mapM identifier?_eq_some htokens
  obtain ⟨hchord, hspeed, hangles⟩ := caseScope?_spec hphysical
  refine ⟨hunits, ?_, ?_, hangles, ?_, ?_, ?_, physical.1, physical.2, hchord, hspeed, allocations, hallocations, ?_⟩
  · cases hvalue : value.get "tokens" with
    | arr xs =>
      rw [hvalue] at helements
      exact congrArg JsValue.arr helements
    | _ => rw [hvalue] at htokenArray; cases htokenArray
  · exact perm_of_sameSet (by rw [List.length_map]; exact hsame) (by rw [List.length_map]; exact hlength)
  · exact nodup_of_dedup_length (by rw [hids, List.length_map])
  · exact nodup_of_dedup_length (by rw [htokenIds, List.length_map])
  · exact nodup_of_dedup_length (by rw [halphas, List.length_map])
  · intro unit hunit
    exact allocatedExactly_spec (List.all_eq_true.mp hexact unit hunit)

/-- A request for two angles with one allocation each, and the scope that owns it; the tokens and the angles
are listed in the other order. -/
def twoAngleOwner : ScopeOwner where
  executionId := "11111111-1111-4111-8111-111111111111"
  epochId := "22222222-2222-4222-8222-222222222222"
  generationId := "33333333-3333-4333-8333-333333333333"
  targetId := "0123456789abcdef0123456789abcdef0123456789abcdef0123456789abcdef"
  stage := 3
  recipeId := "fedcba9876543210fedcba9876543210fedcba9876543210fedcba9876543210"

def twoAngleUnits : List ExecutionUnit :=
  [⟨"44444444-4444-4444-8444-444444444444", lit 0, "55555555-5555-4555-8555-555555555555", lit 1800⟩,
    ⟨"66666666-6666-4666-8666-666666666666", lit 4, "77777777-7777-4777-8777-777777777777", lit 3600⟩]

def twoAngleAllocation (unit : ExecutionUnit) : Payload :=
  .obj [("chord", .num (lit 1)), ("speed", .num (lit 30)), ("aoa_deg", .num unit.alpha),
    ("limit_seconds", .num unit.activeBudgetSeconds)]

def twoAngleRequest : Payload :=
  .obj [("execution_id", .str twoAngleOwner.executionId), ("expected_solver_budget_version", .num (lit 2)),
    ("expected_engine", .obj [("family", .str "openfoam"), ("distribution", .str "org"), ("version", .str "12"),
      ("numerics_revision", .str "r1"), ("adapter_contract_version", .num (lit 1))]),
    ("expected_execution_pool", .str "default"), ("expected_mesh_recovery_version", .num (lit 0)),
    ("resources", .obj [("case_concurrency", .num (lit 1)),
      ("case_solver_allocations", .arr (twoAngleUnits.reverse.map twoAngleAllocation))]),
    ("solver", .obj [("warm_start", .bool true)]),
    ("chord_lengths", .arr [.num (lit 1)]), ("speeds", .arr [.num (lit 30)]),
    ("aoa", .obj [("angles", .arr [.num (lit 4), .num (lit 0)])])]

def twoAngleScope : Payload :=
  .obj [("executionContract", .str "progressive-cfd-v1"), ("executionId", .str twoAngleOwner.executionId),
    ("epochId", .str twoAngleOwner.epochId), ("generationId", .str twoAngleOwner.generationId),
    ("targetId", .str twoAngleOwner.targetId), ("stage", .num (lit 3)), ("recipeId", .str twoAngleOwner.recipeId),
    ("tokens", .arr (twoAngleUnits.reverse.map fun unit => .str unit.token)),
    ("units", .arr (twoAngleUnits.map fun unit => .obj [("unitId", .str unit.unitId), ("alpha", .num unit.alpha),
      ("token", .str unit.token), ("activeBudgetSeconds", .num unit.activeBudgetSeconds)]))]

theorem two_angle_scope_exact :
    validateProgressiveExecutionScope twoAngleRequest twoAngleScope =
        .ok ⟨twoAngleOwner, (twoAngleUnits.map ExecutionUnit.token).reverse, twoAngleUnits, none⟩ ∧
      ∃ chord speed, twoAngleRequest.get "chord_lengths" = .arr [.num chord] ∧
        twoAngleRequest.get "speeds" = .arr [.num speed] ∧
        ∃ allocations, resolveSolverCaseAllocations (twoAngleRequest.get "resources")
            (twoAngleUnits.map fun unit => (chord, speed, unit.alpha))
            (twoAngleRequest.get "expected_solver_budget_version") = .ok allocations ∧
          ∀ unit ∈ twoAngleUnits, ∃ key, caseKey chord speed unit = .ok key ∧
            allocations.get key = some unit.activeBudgetSeconds := by
  have haccepted : validateProgressiveExecutionScope twoAngleRequest twoAngleScope =
      .ok ⟨twoAngleOwner, (twoAngleUnits.map ExecutionUnit.token).reverse, twoAngleUnits, none⟩ := by
    have howner : owner? twoAngleScope = some twoAngleOwner := by decide +kernel
    have hunits : (twoAngleScope.get "units").elements.mapM (unit? twoAngleOwner.stage) = some twoAngleUnits := by
      decide +kernel
    have htokens : ((twoAngleScope.get "tokens").elements.mapM fun token => identifier? token isUuid) =
        some (twoAngleUnits.map ExecutionUnit.token).reverse := by decide +kernel
    have hcase : caseScope? twoAngleRequest twoAngleUnits = some (lit 1, lit 30) := by decide +kernel
    have hresolved : resolveSolverCaseAllocations (twoAngleRequest.get "resources")
        (twoAngleUnits.map fun unit => (lit 1, lit 30, unit.alpha))
        (twoAngleRequest.get "expected_solver_budget_version") =
          .ok [("[1,30,4]", lit 3600), ("[1,30,0]", lit 1800)] := by decide +kernel
    simp only [validateProgressiveExecutionScope, bind, pure, bind_eq_ok, orThrow_eq_ok, require_eq_ok, Except.pure,
      Except.ok.injEq]
    exact ⟨_, howner, (), by decide +kernel, (), by decide +kernel, none, by decide +kernel, (), by decide +kernel,
      (), by decide +kernel, _, hunits, _, htokens, (), by decide +kernel, _, hcase, _, hresolved, (),
      by decide +kernel, rfl⟩
  obtain ⟨-, -, -, -, -, -, -, hallocated⟩ := accepted_scope_exact haccepted
  exact ⟨haccepted, hallocated⟩

end Accepted

end XFoilFoam.Client
