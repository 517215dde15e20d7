import XFoilFoam.Foundations.CanonicalJson
import XFoilFoam.Foundations.ExceptLists

/-! Reports of a remote execution, as `progressive-remote-report.ts` validates them: one report against
its assignment, and one report against the report before it.  Numbers of a report are compared and never
rounded, so they are exact here. -/
namespace XFoilFoam.Remote
open ExactNum
set_option autoImplicit false

abbrev Json := JsValue ExactNum

structure EngineIdentity where
  family : String
  distribution : String
  version : String
  numericsRevision : String
  adapterContractVersion : ℤ
  deriving DecidableEq

/-- A verified `ProgressiveRemoteExecutionEnvelope`: what a report is compared with. -/
structure Envelope where
  solverId : String
  promiseId : String
  executionId : String
  contentSignature : String
  alphas : List ExactNum
  resources : Json
  chord : ExactNum
  speed : ExactNum
  expectedEngine : EngineIdentity
  expectedExecutionPool : Option String

/-- What the code takes from its runtime: key collation, `Date.parse` and SHA-256. -/
structure Runtime where
  keyOrder : KeyOrder
  dateParses : String → Bool
  sha256 : List (JsonToken ExactNum) → String

/-- `if (!condition) throw new Error(message)`. -/
def require (condition : Bool) (message : String) : Except String Unit :=
  if condition then .ok () else .error message

@[simp] theorem require_eq_ok (condition : Bool) (message : String) (u : Unit) :
    require condition message = .ok u ↔ condition = true := by
  cases condition <;> simp [require]

/-! ## Values -/

/-- `value === x` against a number. -/
def isNum (v : Json) (x : ExactNum) : Bool :=
  match v with
  | .num y => ExactNum.eq y x
  | _ => false

def isBool : Json → Bool
  | .bool _ => true
  | _ => false

def isStrIn (names : List String) : Json → Bool
  | .str s => names.contains s
  | _ => false

/-- `names.includes(String(value))`: an array of one element prints as that element. -/
def printsAs (names : List String) : Json → Bool
  | .str s => names.contains s
  | .arr [x] => printsAs names x
  | _ => false

/-- Decimal digits that are all zero, around at most one point and before an exponent. -/
def zeroDecimal (text : List Char) : Bool :=
  let mantissa := text.takeWhile (fun c => c != 'e' && c != 'E')
  let tail := (text.dropWhile (fun c => c != 'e' && c != 'E')).drop 1
  let exponent := if tail.head? = some '-' ∨ tail.head? = some '+' then tail.drop 1 else tail
  mantissa.contains '0' && mantissa.all (fun c => c == '0' || c == '.') &&
    decide (mantissa.count '.' ≤ 1) &&
    (mantissa.length == text.length || !exponent.isEmpty && exponent.all Char.isDigit)

/-- A text that `Number` reads as zero. -/
def zeroText (s : String) : Bool :=
  let text := ((s.toList.dropWhile jsWhitespace).reverse.dropWhile jsWhitespace).reverse
  let unsigned := if text.head? = some '-' ∨ text.head? = some '+' then text.drop 1 else text
  let radix := decide (text.take 2 ∈ [['0', 'x'], ['0', 'X'], ['0', 'o'], ['0', 'O'], ['0', 'b'], ['0', 'B']])
  text.isEmpty || zeroDecimal unsigned ||
    (radix && !(text.drop 2).isEmpty && (text.drop 2).all (fun c => c == '0'))

/-- `Number(value) === 0`. -/
def numberIsZero : Json → Bool
  | .num x => ExactNum.eq x (.fin 0)
  | .null => true
  | .bool b => !b
  | .str s => zeroText s
  | .arr [] => true
  | .arr [.bool _] => false
  | .arr [x] => numberIsZero x
  | _ => false

/-- `Number.isSafeInteger(value)`, with the integer. -/
def safeInteger? : Json → Option ℤ
  | .num x => x.safeInteger
  | _ => none

def terminalStates : List String := ["completed", "failed", "cancelled"]

def states : List String := ["pending", "running", "completed", "failed", "cancelled"]

/-! ## Engine identity -/

def nonemptyText? : Json → Option String
  | .str s => if s.isEmpty then none else some s
  | _ => none

/-- `isEngineIdentity`, with the identity. -/
def engineIdentity? (v : Json) : Option EngineIdentity := do
  let family ← nonemptyText? (v.get "family")
  let distribution ← nonemptyText? (v.get "distribution")
  let version ← nonemptyText? (v.get "version")
  let numericsRevision ← nonemptyText? (v.get "numerics_revision")
  let adapterContractVersion ← safeInteger? (v.get "adapter_contract_version")
  if 0 < adapterContractVersion then
    some ⟨family, distribution, version, numericsRevision, adapterContractVersion⟩
  else none

def isOciDigest (s : String) : Bool :=
  decide (s.toList.take 7 = "sha256:".toList) && (s.toList.drop 7).length == 64 &&
    (s.toList.drop 7).all isLowerHex

def runtimeDigests : List (String × (String → Bool)) :=
  [("application_source_sha256", isSha256Hex), ("image_digest", isOciDigest),
    ("package_sha256", isSha256Hex), ("binary_sha256", isSha256Hex)]

def hasEngineRuntimeContentFingerprint (v : Json) : Bool :=
  runtimeDigests.all (fun digest => (v.get digest.1).isNullish || (v.get digest.1).isStrAnd digest.2) &&
    runtimeDigests.any (fun digest => (v.get digest.1).isStrAnd digest.2)

def engineIdentityKey (engine : EngineIdentity) : String :=
  engine.family ++ ":" ++ engine.distribution ++ ":" ++ engine.version ++ ":numerics-" ++
    engine.numericsRevision ++ ":adapter-" ++ toString engine.adapterContractVersion

/-- `isEngineIdentity(value) && sameEngineIdentity(value, expected)`. -/
def matchesEngine (v : Json) (expected : EngineIdentity) : Bool :=
  (engineIdentity? v).any (fun engine => engineIdentityKey engine == engineIdentityKey expected)

def isEngineRuntimeIdentity (v : Json) : Bool :=
  (engineIdentity? v).isSome && (nonemptyText? (v.get "build_id")).isSome &&
    hasEngineRuntimeContentFingerprint v

def matchesPool (v : Json) (expected : Option String) : Bool :=
  v.isNullish || expected.any v.isStr

def validateProvenance (envelope : Envelope) (item : Json) (required : Bool) : Except String Unit := do
  require (!(required || !(item.get "engine").isNullish) ||
      (isEngineRuntimeIdentity (item.get "engine") &&
        matchesEngine (item.get "engine") envelope.expectedEngine))
    "Remote report lacks matching real runtime provenance"
  require (matchesPool (item.get "execution_pool") envelope.expectedExecutionPool &&
      matchesPool (item.get "requested_execution_pool") envelope.expectedExecutionPool)
    "Remote report changed its assigned execution pool"
  require ((item.get "requested_engine").isNullish ||
      matchesEngine (item.get "requested_engine") envelope.expectedEngine)
    "Remote report changed its requested engine identity"

/-! ## Solver allocations -/

abbrev CaseKey := ExactNum × ExactNum × ExactNum

def solverBudgetCaseKey (chord speed aoa : Json) : Except String CaseKey :=
  match chord.finite?, speed.finite?, aoa.finite? with
  | some c, some s, some a =>
    if ExactNum.lt (.fin 0) c && ExactNum.lt (.fin 0) s then .ok (c, s, a)
    else .error "Solver allocation requires a finite physical case"
  | _, _, _ => .error "Solver allocation requires a finite physical case"

def validLimit? (v : Json) : Option ExactNum :=
  v.finite?.filter (fun x => ExactNum.lt (.fin 0) x && ExactNum.le x (.fin 43200))

/-- The loop over `case_solver_allocations`. -/
def resolveAllocations (scope : List CaseKey) :
    List (CaseKey × ExactNum) → List Json → Except String (List (CaseKey × ExactNum))
  | resolved, [] => .ok resolved
  | resolved, value :: rest => do
    require value.isRecord "Malformed solver case allocation"
    let key ← solverBudgetCaseKey (value.get "chord") (value.get "speed") (value.get "aoa_deg")
    match validLimit? (value.get "limit_seconds") with
    | some limit =>
      require (scope.contains key && !(resolved.map Prod.fst).contains key)
        "Solver allocation differs from its exact physical case scope"
      resolveAllocations scope (resolved ++ [(key, limit)]) rest
    | none => .error "Solver allocation differs from its exact physical case scope"

/-- `resolveSolverCaseAllocations` under contract version two. -/
def resolveSolverCaseAllocations (resources : Json) (cases : List (Json × Json × Json)) :
    Except String (List (CaseKey × ExactNum)) := do
  require resources.isRecord "Solver allocation resources are missing"
  let scope ← cases.mapM (fun physical => solverBudgetCaseKey physical.1 physical.2.1 physical.2.2)
  require (!scope.isEmpty && decide (scope.length ≤ 512) && decide scope.Nodup)
    "Solver allocation scope must contain one to 512 unique physical cases"
  let shared := resources.get "case_solver_budget_seconds"
  let allocations := resources.get "case_solver_allocations"
  if allocations.isNullish then
    match validLimit? shared with
    | some limit => .ok (scope.map (fun key => (key, limit)))
    | none => .error "A finite positive shared solver allocation is required"
  else do
    require (shared.isNullish && allocations.isArray && allocations.elements.length == scope.length)
      "Exact solver allocations require version two and complete exclusive scope"
    resolveAllocations scope [] allocations.elements

def validateCase (allocations : List (CaseKey × ExactNum)) (chord speed aoa seconds : Json)
    (limit : Option ExactNum) : Except String Unit := do
  require (chord.typeOf == "number" && speed.typeOf == "number" && aoa.typeOf == "number")
    "Remote report lacks exact physical case coordinates"
  let key ← solverBudgetCaseKey chord speed aoa
  require ((allocations.lookup key).any (fun allocated =>
      seconds.finiteAnd (fun x => !ExactNum.lt x (.fin 0)) &&
        limit.all (fun l => ExactNum.eq l allocated)))
    "Remote report changes an owned physical case or measured budget"

/-! ## One report -/

def hasPermanentContinuationFailure (v : Json) : Bool :=
  v.isRecord && ((v.get "continuation_failure_kind").isStr "permanent" ||
    (v.get "message").isStrAnd (fun message => includes message "continuation_source_permanent:"))

def hasNoSolverProgress (v : Json) : Bool :=
  v.isNullish || (v.isRecord && (v.get "cases").isArray && (v.get "cases").elements.all (fun item =>
    item.isRecord && (match item.get "solver_running" with | .bool b => !b | _ => false) &&
      numberIsZero (item.get "solver_active_seconds")))

/-- What the three `BeforeCases` exemptions share: no case was ever started in the given state. -/
def beforeCases (value : Json) (state : String) (cause : Bool) : Bool :=
  let status := value.get "status"
  status.isRecord && (status.get "state").isStr state && (status.get "total_cases").isLit 0 &&
    (status.get "completed_cases").isLit 0 && cause && (value.get "stopProof").isRecord &&
    ((value.get "result").isNull || ((value.get "result").isRecord &&
      ((value.get "result").get "polars").isArray &&
      ((value.get "result").get "polars").elements.isEmpty)) &&
    hasNoSolverProgress (status.get "solver_budget_progress")

def setupFailure (value : Json) : Bool :=
  printsAs ["deterministic_mesh", "infrastructure"] ((value.get "status").get "failure_disposition")

def failedBeforeCases (value : Json) : Bool := beforeCases value "failed" (setupFailure value)

def cancelledBeforeCases (value : Json) : Bool := beforeCases value "cancelled" (setupFailure value)

def permanentContinuationBeforeCases (value : Json) : Bool :=
  beforeCases value "failed" (hasPermanentContinuationFailure (value.get "status"))

def neverStartedBasis : String := "never_started_cancellation_fence"

def reportKeys : List String :=
  ["version", "solverId", "promiseId", "executionId", "assignmentSignature", "sequence", "status",
    "result", "stopProof"]

def validateIdentity (envelope : Envelope) (value : Json) : Except String Unit :=
  require (value.isRecord && value.keys.length == 9 && reportKeys.all value.hasOwn &&
      (value.get "version").isLit 1 && (value.get "solverId").isStr envelope.solverId &&
      (value.get "promiseId").isStr envelope.promiseId &&
      (value.get "executionId").isStr envelope.executionId &&
      (value.get "assignmentSignature").isStr envelope.contentSignature &&
      (safeInteger? (value.get "sequence")).any (fun n => decide (1 ≤ n)))
    "Remote report does not identify its exact assigned execution and sequence"

def validateStatus (envelope : Envelope) (value : Json) : Except String Unit :=
  let status := value.get "status"
  require (status.isRecord && (status.get "job_id").isStr envelope.executionId &&
      isStrIn states (status.get "state") &&
      ((status.get "total_cases").isLit envelope.alphas.length || failedBeforeCases value ||
        cancelledBeforeCases value || permanentContinuationBeforeCases value ||
        ((status.get "total_cases").isLit 0 && (value.get "stopProof").isRecord &&
          ((value.get "stopProof").get "ownership_basis").isStr neverStartedBasis)) &&
      (safeInteger? (status.get "completed_cases")).any (fun n : ℤ =>
        decide (0 ≤ n) && decide (n ≤ (envelope.alphas.length : ℤ))))
    "Remote report has invalid execution progress"

def validateProgressCases (allocations : List (CaseKey × ExactNum)) :
    List CaseKey → List Json → Except String Unit
  | _, [] => .ok ()
  | seen, item :: rest => do
    require (item.isRecord && isBool (item.get "solver_running"))
      "Remote solver activity is not measured"
    match item.get "limit_seconds" with
    | .num limit =>
      validateCase allocations (item.get "chord") (item.get "speed") (item.get "aoa_deg")
        (item.get "solver_active_seconds") (some limit)
      let key ← solverBudgetCaseKey (item.get "chord") (item.get "speed") (item.get "aoa_deg")
      require (!seen.contains key) "Remote report repeats a live physical case"
      validateProgressCases allocations (key :: seen) rest
    | _ => .error "Remote solver accounting omitted its granted budget"

def validateProgress (runtime : Runtime) (envelope : Envelope)
    (allocations : List (CaseKey × ExactNum)) (progress : Json) : Except String Unit :=
  if progress.isNullish then .ok ()
  else do
    require (progress.isRecord && (progress.get "version").isLit 1 &&
        (progress.get "job_id").isStr envelope.executionId &&
        (progress.get "observed_at").isStrAnd runtime.dateParses && (progress.get "cases").isArray &&
        decide ((progress.get "cases").elements.length ≤ envelope.alphas.length))
      "Remote report has malformed live solver accounting"
    validateProgressCases allocations [] (progress.get "cases").elements

def validCoefficient (v : Json) : Bool := v.isNullish || v.finite

def validatePoint (envelope : Envelope) (allocations : List (CaseKey × ExactNum)) (point : Json) :
    Except String Unit := do
  require point.isRecord "Remote result contains malformed attempt evidence"
  require (isBool (point.get "converged") && isBool (point.get "unsteady"))
    "Remote result must retain actual convergence and unsteadiness state"
  require (validCoefficient (point.get "cl") && validCoefficient (point.get "cd") &&
      validCoefficient (point.get "cm"))
    "Remote result contains a malformed coefficient"
  validateCase allocations (.num envelope.chord) (.num envelope.speed) (point.get "aoa_deg")
    (point.get "solver_active_seconds") none
  validateProvenance envelope point true
  let guard := point.get "solver_budget"
  if guard.isNullish then .ok ()
  else
    match guard.get "limit_seconds" with
    | .num limit => do
      require (guard.isRecord && (guard.get "version").isLit 1 &&
          (guard.get "scope").isStr "physical_case_v1" && isBool (guard.get "exhausted"))
        "Remote result has malformed budget-guard evidence"
      validateCase allocations (.num envelope.chord) (.num envelope.speed) (point.get "aoa_deg")
        (point.get "solver_active_seconds") (some limit)
    | _ => .error "Remote result has malformed budget-guard evidence"

def polarPoints (polar : Json) : List Json :=
  (polar.get "points").elements ++ (polar.get "attempts").elements

def validatePolar (envelope : Envelope) (allocations : List (CaseKey × ExactNum)) (polar : Json) :
    Except String Unit := do
  require (polar.isRecord && isNum (polar.get "chord") envelope.chord &&
      isNum (polar.get "speed") envelope.speed && (polar.get "points").isArray &&
      decide ((polar.get "points").elements.length ≤ envelope.alphas.length) &&
      ((polar.get "attempts").isNullish || ((polar.get "attempts").isArray &&
        decide ((polar.get "attempts").elements.length ≤ 2048))))
    "Remote result changes the assigned polar scope"
  (polarPoints polar).forM (validatePoint envelope allocations)

def validateResult (envelope : Envelope) (allocations : List (CaseKey × ExactNum)) (result : Json) :
    Except String Unit :=
  if result.isNull then .ok ()
  else do
    require (result.isRecord && (result.get "job_id").isStr envelope.executionId &&
        isStrIn states (result.get "state") && (result.get "polars").isArray &&
        decide ((result.get "polars").elements.length ≤ 1))
      "Remote report has invalid result ownership"
    validateProvenance envelope result (!(result.get "polars").elements.isEmpty)
    (result.get "polars").elements.forM (validatePolar envelope allocations)

def validateProgressiveExecutionStopProof (runtime : Runtime) (proof : Json) : Except String Unit :=
  let basis := proof.get "ownership_basis"
  require (proof.isRecord && (proof.get "version").isLit 1 &&
      (proof.get "job_id").isStrAnd (fun s => !s.isEmpty) && (proof.get "execution_stopped").isTrue &&
      (proof.get "producer_stopped").isTrue && (proof.get "namespace_verified").isTrue &&
      (proof.get "remaining").isArray && (proof.get "remaining").elements.isEmpty &&
      (proof.get "error").isNull && isStrIn ["cancel_marker", "terminal_result"] (proof.get "fence") &&
      (basis.isNullish || isStrIn ["recorded_execution_namespace", neverStartedBasis] basis) &&
      (!basis.isStr neverStartedBasis || (proof.get "fence").isStr "cancel_marker") &&
      (proof.get "observed_at").isStrAnd runtime.dateParses)
    "Progressive CFD settlement requires an exact verified execution-stop proof"

def validateStop (runtime : Runtime) (envelope : Envelope) (value : Json) : Except String Unit :=
  let proof := value.get "stopProof"
  if proof.isNull then .ok ()
  else do
    require (proof.isRecord && (proof.get "job_id").isStr envelope.executionId &&
        isStrIn terminalStates ((value.get "status").get "state"))
      "Remote physical-stop proof belongs to a different or nonterminal execution"
    validateProgressiveExecutionStopProof runtime proof
    require (!(proof.get "ownership_basis").isStr neverStartedBasis ||
        (((value.get "status").get "completed_cases").isLit 0 &&
          !((value.get "result").isRecord && !((value.get "result").get "polars").elements.isEmpty)))
      "A never-started remote execution cannot contain calculated evidence"

def analysisContentHash (runtime : Runtime) (value : Json) : Except String String := do
  let text ← value.canonicalAnalysisJson runtime.keyOrder
  .ok (runtime.sha256 text)

/-- `validateProgressiveRemoteReport`: the report as it is stored, with its signature. -/
def validateProgressiveRemoteReport (runtime : Runtime) (envelope : Envelope) (value : Json) :
    Except String (Json × String) := do
  validateIdentity envelope value
  validateStatus envelope value
  validateProvenance envelope (value.get "status") false
  let allocations ← resolveSolverCaseAllocations envelope.resources
    (envelope.alphas.map (fun alpha => (.num envelope.chord, .num envelope.speed, .num alpha)))
  validateProgress runtime envelope allocations ((value.get "status").get "solver_budget_progress")
  validateResult envelope allocations (value.get "result")
  validateStop runtime envelope value
  let _ ← value.canonicalAnalysisJson runtime.keyOrder
  let contentSignature ← analysisContentHash runtime (value.canonical runtime.keyOrder)
  .ok (value.canonical runtime.keyOrder, contentSignature)

/-! ## One report after another -/

def hasStopProof (report : Json) : Bool := !(report.get "stopProof").isNull

def isTerminal (report : Json) : Bool := isStrIn terminalStates ((report.get "status").get "state")

/-- `report.status.solver_budget_progress?.cases.some((item) => item.solver_running)`. -/
def hasRunningSolver (report : Json) : Bool :=
  (((report.get "status").get "solver_budget_progress").get "cases").elements.any
    (fun item => (item.get "solver_running").isTrue)

def isNeverStarted (report : Json) : Bool :=
  ((report.get "stopProof").get "ownership_basis").isStr neverStartedBasis

def isFinalProgressiveRemoteReport (report : Json) : Bool :=
  let status := report.get "status"
  hasStopProof report && isTerminal report &&
    (isNeverStarted report ||
      ((report.get "result").isNull && (status.get "state").isStr "failed" &&
        (status.get "total_cases").isLit 0 && (status.get "completed_cases").isLit 0 &&
        (setupFailure report || hasPermanentContinuationFailure status)) ||
      (!(report.get "result").isNull && isStrIn terminalStates ((report.get "result").get "state")))

/-- `left === right` between primitive values. -/
def strictEq : Json → Json → Bool
  | .undefined, .undefined => true
  | .null, .null => true
  | .bool b, .bool c => b == c
  | .num x, .num y => ExactNum.eq x y
  | .str s, .str t => s == t
  | _, _ => false

def numberLt : Json → Json → Bool
  | .num x, .num y => ExactNum.lt x y
  | _, _ => false

/-- `canonicalAnalysisJson(left) === canonicalAnalysisJson(right)`, where both are JSON. -/
def sameJson (runtime : Runtime) (left right : Json) : Bool :=
  decide ((left.canonical runtime.keyOrder).tokens = (right.canonical runtime.keyOrder).tokens)

/-- `previous?.sequence ?? 0`. -/
def previousSequence : Option Json → ExactNum
  | none => .fin 0
  | some previous =>
    match previous.get "sequence" with
    | .num x => x
    | _ => .nan

def validateProgressiveRemoteReportOrder (runtime : Runtime) (report : Json) (previous : Option Json) :
    Except String Unit := do
  require (isNum (report.get "sequence") ((previousSequence previous).add (.fin 1)))
    "Remote reports must arrive in their durable publication order"
  match previous with
  | none => .ok ()
  | some previous => do
    require (!numberLt ((report.get "status").get "completed_cases")
        ((previous.get "status").get "completed_cases"))
      "Remote report cannot forget previously completed cases"
    require (!hasStopProof previous ||
        (hasStopProof report && isTerminal report && !hasRunningSolver report))
      "An acknowledged stopped remote execution cannot resume"
    require (!isFinalProgressiveRemoteReport previous ||
        (isFinalProgressiveRemoteReport report &&
          sameJson runtime (report.get "result") (previous.get "result") &&
          strictEq ((report.get "status").get "state") ((previous.get "status").get "state") &&
          strictEq ((report.get "status").get "total_cases")
            ((previous.get "status").get "total_cases") &&
          strictEq ((report.get "status").get "completed_cases")
            ((previous.get "status").get "completed_cases")))
      "Final remote execution evidence cannot change after its stop fence"

end XFoilFoam.Remote
