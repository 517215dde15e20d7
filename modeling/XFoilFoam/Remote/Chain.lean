import XFoilFoam.Remote.Report
import Mathlib.Data.List.Chain

/-! Chains of accepted reports.  Each report is compared with the one before it alone; `Follows` is what
that comparison gives, and it is transitive, so it holds between any two reports of a chain. -/
namespace XFoilFoam.Remote
open ExactNum
set_option autoImplicit false

/-! ## What validation gives -/

/-- A report that `validateProgressiveRemoteReport` returned. -/
def Validated (runtime : Runtime) (envelope : Envelope) (report : Json) : Prop :=
  ∃ value signature, validateProgressiveRemoteReport runtime envelope value = .ok (report, signature)

/-- `report.status.completed_cases`, which is a safe integer in every validated report. -/
def completedCases (report : Json) : ℤ :=
  (safeInteger? ((report.get "status").get "completed_cases")).getD 0

@[simp] theorem safeInteger_canonical (order : KeyOrder) (v : Json) :
    safeInteger? (v.canonical order) = safeInteger? v := by
  cases v <;> simp [JsValue.canonical, safeInteger?]

@[simp] theorem isLit_canonical (order : KeyOrder) (v : Json) (q : ℚ) :
    (v.canonical order).isLit q = v.isLit q := by
  cases v <;> simp [JsValue.canonical, JsValue.isLit]

theorem safeInteger_eq_some {v : Json} {n : ℤ} (h : safeInteger? v = some n) : v = .num (.fin n) := by
  cases v with
  | num x =>
    cases x with
    | fin q =>
      simp only [safeInteger?, ExactNum.safeInteger, Option.ite_none_right_eq_some,
        Option.some.injEq] at h
      obtain ⟨⟨hden, -, -⟩, rfl⟩ := h
      rw [(Rat.den_eq_one_iff q).mp hden]
    | _ => simp [safeInteger?, ExactNum.safeInteger] at h
  | _ => simp [safeInteger?] at h

theorem isLit_eq_true {v : Json} {q : ℚ} (h : v.isLit q = true) : v = .num (.fin q) := by
  cases v with
  | num x =>
    cases x with
    | fin p => simpa [JsValue.isLit, Binary64.eq, Binary64.lit, ExactNum.eq] using h
    | _ => simp [JsValue.isLit, Binary64.eq, Binary64.lit, ExactNum.eq] at h
  | _ => simp [JsValue.isLit] at h

theorem validate_eq_ok {runtime : Runtime} {envelope : Envelope} {value report : Json}
    {signature : String}
    (h : validateProgressiveRemoteReport runtime envelope value = .ok (report, signature)) :
    validateIdentity envelope value = .ok () ∧ validateStatus envelope value = .ok () ∧
      validateStop runtime envelope value = .ok () ∧ report = value.canonical runtime.keyOrder := by
  unfold validateProgressiveRemoteReport at h
  obtain ⟨⟨⟩, hidentity, h⟩ := bind_eq_ok.mp h
  obtain ⟨⟨⟩, hstatus, h⟩ := bind_eq_ok.mp h
  obtain ⟨⟨⟩, -, h⟩ := bind_eq_ok.mp h
  obtain ⟨allocations, -, h⟩ := bind_eq_ok.mp h
  obtain ⟨⟨⟩, -, h⟩ := bind_eq_ok.mp h
  obtain ⟨⟨⟩, -, h⟩ := bind_eq_ok.mp h
  obtain ⟨⟨⟩, hstop, h⟩ := bind_eq_ok.mp h
  obtain ⟨text, -, h⟩ := bind_eq_ok.mp h
  obtain ⟨contentSignature, -, h⟩ := bind_eq_ok.mp h
  cases h
  exact ⟨hidentity, hstatus, hstop, rfl⟩

theorem validated_of_isOk {runtime : Runtime} {envelope : Envelope} {value : Json}
    (h : (validateProgressiveRemoteReport runtime envelope value).isOk = true) :
    Validated runtime envelope (value.canonical runtime.keyOrder) := by
  cases hv : validateProgressiveRemoteReport runtime envelope value with
  | error message =>
    rw [hv] at h
    cases h
  | ok pair =>
    obtain ⟨report, signature⟩ := pair
    obtain ⟨-, -, -, rfl⟩ := validate_eq_ok hv
    exact ⟨value, signature, hv⟩

theorem order_of_isOk {runtime : Runtime} {report : Json} {previous : Option Json}
    (h : (validateProgressiveRemoteReportOrder runtime report previous).isOk = true) :
    validateProgressiveRemoteReportOrder runtime report previous = .ok () := by
  cases hv : validateProgressiveRemoteReportOrder runtime report previous with
  | error message =>
    rw [hv] at h
    cases h
  | ok u => rfl

theorem Validated.completed {runtime : Runtime} {envelope : Envelope} {report : Json}
    (h : Validated runtime envelope report) :
    0 ≤ completedCases report ∧
      (report.get "status").get "completed_cases" = .num (.fin (completedCases report)) := by
  obtain ⟨value, signature, h⟩ := h
  obtain ⟨-, hstatus, -, rfl⟩ := validate_eq_ok h
  simp only [validateStatus, require_eq_ok, Bool.and_eq_true] at hstatus
  obtain ⟨-, hcompleted⟩ := hstatus
  cases hn : safeInteger? ((value.get "status").get "completed_cases") with
  | none => simp [hn] at hcompleted
  | some n =>
    simp only [hn, Option.any_some, Bool.and_eq_true, decide_eq_true_eq] at hcompleted
    simp only [completedCases, JsValue.get_canonical, safeInteger_canonical, hn, Option.getD_some]
    refine ⟨hcompleted.1, ?_⟩
    rw [safeInteger_eq_some hn]
    simp [JsValue.canonical]

theorem Validated.neverStarted {runtime : Runtime} {envelope : Envelope} {report : Json}
    (h : Validated runtime envelope report) (hnever : isNeverStarted report = true) :
    completedCases report = 0 := by
  obtain ⟨value, signature, h⟩ := h
  obtain ⟨-, -, hstop, rfl⟩ := validate_eq_ok h
  simp only [isNeverStarted, JsValue.get_canonical, JsValue.isStr_canonical] at hnever
  have hproof : (value.get "stopProof").isNull = false := by
    generalize value.get "stopProof" = proof at hnever
    cases proof with
    | null => simp [JsValue.get, JsValue.isStr] at hnever
    | _ => rfl
  simp only [validateStop, hproof, Bool.false_eq_true, if_false] at hstop
  obtain ⟨⟨⟩, -, hstop⟩ := bind_eq_ok.mp hstop
  obtain ⟨⟨⟩, -, hstop⟩ := bind_eq_ok.mp hstop
  simp only [require_eq_ok, hnever, Bool.not_true, Bool.false_or, Bool.and_eq_true] at hstop
  have hzero := isLit_eq_true hstop.1
  simp only [completedCases, JsValue.get_canonical, safeInteger_canonical, hzero]
  rfl

/-! ## What the order check gives -/

structure Follows (runtime : Runtime) (earlier later : Json) : Prop where
  completed_le : completedCases earlier ≤ completedCases later
  stopped : hasStopProof earlier = true →
    hasStopProof later = true ∧ isTerminal later = true ∧ hasRunningSolver later = false
  final : isFinalProgressiveRemoteReport earlier = true →
    isFinalProgressiveRemoteReport later = true ∧
      sameJson runtime (later.get "result") (earlier.get "result") = true ∧
      strictEq ((later.get "status").get "state") ((earlier.get "status").get "state") = true ∧
      strictEq ((later.get "status").get "total_cases")
        ((earlier.get "status").get "total_cases") = true ∧
      strictEq ((later.get "status").get "completed_cases")
        ((earlier.get "status").get "completed_cases") = true

theorem eq_trans {x y z : ExactNum} (hxy : ExactNum.eq x y = true) (hyz : ExactNum.eq y z = true) :
    ExactNum.eq x z = true := by
  cases x <;> cases y <;> simp_all [ExactNum.eq]

theorem strictEq_trans {u v w : Json} (huv : strictEq u v = true) (hvw : strictEq v w = true) :
    strictEq u w = true := by
  cases u <;> cases v <;> simp only [strictEq, Bool.false_eq_true] at huv <;>
    cases w <;> simp only [strictEq, Bool.false_eq_true] at hvw ⊢
  case bool.bool.bool => simp_all
  case num.num.num => exact eq_trans huv hvw
  case str.str.str => simp_all

theorem Follows.trans {runtime : Runtime} {first second third : Json}
    (h : Follows runtime first second) (h' : Follows runtime second third) :
    Follows runtime first third := by
  refine ⟨h.completed_le.trans h'.completed_le, fun hstop => h'.stopped (h.stopped hstop).1, ?_⟩
  intro hfinal
  obtain ⟨hsecond, hresult, hstate, htotal, hcompleted⟩ := h.final hfinal
  obtain ⟨hthird, hresult', hstate', htotal', hcompleted'⟩ := h'.final hsecond
  refine ⟨hthird, ?_, strictEq_trans hstate' hstate, strictEq_trans htotal' htotal,
    strictEq_trans hcompleted' hcompleted⟩
  simp only [sameJson, decide_eq_true_eq] at hresult hresult' ⊢
  exact hresult'.trans hresult

theorem order_some {runtime : Runtime} {envelope : Envelope} {report previous : Json}
    (hreport : Validated runtime envelope report) (hprevious : Validated runtime envelope previous)
    (h : validateProgressiveRemoteReportOrder runtime report (some previous) = .ok ()) :
    isNum (report.get "sequence") ((previousSequence (some previous)).add (.fin 1)) = true ∧
      Follows runtime previous report := by
  unfold validateProgressiveRemoteReportOrder at h
  obtain ⟨⟨⟩, hsequence, h⟩ := bind_eq_ok.mp h
  obtain ⟨⟨⟩, hforget, h⟩ := bind_eq_ok.mp h
  obtain ⟨⟨⟩, hresume, hchange⟩ := bind_eq_ok.mp h
  simp only [require_eq_ok] at hsequence hforget hresume hchange
  refine ⟨hsequence, ?_, ?_, ?_⟩
  · rw [hreport.completed.2, hprevious.completed.2] at hforget
    simpa [numberLt, ExactNum.lt] using hforget
  · intro hstop
    simpa [hstop, and_assoc] using hresume
  · intro hfinal
    simpa [hfinal, and_assoc] using hchange

/-! ## Chains -/

/-- Reports accepted one after another, the first of them after `previous`. -/
def AcceptedAfter (runtime : Runtime) (envelope : Envelope) : Option Json → List Json → Prop
  | _, [] => True
  | previous, report :: rest =>
    Validated runtime envelope report ∧
      validateProgressiveRemoteReportOrder runtime report previous = .ok () ∧
      AcceptedAfter runtime envelope (some report) rest

theorem acceptedAfter_follows {runtime : Runtime} {envelope : Envelope} {report : Json}
    {chain : List Json} (hreport : Validated runtime envelope report)
    (h : AcceptedAfter runtime envelope (some report) chain) :
    (∀ later ∈ chain, Validated runtime envelope later ∧ Follows runtime report later) ∧
      chain.Pairwise (Follows runtime) := by
  induction chain generalizing report with
  | nil => simp
  | cons next chain ih =>
    obtain ⟨hnext, horder, hrest⟩ := h
    have hfollows := (order_some hnext hreport horder).2
    obtain ⟨hlater, hpairwise⟩ := ih hnext hrest
    refine ⟨?_, ?_⟩
    · intro later hmem
      rcases List.mem_cons.mp hmem with rfl | hmem
      · exact ⟨hnext, hfollows⟩
      · exact ⟨(hlater later hmem).1, hfollows.trans (hlater later hmem).2⟩
    · exact List.pairwise_cons.mpr ⟨fun later hmem => (hlater later hmem).2, hpairwise⟩

theorem accepted_follows {runtime : Runtime} {envelope : Envelope} {chain : List Json}
    (h : AcceptedAfter runtime envelope none chain) :
    (∀ report ∈ chain, Validated runtime envelope report) ∧ chain.Pairwise (Follows runtime) := by
  cases chain with
  | nil => simp
  | cons first chain =>
    obtain ⟨hfirst, -, hrest⟩ := h
    obtain ⟨hlater, hpairwise⟩ := acceptedAfter_follows hfirst hrest
    refine ⟨?_, List.pairwise_cons.mpr ⟨fun later hmem => (hlater later hmem).2, hpairwise⟩⟩
    intro report hmem
    rcases List.mem_cons.mp hmem with rfl | hmem
    · exact hfirst
    · exact (hlater report hmem).1

/-! ## Never-started proofs -/

def hasCalculatedPoints (report : Json) : Bool :=
  ((report.get "result").get "polars").elements.any (fun polar => !(polarPoints polar).isEmpty)

def hasMeasuredSeconds (report : Json) : Bool :=
  (((report.get "status").get "solver_budget_progress").get "cases").elements.any
    (fun item => (item.get "solver_active_seconds").finiteAnd (fun x => ExactNum.lt (.fin 0) x))

def hasSolverEvidence (report : Json) : Bool := hasCalculatedPoints report || hasMeasuredSeconds report

/-- A report that may stand right behind another on the way to a never-started one: it repeats that
there is solver evidence, and it does not say that nothing was started. -/
def KeepsEvidence (previous report : Json) : Prop :=
  hasSolverEvidence previous = true →
    hasSolverEvidence report = true ∧ isNeverStarted report = false

theorem keepsEvidence_chain {report : Json} {chain : List Json}
    (h : (report :: chain).IsChain KeepsEvidence) (hevidence : hasSolverEvidence report = true) :
    ∀ later ∈ chain, isNeverStarted later = false := by
  induction chain generalizing report with
  | nil => simp
  | cons next chain ih =>
    obtain ⟨hkeep, hrest⟩ := List.isChain_cons_cons.mp h
    obtain ⟨hnext, hstarted⟩ := hkeep hevidence
    intro later hmem
    rcases List.mem_cons.mp hmem with rfl | hmem
    · exact hstarted
    · exact ih hrest hnext later hmem

theorem isChain_of_none {l : List Json} (h : ∀ report ∈ l, hasSolverEvidence report = false)
    (last : Json) : (l ++ [last]).IsChain KeepsEvidence := by
  induction l with
  | nil => simp
  | cons report l ih =>
    have hreport : ∀ next, KeepsEvidence report next := by
      intro next hevidence
      rw [h report List.mem_cons_self] at hevidence
      cases hevidence
    have hrest := ih (fun r hr => h r (List.mem_cons_of_mem report hr))
    rw [List.cons_append, List.isChain_cons]
    exact ⟨fun next _ => hreport next, hrest⟩

def exampleRuntime : Runtime where
  keyOrder := ⟨fun left right => decide
      (left.toList.map (fun c => (asciiLower c).toNat) ≤ right.toList.map (fun c => (asciiLower c).toNat)),
    fun _ => decide_eq_true (le_refl _)⟩
  dateParses date := date == "2026-07-01T00:00:00Z"
  sha256 text :=
    if text.contains (.str "cancelled") then
      "b41fcbed26f726922a7bdc73af973b44ba25d1546213690e83dcb0e0b3cf0fd7"
    else if text.contains (.num (.fin 12)) then
      "7d7f286e812aa7c1135b791852629c7130b68d96611f14bef76966949d42f2bd"
    else "22ddd42fd35f72deafcd9da1b2ac6b4696cb455134fc8a5b3dab2d6569a449a6"

def exampleExecution : String := "c2a1b0d9-7e6f-4d5c-8b3a-291817161514"

def exampleEnvelope : Envelope where
  solverId := "5d0a6a52-0f5a-4a0e-9a53-0d1f2c3b4a59"
  promiseId := "0b9f8f0e-3c1d-4a7b-8e2f-6a5b4c3d2e1f"
  executionId := exampleExecution
  contentSignature := "9f86d081884c7d659a2feaa0c55ad015a3bf4f1b2b0b822cd15d6c15b0f00a08"
  alphas := [.fin 4]
  resources := .obj [("case_solver_budget_seconds", .num (.fin 900))]
  chord := .fin 1
  speed := .fin 30
  expectedEngine := ⟨"openfoam", "opencfd", "2606", "2", 1⟩
  expectedExecutionPool := none

def exampleReport (sequence : ℕ) (status stopProof : Json) : Json :=
  .obj [("version", .num (.fin 1)), ("solverId", .str exampleEnvelope.solverId),
    ("promiseId", .str exampleEnvelope.promiseId), ("executionId", .str exampleExecution),
    ("assignmentSignature", .str exampleEnvelope.contentSignature),
    ("sequence", .num (.fin sequence)), ("status", status), ("result", .null),
    ("stopProof", stopProof)]

def runningStatus (seconds : ℕ) : Json :=
  .obj [("job_id", .str exampleExecution), ("state", .str "running"), ("total_cases", .num (.fin 1)),
    ("completed_cases", .num (.fin 0)),
    ("solver_budget_progress", .obj [("version", .num (.fin 1)), ("job_id", .str exampleExecution),
      ("observed_at", .str "2026-07-01T00:00:00Z"),
      ("cases", .arr [.obj [("chord", .num (.fin 1)), ("speed", .num (.fin 30)),
        ("aoa_deg", .num (.fin 4)), ("limit_seconds", .num (.fin 900)),
        ("solver_active_seconds", .num (.fin seconds)), ("solver_running", .bool true)]])])]

def cancelledStatus : Json :=
  .obj [("job_id", .str exampleExecution), ("state", .str "cancelled"),
    ("total_cases", .num (.fin 0)), ("completed_cases", .num (.fin 0))]

def neverStartedProof : Json :=
  .obj [("version", .num (.fin 1)), ("job_id", .str exampleExecution),
    ("execution_stopped", .bool true), ("producer_stopped", .bool true),
    ("namespace_verified", .bool true), ("remaining", .arr []), ("error", .null),
    ("fence", .str "cancel_marker"), ("ownership_basis", .str neverStartedBasis),
    ("observed_at", .str "2026-07-01T00:00:00Z")]

def exampleChain (seconds : ℕ) : List Json :=
  [(exampleReport 1 (runningStatus seconds) .null).canonical exampleRuntime.keyOrder,
    (exampleReport 2 cancelledStatus neverStartedProof).canonical exampleRuntime.keyOrder]

def exampleChecks (seconds : ℕ) : Bool :=
  let first := exampleReport 1 (runningStatus seconds) .null
  let second := exampleReport 2 cancelledStatus neverStartedProof
  (validateProgressiveRemoteReport exampleRuntime exampleEnvelope first).isOk &&
    (validateProgressiveRemoteReportOrder exampleRuntime
      (first.canonical exampleRuntime.keyOrder) none).isOk &&
    (validateProgressiveRemoteReport exampleRuntime exampleEnvelope second).isOk &&
    (validateProgressiveRemoteReportOrder exampleRuntime (second.canonical exampleRuntime.keyOrder)
      (some (first.canonical exampleRuntime.keyOrder))).isOk

theorem exampleChain_accepted (seconds : ℕ) (h : exampleChecks seconds = true) :
    AcceptedAfter exampleRuntime exampleEnvelope none (exampleChain seconds) := by
  simp only [exampleChecks, Bool.and_eq_true] at h
  obtain ⟨⟨⟨hfirst, horder⟩, hsecond⟩, horder'⟩ := h
  exact ⟨validated_of_isOk hfirst, order_of_isOk horder, validated_of_isOk hsecond,
    order_of_isOk horder', trivial⟩

end XFoilFoam.Remote
