import XFoilFoam.Remote.Chain
import XFoilFoam.Identity.AnalysisTarget

/-! A report is stored with its keys sorted, and it is validated again wherever it is read or received.  Every
check reads values by their keys, so a report that was accepted once is accepted again, unchanged and with the
same signature. -/
namespace XFoilFoam.JsValue
set_option autoImplicit false

variable {F : Type}

theorem sortFields_sorted {α : Type} (order : TotalKeyOrder) (fields : List (String × α)) :
    (sortFields order.toKeyOrder fields).Pairwise fun x y => order.le x.1 y.1 = true := by
  have : Std.Total fun x y : String × α => order.le x.1 y.1 = true := ⟨fun x y => order.total x.1 y.1⟩
  have : IsTrans (String × α) fun x y => order.le x.1 y.1 = true := ⟨fun x y z => order.trans x.1 y.1 z.1⟩
  exact List.pairwise_insertionSort _ fields

theorem sortFields_sortFields {α : Type} (order : TotalKeyOrder) (fields : List (String × α)) :
    sortFields order.toKeyOrder (sortFields order.toKeyOrder fields) = sortFields order.toKeyOrder fields :=
  (sortFields_sorted order fields).insertionSort_eq

theorem canonical_canonical (order : TotalKeyOrder) (v : JsValue F) :
    canonical order.toKeyOrder (canonical order.toKeyOrder v) = canonical order.toKeyOrder v := by
  induction v using inductValue with
  | undefined => simp [canonical]
  | null => simp [canonical]
  | bool b => simp [canonical]
  | num x => simp [canonical]
  | str s => simp [canonical]
  | arr xs ih =>
    rw [canonical, canonicalList_map, canonical, canonicalList_map, List.map_map]
    congr 1
    exact List.map_congr_left ih
  | obj fields ih =>
    rw [canonical_obj, canonical_obj, sortFields_map, sortFields_sortFields, List.map_map]
    congr 1
    refine List.map_congr_left fun f hf => ?_
    rw [Function.comp_apply, ih f ((mem_sortFields _ fields f).mp hf)]

variable (order : KeyOrder)

theorem keys_canonical_length (v : JsValue F) : (canonical order v).keys.length = v.keys.length := by
  cases v with
  | obj fields => simp [canonical_obj, keys, length_sortFields]
  | _ => simp [canonical, keys]

theorem mem_keys_canonical (v : JsValue F) (key : String) : key ∈ (canonical order v).keys ↔ key ∈ v.keys := by
  cases v with
  | obj fields => simp [canonical_obj, keys, mem_sortFields]
  | _ => simp [canonical, keys]

theorem hasOwn_canonical (v : JsValue F) : (canonical order v).hasOwn = v.hasOwn := by
  funext key
  rw [Bool.eq_iff_iff]
  simp [hasOwn, mem_keys_canonical]

end XFoilFoam.JsValue

namespace XFoilFoam.Remote
open ExactNum
set_option autoImplicit false

/-! ## Single values -/

section Values
variable (order : KeyOrder) (v : Json)

@[simp] theorem isUndefined_canonical : (v.canonical order).isUndefined = v.isUndefined := by
  cases v <;> simp [JsValue.canonical, JsValue.isUndefined]

@[simp] theorem isNullish_canonical : (v.canonical order).isNullish = v.isNullish := by
  simp [JsValue.isNullish]

@[simp] theorem isArray_canonical : (v.canonical order).isArray = v.isArray := by
  cases v <;> simp [JsValue.canonical, JsValue.isArray]

@[simp] theorem isTrue_canonical : (v.canonical order).isTrue = v.isTrue := by
  cases v <;> simp [JsValue.canonical, JsValue.isTrue]

@[simp] theorem isStrAnd_canonical (p : String → Bool) : (v.canonical order).isStrAnd p = v.isStrAnd p := by
  cases v <;> simp [JsValue.canonical, JsValue.isStrAnd]

@[simp] theorem typeOf_canonical : (v.canonical order).typeOf = v.typeOf := by
  cases v <;> simp [JsValue.canonical, JsValue.typeOf]

@[simp] theorem finite?_canonical : (v.canonical order).finite? = v.finite? := by
  cases v <;> simp [JsValue.canonical, JsValue.finite?]

@[simp] theorem finite_canonical : (v.canonical order).finite = v.finite := by
  simp [JsValue.finite]

@[simp] theorem finiteAnd_canonical (p : ExactNum → Bool) : (v.canonical order).finiteAnd p = v.finiteAnd p := by
  simp [JsValue.finiteAnd]

@[simp] theorem isNum_canonical (x : ExactNum) : isNum (v.canonical order) x = isNum v x := by
  cases v <;> simp [JsValue.canonical, isNum]

@[simp] theorem isBool_canonical : isBool (v.canonical order) = isBool v := by
  cases v <;> simp [JsValue.canonical, isBool]

@[simp] theorem isStrIn_canonical (names : List String) : isStrIn names (v.canonical order) = isStrIn names v := by
  cases v <;> simp [JsValue.canonical, isStrIn]

@[simp] theorem nonemptyText?_canonical : nonemptyText? (v.canonical order) = nonemptyText? v := by
  cases v <;> simp [JsValue.canonical, nonemptyText?]

@[simp] theorem printsAs_canonical (names : List String) : printsAs names (v.canonical order) = printsAs names v := by
  induction v using JsValue.inductValue with
  | arr xs ih =>
    rw [JsValue.canonical, JsValue.canonicalList_map]
    match xs, ih with
    | [], _ => rfl
    | [x], ih => exact ih x (List.mem_singleton_self x)
    | _ :: _ :: _, _ => rfl
  | _ => simp [JsValue.canonical, printsAs]

@[simp] theorem numberIsZero_canonical : numberIsZero (v.canonical order) = numberIsZero v := by
  induction v using JsValue.inductValue with
  | arr xs ih =>
    rw [JsValue.canonical, JsValue.canonicalList_map]
    match xs, ih with
    | [], _ => rfl
    | [x], ih =>
      have hx := ih x (List.mem_singleton_self x)
      cases x <;> simp_all [JsValue.canonical, numberIsZero]
    | _ :: _ :: _, _ => simp [numberIsZero]
  | _ => simp [JsValue.canonical, numberIsZero]

end Values

/-! ## Checks -/

section Checks
variable (order : KeyOrder) (runtime : Runtime) (envelope : Envelope) (allocations : List (CaseKey × ExactNum))
  (v chord speed aoa seconds : Json)

@[simp] theorem engineIdentity?_canonical : engineIdentity? (v.canonical order) = engineIdentity? v := by
  simp [engineIdentity?]

@[simp] theorem hasEngineRuntimeContentFingerprint_canonical :
    hasEngineRuntimeContentFingerprint (v.canonical order) = hasEngineRuntimeContentFingerprint v := by
  simp [hasEngineRuntimeContentFingerprint]

@[simp] theorem matchesEngine_canonical (expected : EngineIdentity) :
    matchesEngine (v.canonical order) expected = matchesEngine v expected := by
  simp [matchesEngine]

@[simp] theorem isEngineRuntimeIdentity_canonical :
    isEngineRuntimeIdentity (v.canonical order) = isEngineRuntimeIdentity v := by
  simp [isEngineRuntimeIdentity]

@[simp] theorem matchesPool_canonical (expected : Option String) :
    matchesPool (v.canonical order) expected = matchesPool v expected := by
  cases expected <;> simp [matchesPool]

@[simp] theorem validateProvenance_canonical (required : Bool) :
    validateProvenance envelope (v.canonical order) required = validateProvenance envelope v required := by
  simp [validateProvenance]

theorem solverBudgetCaseKey_congr {chord' speed' aoa' : Json} (hchord : chord'.finite? = chord.finite?)
    (hspeed : speed'.finite? = speed.finite?) (haoa : aoa'.finite? = aoa.finite?) :
    solverBudgetCaseKey chord' speed' aoa' = solverBudgetCaseKey chord speed aoa := by
  rw [solverBudgetCaseKey, hchord, hspeed, haoa]
  rfl

@[simp] theorem solverBudgetCaseKey_canonical :
    solverBudgetCaseKey (chord.canonical order) (speed.canonical order) (aoa.canonical order) =
      solverBudgetCaseKey chord speed aoa :=
  solverBudgetCaseKey_congr _ _ _ (finite?_canonical _ _) (finite?_canonical _ _) (finite?_canonical _ _)

@[simp] theorem validateCase_canonical (limit : Option ExactNum) :
    validateCase allocations (chord.canonical order) (speed.canonical order) (aoa.canonical order)
        (seconds.canonical order) limit = validateCase allocations chord speed aoa seconds limit := by
  simp [validateCase]

@[simp] theorem validateCase_assigned (c s : ExactNum) (limit : Option ExactNum) :
    validateCase allocations (.num c) (.num s) (aoa.canonical order) (seconds.canonical order) limit =
      validateCase allocations (.num c) (.num s) aoa seconds limit := by
  have hkey := solverBudgetCaseKey_congr (.num c) (.num s) aoa rfl rfl (finite?_canonical order aoa)
  simp [validateCase, hkey]

@[simp] theorem hasPermanentContinuationFailure_canonical :
    hasPermanentContinuationFailure (v.canonical order) = hasPermanentContinuationFailure v := by
  simp [hasPermanentContinuationFailure]

@[simp] theorem hasNoSolverProgress_canonical :
    hasNoSolverProgress (v.canonical order) = hasNoSolverProgress v := by
  simp only [hasNoSolverProgress, isNullish_canonical, JsValue.isRecord_canonical, JsValue.get_canonical,
    isArray_canonical, JsValue.elements_canonical, List.all_map]
  congr 2
  refine congrArg _ (funext fun item => ?_)
  simp only [Function.comp_apply, JsValue.isRecord_canonical, JsValue.get_canonical, numberIsZero_canonical]
  cases item.get "solver_running" <;> simp [JsValue.canonical]

@[simp] theorem beforeCases_canonical (state : String) (cause : Bool) :
    beforeCases (v.canonical order) state cause = beforeCases v state cause := by
  simp [beforeCases]

@[simp] theorem setupFailure_canonical : setupFailure (v.canonical order) = setupFailure v := by
  simp [setupFailure]

theorem validateIdentity_canonical : validateIdentity envelope (v.canonical order) = validateIdentity envelope v := by
  simp [validateIdentity, JsValue.keys_canonical_length, JsValue.hasOwn_canonical]

theorem validateStatus_canonical : validateStatus envelope (v.canonical order) = validateStatus envelope v := by
  simp [validateStatus, failedBeforeCases, cancelledBeforeCases, permanentContinuationBeforeCases]

theorem validateProgressCases_canonical (seen : List CaseKey) (items : List Json) :
    validateProgressCases allocations seen (items.map (JsValue.canonical order)) =
      validateProgressCases allocations seen items := by
  induction items generalizing seen with
  | nil => rfl
  | cons item items ih =>
    rw [List.map_cons, validateProgressCases, validateProgressCases]
    simp only [JsValue.get_canonical, JsValue.isRecord_canonical, isBool_canonical, validateCase_canonical,
      solverBudgetCaseKey_canonical]
    cases item.get "limit_seconds" with
    | num limit => simp only [JsValue.canonical, ih]
    | _ => rfl

theorem validateProgress_canonical :
    validateProgress runtime envelope allocations (v.canonical order) =
      validateProgress runtime envelope allocations v := by
  simp [validateProgress, validateProgressCases_canonical]

theorem forM_canonical {f : Json → Except String Unit} (h : ∀ x, f (x.canonical order) = f x) (xs : List Json) :
    (xs.map (JsValue.canonical order)).forM f = xs.forM f := by
  induction xs with
  | nil => rfl
  | cons x xs ih =>
    rw [List.map_cons]
    simp only [List.forM, h, ih]

@[simp] theorem validatePoint_canonical :
    validatePoint envelope allocations (v.canonical order) = validatePoint envelope allocations v := by
  simp only [validatePoint, JsValue.get_canonical, JsValue.isRecord_canonical, isBool_canonical, validCoefficient,
    isNullish_canonical, finite_canonical, validateCase_assigned, validateProvenance_canonical]
  cases (v.get "solver_budget").get "limit_seconds" with
  | num limit => simp only [JsValue.canonical, isLit_canonical, JsValue.isStr_canonical]
  | _ => rfl

@[simp] theorem validatePolar_canonical :
    validatePolar envelope allocations (v.canonical order) = validatePolar envelope allocations v := by
  have hpoints : polarPoints (v.canonical order) = (polarPoints v).map (JsValue.canonical order) := by
    simp [polarPoints]
  have hforM := forM_canonical order (validatePoint_canonical order envelope allocations) (polarPoints v)
  simp only [validatePolar, hpoints, hforM]
  simp

theorem validateResult_canonical :
    validateResult envelope allocations (v.canonical order) = validateResult envelope allocations v := by
  have hforM := forM_canonical order (validatePolar_canonical order envelope allocations) (v.get "polars").elements
  simp only [validateResult, JsValue.get_canonical, JsValue.elements_canonical, hforM]
  simp

theorem validateStop_canonical : validateStop runtime envelope (v.canonical order) = validateStop runtime envelope v := by
  simp [validateStop, validateProgressiveExecutionStopProof]

end Checks

/-! ## The whole report -/

/-- The locale of the runtime compares keys as a total preorder. -/
def Runtime.Collates (runtime : Runtime) : Prop :=
  ∃ order : JsValue.TotalKeyOrder, order.toKeyOrder = runtime.keyOrder

variable {runtime : Runtime} {envelope : Envelope} {value report : Json} {signature : String}

theorem Runtime.Collates.canonical_canonical (h : runtime.Collates) (v : Json) :
    (v.canonical runtime.keyOrder).canonical runtime.keyOrder = v.canonical runtime.keyOrder := by
  obtain ⟨order, hOrder⟩ := h
  rw [← hOrder]
  exact JsValue.canonical_canonical order v

theorem revalidated (hcollates : runtime.Collates)
    (h : validateProgressiveRemoteReport runtime envelope value = .ok (report, signature)) :
    validateProgressiveRemoteReport runtime envelope report = .ok (report, signature) := by
  obtain ⟨-, -, -, rfl⟩ := validate_eq_ok h
  rw [← h]
  simp only [validateProgressiveRemoteReport, validateIdentity_canonical, validateStatus_canonical,
    validateStop_canonical, JsValue.get_canonical, validateProvenance_canonical, validateProgress_canonical,
    validateResult_canonical, analysisContentHash, JsValue.canonicalAnalysisJson, JsValue.isJson_canonical,
    hcollates.canonical_canonical]

end XFoilFoam.Remote
