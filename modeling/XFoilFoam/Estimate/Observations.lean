import XFoilFoam.Foundations.DoubleOrder
import XFoilFoam.Foundations.KeyOrder
import Mathlib.Data.List.Lex
import Mathlib.Data.Char

/-! The observations of the progressive estimate: the records of `postprocess/progressive_polar.py`, `_matrix`
and `_validate`, which orders the observations and refuses evidence that would be counted twice. -/
namespace XFoilFoam.Estimate
open Binary64
set_option autoImplicit false

/-! ## Records -/

structure PolarObservation where
  observationId : String
  resultId : String
  attemptId : String
  lineageId : String
  targetSignature : String
  branch : String
  method : String
  alpha : Double
  coefficients : Option (List Double)
  standardError : Option (List Double)
  eligible : Bool
  numericalConvergence : String
  statisticalCertification : String
  exclusionReason : Option String := none
  window : Option (Double × Double) := none
  acceptedCfd : Option Bool := none
  physicalIdentity : Option String := none
  numericalIdentity : Option String := none
  deriving DecidableEq

structure PolarPrior where
  targetSignature : String
  predictionId : String
  branch : String
  alpha : List Double
  coefficients : List (List Double)
  standardDeviation : List (List Double)
  provenance : List (String × JsValue Double)

structure PolarModelPolicy where
  policyId : String
  fastDiscrepancyStd : List Double
  preciseDiscrepancyStd : List Double
  slopeStd : List Double
  localStd : List Double
  fastNoiseFloor : List Double
  preciseNoiseFloor : List Double
  correlationLengthDeg : Double
  lineageCorrelation : Double
  calibrationStatus : String
  validationId : Option String
  uncertifiedFastBiasStd : Option (List Double)
  lineageConflictProbability : Option Double

/-! ## Checks -/

def firstProblem (checks : List (Bool × String)) : Option String :=
  (checks.find? fun check => check.1).map Prod.snd

theorem firstProblem_mem {checks : List (Bool × String)} {text : String} (h : firstProblem checks = some text) :
    text ∈ checks.map Prod.snd := by
  obtain ⟨check, hcheck, rfl⟩ := Option.map_eq_some_iff.mp h
  exact List.mem_map_of_mem (List.mem_of_find?_eq_some hcheck)

theorem firstProblem_eq_none {checks : List (Bool × String)} (h : firstProblem checks = none) {check : Bool × String}
    (hcheck : check ∈ checks) : check.1 = false := by
  rw [firstProblem, Option.map_eq_none_iff, List.find?_eq_none] at h
  exact Bool.eq_false_iff.mpr (h check hcheck)

def truthy (text : Option String) : Bool := text.any fun s => s != ""

/-- The shape and finiteness that `_matrix` asks of a vector. -/
def vectorInvalid (values : List Double) (n : ℕ) : Bool := values.length != n || values.any fun x => !isFinite x

/-- `_matrix(values, (n,), name)`. -/
def vectorChecks (values : List Double) (n : ℕ) (name : String) : List (Bool × String) :=
  [(vectorInvalid values n, "Invalid " ++ name)]

/-- `_matrix(values, (n,), name, True)`. -/
def positiveVectorChecks (values : List Double) (n : ℕ) (name : String) : List (Bool × String) :=
  vectorChecks values n name ++ [(values.any fun x => le x (lit 0), name ++ " must be positive")]

/-- `_matrix(rows, (n, 3), name)`. -/
def matrixChecks (rows : List (List Double)) (n : ℕ) (name : String) : List (Bool × String) :=
  [(rows.length != n || rows.any fun row => vectorInvalid row 3, "Invalid " ++ name)]

/-- `_matrix(rows, (n, 3), name, True)`. -/
def positiveMatrixChecks (rows : List (List Double)) (n : ℕ) (name : String) : List (Bool × String) :=
  matrixChecks rows n name ++ [(rows.any fun row => row.any fun x => le x (lit 0), name ++ " must be positive")]

/-- `np.any(np.diff(xs) <= 0)`. -/
def notIncreasing : List Double → Bool
  | x :: y :: rest => le (sub y x) (lit 0) || notIncreasing (y :: rest)
  | _ => false

def nonphysicalDrag (rows : List (List Double)) : Bool := rows.any fun row => le (row.getD 1 (lit 0)) (lit 0)

/-- The numbers `isinstance(value, (int, float)) and np.isfinite(value)` lets through. -/
def finiteNumber? : JsValue Double → Option Double
  | .num x => if isFinite x then some x else none
  | .bool b => some (lit (if b then 1 else 0))
  | _ => none

structure BiasScope where
  physicalIdentity : String
  numericalIdentity : String
  low : Double
  high : Double

def nonemptyText? : JsValue Double → Option String
  | .str s => if s = "" then none else some s
  | _ => none

def biasScope (prior : PolarPrior) : Except String BiasScope :=
  let applicability := (JsValue.obj prior.provenance).get "bias_applicability"
  if !applicability.isRecord then .error "Bias policy requires an applicability contract"
  else
    match nonemptyText? (applicability.get "physical_identity"), nonemptyText? (applicability.get "numerical_identity"),
      (applicability.get "angle_scope").elements.map finiteNumber? with
    | some physical, some numerical, [some low, some high] =>
      if le high low then .error "Bias policy requires physical, numerical and angle applicability"
      else .ok ⟨physical, numerical, low, high⟩
    | _, _, _ => .error "Bias policy requires physical, numerical and angle applicability"

/-! ## The prior and the policy -/

/-- The checks of `_validate` before the bias contract. -/
def priorChecks (prior : PolarPrior) (policy : PolarModelPolicy) : List (Bool × String) :=
  [(decide (prior.alpha.length < 2) || (prior.alpha.any fun x => !isFinite x) || notIncreasing prior.alpha,
    "Prior angles must be finite, distinct and increasing")] ++
  matrixChecks prior.coefficients prior.alpha.length "prior coefficients" ++
  positiveMatrixChecks prior.standardDeviation prior.coefficients.length "prior uncertainty" ++
  [(nonphysicalDrag prior.coefficients, "Prior drag must be positive"),
   (prior.targetSignature == "" || prior.predictionId == "" || prior.branch == "" || prior.provenance.isEmpty,
    "A prior requires physical identity and real prediction provenance")] ++
  positiveVectorChecks policy.fastDiscrepancyStd 3 "fast_discrepancy_std" ++
  positiveVectorChecks policy.preciseDiscrepancyStd 3 "precise_discrepancy_std" ++
  positiveVectorChecks policy.slopeStd 3 "slope_std" ++
  positiveVectorChecks policy.localStd 3 "local_std" ++
  positiveVectorChecks policy.fastNoiseFloor 3 "fast_noise_floor" ++
  positiveVectorChecks policy.preciseNoiseFloor 3 "precise_noise_floor" ++
  [(!isFinite policy.correlationLengthDeg || le policy.correlationLengthDeg (lit 0) ||
      !isFinite policy.lineageCorrelation ||
      !(le (lit 0) policy.lineageCorrelation && le policy.lineageCorrelation (lit 1)),
    "Invalid correlation policy"),
   (policy.calibrationStatus != "unvalidated" && policy.calibrationStatus != "validated",
    "Unknown calibration status"),
   (policy.calibrationStatus == "validated" && !truthy policy.validationId,
    "Validated uncertainty requires a validation evidence identifier")] ++
  (match policy.lineageConflictProbability with
    | some p =>
      [(!isFinite p || !(lt (lit 0) p && le p (lit (5 / 100))),
        "Lineage conflict probability must be finite and between zero and 0.05"),
       (policy.calibrationStatus != "unvalidated",
        "Lineage conflict covariance has no physical validation certificate")]
    | none => []) ++
  (match policy.uncertifiedFastBiasStd with
    | some bias =>
      vectorChecks bias 3 "uncertified fast bias uncertainty" ++
      [(bias.any fun x => lt x (lit 0), "Uncertified fast bias uncertainty cannot be negative"),
       (policy.calibrationStatus != "unvalidated",
        "The optional bias allowance has no physical validation certificate")]
    | none => [])

def scopeOf (prior : PolarPrior) (policy : PolarModelPolicy) : Except String (Option BiasScope) :=
  if policy.uncertifiedFastBiasStd.isNone then .ok none
  else
    match biasScope prior with
    | .ok scope => .ok (some scope)
    | .error text => .error text

/-! ## One observation -/

structure Ledger where
  identifiers : List String
  eligible : List PolarObservation
  excluded : List (String × String)

def identityChecks (ledger : Ledger) (o : PolarObservation) : List (Bool × String) :=
  [(o.observationId == "" || o.resultId == "" || o.attemptId == "" || o.lineageId == "",
    "Every observation requires exact evidence and lineage identities"),
   (ledger.identifiers.contains o.observationId, "Duplicate observation identity")]

def outsideScope (scope : BiasScope) (o : PolarObservation) : Bool :=
  o.physicalIdentity != some scope.physicalIdentity || o.numericalIdentity != some scope.numericalIdentity ||
    !(le scope.low o.alpha && le o.alpha scope.high)

def evidenceChecks (prior : PolarPrior) (scope : Option BiasScope) (o : PolarObservation) : List (Bool × String) :=
  [(truthy o.exclusionReason, "Excluded evidence cannot inform an estimate"),
   (scope.isSome && o.acceptedCfd.isNone, "Bias policy requires source-backed CFD acceptance metadata"),
   (scope.any fun s => outsideScope s o, "Observation is outside the bias applicability contract"),
   (o.targetSignature != prior.targetSignature || o.branch != prior.branch,
    "Cannot fuse incompatible physical targets or hysteresis branches"),
   (o.method != "openfoam_fast" && o.method != "openfoam_precise", "Unknown fidelity"),
   (["diverged", "corrupt", "nonphysical"].contains o.numericalConvergence,
    "Divergent, corrupt or nonphysical evidence cannot inform a polar"),
   (["startup_only", "corrupt"].contains o.statisticalCertification,
    "Startup-only or corrupt history cannot inform a polar")] ++
  vectorChecks (o.coefficients.getD []) 3 "observed coefficients" ++
  positiveVectorChecks (o.standardError.getD []) 3 "observation uncertainty" ++
  [(le ((o.coefficients.getD []).getD 1 (lit 0)) (lit 0) || !isFinite o.alpha, "Nonphysical observation"),
   (!(le (prior.alpha.headD (lit 0)) o.alpha && le o.alpha (prior.alpha.getLastD (lit 0))),
    "Observation lies outside the prior domain"),
   (o.window.any fun w => !isFinite w.1 || !isFinite w.2 || le w.2 w.1, "Invalid history window")]

def sameKey (o p : PolarObservation) : Bool :=
  p.lineageId == o.lineageId && p.method == o.method && eq p.alpha o.alpha

def repeatedText : String := "Repeated lineage evidence needs disjoint physical-time windows"

def overlapText : String := "Overlapping continuation histories would double-count evidence"

/-- `max(previous[0], window[0]) < min(previous[1], window[1])`. -/
def windowsOverlap (previous window : Double × Double) : Bool :=
  lt (previous.1.pyMax window.1) (previous.2.pyMin window.2)

def repeatProblem (window : Option (Double × Double)) : List (Option (Double × Double)) → Option String
  | [] => none
  | previous :: rest =>
    match previous, window with
    | some p, some w => if windowsOverlap p w then some overlapText else repeatProblem window rest
    | _, _ => some repeatedText

/-- One round of the loop of `_validate`. -/
def admitObservation (prior : PolarPrior) (scope : Option BiasScope) (ledger : Ledger) (o : PolarObservation) :
    Except String Ledger :=
  match firstProblem (identityChecks ledger o) with
  | some text => .error text
  | none =>
    let identifiers := ledger.identifiers ++ [o.observationId]
    if !o.eligible then
      if !truthy o.exclusionReason then .error "Excluded observations need an explanation"
      else .ok { ledger with identifiers, excluded := ledger.excluded ++ [(o.observationId, o.exclusionReason.getD "")] }
    else
      match firstProblem (evidenceChecks prior scope o) with
      | some text => .error text
      | none =>
        match repeatProblem o.window ((ledger.eligible.filter (sameKey o)).map PolarObservation.window) with
        | some text => .error text
        | none => .ok { ledger with identifiers, eligible := ledger.eligible ++ [o] }

def admitAll (prior : PolarPrior) (scope : Option BiasScope) : Ledger → List PolarObservation → Except String Ledger
  | ledger, [] => .ok ledger
  | ledger, o :: rest =>
    match admitObservation prior scope ledger o with
    | .ok next => admitAll prior scope next rest
    | .error text => .error text

/-- `_validate`: the eligible and the excluded observations. -/
def validate (prior : PolarPrior) (observations : List PolarObservation) (policy : PolarModelPolicy) :
    Except String Ledger :=
  match firstProblem (priorChecks prior policy) with
  | some text => .error text
  | none =>
    match scopeOf prior policy with
    | .error text => .error text
    | .ok scope =>
      if policy.policyId == "" then .error "A model policy needs an immutable identity"
      else
        admitAll prior scope ⟨[], [], []⟩
          (KeyOrder.sortBy (fun o : PolarObservation => o.observationId.toList) observations)

/-! ## Overlapping windows are the only reason for the overlap error -/

section Overlap
variable {prior : PolarPrior} {policy : PolarModelPolicy} {scope : Option BiasScope} {ledger : Ledger}
  {o p : PolarObservation} {observations rest : List PolarObservation}

def Apart (o p : PolarObservation) : Prop :=
  ∀ a b, o.window = some a → p.window = some b → windowsOverlap a b = false ∧ windowsOverlap b a = false

theorem Apart.symm (h : Apart o p) : Apart p o := fun a b ha hb => (h b a hb ha).symm

theorem repeatProblem_overlap {window : Option (Double × Double)} {earlier : List (Option (Double × Double))}
    (h : repeatProblem window earlier = some overlapText) :
    ∃ a b, some a ∈ earlier ∧ window = some b ∧ windowsOverlap a b = true := by
  induction earlier with
  | nil => cases h
  | cons previous earlier ih =>
    have hother : some repeatedText ≠ some overlapText := by decide
    cases previous with
    | none => exact absurd h hother
    | some a =>
      cases window with
      | none => exact absurd h hother
      | some b =>
        simp only [repeatProblem] at h
        split at h
        · rename_i hoverlap
          exact ⟨a, b, List.mem_cons_self, rfl, hoverlap⟩
        · obtain ⟨a', b', ha', hb', hoverlap⟩ := ih h
          exact ⟨a', b', List.mem_cons_of_mem _ ha', hb', hoverlap⟩

theorem identity_not_overlap : firstProblem (identityChecks ledger o) ≠ some overlapText := by
  intro h
  have hmem := firstProblem_mem h
  simp [identityChecks, overlapText] at hmem

theorem evidence_not_overlap : firstProblem (evidenceChecks prior scope o) ≠ some overlapText := by
  intro h
  have hmem := firstProblem_mem h
  simp [evidenceChecks, vectorChecks, positiveVectorChecks, overlapText] at hmem

theorem prior_not_overlap : firstProblem (priorChecks prior policy) ≠ some overlapText := by
  intro h
  have hmem := firstProblem_mem h
  unfold priorChecks at hmem
  cases hconflict : policy.lineageConflictProbability <;> cases hbias : policy.uncertifiedFastBiasStd <;>
    simp [hconflict, hbias, matrixChecks, positiveMatrixChecks, vectorChecks, positiveVectorChecks, overlapText] at hmem

theorem scope_not_overlap : scopeOf prior policy ≠ .error overlapText := by
  unfold scopeOf biasScope
  intro h
  split at h
  · cases h
  · split at h
    · cases h
    · rename_i hscope
      cases h
      simp only at hscope
      split at hscope
      · exact absurd (Except.error.inj hscope) (by decide)
      · split at hscope
        · split at hscope
          · exact absurd (Except.error.inj hscope) (by decide)
          · cases hscope
        · exact absurd (Except.error.inj hscope) (by decide)

theorem admit_cases (prior : PolarPrior) (scope : Option BiasScope) (ledger : Ledger) (o : PolarObservation) :
    (∃ text, admitObservation prior scope ledger o = .error text ∧ (text = overlapText →
        ∃ p ∈ ledger.eligible, ∃ a b, p.window = some a ∧ o.window = some b ∧ windowsOverlap a b = true)) ∨
      (∃ next, admitObservation prior scope ledger o = .ok next ∧ next.eligible = ledger.eligible) ∨
      ∃ next, admitObservation prior scope ledger o = .ok next ∧ next.eligible = ledger.eligible ++ [o] := by
  simp only [admitObservation]
  split
  · rename_i text htext
    exact .inl ⟨text, rfl, fun hoverlap => absurd (hoverlap ▸ htext) identity_not_overlap⟩
  · split
    · split
      · exact .inl ⟨_, rfl, fun hoverlap => absurd hoverlap (by decide)⟩
      · exact .inr (.inl ⟨_, rfl, rfl⟩)
    · split
      · rename_i text htext
        exact .inl ⟨text, rfl, fun hoverlap => absurd (hoverlap ▸ htext) evidence_not_overlap⟩
      · split
        · rename_i text htext
          refine .inl ⟨text, rfl, fun hoverlap => ?_⟩
          obtain ⟨a, b, ha, hb, hlap⟩ := repeatProblem_overlap (hoverlap ▸ htext)
          obtain ⟨p, hp, hwindow⟩ := List.mem_map.mp ha
          exact ⟨p, (List.mem_filter.mp hp).1, a, b, hwindow, hb, hlap⟩
        · exact .inr (.inr ⟨_, rfl, rfl⟩)

theorem admitAll_not_overlap (h : (ledger.eligible ++ rest).Pairwise Apart) :
    admitAll prior scope ledger rest ≠ .error overlapText := by
  induction rest generalizing ledger with
  | nil => exact fun hnil => by cases hnil
  | cons o rest ih =>
    rw [admitAll]
    obtain ⟨text, htext, hoverlap⟩ | ⟨next, hnext, heligible⟩ | ⟨next, hnext, heligible⟩ :=
      admit_cases prior scope ledger o
    · rw [htext]
      intro herror
      obtain ⟨p, hp, a, b, ha, hb, hlap⟩ := hoverlap (Except.error.inj herror)
      have hapart := (List.pairwise_append.mp h).2.2 p hp o List.mem_cons_self a b ha hb
      rw [hapart.1] at hlap
      cases hlap
    · rw [hnext]
      refine ih (h.sublist ?_)
      rw [heligible]
      exact (List.sublist_cons_self o rest).append_left _
    · rw [hnext]
      refine ih ?_
      rw [heligible, List.append_assoc]
      exact h

theorem validate_not_overlap (h : observations.Pairwise Apart) :
    validate prior observations policy ≠ .error overlapText := by
  have hsorted : (KeyOrder.sortBy (fun o : PolarObservation => o.observationId.toList) observations).Pairwise Apart :=
    ((KeyOrder.sortBy_perm _ observations).pairwise_iff fun hab => hab.symm).mpr h
  unfold validate
  split
  · rename_i text htext
    exact fun herror => prior_not_overlap (Except.error.inj herror ▸ htext)
  · split
    · rename_i text htext
      exact fun herror => scope_not_overlap (Except.error.inj herror ▸ htext)
    · split
      · exact fun herror => absurd (Except.error.inj herror) (by decide)
      · exact admitAll_not_overlap hsorted

end Overlap

end XFoilFoam.Estimate
