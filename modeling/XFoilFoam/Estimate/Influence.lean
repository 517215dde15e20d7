import XFoilFoam.Estimate.Fit
import XFoilFoam.Foundations.ExceptLists

/-! What the estimate depends on: of the observations, their eligible rows in the order of their identities.  The order
they come in is not seen, and evidence marked ineligible is seen in the signature and the excluded list only. -/
namespace XFoilFoam.Estimate
set_option autoImplicit false

section Transport
variable {K : Type} {num : Numpy K} {digest : SignaturePayload → String} {prior : PolarPrior} {policy : PolarModelPolicy}
  {observations observations' : List PolarObservation} {ledger ledger' : Ledger} {estimate : PolarEstimate K}

theorem conflictStage_congr (num : Numpy K) (eligible : List PolarObservation)
    (h : validate prior observations policy = .ok ledger)
    (h' : validate prior observations' policy = .ok ledger') (heligible : ledger'.eligible = ledger.eligible) :
    conflictStage num prior observations' eligible policy = conflictStage num prior observations eligible policy := by
  have hdiagnostics (probability : K) : groupedCovarianceDiagnostics num prior observations' policy probability =
      groupedCovarianceDiagnostics num prior observations policy probability := by
    unfold groupedCovarianceDiagnostics
    rw [h, h']
    show (if _ then _ else _) = (if _ then _ else _)
    rw [heligible]
  unfold conflictStage
  cases policy.lineageConflictProbability with
  | none => rfl
  | some probability =>
    dsimp only
    rw [hdiagnostics]

theorem accepted_of_fit (h : fitProgressivePolar num digest prior observations policy = .ok estimate) :
    ∃ ledger, validate prior observations policy = .ok ledger ∧ prior.finite = true ∧ policy.finite = true ∧
      observations.all PolarObservation.finite = true := by
  obtain ⟨ledger, hvalid, h⟩ := bind_eq_ok.mp h
  obtain ⟨signature, hsignature, -⟩ := bind_eq_ok.mp h
  unfold signatureOf at hsignature
  split at hsignature
  · rename_i hfinite
    obtain ⟨hboth, hobservations⟩ := Bool.and_eq_true_iff.mp hfinite
    obtain ⟨hprior, hpolicy⟩ := Bool.and_eq_true_iff.mp hboth
    exact ⟨ledger, hvalid, hprior, hpolicy, hobservations⟩
  · cases hsignature

theorem fit_transport (h : fitProgressivePolar num digest prior observations policy = .ok estimate)
    (hvalid : validate prior observations policy = .ok ledger)
    (hvalid' : validate prior observations' policy = .ok ledger') (heligible : ledger'.eligible = ledger.eligible)
    {signature : String} (hsignature : signatureOf digest (modelVersion policy) prior policy observations' = .ok signature) :
    fitProgressivePolar num digest prior observations' policy =
      .ok { estimate with signature, excluded := ledger'.excluded } := by
  have hstage (eligible : List PolarObservation) := conflictStage_congr num eligible hvalid hvalid'
    heligible
  obtain ⟨identifiers, eligible, excluded⟩ := ledger
  obtain ⟨identifiers', eligible', excluded'⟩ := ledger'
  obtain rfl : eligible' = eligible := heligible
  unfold fitProgressivePolar at h ⊢
  rw [hvalid']
  obtain ⟨accepted, haccepted, h⟩ := bind_eq_ok.mp h
  obtain rfl : accepted = ⟨identifiers, eligible', excluded⟩ := Except.ok.inj (haccepted.symm.trans hvalid)
  obtain ⟨old, hold, h⟩ := bind_eq_ok.mp h
  obtain ⟨conflicts, hconflicts, h⟩ := bind_eq_ok.mp h
  obtain ⟨fits, hfits, h⟩ := bind_eq_ok.mp h
  obtain ⟨fast, hfast, h⟩ := bind_eq_ok.mp h
  obtain ⟨precise, hprecise, h⟩ := bind_eq_ok.mp h
  cases h
  rw [← hstage] at hconflicts
  refine bind_eq_ok.mpr ⟨_, rfl, bind_eq_ok.mpr ⟨signature, hsignature, ?_⟩⟩
  refine bind_eq_ok.mpr ⟨conflicts, hconflicts, bind_eq_ok.mpr ⟨fits, hfits, ?_⟩⟩
  exact bind_eq_ok.mpr ⟨fast, hfast, bind_eq_ok.mpr ⟨precise, hprecise, rfl⟩⟩

theorem signatureOf_ok {version : String} (hprior : prior.finite = true) (hpolicy : policy.finite = true)
    (hobservations : observations.all PolarObservation.finite = true) :
    ∃ signature, signatureOf digest version prior policy observations = .ok signature := by
  unfold signatureOf
  rw [hprior, hpolicy, hobservations]
  exact ⟨_, rfl⟩

theorem signatureOf_perm {version : String} (hdistinct : (observations.map PolarObservation.observationId).Nodup)
    (hperm : observations.Perm observations') :
    signatureOf digest version prior policy observations' = signatureOf digest version prior policy observations := by
  have hall : observations'.all PolarObservation.finite = observations.all PolarObservation.finite := by
    rw [Bool.eq_iff_iff, List.all_eq_true, List.all_eq_true]
    exact forall_congr' fun o => by rw [hperm.mem_iff]
  unfold signatureOf
  rw [hall, sortedObservations_perm hdistinct hperm]

theorem fit_perm (h : fitProgressivePolar num digest prior observations policy = .ok estimate)
    (hperm : observations.Perm observations') :
    fitProgressivePolar num digest prior observations' policy = .ok estimate := by
  obtain ⟨ledger, hvalid, h⟩ := bind_eq_ok.mp h
  have hstage (eligible : List PolarObservation) := conflictStage_congr num eligible hvalid
    (validate_perm hvalid hperm) rfl
  unfold fitProgressivePolar
  rw [validate_perm hvalid hperm, signatureOf_perm (distinct_of_validate hvalid) hperm]
  refine bind_eq_ok.mpr ⟨ledger, rfl, ?_⟩
  simp only [hstage]
  exact h

/-! ## Ineligible evidence -/

/-- What `_validate` and the signature ask of evidence that is not eligible. -/
structure SetAside (o : PolarObservation) : Prop where
  ineligible : o.eligible = false
  identified : Identified o
  explained : truthy o.exclusionReason = true
  finite : o.finite = true

theorem sorted_eligible (observations : List PolarObservation) :
    (sortedObservations observations).filter PolarObservation.eligible =
      sortedObservations (observations.filter PolarObservation.eligible) :=
  KeyOrder.filter_sortBy _ _ observations

theorem validate_with {extra : List PolarObservation} (h : validate prior observations policy = .ok ledger)
    (hextra : ∀ o ∈ extra, SetAside o)
    (hdistinct : ((observations ++ extra).map PolarObservation.observationId).Nodup) :
    ∃ ledger', validate prior (observations ++ extra) policy = .ok ledger' ∧ ledger'.eligible = ledger.eligible := by
  have hnone : extra.filter PolarObservation.eligible = [] :=
    List.filter_eq_nil_iff.mpr fun o ho => by rw [(hextra o ho).ineligible]; exact Bool.false_ne_true
  have heligible : (sortedObservations (observations ++ extra)).filter PolarObservation.eligible =
      (sortedObservations observations).filter PolarObservation.eligible := by
    rw [sorted_eligible, sorted_eligible, List.filter_append, hnone, List.append_nil]
  obtain ⟨scope, hsound, haccept, rfl⟩ := validate_ok_iff.mp h
  have hmem : ∀ o ∈ sortedObservations (observations ++ extra), o ∈ sortedObservations observations ∨ o ∈ extra := by
    intro o ho
    rcases List.mem_append.mp ((KeyOrder.mem_sortBy _).mp ho) with ho | ho
    · exact .inl ((KeyOrder.mem_sortBy _).mpr ho)
    · exact .inr ho
  have haccept' : Acceptable prior scope ⟨[], [], []⟩ (sortedObservations (observations ++ extra)) :=
    { identified := fun o ho => (hmem o ho).elim (haccept.identified o) fun ho => (hextra o ho).identified
      fresh := fun o _ hin => nomatch hin
      distinct := ((KeyOrder.sortBy_perm _ _).map _).nodup_iff.mpr hdistinct
      explained := fun o ho => (hmem o ho).elim (haccept.explained o) fun ho _ => (hextra o ho).explained
      stand := by rw [heligible]; exact haccept.stand }
  exact ⟨_, validate_ok_iff.mpr ⟨scope, hsound, haccept', rfl⟩, heligible⟩

theorem validate_without {removed : List PolarObservation}
    (h : validate prior (observations ++ removed) policy = .ok ledger) (hremoved : ∀ o ∈ removed, o.eligible = false) :
    ∃ ledger', validate prior observations policy = .ok ledger' ∧ ledger'.eligible = ledger.eligible := by
  have hnone : removed.filter PolarObservation.eligible = [] :=
    List.filter_eq_nil_iff.mpr fun o ho => by rw [hremoved o ho]; exact Bool.false_ne_true
  have heligible : (sortedObservations observations).filter PolarObservation.eligible =
      (sortedObservations (observations ++ removed)).filter PolarObservation.eligible := by
    rw [sorted_eligible, sorted_eligible, List.filter_append, hnone, List.append_nil]
  have hdistinct := distinct_of_validate h
  obtain ⟨scope, hsound, haccept, rfl⟩ := validate_ok_iff.mp h
  have hmem : ∀ o ∈ sortedObservations observations, o ∈ sortedObservations (observations ++ removed) := fun o ho =>
    (KeyOrder.mem_sortBy _).mpr (List.mem_append_left _ ((KeyOrder.mem_sortBy _).mp ho))
  have haccept' : Acceptable prior scope ⟨[], [], []⟩ (sortedObservations observations) :=
    { identified := fun o ho => haccept.identified o (hmem o ho)
      fresh := fun o _ hin => nomatch hin
      distinct := by
        rw [List.map_append] at hdistinct
        exact ((KeyOrder.sortBy_perm _ _).map _).nodup_iff.mpr hdistinct.of_append_left
      explained := fun o ho => haccept.explained o (hmem o ho)
      stand := by rw [heligible]; exact haccept.stand }
  exact ⟨_, validate_ok_iff.mpr ⟨scope, hsound, haccept', rfl⟩, heligible⟩

theorem fit_with {extra : List PolarObservation}
    (h : fitProgressivePolar num digest prior observations policy = .ok estimate) (hextra : ∀ o ∈ extra, SetAside o)
    (hdistinct : ((observations ++ extra).map PolarObservation.observationId).Nodup) :
    ∃ signature excluded, fitProgressivePolar num digest prior (observations ++ extra) policy =
      .ok { estimate with signature, excluded } := by
  obtain ⟨ledger, hvalid, hprior, hpolicy, hobservations⟩ := accepted_of_fit h
  obtain ⟨ledger', hvalid', heligible⟩ := validate_with hvalid hextra hdistinct
  have hall : (observations ++ extra).all PolarObservation.finite = true := by
    rw [List.all_append, hobservations, Bool.true_and, List.all_eq_true]
    exact fun o ho => (hextra o ho).finite
  obtain ⟨signature, hsignature⟩ := signatureOf_ok hprior hpolicy hall
  exact ⟨signature, ledger'.excluded, fit_transport h hvalid hvalid' heligible hsignature⟩

theorem fit_without {removed : List PolarObservation}
    (h : fitProgressivePolar num digest prior (observations ++ removed) policy = .ok estimate)
    (hremoved : ∀ o ∈ removed, o.eligible = false) :
    ∃ signature excluded, fitProgressivePolar num digest prior observations policy =
      .ok { estimate with signature, excluded } := by
  obtain ⟨ledger, hvalid, hprior, hpolicy, hobservations⟩ := accepted_of_fit h
  obtain ⟨ledger', hvalid', heligible⟩ := validate_without hvalid hremoved
  rw [List.all_append, Bool.and_eq_true_iff] at hobservations
  obtain ⟨signature, hsignature⟩ := signatureOf_ok hprior hpolicy hobservations.1
  exact ⟨signature, ledger'.excluded, fit_transport h hvalid hvalid' heligible hsignature⟩

end Transport

/-- The order of the observations is not seen, and evidence set aside leaves its mark on the signature and the excluded
list only, whether it is added or taken out. -/
theorem set_aside_without_influence {K : Type} (num : Numpy K) (digest : SignaturePayload → String) :
    (∀ prior policy observations observations' estimate,
      fitProgressivePolar num digest prior observations policy = .ok estimate → observations.Perm observations' →
        fitProgressivePolar num digest prior observations' policy = .ok estimate) ∧
    (∀ prior policy observations extra estimate,
      fitProgressivePolar num digest prior observations policy = .ok estimate → (∀ o ∈ extra, SetAside o) →
        ((observations ++ extra).map PolarObservation.observationId).Nodup →
          ∃ signature excluded, fitProgressivePolar num digest prior (observations ++ extra) policy =
            .ok { estimate with signature, excluded }) ∧
    ∀ prior policy observations removed estimate,
      fitProgressivePolar num digest prior (observations ++ removed) policy = .ok estimate →
        (∀ o ∈ removed, o.eligible = false) →
          ∃ signature excluded, fitProgressivePolar num digest prior observations policy =
            .ok { estimate with signature, excluded } := by
  refine ⟨?_, ?_, ?_⟩
  · intro prior policy observations observations' estimate h hperm
    exact fit_perm h hperm
  · intro prior policy observations extra estimate h hextra hdistinct
    exact fit_with h hextra hdistinct
  · intro prior policy observations removed estimate h hremoved
    exact fit_without h hremoved

/-! ## A number that is none -/

def rootSeries (q : ℚ) : ℚ := (Nat.sqrt (q.num.toNat * 4 ^ 60 / q.den) : ℚ) / 2 ^ 60

def expSeries (q : ℚ) : ℚ := ((List.range 40).map fun k : ℕ => q ^ k / (k.factorial : ℚ)).sum

def logSeries (q : ℚ) : ℚ :=
  2 * ((List.range 40).map fun k : ℕ => ((q - 1) / (q + 1)) ^ (2 * k + 1) / (2 * (k : ℚ) + 1)).sum

def seriesDoubles : Numpy Double where
  ofDouble x := x
  lit q := Binary64.lit q
  neg x := Binary64.sub (Binary64.lit 0) x
  add := Binary64.add
  sub := Binary64.sub
  mul := Binary64.mul
  div := Binary64.div
  square x := Binary64.mul x x
  abs := Binary64.abs
  exp x := Binary64.lit (expSeries x.value)
  log x := Binary64.lit (logSeries x.value)
  log1p x := Binary64.lit (logSeries (1 + x.value))
  sqrt x := Binary64.lit (rootSeries x.value)
  hypot x y := Binary64.lit (rootSeries (x.value ^ 2 + y.value ^ 2))
  maximum := Binary64.max
  minimum := Binary64.min
  lt := Binary64.lt
  le := Binary64.le
  eq := Binary64.eq
  isFinite := Binary64.isFinite
  mean xs := Binary64.div (xs.foldl Binary64.add (Binary64.lit 0)) (Binary64.lit xs.length)
  median xs := xs.getD (xs.length / 2) (Binary64.lit 0)
  interp _ _ fp := fp.headD (Binary64.lit 0)
  columnSum A j := (List.ofFn fun i => A i j).foldl Binary64.add (Binary64.lit 0)
  dot u v := (List.ofFn fun i => Binary64.mul (u i) (v i)).foldl Binary64.add (Binary64.lit 0)
  vecMat u A j := (List.ofFn fun i => Binary64.mul (u i) (A i j)).foldl Binary64.add (Binary64.lit 0)
  matVec A v i := (List.ofFn fun j => Binary64.mul (A i j) (v j)).foldl Binary64.add (Binary64.lit 0)
  matMul A B i k := (List.ofFn fun j => Binary64.mul (A i j) (B j k)).foldl Binary64.add (Binary64.lit 0)
  cholesky _ := .error "Matrix is not positive definite"
  solve _ _ := .error "Singular matrix"
  solveVec _ _ := .error "Singular matrix"

def flatPrior : PolarPrior where
  targetSignature := "target"
  predictionId := "prediction"
  branch := "attached"
  alpha := [Binary64.lit 0, Binary64.lit 1]
  coefficients := [[Binary64.lit 0, Binary64.lit 1, Binary64.lit 0], [Binary64.lit 1, Binary64.lit 1, Binary64.lit 0]]
  standardDeviation := List.replicate 2 [Binary64.lit 1, Binary64.lit (1 / 2 ^ 600), Binary64.lit 1]
  provenance := [("model", .str "neuralfoil")]

def unitPolicy : PolarModelPolicy where
  policyId := "policy"
  fastDiscrepancyStd := List.replicate 3 (Binary64.lit 1)
  preciseDiscrepancyStd := List.replicate 3 (Binary64.lit 1)
  slopeStd := List.replicate 3 (Binary64.lit 1)
  localStd := List.replicate 3 (Binary64.lit 1)
  fastNoiseFloor := List.replicate 3 (Binary64.lit 1)
  preciseNoiseFloor := List.replicate 3 (Binary64.lit 1)
  correlationLengthDeg := Binary64.lit 1
  lineageCorrelation := Binary64.lit 0
  calibrationStatus := "unvalidated"
  validationId := none
  uncertifiedFastBiasStd := none
  lineageConflictProbability := none

def divergedRun : PolarObservation where
  observationId := "run"
  resultId := "result"
  attemptId := "attempt"
  lineageId := "lineage"
  targetSignature := "target"
  branch := "attached"
  method := "openfoam_fast"
  alpha := Binary64.lit 0
  coefficients := some [⟨.nan, round64_nan⟩, Binary64.lit 1, Binary64.lit 0]
  standardError := none
  eligible := false
  numericalConvergence := "diverged"
  statisticalCertification := "startup_only"
  exclusionReason := some "diverged"

/-- Evidence that is set aside still has to be signed: a NaN in it is refused, and the estimate with it. -/
theorem diverged_run_refused :
    ∃ estimate, fitProgressivePolar seriesDoubles (fun _ => "signature") flatPrior [] unitPolicy = .ok estimate ∧
      divergedRun.eligible = false ∧ Identified divergedRun ∧ truthy divergedRun.exclusionReason = true ∧
      ∀ signature excluded, fitProgressivePolar seriesDoubles (fun _ => "signature") flatPrior [divergedRun] unitPolicy ≠
        .ok { estimate with signature, excluded } := by
  have hreturns : (fitProgressivePolar seriesDoubles (fun _ => "signature") flatPrior [] unitPolicy).toOption.isSome =
      true := by decide +kernel
  have hrefused : (fitProgressivePolar seriesDoubles (fun _ => "signature") flatPrior [divergedRun]
      unitPolicy).toOption.isSome = false := by decide +kernel
  cases hfit : fitProgressivePolar seriesDoubles (fun _ => "signature") flatPrior [] unitPolicy with
  | error text =>
    rw [hfit] at hreturns
    cases hreturns
  | ok estimate =>
    refine ⟨estimate, rfl, rfl, ⟨by decide, by decide, by decide, by decide⟩, rfl, fun signature excluded h => ?_⟩
    rw [h] at hrefused
    cases hrefused

def settledRun (id : String) : PolarObservation :=
  { divergedRun with
    observationId := id
    attemptId := id
    lineageId := id
    coefficients := some [Binary64.lit 0, Binary64.lit 1, Binary64.lit 0]
    standardError := some [Binary64.lit 1, Binary64.lit 1, Binary64.lit 1]
    eligible := true
    numericalConvergence := "converged"
    statisticalCertification := "informative_uncertified"
    exclusionReason := none }

theorem validate_sublist_second_run :
    ∃ ledger ledger', validate flatPrior [settledRun "second", settledRun "first"] unitPolicy = .ok ledger ∧
      ledger.eligible.length = 2 ∧ validate flatPrior ledger.eligible.tail unitPolicy = .ok ledger' ∧
        ledger'.eligible = ledger.eligible.tail := by
  have hboth : (validate flatPrior [settledRun "second", settledRun "first"] unitPolicy).toOption.map
      (fun ledger => ledger.eligible.length) = some 2 := by decide +kernel
  cases h : validate flatPrior [settledRun "second", settledRun "first"] unitPolicy with
  | error text =>
    rw [h] at hboth
    cases hboth
  | ok ledger =>
    rw [h] at hboth
    obtain ⟨ledger', h', heligible⟩ := validate_sublist h (List.tail_sublist ledger.eligible)
    exact ⟨ledger, ledger', rfl, Option.some.inj hboth, h', heligible⟩

end XFoilFoam.Estimate
