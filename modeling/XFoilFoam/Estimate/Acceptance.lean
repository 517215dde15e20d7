import XFoilFoam.Estimate.Observations

/-! What `_validate` accepts, said without its loop: identities that are there and distinct, a reason for what is
excluded, and evidence each of which stands beside the evidence before it.  So the eligible rows alone are accepted as
well, and any part of them. -/
namespace XFoilFoam.Estimate
set_option autoImplicit false

/-! ## One observation -/

structure Identified (o : PolarObservation) : Prop where
  observation : o.observationId ≠ ""
  result : o.resultId ≠ ""
  attempt : o.attemptId ≠ ""
  lineage : o.lineageId ≠ ""

def Stands (prior : PolarPrior) (scope : Option BiasScope) (earlier : List PolarObservation) (o : PolarObservation) : Prop :=
  firstProblem (evidenceChecks prior scope o) = none ∧
    repeatProblem o.window ((earlier.filter (sameKey o)).map PolarObservation.window) = none

def Stand (prior : PolarPrior) (scope : Option BiasScope) : List PolarObservation → List PolarObservation → Prop
  | _, [] => True
  | earlier, o :: rest => Stands prior scope earlier o ∧ Stand prior scope (earlier ++ [o]) rest

section Loop
variable {prior : PolarPrior} {scope : Option BiasScope} {ledger final : Ledger} {o : PolarObservation}
  {earlier earlier' rest rest' : List PolarObservation}

theorem identity_none : firstProblem (identityChecks ledger o) = none ↔
    Identified o ∧ o.observationId ∉ ledger.identifiers := by
  unfold firstProblem identityChecks
  rw [Option.map_eq_none_iff, List.find?_eq_none]
  simp only [List.mem_cons, List.not_mem_nil, or_false, forall_eq_or_imp, forall_eq, Bool.or_eq_true, beq_iff_eq,
    List.contains_iff_mem]
  constructor
  · rintro ⟨hids, hfresh⟩
    exact ⟨⟨fun h => hids (.inl (.inl (.inl h))), fun h => hids (.inl (.inl (.inr h))), fun h => hids (.inl (.inr h)),
      fun h => hids (.inr h)⟩, hfresh⟩
  · rintro ⟨hids, hfresh⟩
    refine ⟨?_, hfresh⟩
    rintro (((h | h) | h) | h)
    · exact hids.observation h
    · exact hids.result h
    · exact hids.attempt h
    · exact hids.lineage h

theorem repeatProblem_none {window : Option (Double × Double)} {windows : List (Option (Double × Double))} :
    repeatProblem window windows = none ↔
      ∀ previous ∈ windows, ∃ p w, previous = some p ∧ window = some w ∧ windowsOverlap p w = false := by
  induction windows with
  | nil => exact ⟨fun _ _ h => (nomatch h), fun _ => rfl⟩
  | cons previous windows ih =>
    rw [List.forall_mem_cons, ← ih]
    cases previous with
    | none =>
      constructor
      · intro h
        cases h
      · rintro ⟨⟨p, w, h, -, -⟩, -⟩
        cases h
    | some p =>
      cases window with
      | none =>
        constructor
        · intro h
          cases h
        · rintro ⟨⟨p', w, -, h, -⟩, -⟩
          cases h
      | some w =>
        rw [repeatProblem]
        cases hover : windowsOverlap p w with
        | true =>
          constructor
          · intro h
            cases h
          · rintro ⟨⟨p', w', hp, hw, hno⟩, -⟩
            cases hp
            cases hw
            rw [hover] at hno
            cases hno
        | false => exact ⟨fun h => ⟨⟨p, w, rfl, rfl, hover⟩, h⟩, fun h => h.2⟩

theorem Stands.sublist (h : Stands prior scope earlier o) (hsub : earlier'.Sublist earlier) :
    Stands prior scope earlier' o := by
  refine ⟨h.1, repeatProblem_none.mpr fun previous hprevious => ?_⟩
  exact repeatProblem_none.mp h.2 previous (((hsub.filter _).map _).subset hprevious)

theorem Stand.sublist (h : Stand prior scope earlier rest) (hearlier : earlier'.Sublist earlier)
    (hrest : rest'.Sublist rest) : Stand prior scope earlier' rest' := by
  induction hrest generalizing earlier earlier' with
  | slnil => trivial
  | cons o _ ih => exact ih h.2 (hearlier.trans (List.sublist_append_left _ _))
  | cons_cons o _ ih => exact ⟨h.1.sublist hearlier, ih h.2 (hearlier.append (List.Sublist.refl [o]))⟩

def Ledger.after (ledger : Ledger) (rest : List PolarObservation) : Ledger :=
  { identifiers := ledger.identifiers ++ rest.map PolarObservation.observationId
    eligible := ledger.eligible ++ rest.filter PolarObservation.eligible
    excluded := ledger.excluded ++
      (rest.filter fun o => !o.eligible).map fun o => (o.observationId, o.exclusionReason.getD "") }

structure Acceptable (prior : PolarPrior) (scope : Option BiasScope) (ledger : Ledger) (rest : List PolarObservation) :
    Prop where
  identified : ∀ o ∈ rest, Identified o
  fresh : ∀ o ∈ rest, o.observationId ∉ ledger.identifiers
  distinct : (rest.map PolarObservation.observationId).Nodup
  explained : ∀ o ∈ rest, o.eligible = false → truthy o.exclusionReason = true
  stand : Stand prior scope ledger.eligible (rest.filter PolarObservation.eligible)

theorem admit_ok_iff {next : Ledger} : admitObservation prior scope ledger o = .ok next ↔
    Acceptable prior scope ledger [o] ∧ next = ledger.after [o] := by
  have hsingle : Acceptable prior scope ledger [o] ↔ (Identified o ∧ o.observationId ∉ ledger.identifiers) ∧
      (o.eligible = false → truthy o.exclusionReason = true) ∧
        (o.eligible = true → Stands prior scope ledger.eligible o) := by
    constructor
    · intro h
      refine ⟨⟨h.identified o (List.mem_singleton_self o), h.fresh o (List.mem_singleton_self o)⟩,
        h.explained o (List.mem_singleton_self o), fun he => ?_⟩
      have hstand := h.stand
      rw [List.filter_cons_of_pos he] at hstand
      exact hstand.1
    · rintro ⟨⟨hids, hfresh⟩, hexplained, hstands⟩
      exact
        { identified := by simpa using hids
          fresh := by simpa using hfresh
          distinct := List.nodup_singleton _
          explained := by simpa using hexplained
          stand := by
            cases he : o.eligible with
            | false =>
              rw [List.filter_cons_of_neg (by simp [he])]
              trivial
            | true =>
              rw [List.filter_cons_of_pos he]
              exact ⟨hstands he, trivial⟩ }
  rw [hsingle, ← identity_none]
  unfold admitObservation
  cases hidentity : firstProblem (identityChecks ledger o) with
  | some text => simp
  | none =>
    cases he : o.eligible with
    | false =>
      cases hreason : truthy o.exclusionReason with
      | false => simp
      | true => simp [Ledger.after, he, eq_comm]
    | true =>
      unfold Stands
      cases hevidence : firstProblem (evidenceChecks prior scope o) with
      | some text => simp
      | none =>
        cases hrepeat : repeatProblem o.window ((ledger.eligible.filter (sameKey o)).map PolarObservation.window) with
        | some text => simp
        | none =>
          dsimp only
          have hafter : ledger.after [o] = { ledger with
              identifiers := ledger.identifiers ++ [o.observationId], eligible := ledger.eligible ++ [o] } := by
            simp [Ledger.after, he]
          rw [hafter]
          simpa using eq_comm

theorem after_cons : (ledger.after [o]).after rest = ledger.after (o :: rest) := by
  simp only [Ledger.after, List.map_cons, List.map_nil, List.append_assoc, List.singleton_append, List.filter_cons,
    List.filter_nil]
  cases o.eligible <;> simp

theorem acceptable_cons : Acceptable prior scope ledger (o :: rest) ↔
    Acceptable prior scope ledger [o] ∧ Acceptable prior scope (ledger.after [o]) rest := by
  have hstand : Stand prior scope ledger.eligible ((o :: rest).filter PolarObservation.eligible) ↔
      Stand prior scope ledger.eligible ([o].filter PolarObservation.eligible) ∧
        Stand prior scope (ledger.after [o]).eligible (rest.filter PolarObservation.eligible) := by
    cases he : o.eligible with
    | false => simp [Ledger.after, he, Stand]
    | true => simp [Ledger.after, he, Stand]
  constructor
  · intro h
    have hdistinct := h.distinct
    rw [List.map_cons, List.nodup_cons] at hdistinct
    have hparts := hstand.mp h.stand
    exact
      ⟨{ identified := by simpa using h.identified o List.mem_cons_self
         fresh := by simpa using h.fresh o List.mem_cons_self
         distinct := List.nodup_singleton _
         explained := by simpa using h.explained o List.mem_cons_self
         stand := hparts.1 },
       { identified := fun p hp => h.identified p (List.mem_cons_of_mem o hp)
         fresh := fun p hp hmem => by
           rcases List.mem_append.mp hmem with hmem | hmem
           · exact h.fresh p (List.mem_cons_of_mem o hp) hmem
           · rw [List.map_singleton, List.mem_singleton] at hmem
             exact hdistinct.1 (hmem ▸ List.mem_map_of_mem hp)
         distinct := hdistinct.2
         explained := fun p hp => h.explained p (List.mem_cons_of_mem o hp)
         stand := hparts.2 }⟩
  · rintro ⟨hone, hrest⟩
    exact
      { identified := List.forall_mem_cons.mpr ⟨hone.identified o (List.mem_singleton_self o), hrest.identified⟩
        fresh := List.forall_mem_cons.mpr ⟨hone.fresh o (List.mem_singleton_self o), fun p hp hmem =>
          hrest.fresh p hp (List.mem_append_left _ hmem)⟩
        distinct := by
          rw [List.map_cons, List.nodup_cons]
          refine ⟨fun hmem => ?_, hrest.distinct⟩
          obtain ⟨p, hp, hid⟩ := List.mem_map.mp hmem
          exact hrest.fresh p hp (List.mem_append_right _ (by simp [hid]))
        explained := List.forall_mem_cons.mpr ⟨hone.explained o (List.mem_singleton_self o), hrest.explained⟩
        stand := hstand.mpr ⟨hone.stand, hrest.stand⟩ }

theorem admitAll_ok_iff : admitAll prior scope ledger rest = .ok final ↔
    Acceptable prior scope ledger rest ∧ final = ledger.after rest := by
  induction rest generalizing ledger with
  | nil =>
    have hnil : Acceptable prior scope ledger [] :=
      ⟨fun _ h => (nomatch h), fun _ h => (nomatch h), List.nodup_nil, fun _ h => (nomatch h), trivial⟩
    simp [admitAll, hnil, Ledger.after, eq_comm]
  | cons o rest ih =>
    rw [← after_cons, acceptable_cons, admitAll]
    cases hone : admitObservation prior scope ledger o with
    | error text =>
      constructor
      · intro h
        cases h
      · rintro ⟨⟨haccept, -⟩, -⟩
        have hok := admit_ok_iff.mpr ⟨haccept, rfl⟩
        rw [hone] at hok
        cases hok
    | ok next =>
      obtain ⟨haccept, rfl⟩ := admit_ok_iff.mp hone
      dsimp only
      rw [ih]
      exact ⟨fun h => ⟨⟨haccept, h.1⟩, h.2⟩, fun h => ⟨h.1.2, h.2⟩⟩

end Loop

/-! ## The whole list -/

section Validate
variable {prior : PolarPrior} {policy : PolarModelPolicy} {observations observations' : List PolarObservation}
  {ledger : Ledger}

def sortedObservations (observations : List PolarObservation) : List PolarObservation :=
  KeyOrder.sortBy (fun o : PolarObservation => o.observationId.toList) observations

structure Sound (prior : PolarPrior) (policy : PolarModelPolicy) (scope : Option BiasScope) : Prop where
  checks : firstProblem (priorChecks prior policy) = none
  contract : scopeOf prior policy = .ok scope
  named : policy.policyId ≠ ""

theorem validate_ok_iff : validate prior observations policy = .ok ledger ↔
    ∃ scope, Sound prior policy scope ∧ Acceptable prior scope ⟨[], [], []⟩ (sortedObservations observations) ∧
      ledger = Ledger.after ⟨[], [], []⟩ (sortedObservations observations) := by
  unfold validate
  cases hchecks : firstProblem (priorChecks prior policy) with
  | some text =>
    constructor
    · intro h
      cases h
    · rintro ⟨scope, hsound, -, -⟩
      rw [hsound.checks] at hchecks
      cases hchecks
  | none =>
    cases hscope : scopeOf prior policy with
    | error text =>
      constructor
      · intro h
        cases h
      · rintro ⟨scope, hsound, -, -⟩
        rw [hsound.contract] at hscope
        cases hscope
    | ok scope =>
      dsimp only
      cases hnamed : policy.policyId == "" with
      | true =>
        constructor
        · intro h
          cases h
        · rintro ⟨scope', hsound, -, -⟩
          exact absurd (beq_iff_eq.mp hnamed) hsound.named
      | false =>
        have hname : policy.policyId ≠ "" := beq_eq_false_iff_ne.mp hnamed
        rw [if_neg Bool.false_ne_true]
        constructor
        · intro h
          obtain ⟨haccept, hledger⟩ := admitAll_ok_iff.mp h
          exact ⟨scope, ⟨hchecks, hscope, hname⟩, haccept, hledger⟩
        · rintro ⟨scope', hsound, haccept, hledger⟩
          have hsame : scope = scope' := Except.ok.inj (hscope.symm.trans hsound.contract)
          subst hsame
          exact admitAll_ok_iff.mpr ⟨haccept, hledger⟩

theorem eligible_of_validate (h : validate prior observations policy = .ok ledger) :
    ledger.eligible = (sortedObservations observations).filter PolarObservation.eligible := by
  obtain ⟨scope, -, -, rfl⟩ := validate_ok_iff.mp h
  rfl

theorem distinct_of_validate (h : validate prior observations policy = .ok ledger) :
    (observations.map PolarObservation.observationId).Nodup := by
  obtain ⟨scope, -, haccept, -⟩ := validate_ok_iff.mp h
  exact ((KeyOrder.sortBy_perm _ observations).map _).nodup_iff.mp haccept.distinct

theorem sortedObservations_perm (hdistinct : (observations.map PolarObservation.observationId).Nodup)
    (hperm : observations.Perm observations') : sortedObservations observations = sortedObservations observations' := by
  refine KeyOrder.sortBy_eq_of_perm _ hperm fun o ho p hp hkey => ?_
  exact List.inj_on_of_nodup_map hdistinct ho hp (String.toList_injective hkey)

theorem validate_perm (h : validate prior observations policy = .ok ledger) (hperm : observations.Perm observations') :
    validate prior observations' policy = .ok ledger := by
  rw [validate_ok_iff] at h ⊢
  rw [← sortedObservations_perm (distinct_of_validate (validate_ok_iff.mpr h)) hperm]
  exact h

theorem validate_sublist (h : validate prior observations policy = .ok ledger) {part : List PolarObservation}
    (hpart : part.Sublist ledger.eligible) :
    ∃ ledger', validate prior part policy = .ok ledger' ∧ ledger'.eligible = part := by
  have heligible := eligible_of_validate h
  obtain ⟨scope, hsound, haccept, -⟩ := validate_ok_iff.mp h
  have hsub : part.Sublist (sortedObservations observations) := (heligible ▸ hpart).trans List.filter_sublist
  have hsorted : sortedObservations part = part := by
    have hpairs := (KeyOrder.sortBy_sorted (fun o : PolarObservation => o.observationId.toList) observations).sublist hsub
    exact hpairs.insertionSort_eq
  have hall : part.filter PolarObservation.eligible = part := by
    refine List.filter_eq_self.mpr fun o ho => ?_
    have hmem := hpart.subset ho
    rw [heligible] at hmem
    exact (List.mem_filter.mp hmem).2
  refine ⟨_, validate_ok_iff.mpr ⟨scope, hsound, ?_, rfl⟩, ?_⟩
  · rw [hsorted]
    exact
      { identified := fun o ho => haccept.identified o (hsub.subset ho)
        fresh := fun o ho => haccept.fresh o (hsub.subset ho)
        distinct := haccept.distinct.sublist (hsub.map _)
        explained := fun o ho => haccept.explained o (hsub.subset ho)
        stand := haccept.stand.sublist (List.Sublist.refl _) (by rw [hall, ← heligible]; exact hpart) }
  · rw [hsorted]
    exact hall

end Validate

end XFoilFoam.Estimate
