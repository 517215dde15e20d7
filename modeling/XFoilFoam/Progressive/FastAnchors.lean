import XFoilFoam.Foundations.JsSort
import XFoilFoam.Foundations.ExceptLists
import XFoilFoam.Foundations.Runs
import Mathlib.Data.Finset.Card

/-! `requestedGrid`, `initialFastAnchors` and `nextFastAnchor` of
`packages/core/src/progressive-scheduling.ts`: which angles of a polar get a fast CFD solve first. -/
namespace XFoilFoam.Progressive
set_option autoImplicit false

/-! ## Sets of angles -/

/-- `[...new Set(values)]`. -/
def distinctValues (values : List Double) : List Double := values.eraseDups

theorem mem_distinctValues {values : List Double} {x : Double} :
    x ∈ distinctValues values ↔ x ∈ values := List.mem_eraseDups

theorem nodup_distinctValues (values : List Double) : (distinctValues values).Nodup := by
  unfold distinctValues
  induction hn : values.length using Nat.strong_induction_on generalizing values with
  | _ n ih =>
    cases values with
    | nil => simp
    | cons x rest =>
      rw [List.eraseDups_cons, List.nodup_cons, List.mem_eraseDups]
      refine ⟨by simp, ih (rest.filter fun y => !y == x).length ?_ _ rfl⟩
      have hle := List.length_filter_le (fun y => !y == x) rest
      rw [List.length_cons] at hn
      omega

theorem length_distinctValues (values : List Double) :
    (distinctValues values).length = values.toFinset.card := by
  rw [← List.toFinset_card_of_nodup (nodup_distinctValues values)]
  congr 1
  ext x
  simp [mem_distinctValues]

/-- The comparator `left - right`. -/
def ascending (left right : Double) : Double := Binary64.sub left right

def Finite (values : List Double) : Prop := ∀ x ∈ values, Binary64.isFinite x = true

theorem ne_nan_of_finite {x : Double} (h : Binary64.isFinite x = true) : x.val ≠ .nan := by
  rw [Double.val_of_finite h]
  exact ExactNum.noConfusion

theorem ascending_orders {values : List Double} (h : Finite values) :
    OrdersBy ascending Double.rank values := fun x hx y hy =>
  (Double.sub_spec (ne_nan_of_finite (h x hx)) (ne_nan_of_finite (h y hy))).1

theorem rank_inj_of_finite {x y : Double} (hx : Binary64.isFinite x = true)
    (hy : Binary64.isFinite y = true) (h : x.rank = y.rank) : x = y :=
  Double.rank_inj (ne_nan_of_finite hx) (ne_nan_of_finite hy) h

/-! ## The requested grid -/

structure Grid where
  angles : List Double
  nonempty : angles ≠ []
  finite : Finite angles
  sorted : angles.Pairwise fun left right => left.rank < right.rank

def gridOf (angles : List Double) (hne : angles ≠ []) (hfinite : Finite angles) : Grid where
  angles := jsSort ascending (distinctValues angles)
  nonempty := by
    obtain ⟨x, hx⟩ := List.exists_mem_of_ne_nil _ hne
    exact List.ne_nil_of_mem (mem_jsSort.mpr (mem_distinctValues.mpr hx))
  finite := fun x hx => hfinite x (mem_distinctValues.mp (mem_jsSort.mp hx))
  sorted := by
    have hdistinct : Finite (distinctValues angles) := fun x hx => hfinite x (mem_distinctValues.mp hx)
    have hle := (ascending_orders hdistinct).sorted
    have hne : (jsSort ascending (distinctValues angles)).Pairwise (· ≠ ·) :=
      jsSort_perm.nodup_iff.mpr (nodup_distinctValues angles)
    refine (hle.and hne).imp_of_mem fun {x y} hx hy h => lt_of_le_of_ne h.1 fun heq => h.2 ?_
    exact rank_inj_of_finite (hdistinct x (mem_jsSort.mp hx)) (hdistinct y (mem_jsSort.mp hy)) heq

instance (values : List Double) : Decidable (Finite values) :=
  inferInstanceAs (Decidable (∀ x ∈ values, Binary64.isFinite x = true))

def requestedGrid (angles : List Double) : Except String Grid :=
  if h : angles ≠ [] ∧ Finite angles then .ok (gridOf angles h.1 h.2)
  else .error "Anchor selection requires finite requested angles"

namespace Grid

/-- `grid[0]` and `grid.at(-1)`. -/
def lowest (grid : Grid) : Double := grid.angles.head grid.nonempty

def highest (grid : Grid) : Double := grid.angles.getLast grid.nonempty

/-- `angle >= grid[0] && angle <= grid.at(-1)`. -/
def spans (grid : Grid) (angle : Double) : Bool :=
  Binary64.le grid.lowest angle && Binary64.le angle grid.highest

def firstBy (grid : Grid) (compare : Double → Double → Double) : Double :=
  (jsSort compare grid.angles).head (jsSort_ne_nil grid.nonempty)

def distance (x angle : Double) : Double := Binary64.abs (Binary64.sub x angle)

def nearest (grid : Grid) (angle : Double) : Double :=
  grid.firstBy fun left right =>
    (Binary64.sub (distance left angle) (distance right angle)).orElse (Binary64.sub left right)

def farthest (grid : Grid) (angle : Double) : Double :=
  grid.firstBy fun left right =>
    (Binary64.sub (distance right angle) (distance left angle)).orElse (Binary64.sub left right)

end Grid

/-! ## Initial anchors -/

structure PredictionAnchorSample where
  alpha : Double
  cl : Double
  cd : Double
  deriving DecidableEq

inductive AnchorReason where
  | priorZeroLiftAndEfficiency
  | missingPriorBracketing
  deriving DecidableEq, Repr

structure InitialAnchors where
  angles : List Double
  reason : AnchorReason
  deriving DecidableEq

namespace PredictionAnchorSample

def invalid (sample : PredictionAnchorSample) : Bool :=
  !([sample.alpha, sample.cl, sample.cd].all Binary64.isFinite) ||
    Binary64.le sample.cd (Binary64.lit 0)

def efficiency (sample : PredictionAnchorSample) : Double := Binary64.div sample.cl sample.cd

end PredictionAnchorSample

def crossing (current next : PredictionAnchorSample) : Double :=
  Binary64.sub current.alpha
    (Binary64.div (Binary64.mul current.cl (Binary64.sub next.alpha current.alpha))
      (Binary64.sub next.cl current.cl))

/-- The loop over `samples` that collects the roots. -/
def zeroLiftRoots : List PredictionAnchorSample → List Double
  | [] => []
  | [current] => if Binary64.eq current.cl (Binary64.lit 0) then [current.alpha] else []
  | current :: next :: rest =>
    (if Binary64.eq current.cl (Binary64.lit 0) then [current.alpha] else []) ++
      (if Binary64.lt (Binary64.mul current.cl next.cl) (Binary64.lit 0) then [crossing current next]
        else []) ++
      zeroLiftRoots (next :: rest)

/-- The angle of a nonempty list of samples that comes first in the order of a comparator. -/
def firstAlpha (compare : PredictionAnchorSample → PredictionAnchorSample → Double)
    (samples : List PredictionAnchorSample) (hne : samples ≠ []) : Double :=
  ((jsSort compare samples).head (jsSort_ne_nil hne)).alpha

def zeroLift (roots : List Double) (inScope : List PredictionAnchorSample) (hne : inScope ≠ []) : Double :=
  match (jsSort (fun left right => (Binary64.sub (Binary64.abs left) (Binary64.abs right)).orElse
      (Binary64.sub left right)) roots).head? with
  | some root => root
  | none => firstAlpha (fun left right =>
      (Binary64.sub (Binary64.abs left.cl) (Binary64.abs right.cl)).orElse
        (Binary64.sub left.alpha right.alpha)) inScope hne

def bestEfficiency (inScope : List PredictionAnchorSample) (hne : inScope ≠ []) : Double :=
  firstAlpha (fun left right => (Binary64.sub right.efficiency left.efficiency).orElse
    (Binary64.sub left.alpha right.alpha)) inScope hne

def pairOf (grid : Grid) (zeroLift efficiency : Double) : List Double :=
  let first := grid.nearest zeroLift
  let second := grid.nearest efficiency
  let second := if second = first ∧ 1 < grid.angles.length then grid.farthest first else second
  distinctValues [first, second]

def anchorsOf (grid : Grid) (samples : List PredictionAnchorSample) : Except String InitialAnchors :=
  let inScope := samples.filter fun sample => grid.spans sample.alpha
  if h : inScope ≠ [] then
    .ok ⟨pairOf grid (zeroLift ((zeroLiftRoots samples).filter grid.spans) inScope h)
      (bestEfficiency inScope h), .priorZeroLiftAndEfficiency⟩
  else .error "Anchor prediction has no in-scope samples"

def coversGrid (grid : Grid) (samples : List PredictionAnchorSample) : Bool :=
  decide ((distinctValues (samples.map (·.alpha))).length = samples.length) &&
    samples.head?.all (fun sample => !Binary64.lt grid.lowest sample.alpha) &&
    samples.getLast?.all fun sample => !Binary64.lt sample.alpha grid.highest

def predictedAnchors (grid : Grid) (prediction : List PredictionAnchorSample) :
    Except String InitialAnchors :=
  if prediction.length < 2 then
    .ok ⟨distinctValues [grid.lowest, grid.highest], .missingPriorBracketing⟩
  else if prediction.any PredictionAnchorSample.invalid then
    .error "Anchor prediction contains invalid coefficients"
  else
    let samples := jsSort (fun left right => Binary64.sub left.alpha right.alpha) prediction
    if coversGrid grid samples then anchorsOf grid samples
    else .error "Anchor prediction must span the requested grid without duplicate angles"

/-- `initialFastAnchors`; no prediction is an empty one. -/
def initialFastAnchors (angles : List Double) (prediction : Option (List PredictionAnchorSample)) :
    Except String InitialAnchors :=
  (requestedGrid angles).bind fun grid => predictedAnchors grid (prediction.getD [])

/-! ## The next anchor -/

structure InformationGainCandidate where
  alpha : Double
  integratedVarianceReductionFraction : Double
  expectedActiveSeconds : Double
  modelId : String
  costEvidenceId : String
  deriving DecidableEq

inductive NextReason where
  | initialCoveragePending
  | angleBudget
  | marginalGain
  | noMeasuredCandidate
  | informationGain
  deriving DecidableEq, Repr

structure NextAnchor where
  alpha : Option Double
  reason : NextReason
  deriving DecidableEq

/-- `PROGRESSIVE_COMPUTE_POLICY.maximumFastAnchors`. -/
def maximumFastAnchors : ℕ := 8

/-- `PROGRESSIVE_COMPUTE_POLICY.minimumMarginalGain`. -/
def minimumMarginalGain : Double := Binary64.lit (1 / 20)

namespace InformationGainCandidate

def valid (grid : Grid) (candidate : InformationGainCandidate) : Bool :=
  decide (candidate.alpha ∈ grid.angles) &&
    Binary64.isFinite candidate.integratedVarianceReductionFraction &&
    !Binary64.lt candidate.integratedVarianceReductionFraction (Binary64.lit 0) &&
    !Binary64.lt (Binary64.lit 1) candidate.integratedVarianceReductionFraction &&
    Binary64.isFinite candidate.expectedActiveSeconds &&
    !Binary64.le candidate.expectedActiveSeconds (Binary64.lit 0) &&
    candidate.modelId != "" && candidate.costEvidenceId != ""

def rate (candidate : InformationGainCandidate) : Double :=
  Binary64.div candidate.integratedVarianceReductionFraction candidate.expectedActiveSeconds

def useful (candidate : InformationGainCandidate) : Bool :=
  Binary64.le minimumMarginalGain candidate.integratedVarianceReductionFraction

def order (left right : InformationGainCandidate) : Double :=
  (Binary64.sub right.rate left.rate).orElse (Binary64.sub left.alpha right.alpha)

end InformationGainCandidate

def chooseCandidate (attempted : List Double) (candidates : List InformationGainCandidate) : NextAnchor :=
  let available := candidates.filter fun candidate => decide (candidate.alpha ∉ attempted)
  let useful := available.filter InformationGainCandidate.useful
  if available = [] then ⟨none, .noMeasuredCandidate⟩
  else
    match (jsSort InformationGainCandidate.order useful).head? with
    | none => ⟨none, .marginalGain⟩
    | some candidate => ⟨some candidate.alpha, .informationGain⟩

def nextInGrid (requested : Grid) (attempted : List Double) (initialCoverageComplete : Bool)
    (candidates : List InformationGainCandidate) : Except String NextAnchor :=
  if ∃ angle ∈ attempted, angle ∉ requested.angles then
    .error "Attempted anchor is outside the sealed requested scope"
  else if !initialCoverageComplete then .ok ⟨none, .initialCoveragePending⟩
  else if min maximumFastAnchors requested.angles.length ≤ (distinctValues attempted).length then
    .ok ⟨none, .angleBudget⟩
  else if candidates.any fun candidate => !candidate.valid requested then
    .error "Information-gain admission requires an in-scope model and measured cost provenance"
  else .ok (chooseCandidate attempted candidates)

def nextFastAnchor (requestedAngles attemptedAngles : List Double) (initialCoverageComplete : Bool)
    (candidates : List InformationGainCandidate) : Except String NextAnchor :=
  (requestedGrid requestedAngles).bind fun requested =>
    nextInGrid requested attemptedAngles initialCoverageComplete candidates

/-! ## Anchors of a grid -/

namespace Grid
variable {grid : Grid}

theorem firstBy_mem (compare : Double → Double → Double) : grid.firstBy compare ∈ grid.angles :=
  mem_jsSort.mp (List.head_mem _)

theorem nodup : grid.angles.Nodup := by
  refine grid.sorted.imp ?_
  intro x y h heq
  rw [heq] at h
  exact lt_irrefl _ h

theorem distance_spec {x angle : Double} (hx : Binary64.isFinite x = true)
    (hangle : Binary64.isFinite angle = true) :
    (distance x angle).val ≠ .nan ∧
      (x ≠ angle → (distance angle angle).rank < (distance x angle).rank) := by
  have hxv := Double.val_of_finite hx
  have hav := Double.val_of_finite hangle
  have hzero : (distance angle angle).rank = ((0 : ℚ) : WithTop ℚ) := by
    have h := Double.abs_val (Double.sub_self_val hav)
    rw [abs_zero] at h
    exact Double.rank_of_fin h
  have hfalsy := (Double.sub_spec (ne_nan_of_finite hx) (ne_nan_of_finite hangle)).2
  have hne : x ≠ angle → (Binary64.sub x angle).val ≠ .fin 0 := by
    intro hne hval
    have hrank := hfalsy.mp (decide_eq_true (.inl hval))
    exact hne (rank_inj_of_finite hx hangle hrank)
  have hval : (distance x angle).val = round64 (Binary64.sub x angle).val.abs := rfl
  rw [hzero]
  cases hsub : (Binary64.sub x angle).val with
  | nan =>
    have hnumber := Double.sub_val hxv hav
    rw [hsub, round64] at hnumber
    split_ifs at hnumber
  | negInf =>
    have hinf : (distance x angle).val = .posInf := by rw [hval, hsub]; rfl
    refine ⟨by rw [hinf]; exact ExactNum.noConfusion, fun _ => ?_⟩
    rw [Double.rank_of_posInf hinf]
    exact WithBot.coe_lt_coe.mpr (WithTop.coe_lt_top 0)
  | posInf =>
    have hinf : (distance x angle).val = .posInf := by rw [hval, hsub]; rfl
    refine ⟨by rw [hinf]; exact ExactNum.noConfusion, fun _ => ?_⟩
    rw [Double.rank_of_posInf hinf]
    exact WithBot.coe_lt_coe.mpr (WithTop.coe_lt_top 0)
  | fin r =>
    have habs : (distance x angle).val = .fin |r| := Double.abs_val hsub
    refine ⟨by rw [habs]; exact ExactNum.noConfusion, fun hxa => ?_⟩
    have hr : r ≠ 0 := fun h => hne hxa (by rw [hsub, h])
    rw [Double.rank_of_fin habs]
    exact WithBot.coe_lt_coe.mpr (WithTop.coe_lt_coe.mpr (abs_pos.mpr hr))

theorem farthest_ne {angle : Double} (hangle : angle ∈ grid.angles) (hmore : 1 < grid.angles.length) :
    grid.farthest angle ≠ angle := by
  intro heq
  have hfinite := grid.finite angle hangle
  obtain ⟨other, hother, hne⟩ : ∃ other ∈ grid.angles, other ≠ angle := by
    by_contra hall
    simp only [not_exists, not_and, not_not] at hall
    have hreplicate := List.eq_replicate_of_mem hall
    have hnodup := grid.nodup
    rw [hreplicate, List.nodup_replicate] at hnodup
    omega
  have horders : OrdersBy
      (fun left right : Double =>
        (Binary64.sub (distance right angle) (distance left angle)).orElse (Binary64.sub left right))
      (fun x => toLex (OrderDual.toDual (distance x angle).rank, x.rank)) grid.angles := by
    intro x hx y hy
    rw [Double.lex_positive (distance_spec (grid.finite y hy) hfinite).1
      (distance_spec (grid.finite x hx) hfinite).1 (ne_nan_of_finite (grid.finite x hx))
      (ne_nan_of_finite (grid.finite y hy)), Prod.Lex.toLex_lt_toLex, OrderDual.toDual_lt_toDual,
      OrderDual.toDual_inj]
  have hleast := horders.head_le (jsSort_ne_nil grid.nonempty) hother
  have hhead : (jsSort (fun left right : Double =>
      (Binary64.sub (distance right angle) (distance left angle)).orElse (Binary64.sub left right))
      grid.angles).head (jsSort_ne_nil grid.nonempty) = angle := heq
  rw [hhead, Prod.Lex.toLex_le_toLex, OrderDual.toDual_lt_toDual, OrderDual.toDual_inj] at hleast
  have hgrows := (distance_spec (grid.finite other hother) hfinite).2 hne
  obtain hlt | ⟨heq, -⟩ := hleast
  · exact lt_asymm hlt hgrows
  · exact hgrows.ne heq

end Grid

theorem distinctPair_spec {grid : Grid} {first second : Double} (hfirst : first ∈ grid.angles)
    (hsecond : second ∈ grid.angles) (hmeet : first = second ↔ grid.angles.length = 1) :
    (distinctValues [first, second]).length = min 2 grid.angles.length ∧
      ∀ x ∈ distinctValues [first, second], x ∈ grid.angles := by
  have hpos : 0 < grid.angles.length := List.length_pos_of_mem hfirst
  constructor
  · rw [length_distinctValues]
    by_cases heq : first = second
    · rw [hmeet.mp heq, heq]
      simp
    · have hlen : grid.angles.length ≠ 1 := fun h => heq (hmeet.mpr h)
      have hcard : [first, second].toFinset.card = 2 := by simp [heq]
      rw [hcard]
      omega
  · intro x hx
    have hx' := mem_distinctValues.mp hx
    simp only [List.mem_cons, List.not_mem_nil, or_false] at hx'
    obtain rfl | rfl := hx'
    · exact hfirst
    · exact hsecond

theorem Grid.eq_of_single {grid : Grid} (h : grid.angles.length = 1) {x y : Double}
    (hx : x ∈ grid.angles) (hy : y ∈ grid.angles) : x = y := by
  obtain ⟨z, hz⟩ := List.length_eq_one_iff.mp h
  rw [hz, List.mem_singleton] at hx hy
  rw [hx, hy]

theorem pairOf_spec (grid : Grid) (zeroLift efficiency : Double) :
    (pairOf grid zeroLift efficiency).length = min 2 grid.angles.length ∧
      ∀ x ∈ pairOf grid zeroLift efficiency, x ∈ grid.angles := by
  have hfirst : grid.nearest zeroLift ∈ grid.angles := Grid.firstBy_mem _
  have hpos : 0 < grid.angles.length := List.length_pos_of_mem hfirst
  simp only [pairOf]
  split_ifs with hmove
  · refine distinctPair_spec hfirst (Grid.firstBy_mem _) ⟨fun h => ?_, fun h => ?_⟩
    · exact absurd h.symm (Grid.farthest_ne hfirst hmove.2)
    · omega
  · refine distinctPair_spec hfirst (Grid.firstBy_mem _) ⟨fun h => ?_, fun h => ?_⟩
    · have := not_and.mp hmove h.symm
      omega
    · exact Grid.eq_of_single h hfirst (Grid.firstBy_mem _)

theorem brackets_spec (grid : Grid) :
    (distinctValues [grid.lowest, grid.highest]).length = min 2 grid.angles.length ∧
      ∀ x ∈ distinctValues [grid.lowest, grid.highest], x ∈ grid.angles := by
  have hlow : grid.lowest ∈ grid.angles := List.head_mem _
  have hhigh : grid.highest ∈ grid.angles := List.getLast_mem _
  refine distinctPair_spec hlow hhigh ⟨fun h => ?_, fun h => Grid.eq_of_single h hlow hhigh⟩
  obtain ⟨angles, hne, hfinite, hsorted⟩ := grid
  cases angles with
  | nil => exact absurd rfl hne
  | cons x rest =>
    show (x :: rest).length = 1
    by_cases hrest : rest = []
    · rw [hrest]
      rfl
    · have hmem : (x :: rest).getLast hne ∈ rest := by
        rw [List.getLast_cons hrest]
        exact List.getLast_mem _
      have hlt := (List.pairwise_cons.mp hsorted).1 _ hmem
      have hsame : x = (x :: rest).getLast hne := h
      rw [← hsame] at hlt
      exact absurd hlt (lt_irrefl _)

theorem predictedAnchors_spec {grid : Grid} {prediction : List PredictionAnchorSample}
    {initial : InitialAnchors} (h : predictedAnchors grid prediction = .ok initial) :
    initial.angles.Nodup ∧ initial.angles.length = min 2 grid.angles.length ∧
      ∀ x ∈ initial.angles, x ∈ grid.angles := by
  unfold predictedAnchors at h
  split_ifs at h
  · cases h
    exact ⟨nodup_distinctValues _, brackets_spec grid⟩
  · simp only [anchorsOf] at h
    split_ifs at h
    cases h
    exact ⟨nodup_distinctValues _, pairOf_spec grid _ _⟩

theorem requestedGrid_ok {angles : List Double} {grid : Grid} (h : requestedGrid angles = .ok grid) :
    ∃ (hne : angles ≠ []) (hfinite : Finite angles), grid = gridOf angles hne hfinite := by
  unfold requestedGrid at h
  split at h
  · next hangles => exact ⟨hangles.1, hangles.2, (Except.ok.inj h).symm⟩
  · cases h

theorem mem_gridOf {angles : List Double} {hne : angles ≠ []} {hfinite : Finite angles} {x : Double} :
    x ∈ (gridOf angles hne hfinite).angles ↔ x ∈ angles :=
  mem_jsSort.trans mem_distinctValues

theorem length_gridOf {angles : List Double} {hne : angles ≠ []} {hfinite : Finite angles} :
    (gridOf angles hne hfinite).angles.length = angles.toFinset.card :=
  (jsSort_perm.length_eq).trans (length_distinctValues angles)

/-! ## What a step adds -/

theorem chooseCandidate_mem {attempted : List Double} {candidates : List InformationGainCandidate}
    {alpha : Double} (h : (chooseCandidate attempted candidates).alpha = some alpha) :
    ∃ candidate ∈ candidates, candidate.alpha = alpha ∧ alpha ∉ attempted := by
  simp only [chooseCandidate] at h
  split at h
  · cases h
  · split at h
    · cases h
    · next candidate hhead =>
      have hmem := mem_jsSort.mp (List.mem_of_head? hhead)
      simp only [List.mem_filter, decide_eq_true_eq] at hmem
      obtain rfl := Option.some.inj h
      exact ⟨candidate, hmem.1.1, rfl, hmem.1.2⟩

theorem nextInGrid_spec {grid : Grid} {attempted : List Double} {complete : Bool}
    {candidates : List InformationGainCandidate} {decision : NextAnchor} {alpha : Double}
    (h : nextInGrid grid attempted complete candidates = .ok decision) (halpha : decision.alpha = some alpha) :
    alpha ∈ grid.angles ∧ alpha ∉ attempted ∧
      (distinctValues attempted).length < min maximumFastAnchors grid.angles.length := by
  unfold nextInGrid at h
  split_ifs at h with houtside hcomplete hbudget hinvalid
  · cases h
    cases halpha
  · cases h
    cases halpha
  · cases h
    obtain ⟨candidate, hmem, rfl, hnew⟩ := chooseCandidate_mem halpha
    have hvalid : candidate.valid grid = true := by
      simp only [List.any_eq_true, not_exists, not_and, Bool.not_eq_true', Bool.not_eq_false] at hinvalid
      exact hinvalid candidate hmem
    simp only [InformationGainCandidate.valid, Bool.and_eq_true, decide_eq_true_eq] at hvalid
    exact ⟨hvalid.1.1.1.1.1.1.1, hnew, not_le.mp hbudget⟩

/-! ## The order of the inputs -/

theorem distinctValues_perm {xs ys : List Double} (h : xs.Perm ys) :
    (distinctValues xs).Perm (distinctValues ys) := by
  rw [List.perm_ext_iff_of_nodup (nodup_distinctValues xs) (nodup_distinctValues ys)]
  intro x
  rw [mem_distinctValues, mem_distinctValues, h.mem_iff]

theorem gridOf_perm {xs ys : List Double} (h : xs.Perm ys) {hne : xs ≠ []} {hfinite : Finite xs}
    {hne' : ys ≠ []} {hfinite' : Finite ys} : gridOf xs hne hfinite = gridOf ys hne' hfinite' := by
  have hdistinct : Finite (distinctValues xs) := fun x hx => hfinite x (mem_distinctValues.mp hx)
  have hangles : jsSort ascending (distinctValues xs) = jsSort ascending (distinctValues ys) :=
    (ascending_orders hdistinct).jsSort_eq
      (fun x hx y hy => rank_inj_of_finite (hdistinct x hx) (hdistinct y hy)) (distinctValues_perm h)
  simp only [gridOf, hangles]

theorem requestedGrid_perm {xs ys : List Double} (h : xs.Perm ys) : requestedGrid xs = requestedGrid ys := by
  have hne : xs ≠ [] ↔ ys ≠ [] := by
    rw [ne_eq, ne_eq, ← List.length_eq_zero_iff, ← List.length_eq_zero_iff, h.length_eq]
  have hfinite : Finite xs ↔ Finite ys := by simp only [Finite, h.mem_iff]
  unfold requestedGrid
  by_cases hok : xs ≠ [] ∧ Finite xs
  · rw [dif_pos hok, dif_pos ⟨hne.mp hok.1, hfinite.mp hok.2⟩, gridOf_perm h]
  · rw [dif_neg hok, dif_neg fun h' => hok ⟨hne.mpr h'.1, hfinite.mpr h'.2⟩]

namespace InformationGainCandidate

def orderKey (candidate : InformationGainCandidate) :
    (WithBot (WithTop ℚ))ᵒᵈ ×ₗ WithBot (WithTop ℚ) :=
  toLex (OrderDual.toDual candidate.rate.rank, candidate.alpha.rank)

theorem div_ne_nan {x y : Double} (hx : Binary64.isFinite x = true) (hy : Binary64.isFinite y = true)
    (hpos : Binary64.le y (Binary64.lit 0) = false) : (Binary64.div x y).val ≠ .nan := by
  have hxv := Double.val_of_finite hx
  have hyv := Double.val_of_finite hy
  have hne : y.value ≠ 0 := by
    intro hzero
    rw [hzero] at hyv
    have hle := (Double.le_iff hyv Double.lit_zero).mpr le_rfl
    exact Bool.false_ne_true (hpos.symm.trans hle)
  have hval : (Binary64.div x y).val = round64 (.fin (x.value / y.value)) := by
    show round64 (x.val.div y.val) = _
    rw [hxv, hyv]
    simp only [ExactNum.div, if_neg hne]
  rw [hval, round64]
  split_ifs <;> exact ExactNum.noConfusion

theorem valid_spec {grid : Grid} {candidate : InformationGainCandidate}
    (h : candidate.valid grid = true) :
    Binary64.isFinite candidate.alpha = true ∧ candidate.rate.val ≠ .nan := by
  simp only [valid, Bool.and_eq_true, decide_eq_true_eq, Bool.not_eq_true'] at h
  obtain ⟨⟨⟨⟨⟨⟨⟨halpha, hgain⟩, -⟩, -⟩, hcost⟩, hpos⟩, -⟩, -⟩ := h
  exact ⟨grid.finite _ halpha, div_ne_nan hgain hcost hpos⟩

theorem order_orders {grid : Grid} {candidates : List InformationGainCandidate}
    (h : ∀ candidate ∈ candidates, candidate.valid grid = true) : OrdersBy order orderKey candidates := by
  intro a ha b hb
  obtain ⟨hafin, harate⟩ := valid_spec (h a ha)
  obtain ⟨hbfin, hbrate⟩ := valid_spec (h b hb)
  rw [order, Double.lex_positive hbrate harate (ne_nan_of_finite hafin) (ne_nan_of_finite hbfin)]
  simp only [orderKey, Prod.Lex.toLex_lt_toLex, OrderDual.toDual_lt_toDual, OrderDual.toDual_inj]

end InformationGainCandidate

open InformationGainCandidate

theorem head_alpha_perm {grid : Grid} {xs ys : List InformationGainCandidate}
    (h : ∀ candidate ∈ xs, candidate.valid grid = true) (hperm : xs.Perm ys) :
    (jsSort order xs).head?.map alpha = (jsSort order ys).head?.map alpha := by
  have hkeys := congrArg List.head? ((order_orders h).map_jsSort_perm hperm)
  simp only [List.head?_map] at hkeys
  cases hx : (jsSort order xs).head? with
  | none =>
    rw [hx, Option.map_none, eq_comm, Option.map_eq_none_iff] at hkeys
    rw [hkeys]
  | some a =>
    rw [hx, Option.map_some, eq_comm, Option.map_eq_some_iff] at hkeys
    obtain ⟨b, hb, hkey⟩ := hkeys
    have ha := h a (mem_jsSort.mp (List.mem_of_head? hx))
    have hb' := h b (hperm.mem_iff.mpr (mem_jsSort.mp (List.mem_of_head? hb)))
    have hrank : b.alpha.rank = a.alpha.rank := congrArg (fun k => (ofLex k).2) hkey
    rw [hb, Option.map_some, Option.map_some,
      rank_inj_of_finite (valid_spec hb').1 (valid_spec ha).1 hrank]

theorem chooseCandidate_perm {grid : Grid} {attempted attempted' : List Double}
    {candidates candidates' : List InformationGainCandidate}
    (h : ∀ candidate ∈ candidates, candidate.valid grid = true) (hattempted : attempted.Perm attempted')
    (hperm : candidates.Perm candidates') :
    chooseCandidate attempted candidates = chooseCandidate attempted' candidates' := by
  have havailable : (candidates.filter fun c => decide (c.alpha ∉ attempted)).Perm
      (candidates'.filter fun c => decide (c.alpha ∉ attempted')) := by
    simp only [hattempted.mem_iff]
    exact hperm.filter _
  have hempty : (candidates.filter fun c => decide (c.alpha ∉ attempted)) = [] ↔
      (candidates'.filter fun c => decide (c.alpha ∉ attempted')) = [] := by
    rw [← List.length_eq_zero_iff, ← List.length_eq_zero_iff, havailable.length_eq]
  have hhead := head_alpha_perm
    (fun c hc => h c (List.mem_of_mem_filter (List.mem_of_mem_filter hc)))
    (havailable.filter InformationGainCandidate.useful)
  have hmatch : ∀ first : Option InformationGainCandidate,
      (match first with
        | none => (⟨none, .marginalGain⟩ : NextAnchor)
        | some candidate => ⟨some candidate.alpha, .informationGain⟩) =
      ((first.map alpha).elim ⟨none, .marginalGain⟩ fun alpha => ⟨some alpha, .informationGain⟩) := by
    intro first
    cases first <;> rfl
  simp only [chooseCandidate, hempty, hmatch, hhead]

theorem nextInGrid_perm {grid : Grid} {attempted attempted' : List Double} {complete : Bool}
    {candidates candidates' : List InformationGainCandidate} (hattempted : attempted.Perm attempted')
    (hperm : candidates.Perm candidates') :
    nextInGrid grid attempted complete candidates = nextInGrid grid attempted' complete candidates' := by
  have houtside : (∃ angle ∈ attempted, angle ∉ grid.angles) ↔ ∃ angle ∈ attempted', angle ∉ grid.angles := by
    simp only [hattempted.mem_iff]
  have hlength : (distinctValues attempted).length = (distinctValues attempted').length :=
    (distinctValues_perm hattempted).length_eq
  have hany : (candidates.any fun c => !c.valid grid) = candidates'.any fun c => !c.valid grid := by
    rw [Bool.eq_iff_iff, List.any_eq_true, List.any_eq_true]
    simp only [hperm.mem_iff]
  unfold nextInGrid
  simp only [houtside, hlength, hany]
  split_ifs with h₁ h₂ h₃ h₄
  · rfl
  · rfl
  · rfl
  · rfl
  · rw [← hany] at h₄
    simp only [List.any_eq_true, not_exists, not_and, Bool.not_eq_true', Bool.not_eq_false] at h₄
    exact congrArg Except.ok (chooseCandidate_perm h₄ hattempted hperm)

/-! ## Runs -/

def AnchorStart (angles : List Double) (prediction : Option (List PredictionAnchorSample))
    (attempted : List Double) : Prop :=
  ∃ initial, initialFastAnchors angles prediction = .ok initial ∧ attempted = initial.angles

def AnchorStep (angles attempted attempted' : List Double) : Prop :=
  ∃ complete candidates decision alpha,
    nextFastAnchor angles attempted complete candidates = .ok decision ∧
      decision.alpha = some alpha ∧ attempted' = attempted ++ [alpha]

def AnchorRun (angles : List Double) (prediction : Option (List PredictionAnchorSample)) :
    List Double → Prop :=
  Reachable (AnchorStart angles prediction) (AnchorStep angles)

structure AnchorsWithin (angles attempted : List Double) : Prop where
  nodup : attempted.Nodup
  requested : ∀ x ∈ attempted, x ∈ angles
  budget : attempted.length ≤ min maximumFastAnchors angles.toFinset.card

theorem initialFastAnchors_spec {angles : List Double}
    {prediction : Option (List PredictionAnchorSample)} {initial : InitialAnchors}
    (h : initialFastAnchors angles prediction = .ok initial) :
    initial.angles.length = min 2 angles.toFinset.card ∧ AnchorsWithin angles initial.angles := by
  unfold initialFastAnchors at h
  obtain ⟨grid, hgrid, h⟩ := bind_eq_ok.mp h
  obtain ⟨hne, hfinite, rfl⟩ := requestedGrid_ok hgrid
  obtain ⟨hnodup, hlength, hmem⟩ := predictedAnchors_spec h
  rw [length_gridOf] at hlength
  refine ⟨hlength, hnodup, fun x hx => mem_gridOf.mp (hmem x hx), ?_⟩
  rw [hlength, maximumFastAnchors]
  omega

theorem AnchorsWithin.step {angles attempted attempted' : List Double}
    (hwithin : AnchorsWithin angles attempted) (h : AnchorStep angles attempted attempted') :
    AnchorsWithin angles attempted' := by
  obtain ⟨complete, candidates, decision, alpha, hnext, halpha, rfl⟩ := h
  unfold nextFastAnchor at hnext
  obtain ⟨grid, hgrid, hnext⟩ := bind_eq_ok.mp hnext
  obtain ⟨hne, hfinite, rfl⟩ := requestedGrid_ok hgrid
  obtain ⟨hmem, hnew, hbudget⟩ := nextInGrid_spec hnext halpha
  rw [length_gridOf, length_distinctValues, List.toFinset_card_of_nodup hwithin.nodup] at hbudget
  refine ⟨?_, ?_, ?_⟩
  · rw [List.nodup_append]
    refine ⟨hwithin.nodup, List.nodup_singleton _, fun x hx y hy heq => hnew ?_⟩
    rw [List.mem_singleton] at hy
    rw [← hy, ← heq]
    exact hx
  · intro x hx
    obtain hx | hx := List.mem_append.mp hx
    · exact hwithin.requested x hx
    · rw [List.mem_singleton.mp hx]
      exact mem_gridOf.mp hmem
  · rw [List.length_append, List.length_singleton]
    omega

/-- Along every run the attempts are distinct requested angles within the budget, and no decision
depends on how the inputs are listed. -/
theorem anchor_runs_within_grid (angles : List Double)
    (prediction : Option (List PredictionAnchorSample)) :
    (∀ initial, initialFastAnchors angles prediction = .ok initial →
      initial.angles.length = min 2 angles.toFinset.card) ∧
    (∀ attempted, AnchorRun angles prediction attempted →
      attempted.Nodup ∧ (∀ x ∈ attempted, x ∈ angles) ∧
        attempted.length ≤ min 8 angles.toFinset.card) ∧
    ∀ angles', angles.Perm angles' →
      initialFastAnchors angles prediction = initialFastAnchors angles' prediction ∧
      ∀ complete attempted attempted' candidates candidates', List.Perm attempted attempted' →
        List.Perm candidates candidates' →
        nextFastAnchor angles attempted complete candidates =
          nextFastAnchor angles' attempted' complete candidates' := by
  refine ⟨fun initial h => (initialFastAnchors_spec h).1, fun attempted hrun => ?_, ?_⟩
  · have hwithin : AnchorsWithin angles attempted := by
      refine hrun.invariant (fun attempted hstart => ?_) fun _ _ hwithin hstep => hwithin.step hstep
      obtain ⟨initial, h, rfl⟩ := hstart
      exact (initialFastAnchors_spec h).2
    exact ⟨hwithin.nodup, hwithin.requested, hwithin.budget⟩
  · intro angles' hangles
    have hgrid := requestedGrid_perm hangles
    refine ⟨by unfold initialFastAnchors; rw [hgrid], ?_⟩
    intro complete attempted attempted' candidates candidates' hattempted hcandidates
    unfold nextFastAnchor
    rw [hgrid]
    congr 1
    funext grid
    exact nextInGrid_perm hattempted hcandidates

def sampleAngles : List Double := [Binary64.lit 4, Binary64.lit 0, Binary64.lit 2]

def sampleCandidate : InformationGainCandidate :=
  ⟨Binary64.lit 2, Binary64.lit (1 / 10), Binary64.lit 60, "model", "cost"⟩

theorem anchor_runs_within_grid_sample :
    ∃ attempted, AnchorRun sampleAngles none attempted ∧ attempted.length = 3 ∧
      attempted.Nodup ∧ (∀ x ∈ attempted, x ∈ sampleAngles) ∧
        attempted.length ≤ min 8 sampleAngles.toFinset.card := by
  have hstart : AnchorStart sampleAngles none [Binary64.lit 0, Binary64.lit 4] :=
    ⟨⟨[Binary64.lit 0, Binary64.lit 4], .missingPriorBracketing⟩, by decide +kernel, rfl⟩
  have hstep : AnchorStep sampleAngles [Binary64.lit 0, Binary64.lit 4]
      [Binary64.lit 0, Binary64.lit 4, Binary64.lit 2] :=
    ⟨true, [sampleCandidate], ⟨some (Binary64.lit 2), .informationGain⟩, Binary64.lit 2,
      by decide +kernel, rfl, rfl⟩
  have hrun : AnchorRun sampleAngles none [Binary64.lit 0, Binary64.lit 4, Binary64.lit 2] :=
    (Reachable.start hstart).next hstep
  exact ⟨_, hrun, rfl, (anchor_runs_within_grid sampleAngles none).2.1 _ hrun⟩

end XFoilFoam.Progressive
