import XFoilFoam.Polar.Evidence
import Mathlib.Data.List.Sort

/-! `classifyPolarEvidence` of `polar-fit.ts`.  The points are objects that the passes find again by
identity, so a point is a reference `Ref` with its content in `heap`; one object may be listed twice.
Every pass edits the shared list of classifications, and every edit can only take an accepted
steady-RANS point to `needs_urans` or change a region. -/
namespace XFoilFoam.Polar
open Binary64
set_option autoImplicit false

inductive ResultClassificationState where
  | accepted
  | needsUrans
  | supersededByUrans
  | rejected
  deriving DecidableEq

inductive ResultClassificationRegion where
  | attached
  | nearStall
  | postStall
  | unknown
  deriving DecidableEq

structure PolarEvidenceClassification (Ref F : Type) where
  evidence : Ref
  state : ResultClassificationState
  region : ResultClassificationRegion
  confidence : F
  reasons : List String

structure ClassifiedPolar (Ref F : Type) where
  classifications : List (PolarEvidenceClassification Ref F)
  needsUransAoas : List F
  hardRejectedAoas : List F
  lowAoaFailure : Bool

/-- `PolarEvidenceClassifierOptions`. -/
structure ClassifierOptions where
  detectLowAngleAttachedBranch : Option Bool

section Numbers
variable {F : Type} [Binary64 F]

/-- `[...xs].sort((x, y) => key(x) - key(y))`, which is stable. -/
def sortBy {α : Type} (key : α → F) (xs : List α) : List α :=
  xs.insertionSort (fun x y => lt (lit 0) (sub (key x) (key y)) = false)

def median (values : List F) (fallback : F) : F :=
  let xs := sortBy id (values.filter (fun x => isFinite x && lt (lit 0) x))
  let mid := xs.length / 2
  if xs.isEmpty then fallback
  else if xs.length % 2 = 1 then xs.getD mid fallback
  else div (add (xs.getD (mid - 1) fallback) (xs.getD mid fallback)) (lit 2)

/-- `[...new Set(xs)]`. -/
def distinct (xs : List F) : List F :=
  xs.foldl (fun seen x => if seen.any (eq x) then seen else seen ++ [x]) []

def nominalStep (points : List (PolarEvidencePoint F)) : F :=
  let xs := sortBy id (distinct ((points.map PolarEvidencePoint.a).filter isFinite))
  median (List.zipWith sub xs.tail xs) (lit 1)

structure LinearFit (F : Type) where
  slope : F
  intercept : F
  maxResidual : F

/-- `p.cl ?? 0`. -/
def clOrZero (p : PolarEvidencePoint F) : F := p.cl.getD (lit 0)

/-- Least squares of `cl` over `a`. -/
def linearFit (points : List (PolarEvidencePoint F)) : Option (LinearFit F) :=
  let usable := points.filter (fun p => isFinite p.a && (finiteOf p.cl).isSome)
  if usable.length < 2 then none
  else
    let count : F := lit usable.length
    let mx := div (usable.foldl (fun total p => add total p.a) (lit 0)) count
    let my := div (usable.foldl (fun total p => add total (clOrZero p)) (lit 0)) count
    let num := usable.foldl (fun num p => add num (mul (sub p.a mx) (sub (clOrZero p) my))) (lit 0)
    let den := usable.foldl (fun den p => add den (mul (sub p.a mx) (sub p.a mx))) (lit 0)
    if le den (lit 0) then none
    else
      let slope := div num den
      let intercept := sub my (mul slope mx)
      some ⟨slope, intercept, (usable.map (fun p =>
        Binary64.abs (sub (clOrZero p) (add intercept (mul slope p.a))))).foldl Binary64.max negInf⟩

def ldOf (p : PolarEvidencePoint F) : Option F :=
  match finiteOf p.ld with
  | some ld => some ld
  | none =>
    match finiteOf p.cl, finiteOf p.cd with
    | some cl, some cd => if eq cd (lit 0) then none else some (div cl cd)
    | _, _ => none

/-- `isAutomaticRansPrecalcHandoffEvidence` on a rejected steady row: the structured cause decides,
and without one a solved row whose error text is blank. -/
def isHardRansFailureEvidence (p : PolarEvidencePoint F) : Bool :=
  isSteadyRansEvidence p &&
    match p.failureDisposition with
    | some .deterministicMesh => false
    | some .materialDomain => false
    | some .infrastructure => false
    | some .hardSolver => true
    | some .none => false
    | none => decide (p.status = "done") && decide (p.source = "solved") &&
        p.error.all (fun error => error.toList.all jsWhitespace)

end Numbers

section Classifier
variable {F : Type} [Binary64 F] {Ref : Type} [DecidableEq Ref] (heap : Ref → PolarEvidencePoint F)

/-! ## Passes -/

def initialState (p : PolarEvidencePoint F) : ResultClassificationState :=
  if !(ransHoldCertificateReasons p).isEmpty &&
      (baseRejectionReasons p).length == (ransHoldCertificateReasons p).length &&
      (baseRejectionReasons p).all (ransHoldCertificateReasons p).contains then .needsUrans
  else if (baseRejectionReasons p).isEmpty then .accepted
  else .rejected

def initialClassification (ref : Ref) : PolarEvidenceClassification Ref F where
  evidence := ref
  state := initialState (heap ref)
  region := if initialState (heap ref) = .accepted then .attached else .unknown
  confidence :=
    match initialState (heap ref) with
    | .accepted => lit (9 / 10)
    | .needsUrans => lit (98 / 100)
    | _ => lit 1
  reasons := baseRejectionReasons (heap ref)

def acceptedForShape (c : PolarEvidenceClassification Ref F) : Bool :=
  decide (c.state = .accepted) && isSteadyRansEvidence (heap c.evidence) &&
    (finiteOf (heap c.evidence).cl).isSome && (finiteOf (heap c.evidence).cd).isSome

/-- `classifications.filter(acceptedForShape).map((c) => c.evidence)`. -/
def acceptedEvidence (cs : List (PolarEvidenceClassification Ref F)) : List Ref :=
  (cs.filter (acceptedForShape heap)).map PolarEvidenceClassification.evidence

/-- `lowAoaFailure`. -/
def hasLowAoaFailure (cs : List (PolarEvidenceClassification Ref F)) : Bool :=
  cs.any (fun c => isSteadyRansEvidence (heap c.evidence) && le (lit 0) (heap c.evidence).a &&
    le (heap c.evidence).a (lit 5) && decide (c.state = .rejected) &&
    isHardRansFailureEvidence (heap c.evidence))

def promoteWholePolar (c : PolarEvidenceClassification Ref F) : PolarEvidenceClassification Ref F :=
  if isSteadyRansEvidence (heap c.evidence) && decide (c.state = .accepted) then
    { c with state := .needsUrans, region := .unknown, confidence := lit (9 / 10),
             reasons := ["low-aoa-rans-failure"] }
  else c

/-- `classifications.find((c) => c.evidence === ref)`, edited in place. -/
def updateFirst (ref : Ref)
    (edit : PolarEvidenceClassification Ref F → PolarEvidenceClassification Ref F) :
    List (PolarEvidenceClassification Ref F) → List (PolarEvidenceClassification Ref F)
  | [] => []
  | c :: cs => if c.evidence = ref then edit c :: cs else c :: updateFirst ref edit cs

/-- `candidateResiduals`: low negative angles far off the attached baseline. -/
def candidateResiduals (fit : LinearFit F) (acceptedRans : List Ref) : List (Ref × F) :=
  acceptedRans.filterMap (fun ref =>
    let point := heap ref
    if lt point.a (lit (-6)) || le (lit 0) point.a then none
    else
      match finiteOf point.cl with
      | none => none
      | some cl =>
        let predicted := add fit.intercept (mul fit.slope point.a)
        let residual := sub cl predicted
        if le (lit (15 / 100)) (Binary64.abs predicted) &&
            le (Binary64.max (lit (1 / 4)) (mul fit.maxResidual (lit 5))) (Binary64.abs residual) then
          some (ref, residual)
        else none)

def residualOf (candidates : List (Ref × F)) (ref : Ref) : Option F :=
  (candidates.find? (fun candidate => candidate.1 = ref)).map Prod.snd

/-- The `while` loop that walks left through candidates of one sign. -/
def firstIndexOf (acceptedRans : List Ref) (candidates : List (Ref × F))
    (residualSign maximumAdjacentGap : F) : ℕ → ℕ
  | 0 => 0
  | index + 1 =>
    match acceptedRans[index]?, acceptedRans[index + 1]? with
    | some previous, some current =>
      match residualOf candidates previous with
      | none => index + 1
      | some previousResidual =>
        if !eq (sign previousResidual) residualSign ||
            lt maximumAdjacentGap (sub (heap current).a (heap previous).a) then index + 1
        else firstIndexOf acceptedRans candidates residualSign maximumAdjacentGap index
    | _, _ => index + 1

/-- The run marked from one rightmost candidate that reconnects to a coherent neighbour. -/
def branchRun (fit : LinearFit F) (acceptedRans : List Ref) (candidates : List (Ref × F))
    (maximumAdjacentGap : F) (rightmostIndex : ℕ) : List Ref :=
  match acceptedRans[rightmostIndex]?, acceptedRans[rightmostIndex + 1]? with
  | some rightmost, some next =>
    match residualOf candidates rightmost with
    | none => []
    | some residual =>
      let da := sub (heap next).a (heap rightmost).a
      let localSlope := div (sub (clOrZero (heap next)) (clOrZero (heap rightmost))) da
      if (residualOf candidates next).isSome || le (lit 0) (heap rightmost).a ||
          lt (lit 0) (heap next).a then []
      else if le da (lit 0) || lt maximumAdjacentGap da then []
      else if lt (sub fit.slope localSlope)
          (Binary64.max (lit (1 / 4)) (mul fit.slope (lit 3))) then []
      else
        let firstIndex :=
          firstIndexOf heap acceptedRans candidates (sign residual) maximumAdjacentGap rightmostIndex
        (acceptedRans.drop firstIndex).take (rightmostIndex + 1 - firstIndex)
  | _, _ => []

/-- The points `markLowAngleAttachedBranchDiscontinuities` marks. -/
def branchDiscontinuities (cs : List (PolarEvidenceClassification Ref F)) (nominalAoaStep : F) :
    List Ref :=
  let acceptedRans := sortBy (fun ref => (heap ref).a) (acceptedEvidence heap cs)
  let baseline := acceptedRans.filter (fun ref =>
    le (lit 0) (heap ref).a && le (heap ref).a (lit 5))
  if baseline.length < 4 then []
  else
    match linearFit (baseline.map heap) with
    | none => []
    | some fit =>
      if lt fit.slope (lit (3 / 100)) || lt (lit (6 / 100)) fit.maxResidual then []
      else
        let candidates := candidateResiduals heap fit acceptedRans
        let maximumAdjacentGap :=
          add (mul (Binary64.max (lit 1) nominalAoaStep) (lit (5 / 2))) (lit (1 / 10 ^ 9))
        if candidates.isEmpty then []
        else ((List.range (acceptedRans.length - 1)).flatMap
          (branchRun heap fit acceptedRans candidates maximumAdjacentGap)).eraseDups

def markDiscontinuity (cs : List (PolarEvidenceClassification Ref F)) (ref : Ref) :
    List (PolarEvidenceClassification Ref F) :=
  updateFirst ref (fun c =>
    { c with state := .needsUrans, region := .unknown, confidence := lit (95 / 100),
             reasons := ["low-aoa-attached-branch-discontinuity", "attached-baseline-residual"] }) cs

def markLowAngleAttachedBranchDiscontinuities (cs : List (PolarEvidenceClassification Ref F))
    (nominalAoaStep : F) : List (PolarEvidenceClassification Ref F) :=
  (branchDiscontinuities heap cs nominalAoaStep).foldl markDiscontinuity cs

structure StallScan (Ref F : Type) where
  classifications : List (PolarEvidenceClassification Ref F)
  runningClMax : F
  runningLdMax : F
  runningCdMin : F
  prev : Option Ref

def stallReasons (slope step : F) (scan : StallScan Ref F) (p prev : PolarEvidencePoint F) :
    List String :=
  let cl := clOrZero p
  let cd := p.cd.getD (lit 0)
  let ld := (ldOf p).getD (lit 0)
  let da := Binary64.max (Binary64.abs (sub p.a prev.a)) step
  let localSlope := div (sub cl (prev.cl.getD cl)) da
  pushIf (lt localSlope (mul slope (lit (35 / 100)))) "lift-slope-collapse" ++
    pushIf (isFinite scan.runningClMax && lt (lit 0) scan.runningClMax &&
        lt (lit (5 / 100)) (div (sub scan.runningClMax cl) scan.runningClMax))
      "lift-drop-from-running-max" ++
    pushIf (isFinite scan.runningCdMin && lt (lit 0) scan.runningCdMin &&
        lt (lit (175 / 100)) (div cd scan.runningCdMin))
      "drag-acceleration" ++
    pushIf (isFinite scan.runningLdMax && lt (lit 0) scan.runningLdMax &&
        lt (div ld scan.runningLdMax) (lit (78 / 100)))
      "ld-collapse" ++
    pushIf ((finiteOf p.iterations).any (fun iterations => lt (lit 0) iterations) &&
        (finiteOf p.finalResidual).any (fun residual => lt (lit (1 / 10 ^ 4)) residual))
      "weak-steady-convergence"

/-- The edit at one point: a downgrade on two reasons, else the region beyond the peak. -/
def stallEdit (peak p : PolarEvidencePoint F) (reasons : List String) (ref : Ref)
    (cs : List (PolarEvidenceClassification Ref F)) : List (PolarEvidenceClassification Ref F) :=
  if 2 ≤ reasons.length then
    updateFirst ref (fun c =>
      { c with
        state := .needsUrans
        region := .postStall
        confidence := Binary64.min (lit (95 / 100))
          (add (lit (58 / 100)) (mul (lit reasons.length) (lit (1 / 10))))
        reasons := reasons }) cs
  else if lt peak.a p.a then updateFirst ref (fun c => { c with region := .nearStall }) cs
  else cs

def stallStep (slope step postStallStart : F) (peak : PolarEvidencePoint F) (scan : StallScan Ref F)
    (ref : Ref) : StallScan Ref F where
  classifications :=
    match scan.prev with
    | none => scan.classifications
    | some prev =>
      if lt (heap ref).a postStallStart then scan.classifications
      else stallEdit peak (heap ref) (stallReasons slope step scan (heap ref) (heap prev)) ref
        scan.classifications
  runningClMax := Binary64.max scan.runningClMax (clOrZero (heap ref))
  runningLdMax := Binary64.max scan.runningLdMax ((ldOf (heap ref)).getD (lit 0))
  runningCdMin := Binary64.min scan.runningCdMin ((heap ref).cd.getD (lit 0))
  prev := some ref

/-- `peak`: the first of the largest lift coefficients. -/
def peakOf (first : PolarEvidencePoint F) (points : List (PolarEvidencePoint F)) :
    PolarEvidencePoint F :=
  points.foldl (fun peak p => if lt (peak.cl.getD negInf) (p.cl.getD negInf) then p else peak) first

def markPostStall (cs : List (PolarEvidenceClassification Ref F)) :
    List (PolarEvidenceClassification Ref F) :=
  let acceptedRans := acceptedEvidence heap cs
  let step := nominalStep (acceptedRans.map heap)
  if acceptedRans.length < 5 then cs
  else
    let baseline := acceptedRans.filter (fun ref =>
      le (lit 0) (heap ref).a && le (heap ref).a (lit 5))
    let fallback := acceptedRans.filter (fun ref =>
      le (lit (-4)) (heap ref).a && le (heap ref).a (lit 6))
    match linearFit ((if 3 ≤ baseline.length then baseline else fallback).map heap),
      acceptedRans.head? with
    | some fit, some first =>
      if lt (lit (5 / 1000)) fit.slope then
        let peak := peakOf (heap first) (acceptedRans.map heap)
        let postStallStart := add peak.a (Binary64.max (mul step (lit (3 / 2))) (lit (3 / 2)))
        (acceptedRans.foldl (stallStep heap fit.slope step postStallStart peak)
          ⟨cs, negInf, negInf, posInf, none⟩).classifications
      else cs
    | _, _ => cs

def classifyPolarEvidence (points : List Ref) (options : ClassifierOptions) : ClassifiedPolar Ref F :=
  let initial := (sortBy (fun ref => (heap ref).a) points).map (initialClassification heap)
  let initialStep := nominalStep ((acceptedEvidence heap initial).map heap)
  let lowAoaFailure := hasLowAoaFailure heap initial
  let classifications :=
    if lowAoaFailure then initial.map (promoteWholePolar heap)
    else markPostStall heap
      (if options.detectLowAngleAttachedBranch ≠ some false then
        markLowAngleAttachedBranchDiscontinuities heap initial initialStep
      else initial)
  let aoasOf := fun (state : ResultClassificationState) =>
    sortBy id ((classifications.filter (fun c => c.state = state)).map (fun c => (heap c.evidence).a))
  ⟨classifications, aoasOf .needsUrans, aoasOf .rejected, lowAoaFailure⟩

/-! ## What one edit can do -/

/-- The state a point got from its own reasons, or `needs_urans` on an accepted steady-RANS point. -/
def Downgraded (c : PolarEvidenceClassification Ref F) : Prop :=
  c.state = initialState (heap c.evidence) ∨
    initialState (heap c.evidence) = .accepted ∧ isSteadyRansEvidence (heap c.evidence) = true ∧
      c.state = .needsUrans

/-- The classifications of `ordered`, each only ever downgraded. -/
structure OnlyDowngrades (ordered : List Ref) (cs : List (PolarEvidenceClassification Ref F)) :
    Prop where
  evidence : cs.map PolarEvidenceClassification.evidence = ordered
  downgraded : ∀ c ∈ cs, Downgraded heap c

omit [DecidableEq Ref] in
theorem initial_onlyDowngrades (ordered : List Ref) :
    OnlyDowngrades heap ordered (ordered.map (initialClassification heap)) := by
  refine ⟨?_, ?_⟩
  · rw [List.map_map]
    exact List.map_id ordered
  · intro c hc
    obtain ⟨ref, -, rfl⟩ := List.mem_map.mp hc
    exact Or.inl rfl

variable {heap}

omit [DecidableEq Ref] in
theorem acceptedEvidence_mem {ordered : List Ref} {cs : List (PolarEvidenceClassification Ref F)}
    (h : OnlyDowngrades heap ordered cs) {ref : Ref} (href : ref ∈ acceptedEvidence heap cs) :
    initialState (heap ref) = .accepted ∧ isSteadyRansEvidence (heap ref) = true := by
  obtain ⟨c, hc, rfl⟩ := List.mem_map.mp href
  obtain ⟨hmem, hshape⟩ := List.mem_filter.mp hc
  simp only [acceptedForShape, Bool.and_eq_true, decide_eq_true_eq] at hshape
  obtain ⟨⟨⟨hstate, hsteady⟩, -⟩, -⟩ := hshape
  rcases h.downgraded c hmem with hinit | ⟨hinit, -, -⟩
  · exact ⟨hinit.symm.trans hstate, hsteady⟩
  · exact ⟨hinit, hsteady⟩

omit [DecidableEq Ref] in
theorem promoteWholePolar_onlyDowngrades {ordered : List Ref}
    {cs : List (PolarEvidenceClassification Ref F)} (h : OnlyDowngrades heap ordered cs) :
    OnlyDowngrades heap ordered (cs.map (promoteWholePolar heap)) := by
  have hevidence : ∀ c : PolarEvidenceClassification Ref F,
      (promoteWholePolar heap c).evidence = c.evidence := by
    intro c
    unfold promoteWholePolar
    split <;> rfl
  refine ⟨?_, ?_⟩
  · rw [List.map_map, ← h.evidence]
    exact List.map_congr_left (fun c _ => hevidence c)
  · intro c' hc'
    obtain ⟨c, hc, rfl⟩ := List.mem_map.mp hc'
    unfold promoteWholePolar
    split
    · next hcond =>
      simp only [Bool.and_eq_true, decide_eq_true_eq] at hcond
      obtain ⟨hsteady, hstate⟩ := hcond
      rcases h.downgraded c hc with hinit | ⟨hinit, -, -⟩
      · exact Or.inr ⟨hinit.symm.trans hstate, hsteady, rfl⟩
      · exact Or.inr ⟨hinit, hsteady, rfl⟩
    · exact h.downgraded c hc

theorem updateFirst_onlyDowngrades {ordered : List Ref} (ref : Ref)
    {edit : PolarEvidenceClassification Ref F → PolarEvidenceClassification Ref F}
    (hkeep : ∀ c, (edit c).evidence = c.evidence)
    (hedit : ∀ c, c.evidence = ref → Downgraded heap c → Downgraded heap (edit c))
    {cs : List (PolarEvidenceClassification Ref F)} (h : OnlyDowngrades heap ordered cs) :
    OnlyDowngrades heap ordered (updateFirst ref edit cs) := by
  induction cs generalizing ordered with
  | nil => exact h
  | cons c cs ih =>
    obtain ⟨hev, hdown⟩ := h
    have hhead := hdown c List.mem_cons_self
    have htail : ∀ c' ∈ cs, Downgraded heap c' := fun c' hc' => hdown c' (List.mem_cons_of_mem c hc')
    unfold updateFirst
    split
    · next href =>
      refine ⟨?_, ?_⟩
      · rw [← hev, List.map_cons, List.map_cons, hkeep]
      · intro c' hc'
        rcases List.mem_cons.mp hc' with rfl | hc'
        · exact hedit c href hhead
        · exact htail c' hc'
    · have hrest := ih ⟨rfl, htail⟩
      refine ⟨?_, ?_⟩
      · rw [← hev, List.map_cons, List.map_cons, hrest.evidence]
      · intro c' hc'
        rcases List.mem_cons.mp hc' with rfl | hc'
        · exact hhead
        · exact hrest.downgraded c' hc'

/-! ## What a pass can do -/

theorem branchRun_mem (fit : LinearFit F) (acceptedRans : List Ref) (candidates : List (Ref × F))
    (maximumAdjacentGap : F) (rightmostIndex : ℕ) {ref : Ref}
    (h : ref ∈ branchRun heap fit acceptedRans candidates maximumAdjacentGap rightmostIndex) :
    ref ∈ acceptedRans := by
  unfold branchRun at h
  split at h
  · split at h
    · simp at h
    · simp only at h
      split at h
      · simp at h
      · split at h
        · simp at h
        · split at h
          · simp at h
          · exact List.mem_of_mem_drop (List.mem_of_mem_take h)
  · simp at h

omit [DecidableEq Ref] in
theorem sortBy_perm {α : Type} (key : α → F) (xs : List α) : (sortBy key xs).Perm xs :=
  List.perm_insertionSort _ xs

theorem branchDiscontinuities_mem (cs : List (PolarEvidenceClassification Ref F)) (step : F)
    {ref : Ref} (h : ref ∈ branchDiscontinuities heap cs step) : ref ∈ acceptedEvidence heap cs := by
  unfold branchDiscontinuities at h
  simp only at h
  split at h
  · simp at h
  · split at h
    · simp at h
    · split at h
      · simp at h
      · split at h
        · simp at h
        · rw [List.mem_eraseDups, List.mem_flatMap] at h
          obtain ⟨index, -, h⟩ := h
          exact (sortBy_perm _ _).mem_iff.mp (branchRun_mem _ _ _ _ _ h)

theorem markLowAngle_onlyDowngrades {ordered : List Ref}
    {cs : List (PolarEvidenceClassification Ref F)} (step : F) (h : OnlyDowngrades heap ordered cs) :
    OnlyDowngrades heap ordered (markLowAngleAttachedBranchDiscontinuities heap cs step) := by
  have hmarked : ∀ ref ∈ branchDiscontinuities heap cs step,
      initialState (heap ref) = .accepted ∧ isSteadyRansEvidence (heap ref) = true :=
    fun ref href => acceptedEvidence_mem h (branchDiscontinuities_mem cs step href)
  unfold markLowAngleAttachedBranchDiscontinuities
  -- The marked list is fixed before the first edit, so it is what the induction runs over.
  generalize branchDiscontinuities heap cs step = marked at hmarked
  induction marked generalizing cs with
  | nil => exact h
  | cons ref marked ih =>
    obtain ⟨hinit, hsteady⟩ := hmarked ref List.mem_cons_self
    apply ih
    · refine updateFirst_onlyDowngrades ref ?_ ?_ h
      · exact fun _ => rfl
      · rintro c rfl -
        exact Or.inr ⟨hinit, hsteady, rfl⟩
    · exact fun ref' href' => hmarked ref' (List.mem_cons_of_mem ref href')

theorem stallEdit_onlyDowngrades {ordered : List Ref} {cs : List (PolarEvidenceClassification Ref F)}
    (h : OnlyDowngrades heap ordered cs) (peak p : PolarEvidencePoint F) (reasons : List String)
    {ref : Ref} (hinit : initialState (heap ref) = .accepted)
    (hsteady : isSteadyRansEvidence (heap ref) = true) :
    OnlyDowngrades heap ordered (stallEdit peak p reasons ref cs) := by
  unfold stallEdit
  split
  · refine updateFirst_onlyDowngrades ref ?_ ?_ h
    · exact fun _ => rfl
    · rintro c rfl -
      exact Or.inr ⟨hinit, hsteady, rfl⟩
  · split
    · refine updateFirst_onlyDowngrades ref ?_ ?_ h
      · exact fun _ => rfl
      · exact fun _ _ hc => hc
    · exact h

theorem stallScan_onlyDowngrades {ordered : List Ref} (slope step postStallStart : F)
    (peak : PolarEvidencePoint F) (acceptedRans : List Ref)
    (hmem : ∀ ref ∈ acceptedRans,
      initialState (heap ref) = .accepted ∧ isSteadyRansEvidence (heap ref) = true)
    (scan : StallScan Ref F) (h : OnlyDowngrades heap ordered scan.classifications) :
    OnlyDowngrades heap ordered
      (acceptedRans.foldl (stallStep heap slope step postStallStart peak) scan).classifications := by
  induction acceptedRans generalizing scan with
  | nil => exact h
  | cons ref acceptedRans ih =>
    obtain ⟨hinit, hsteady⟩ := hmem ref List.mem_cons_self
    apply ih (fun ref' href' => hmem ref' (List.mem_cons_of_mem ref href'))
    unfold stallStep
    simp only
    split
    · exact h
    · split
      · exact h
      · exact stallEdit_onlyDowngrades h _ _ _ hinit hsteady

theorem markPostStall_onlyDowngrades {ordered : List Ref}
    {cs : List (PolarEvidenceClassification Ref F)} (h : OnlyDowngrades heap ordered cs) :
    OnlyDowngrades heap ordered (markPostStall heap cs) := by
  unfold markPostStall
  simp only
  split
  · exact h
  · split
    · split
      · exact stallScan_onlyDowngrades _ _ _ _ _ (fun ref href => acceptedEvidence_mem h href) _ h
      · exact h
    · exact h

theorem classifyPolarEvidence_invariant (points : List Ref) (options : ClassifierOptions) :
    OnlyDowngrades heap (sortBy (fun ref => (heap ref).a) points)
      (classifyPolarEvidence heap points options).classifications := by
  have hinitial := initial_onlyDowngrades heap (sortBy (fun ref => (heap ref).a) points)
  unfold classifyPolarEvidence
  simp only
  split
  · exact promoteWholePolar_onlyDowngrades hinitial
  · apply markPostStall_onlyDowngrades
    split
    · exact markLowAngle_onlyDowngrades _ hinitial
    · exact hinitial

/-! ## States and reasons -/

omit [DecidableEq Ref] in
theorem initialState_needsUrans (p : PolarEvidencePoint F) :
    initialState p = .needsUrans ↔
      baseRejectionReasons p ≠ [] ∧ ∀ r ∈ baseRejectionReasons p, r ∈ ransHoldReasonTexts := by
  rw [baseRejectionReasons_all_hold]
  unfold initialState
  split
  · next h =>
    simp only [Bool.and_eq_true, Bool.not_eq_true', List.isEmpty_eq_false_iff, beq_iff_eq] at h
    obtain ⟨⟨hhold, hlength⟩, hall⟩ := h
    have hne : baseRejectionReasons p ≠ [] := by
      intro hnil
      rw [hnil, List.length_nil] at hlength
      exact hhold (List.length_eq_zero_iff.mp hlength.symm)
    -- The hold reasons are a part of the list of the same length, so they are all of it.
    have hsub : (ransHoldCertificateReasons p).Sublist (baseRejectionReasons p) := by
      unfold baseRejectionReasons
      rw [List.append_assoc]
      exact (List.sublist_append_left _ _).trans (List.sublist_append_right _ _)
    simp only [true_iff]
    exact ⟨hne, (hsub.eq_of_length hlength.symm).symm⟩
  · next h =>
    constructor
    · intro hstate
      split at hstate <;> cases hstate
    · rintro ⟨hne, heq⟩
      refine absurd ?_ h
      rw [heq] at hne ⊢
      simp [hne]

omit [DecidableEq Ref] in
theorem initialState_accepted (p : PolarEvidencePoint F) :
    initialState p = .accepted ↔ baseRejectionReasons p = [] := by
  constructor
  · intro h
    unfold initialState at h
    split at h
    · cases h
    · split at h
      · next hempty => exact List.isEmpty_iff.mp hempty
      · cases h
  · intro h
    have hne : ¬ initialState p = .needsUrans := by
      rw [initialState_needsUrans, h]
      simp
    unfold initialState at hne ⊢
    split
    · next hcond => simp [hcond] at hne
    · rw [h]
      rfl

omit [DecidableEq Ref] in
theorem initialState_cases (p : PolarEvidencePoint F) :
    initialState p = .needsUrans ∨ initialState p = .accepted ∨ initialState p = .rejected := by
  unfold initialState
  split
  · exact Or.inl rfl
  · split
    · exact Or.inr (Or.inl rfl)
    · exact Or.inr (Or.inr rfl)

omit [DecidableEq Ref] in
theorem initialState_rejected (p : PolarEvidencePoint F) :
    initialState p = .rejected ↔
      baseRejectionReasons p ≠ [] ∧ ¬ ∀ r ∈ baseRejectionReasons p, r ∈ ransHoldReasonTexts := by
  have haccepted := initialState_accepted p
  have hneeds := initialState_needsUrans p
  constructor
  · intro h
    rw [h] at haccepted hneeds
    have hne : baseRejectionReasons p ≠ [] := fun hnil => by cases haccepted.mpr hnil
    exact ⟨hne, fun hall => by cases hneeds.mpr ⟨hne, hall⟩⟩
  · rintro ⟨hne, hall⟩
    rcases initialState_cases p with h | h | h
    · exact absurd (hneeds.mp h).2 hall
    · exact absurd (haccepted.mp h) hne
    · exact h

omit [DecidableEq Ref] in
theorem initialState_needsUrans_steady (p : PolarEvidencePoint F) (h : initialState p = .needsUrans) :
    isSteadyRansEvidence p = true := by
  obtain ⟨hne, hall⟩ := (initialState_needsUrans p).mp h
  rw [baseRejectionReasons_all_hold] at hall
  exact ransHoldCertificateReasons_steady p (hall ▸ hne)

/-- Every point is classified once for each time it is listed; it is rejected for its own reasons
alone, accepted only without any, and handed to URANS only as steady-RANS evidence. -/
theorem classifyPolarEvidence_only_downgrades (points : List Ref) (options : ClassifierOptions) :
    ((classifyPolarEvidence heap points options).classifications.map
        PolarEvidenceClassification.evidence).Perm points ∧
      ∀ c ∈ (classifyPolarEvidence heap points options).classifications,
        (c.state = .rejected ↔ baseRejectionReasons (heap c.evidence) ≠ [] ∧
          ¬ ∀ r ∈ baseRejectionReasons (heap c.evidence), r ∈ ransHoldReasonTexts) ∧
        (c.state = .accepted → baseRejectionReasons (heap c.evidence) = []) ∧
        (c.state = .needsUrans → isSteadyRansEvidence (heap c.evidence) = true) ∧
        (isSteadyRansEvidence (heap c.evidence) = false →
          c.state = initialState (heap c.evidence)) ∧
        c.state ≠ .supersededByUrans := by
  have hinv : OnlyDowngrades heap (sortBy (fun ref => (heap ref).a) points)
      (classifyPolarEvidence heap points options).classifications :=
    classifyPolarEvidence_invariant points options
  refine ⟨hinv.evidence ▸ sortBy_perm _ points, ?_⟩
  intro c hc
  rcases hinv.downgraded c hc with hstate | ⟨hinit, hsteady, hstate⟩
  · rw [hstate]
    refine ⟨initialState_rejected _, (initialState_accepted _).mp,
      initialState_needsUrans_steady _, fun _ => rfl, ?_⟩
    rcases initialState_cases (heap c.evidence) with h | h | h
    all_goals
      rw [h]
      decide
  · have hnil := (initialState_accepted _).mp hinit
    rw [hstate, hnil]
    refine ⟨by simp, fun _ => rfl, fun _ => hsteady, fun h => ?_, by decide⟩
    rw [hsteady] at h
    cases h

end Classifier

end XFoilFoam.Polar
