import XFoilFoam.Estimate.Observations
import Mathlib.Data.List.GetD

/-! `history_observations` of `postprocess/polar_history.py`: a recorded history is cut into blocks, each of
which becomes one observation with the window it covers. -/
namespace XFoilFoam.Estimate
open Binary64
set_option autoImplicit false

/-! ## Records -/

structure PolarHistory where
  observation : PolarObservation
  artifactSha256 : String
  coordinateKind : String
  coordinate : List Double
  coefficients : List (List Double)
  informativeStart : Double
  correlationTime : Option Double
  correlationEvidenceId : Option String

structure HistoryReductionPolicy where
  blockDuration : Double
  minimumSamples : ℤ
  noiseFloor : List Double
  maximumBlocks : Option ℤ := none

structure BlockPayload where
  artifact : String
  start : Double
  stop : Double
  coordinateKind : String
  resultId : String
  attemptId : String
  correlationEvidenceId : Option String

/-- `np.sum` of one axis, whose order of additions is numpy's, `np.sqrt`, and the hex SHA-256 of the payload's
JSON text. -/
structure Numerics where
  sum : List Double → Double
  sqrt : Double → Double
  digest : BlockPayload → String

/-! ## Statistics of a block -/

def square (x : Double) : Double := mul x x

/-- `weights` of `_weighted_statistics`: half of the steps on both sides, by the duration. -/
def sampleWeights (coordinate : List Double) : List Double :=
  let halves := List.zipWith (fun x y => div (sub y x) (lit 2)) coordinate coordinate.tail
  let duration := sub (coordinate.getLastD (lit 0)) (coordinate.headD (lit 0))
  (List.zipWith add (halves ++ [lit 0]) (lit 0 :: halves)).map fun w => div w duration

structure ChannelStatistics where
  mean : Double
  variance : Double
  drift : Double

/-- `_weighted_statistics` in one column. -/
def channelStatistics (num : Numerics) (coordinate weights values : List Double) : ChannelStatistics :=
  let duration := sub (coordinate.getLastD (lit 0)) (coordinate.headD (lit 0))
  let mean := num.sum (List.zipWith mul values weights)
  let variance := num.sum (List.zipWith mul (values.map fun v => square (sub v mean)) weights)
  let center := num.sum (List.zipWith mul coordinate weights)
  let spread := num.sum (List.zipWith mul (coordinate.map fun x => square (sub x center)) weights)
  let products := List.zipWith (fun x v => mul (sub x center) (sub v mean)) coordinate values
  let slope := div (num.sum (List.zipWith mul products weights)) spread
  ⟨mean, variance, mul (abs slope) duration⟩

/-- `coordinates[start:stop + 1]`. -/
def slice {α : Type} (xs : List α) (start stop : ℕ) : List α := (xs.drop start).take (stop + 1 - start)

/-- The observation of the samples from `start` to `stop`. -/
def block (num : Numerics) (history : PolarHistory) (policy : HistoryReductionPolicy) (start stop : ℕ) :
    PolarObservation :=
  let coordinate := slice history.coordinate start stop
  let rows := slice history.coefficients start stop
  let weights := sampleWeights coordinate
  let samplingCount := div (lit 1) (num.sum (weights.map square))
  let first := coordinate.headD (lit 0)
  let last := coordinate.getLastD (lit 0)
  let physical := history.coordinateKind == "physical_time"
  let effectiveCount :=
    match history.correlationTime with
    | some time =>
      if physical then
        (lit 1 : Double).pyMax (samplingCount.pyMin (div (sub last first) (mul (lit 2) time)))
      else lit 1
    | none => lit 1
  let channels := (List.range 3).map fun j =>
    channelStatistics num coordinate weights (rows.map fun row => row.getD j (lit 0))
  let uncertainty := List.zipWith (fun channel floor =>
    num.sqrt (add (add (div channel.variance effectiveCount) (square channel.drift)) (square floor)))
    channels policy.noiseFloor
  { history.observation with
    observationId := "history-block-" ++ num.digest ⟨history.artifactSha256, first, last, history.coordinateKind,
      history.observation.resultId, history.observation.attemptId, history.correlationEvidenceId⟩
    coefficients := some (channels.map ChannelStatistics.mean)
    standardError := some uncertainty
    window := if physical then some (first, last) else none
    statisticalCertification :=
      if physical then history.observation.statisticalCertification else "numerical_iterations_only" }

/-! ## Cutting -/

/-- The last sample of the block that begins at `start`, after `count` blocks. -/
def blockStop (history : PolarHistory) (policy : HistoryReductionPolicy) (start count : ℕ) : ℕ :=
  let n := history.coordinate.length
  if history.coordinateKind == "iteration" || policy.maximumBlocks == some ((count : ℤ) + 1) then n - 1
  else
    -- `searchsorted(..., side="right") - 1`
    let target := add (history.coordinate.getD start (lit 0)) policy.blockDuration
    let stop := min ((history.coordinate.countP fun x => le x target) - 1) (n - 1)
    if policy.maximumBlocks.isNone then stop
    else
      let stop := min (max stop (start + policy.minimumSamples - 1).toNat) (n - 1)
      if (n : ℤ) - stop < policy.minimumSamples then n - 1 else stop

/-- The `while` loop; nothing when the fuel is used up. -/
def blockLoop (num : Numerics) (history : PolarHistory) (policy : HistoryReductionPolicy) :
    ℕ → ℕ → ℕ → Option (List PolarObservation)
  | 0, _, _ => none
  | fuel + 1, start, count =>
    if start < history.coordinate.length - 1 then
      let stop := blockStop history policy start count
      if (stop : ℤ) - start + 1 < policy.minimumSamples then some []
      else (blockLoop num history policy fuel stop (count + 1)).map (block num history policy start stop :: ·)
    else some []

/-- The checks of `history_observations` in their order. -/
def historyChecks (history : PolarHistory) (policy : HistoryReductionPolicy) : List (Bool × String) :=
  [(decide (history.coordinate.length < 2) || (history.coordinate.any fun x => !isFinite x) ||
      notIncreasing history.coordinate,
    "History coordinates must be real, finite and strictly increasing")] ++
  matrixChecks history.coefficients history.coordinate.length "history coefficients" ++
  [(nonphysicalDrag history.coefficients, "Nonphysical history drag")] ++
  positiveVectorChecks policy.noiseFloor 3 "history noise floor" ++
  [(!isFinite policy.blockDuration || le policy.blockDuration (lit 0) || decide (policy.minimumSamples < 4) ||
      (policy.maximumBlocks.any fun m => !(decide (1 ≤ m) && decide (m ≤ 128))),
    "Invalid history reduction policy"),
   (history.coordinateKind != "physical_time" && history.coordinateKind != "iteration",
    "Unknown history coordinate kind"),
   (!isFinite history.informativeStart || lt history.informativeStart (history.coordinate.headD (lit 0)),
    "An informative window must identify the real retained history"),
   (!isSha256Hex history.artifactSha256, "History observations require an immutable source artifact checksum"),
   (history.correlationTime.any fun time =>
      !isFinite time || le time (lit 0) || !truthy history.correlationEvidenceId,
    "A measured correlation time requires its evidence identity")]

def rejectionChecks (source : PolarObservation) : List (Bool × String) :=
  [(["diverged", "corrupt", "nonphysical"].contains source.numericalConvergence,
    "Rejected history must not be reduced into eligible blocks"),
   (["startup_only", "corrupt"].contains source.statisticalCertification,
    "Startup-only history has no informative blocks")]

/-- `selected`: the informative samples. -/
def informative (history : PolarHistory) : List ℕ :=
  (List.range history.coordinate.length).filter fun i =>
    le history.informativeStart (history.coordinate.getD i (lit 0))

def excludedWith (source : PolarObservation) (reason : String) : PolarObservation :=
  { source with eligible := false, exclusionReason := some reason }

inductive HistoryError where
  | valueError (text : String)
  | unfinished
  deriving DecidableEq

def historyObservations (num : Numerics) (history : PolarHistory) (policy : HistoryReductionPolicy) :
    Except HistoryError (List PolarObservation) :=
  let source := history.observation
  match firstProblem (historyChecks history policy) with
  | some text => .error (.valueError text)
  | none =>
    if !source.eligible || truthy source.exclusionReason then .ok [source]
    else
      match firstProblem (rejectionChecks source) with
      | some text => .error (.valueError text)
      | none =>
        if ((informative history).length : ℤ) < policy.minimumSamples then
          .ok [excludedWith source "insufficient_informative_history"]
        else
          match blockLoop num history policy history.coordinate.length ((informative history).headD 0) 0 with
          | none => .error .unfinished
          | some [] => .ok [excludedWith source "insufficient_history_block_duration"]
          | some blocks => .ok blocks

/-! ## Blocks tile the informative interval -/

/-- The samples from `start` to the last one are cut at shared samples, at least `minimum` to a block. -/
def Tiled (coordinate : List Double) (minimum : ℤ) : ℕ → List PolarObservation → Prop
  | start, [] => start + 1 = coordinate.length
  | start, b :: rest => ∃ stop, start < stop ∧ stop < coordinate.length ∧ minimum ≤ (stop : ℤ) - start + 1 ∧
      b.window = some (coordinate.getD start (lit 0), coordinate.getD stop (lit 0)) ∧
      Tiled coordinate minimum stop rest

section Tiling
variable {num : Numerics} {history : PolarHistory} {policy : HistoryReductionPolicy} {maximum : ℤ}
  {start stop count fuel : ℕ} {blocks : List PolarObservation}

theorem getElem?_slice {α : Type} (xs : List α) {k : ℕ} (h : k < stop + 1 - start) :
    (slice xs start stop)[k]? = xs[start + k]? := by
  rw [slice, List.getElem?_take, if_pos h, List.getElem?_drop]

theorem headD_slice {α : Type} (xs : List α) (d : α) (h : start ≤ stop) :
    (slice xs start stop).headD d = xs.getD start d := by
  rw [List.headD_eq_head?_getD, List.head?_eq_getElem?, getElem?_slice xs (by omega), List.getD_eq_getElem?_getD,
    Nat.add_zero]

theorem getLastD_slice {α : Type} (xs : List α) (d : α) (h : start ≤ stop) (hstop : stop < xs.length) :
    (slice xs start stop).getLastD d = xs.getD stop d := by
  have hlength : (slice xs start stop).length = stop + 1 - start := by
    rw [slice, List.length_take, List.length_drop]
    omega
  rw [List.getLastD_eq_getLast?, List.getLast?_eq_getElem?, hlength, getElem?_slice xs (by omega),
    List.getD_eq_getElem?_getD]
  congr 2
  omega

theorem block_window (hkind : history.coordinateKind = "physical_time") (h : start ≤ stop)
    (hstop : stop < history.coordinate.length) :
    (block num history policy start stop).window =
      some (history.coordinate.getD start (lit 0), history.coordinate.getD stop (lit 0)) := by
  simp only [block, hkind, beq_self_eq_true, if_true, headD_slice _ _ h, getLastD_slice _ _ h hstop]

theorem blockStop_spec (count : ℕ) (hkind : history.coordinateKind = "physical_time")
    (hmax : policy.maximumBlocks = some maximum) (hmin : 4 ≤ policy.minimumSamples)
    (hroom : policy.minimumSamples ≤ (history.coordinate.length : ℤ) - start) :
    start < blockStop history policy start count ∧
      blockStop history policy start count < history.coordinate.length ∧
      policy.minimumSamples ≤ (blockStop history policy start count : ℤ) - start + 1 ∧
      (blockStop history policy start count + 1 = history.coordinate.length ∨
        policy.minimumSamples ≤ (history.coordinate.length : ℤ) - blockStop history policy start count) ∧
      ((count : ℤ) + 1 = maximum → blockStop history policy start count + 1 = history.coordinate.length) := by
  have hiteration : (history.coordinateKind == "iteration") = false := by
    rw [hkind]
    decide
  simp only [blockStop, hiteration, hmax, Bool.false_or, Option.isNone_some, Bool.false_eq_true, if_false]
  split
  · refine ⟨?_, ?_, ?_, .inl ?_, fun _ => ?_⟩ <;> omega
  · rename_i hlast
    have hne : ¬(count : ℤ) + 1 = maximum := fun heq => hlast (by rw [heq]; exact beq_self_eq_true _)
    split
    · refine ⟨?_, ?_, ?_, .inl ?_, fun heq => absurd heq hne⟩ <;> omega
    · refine ⟨?_, ?_, ?_, .inr ?_, fun heq => absurd heq hne⟩ <;> omega

theorem blockLoop_tiled (num : Numerics) (count : ℕ) (hkind : history.coordinateKind = "physical_time")
    (hmax : policy.maximumBlocks = some maximum) (hmin : 4 ≤ policy.minimumSamples)
    (hfuel : history.coordinate.length ≤ start + fuel) (hstart : start < history.coordinate.length)
    (hroom : start + 1 = history.coordinate.length ∨
      policy.minimumSamples ≤ (history.coordinate.length : ℤ) - start ∧ (count : ℤ) < maximum)
    (hcount : (count : ℤ) ≤ maximum) :
    ∃ blocks, blockLoop num history policy fuel start count = some blocks ∧
      Tiled history.coordinate policy.minimumSamples start blocks ∧
      (count : ℤ) + blocks.length ≤ maximum := by
  induction fuel generalizing start count with
  | zero => omega
  | succ fuel ih =>
    rw [blockLoop]
    by_cases hlast : start + 1 = history.coordinate.length
    · rw [if_neg (by omega)]
      exact ⟨[], rfl, hlast, by simpa using hcount⟩
    · obtain ⟨hroom, hleft⟩ := hroom.resolve_left hlast
      obtain ⟨hlt, hstop, hsamples, hnext, hfinal⟩ := blockStop_spec count hkind hmax hmin hroom
      have hroom' : blockStop history policy start count + 1 = history.coordinate.length ∨
          policy.minimumSamples ≤ (history.coordinate.length : ℤ) - blockStop history policy start count ∧
            ((count + 1 : ℕ) : ℤ) < maximum := by
        by_cases hone : (count : ℤ) + 1 = maximum
        · exact .inl (hfinal hone)
        · exact hnext.imp id fun h => ⟨h, by push_cast; omega⟩
      obtain ⟨blocks, hblocks, htiled, hlength⟩ := ih _ (by omega) hstop hroom' (by push_cast; omega)
      simp only [if_pos (by omega : start < history.coordinate.length - 1)]
      rw [if_neg (by omega), hblocks]
      refine ⟨_, rfl, ⟨_, hlt, hstop, hsamples, block_window hkind hlt.le hstop, htiled⟩, ?_⟩
      rw [List.length_cons]
      push_cast at hlength ⊢
      omega

/-! ## Windows that share no time -/

theorem increasing_of_check {xs : List Double} (hfinite : ∀ x ∈ xs, isFinite x = true)
    (h : notIncreasing xs = false) : xs.Pairwise fun x y => x.value < y.value := by
  induction xs with
  | nil => exact List.Pairwise.nil
  | cons x xs ih =>
    cases xs with
    | nil => exact List.pairwise_singleton _ _
    | cons y rest =>
      rw [notIncreasing, Bool.or_eq_false_iff] at h
      have htail := ih (fun z hz => hfinite z (List.mem_cons_of_mem x hz)) h.2
      have hx := Double.val_of_finite (hfinite x List.mem_cons_self)
      have hy := Double.val_of_finite (hfinite y (List.mem_cons_of_mem x List.mem_cons_self))
      have hsub : (sub y x).val ≠ .nan := by
        rw [Double.sub_val hy hx]
        exact Double.ofExact_ne_nan _
      have hzero : (lit 0 : Double).val ≠ .nan := Double.ofExact_ne_nan 0
      have hpositive : (sub y x).positive = true := by
        refine (Double.lt_iff_rank hzero hsub).mpr (not_le.mp fun hle => ?_)
        rw [(Double.le_iff_rank hsub hzero).mpr hle] at h
        exact absurd h.1 (by decide)
      have hxy : x.value < y.value := (Double.sub_fin_spec hy hx).1.mp hpositive
      refine List.pairwise_cons.mpr ⟨fun z hz => ?_, htail⟩
      obtain rfl | hz := List.mem_cons.mp hz
      · exact hxy
      · exact hxy.trans ((List.pairwise_cons.mp htail).1 z hz)

structure Increasing (coordinate : List Double) : Prop where
  finite : ∀ x ∈ coordinate, isFinite x = true
  pairwise : coordinate.Pairwise fun x y => x.value < y.value

theorem Increasing.val {coordinate : List Double} (h : Increasing coordinate) {i : ℕ} (hi : i < coordinate.length) :
    (coordinate.getD i (lit 0)).val = .fin (coordinate.getD i (lit 0)).value := by
  refine Double.val_of_finite (h.finite _ ?_)
  rw [List.getD_eq_getElem _ _ hi]
  exact List.getElem_mem hi

theorem Increasing.rank_le {coordinate : List Double} (h : Increasing coordinate) {i j : ℕ} (hij : i ≤ j)
    (hj : j < coordinate.length) : (coordinate.getD i (lit 0)).rank ≤ (coordinate.getD j (lit 0)).rank := by
  rw [Double.rank_of_fin (h.val (hij.trans_lt hj)), Double.rank_of_fin (h.val hj)]
  obtain rfl | hlt := hij.eq_or_lt
  · exact le_rfl
  · have hvalue := List.pairwise_iff_getElem.mp h.pairwise i j (hij.trans_lt hj) hj hlt
    rw [List.getD_eq_getElem _ _ (hij.trans_lt hj), List.getD_eq_getElem _ _ hj]
    exact_mod_cast hvalue.le

theorem not_overlap_of_le {a b : Double × Double} (ha : a.2.val ≠ .nan) (ha' : a.1.val ≠ .nan) (hb : b.1.val ≠ .nan)
    (hb' : b.2.val ≠ .nan) (h : a.2.rank ≤ b.1.rank) :
    windowsOverlap a b = false ∧ windowsOverlap b a = false := by
  obtain ⟨hmax, -, hmaxb⟩ := Double.rank_pyMax ha' hb
  obtain ⟨hmin, hmina, -⟩ := Double.rank_pyMin ha hb'
  obtain ⟨hmax', hmaxb', -⟩ := Double.rank_pyMax hb ha'
  obtain ⟨hmin', -, hmina'⟩ := Double.rank_pyMin hb' ha
  exact ⟨(Double.not_lt_iff_rank hmax hmin).mpr (hmina.trans (h.trans hmaxb)),
    (Double.not_lt_iff_rank hmax' hmin').mpr (hmina'.trans (h.trans hmaxb'))⟩

theorem Tiled.window {coordinate : List Double} {minimum : ℤ} (h : Tiled coordinate minimum start blocks)
    {b : PolarObservation} (hb : b ∈ blocks) : ∃ i j, start ≤ i ∧ i < j ∧ j < coordinate.length ∧
      b.window = some (coordinate.getD i (lit 0), coordinate.getD j (lit 0)) := by
  induction blocks generalizing start with
  | nil => exact absurd hb List.not_mem_nil
  | cons first rest ih =>
    obtain ⟨stop, hlt, hstop, -, hwindow, hrest⟩ := h
    obtain rfl | hb := List.mem_cons.mp hb
    · exact ⟨start, stop, le_rfl, hlt, hstop, hwindow⟩
    · obtain ⟨i, j, hi, hij, hj, hwindow'⟩ := ih hrest hb
      exact ⟨i, j, hlt.le.trans hi, hij, hj, hwindow'⟩

theorem Tiled.pairwise {coordinate : List Double} {minimum : ℤ} (hincreasing : Increasing coordinate)
    (h : Tiled coordinate minimum start blocks) : blocks.Pairwise Apart := by
  induction blocks generalizing start with
  | nil => exact List.Pairwise.nil
  | cons first rest ih =>
    obtain ⟨stop, hlt, hstop, -, hwindow, hrest⟩ := h
    refine List.pairwise_cons.mpr ⟨fun b hb a a' ha ha' => ?_, ih hrest⟩
    obtain ⟨i, j, hi, hij, hj, hwindow'⟩ := hrest.window hb
    rw [hwindow] at ha
    rw [hwindow'] at ha'
    cases ha
    cases ha'
    have hnan : ∀ {k : ℕ}, k < coordinate.length → (coordinate.getD k (lit 0)).val ≠ .nan := fun hk =>
      Double.ne_nan_of_fin (hincreasing.val hk)
    exact not_overlap_of_le (hnan hstop) (hnan (hlt.trans hstop)) (hnan (hij.trans hj)) (hnan hj)
      (hincreasing.rank_le hi (hij.trans hj))

/-! ## The informative samples -/

theorem mem_informative {i : ℕ} : i ∈ informative history ↔
    i < history.coordinate.length ∧ le history.informativeStart (history.coordinate.getD i (lit 0)) = true := by
  rw [informative, List.mem_filter, List.mem_range]

theorem informative_spec (h : informative history ≠ []) :
    (informative history).headD 0 ∈ informative history ∧
      (∀ i < (informative history).headD 0, i ∉ informative history) ∧
      (informative history).length ≤ history.coordinate.length - (informative history).headD 0 := by
  have hsorted : (informative history).Pairwise (· < ·) := List.pairwise_lt_range.filter _
  obtain ⟨first, rest, hcons⟩ := List.exists_cons_of_ne_nil h
  have hhead : (informative history).headD 0 = first := by rw [hcons]; rfl
  rw [hcons] at hsorted
  have hafter := (List.pairwise_cons.mp hsorted).1
  have hle : ∀ i ∈ informative history, first ≤ i := by
    intro i hi
    rw [hcons] at hi
    obtain rfl | hi := List.mem_cons.mp hi
    · exact le_rfl
    · exact (hafter i hi).le
  rw [hhead]
  refine ⟨by rw [hcons]; exact List.mem_cons_self, fun i hi hmem => absurd (hle i hmem) (by omega), ?_⟩
  have hsubset : informative history ⊆ List.range' first (history.coordinate.length - first) := by
    intro i hi
    have hlength := (mem_informative.mp hi).1
    have hfirst := hle i hi
    rw [List.mem_range'_1]
    omega
  have hnodup : (informative history).Nodup := List.nodup_range.filter _
  simpa using (hnodup.subperm hsubset).length_le

/-- What makes a history one that is cut into blocks. -/
structure Reducible (history : PolarHistory) (policy : HistoryReductionPolicy) : Prop where
  checked : firstProblem (historyChecks history policy) = none
  eligible : history.observation.eligible = true ∧ truthy history.observation.exclusionReason = false
  accepted : firstProblem (rejectionChecks history.observation) = none
  enough : policy.minimumSamples ≤ ((informative history).length : ℤ)

theorem increasing_of_checked (h : firstProblem (historyChecks history policy) = none) :
    Increasing history.coordinate := by
  have hcheck := firstProblem_eq_none h List.mem_cons_self
  simp only [Bool.or_eq_false_iff, List.any_eq_false] at hcheck
  obtain ⟨⟨-, hfinite⟩, hincreasing⟩ := hcheck
  have hfinite' : ∀ x ∈ history.coordinate, isFinite x = true := fun x hx => by simpa using hfinite x hx
  exact ⟨hfinite', increasing_of_check hfinite' hincreasing⟩

theorem policy_of_checked (h : firstProblem (historyChecks history policy) = none)
    (hmax : policy.maximumBlocks = some maximum) : 4 ≤ policy.minimumSamples ∧ 1 ≤ maximum := by
  have hmem : (!isFinite policy.blockDuration || le policy.blockDuration (lit 0) ||
      decide (policy.minimumSamples < 4) ||
      (policy.maximumBlocks.any fun m => !(decide (1 ≤ m) && decide (m ≤ 128))),
    "Invalid history reduction policy") ∈ historyChecks history policy := by simp [historyChecks]
  have hcheck := firstProblem_eq_none h hmem
  simp [hmax] at hcheck
  omega

def FirstInformative (history : PolarHistory) (first : ℕ) : Prop :=
  first < history.coordinate.length ∧ le history.informativeStart (history.coordinate.getD first (lit 0)) = true ∧
    ∀ i < first, le history.informativeStart (history.coordinate.getD i (lit 0)) = false

theorem historyObservations_of_reducible (num : Numerics) (hkind : history.coordinateKind = "physical_time")
    (hmax : policy.maximumBlocks = some maximum) (h : Reducible history policy) :
    ∃ blocks first, historyObservations num history policy = .ok blocks ∧ FirstInformative history first ∧
      Tiled history.coordinate policy.minimumSamples first blocks ∧ (blocks.length : ℤ) ≤ maximum := by
  obtain ⟨hmin, hone⟩ := policy_of_checked h.checked hmax
  have henough := h.enough
  have hne : informative history ≠ [] := by
    intro hnil
    rw [hnil, List.length_nil] at henough
    push_cast at henough
    omega
  obtain ⟨hmem, hbefore, hlength⟩ := informative_spec hne
  obtain ⟨hfirst, hstart⟩ := mem_informative.mp hmem
  obtain ⟨blocks, hblocks, htiled, hcount⟩ := blockLoop_tiled num 0 hkind hmax hmin
    (by omega : history.coordinate.length ≤ (informative history).headD 0 + history.coordinate.length) hfirst
    (.inr ⟨by omega, by push_cast; omega⟩) (by push_cast; omega)
  have hnonempty : blocks ≠ [] := by
    rintro rfl
    have hlast : (informative history).headD 0 + 1 = history.coordinate.length := htiled
    omega
  refine ⟨blocks, (informative history).headD 0, ?_, ⟨hfirst, hstart, fun i hi => ?_⟩, htiled, by simpa using hcount⟩
  · simp only [historyObservations, h.checked, h.accepted, h.eligible.1, h.eligible.2, Bool.not_true, Bool.or_self,
      Bool.false_eq_true, if_false, if_neg (not_lt.mpr henough), hblocks]
  · have hnot := hbefore i hi
    rw [mem_informative, not_and, Bool.not_eq_true] at hnot
    exact hnot (hi.trans hfirst)

theorem historyObservations_of_not_reducible (num : Numerics) (h : ¬Reducible history policy) :
    (∃ text, historyObservations num history policy = .error (.valueError text)) ∨
      ∃ o, historyObservations num history policy = .ok [o] ∧
        (o.eligible = false ∨ truthy o.exclusionReason = true) := by
  simp only [historyObservations]
  split
  · exact .inl ⟨_, rfl⟩
  · rename_i hchecked
    split
    · rename_i hexcluded
      refine .inr ⟨_, rfl, ?_⟩
      simpa using hexcluded
    · rename_i heligible
      split
      · exact .inl ⟨_, rfl⟩
      · rename_i haccepted
        split
        · exact .inr ⟨_, rfl, .inl rfl⟩
        · rename_i henough
          simp only [Bool.or_eq_true, not_or, Bool.not_eq_true] at heligible
          exact absurd ⟨hchecked, ⟨by simpa using heligible.1, heligible.2⟩, haccepted, not_lt.mp henough⟩ h

/-- A reducible history with time stamps and a block limit is cut into at most that many blocks, which tile the
informative samples with enough samples each; any other is refused or comes back as one excluded observation;
and nothing that is returned makes the validator report an overlap. -/
theorem history_blocks_tile (num : Numerics) (history : PolarHistory) (policy : HistoryReductionPolicy) (maximum : ℤ)
    (hkind : history.coordinateKind = "physical_time") (hmax : policy.maximumBlocks = some maximum) :
    (Reducible history policy → ∃ blocks first, historyObservations num history policy = .ok blocks ∧
        FirstInformative history first ∧ Tiled history.coordinate policy.minimumSamples first blocks ∧
        (blocks.length : ℤ) ≤ maximum) ∧
      (¬Reducible history policy → (∃ text, historyObservations num history policy = .error (.valueError text)) ∨
        ∃ o, historyObservations num history policy = .ok [o] ∧
          (o.eligible = false ∨ truthy o.exclusionReason = true)) ∧
      ∀ observations, historyObservations num history policy = .ok observations → ∀ prior modelPolicy,
        validate prior observations modelPolicy ≠ .error overlapText := by
  refine ⟨historyObservations_of_reducible num hkind hmax, historyObservations_of_not_reducible num, ?_⟩
  intro observations hok prior modelPolicy
  apply validate_not_overlap
  by_cases hreducible : Reducible history policy
  · obtain ⟨blocks, first, hblocks, -, htiled, -⟩ := historyObservations_of_reducible num hkind hmax hreducible
    rw [hblocks] at hok
    cases hok
    exact htiled.pairwise (increasing_of_checked hreducible.checked)
  · obtain ⟨text, htext⟩ | ⟨o, ho, -⟩ := historyObservations_of_not_reducible num hreducible
    · rw [htext] at hok
      cases hok
    · rw [ho] at hok
      cases hok
      exact List.pairwise_singleton _ _

end Tiling

/-! ## Two recorded histories -/

def leftSums : Numerics where
  sum values := values.foldl add (lit 0)
  sqrt x := x
  digest payload := if eq payload.start (lit 0) then "first" else "later"

def steadyHistory (n : ℕ) : PolarHistory where
  observation :=
    { observationId := "observation", resultId := "result", attemptId := "attempt", lineageId := "lineage",
      targetSignature := "target", branch := "branch", method := "openfoam_fast", alpha := lit 0,
      coefficients := none, standardError := none, eligible := true, numericalConvergence := "unconverged",
      statisticalCertification := "informative_uncertified" }
  artifactSha256 := "aaaaaaaaaaaaaaaaaaaaaaaaaaaaaaaaaaaaaaaaaaaaaaaaaaaaaaaaaaaaaaaa"
  coordinateKind := "physical_time"
  coordinate := (List.range n).map fun i => lit (i : ℚ)
  coefficients := List.replicate n [lit 0, lit 1, lit 0]
  informativeStart := lit 0
  correlationTime := none
  correlationEvidenceId := none

def twoBlocks : HistoryReductionPolicy where
  blockDuration := lit 1
  minimumSamples := 4
  noiseFloor := [lit 1, lit 1, lit 1]
  maximumBlocks := some 2

theorem steady_history_tiled :
    Reducible (steadyHistory 7) twoBlocks ∧
      ∃ blocks first, historyObservations leftSums (steadyHistory 7) twoBlocks = .ok blocks ∧
        FirstInformative (steadyHistory 7) first ∧
        Tiled (steadyHistory 7).coordinate twoBlocks.minimumSamples first blocks ∧ (blocks.length : ℤ) ≤ 2 := by
  have hreducible : Reducible (steadyHistory 7) twoBlocks :=
    ⟨by decide +kernel, by decide +kernel, by decide +kernel, by decide +kernel⟩
  exact ⟨hreducible, (history_blocks_tile leftSums (steadyHistory 7) twoBlocks 2 rfl rfl).1 hreducible⟩

/-- Two samples are fewer than a block needs: one excluded observation without a window comes back. -/
theorem short_history_not_tiled :
    (steadyHistory 2).coordinateKind = "physical_time" ∧ twoBlocks.maximumBlocks = some 2 ∧
      ¬∃ blocks first, historyObservations leftSums (steadyHistory 2) twoBlocks = .ok blocks ∧
        FirstInformative (steadyHistory 2) first ∧
        Tiled (steadyHistory 2).coordinate twoBlocks.minimumSamples first blocks ∧ (blocks.length : ℤ) ≤ 2 := by
  have hshort : historyObservations leftSums (steadyHistory 2) twoBlocks =
      .ok [excludedWith (steadyHistory 2).observation "insufficient_informative_history"] := by
    decide +kernel
  refine ⟨rfl, rfl, ?_⟩
  rintro ⟨blocks, first, hblocks, -, htiled, -⟩
  rw [hshort] at hblocks
  cases hblocks
  obtain ⟨stop, -, -, -, hwindow, -⟩ := htiled
  cases hwindow

end XFoilFoam.Estimate
