import XFoilFoam.Unsteady.ExactAudit
import Mathlib.Data.List.Range

/-! What an audit in exact arithmetic guarantees: its cycles tile the time before the last kept entry, its clean suffix is
the longest, and a certified window has no damaged cycle. -/
namespace XFoilFoam.Unsteady.Exact
open Aperiodic (Channel)
open Extended (fin)
set_option autoImplicit false

/-! ## Clean suffixes -/

section Suffixes
variable {α : Type} {clean : α → Bool}

/-- `n` is the length of the longest suffix of clean elements. -/
structure LongestCleanSuffix (clean : α → Bool) (xs : List α) (n : ℕ) : Prop where
  le : n ≤ xs.length
  suffix : ∀ x ∈ xs.drop (xs.length - n), clean x = true
  longest : ∀ m ≤ xs.length, (∀ x ∈ xs.drop (xs.length - m), clean x = true) → m ≤ n

theorem longestCleanSuffix_takeWhile (clean : α → Bool) (xs : List α) :
    LongestCleanSuffix clean xs (xs.reverse.takeWhile clean).length := by
  induction xs using List.reverseRecOn with
  | nil => exact ⟨le_rfl, fun x hx => absurd hx List.not_mem_nil, fun m hm _ => hm⟩
  | append_singleton xs x ih =>
    rw [List.reverse_append, List.reverse_singleton, List.singleton_append, List.takeWhile_cons]
    cases hx : clean x with
    | false =>
      refine ⟨Nat.zero_le _, fun y hy => ?_, fun m hm hall => ?_⟩
      · rw [if_neg Bool.false_ne_true, List.length_nil, Nat.sub_zero, List.drop_length] at hy
        exact absurd hy List.not_mem_nil
      · -- a suffix that is not empty contains the last element
        by_contra hpos
        have hlast : x ∈ (xs ++ [x]).drop ((xs ++ [x]).length - m) := by
          rw [List.drop_append_of_le_length (by simp at hpos ⊢; omega)]
          exact List.mem_append_right _ (List.mem_singleton.mpr rfl)
        rw [hall x hlast] at hx
        cases hx
    | true =>
      simp only [if_true, List.length_cons]
      have hdrop : ∀ m ≤ xs.length, (xs ++ [x]).drop ((xs ++ [x]).length - (m + 1)) = xs.drop (xs.length - m) ++ [x] := by
        intro m hm
        rw [List.length_append, List.length_singleton, Nat.add_sub_add_right, List.drop_append_of_le_length (by omega)]
      refine ⟨?_, fun y hy => ?_, fun m hm hall => ?_⟩
      · rw [List.length_append, List.length_singleton]
        exact Nat.succ_le_succ ih.le
      · rw [hdrop _ ih.le, List.mem_append, List.mem_singleton] at hy
        obtain hy | rfl := hy
        · exact ih.suffix y hy
        · exact hx
      · cases m with
        | zero => exact Nat.zero_le _
        | succ m =>
          rw [List.length_append, List.length_singleton] at hm
          rw [hdrop m (by omega)] at hall
          exact Nat.succ_le_succ (ih.longest m (by omega) fun y hy => hall y (List.mem_append_left _ hy))

theorem longestCleanSuffix_zero {xs : List α} (h : ∀ x ∈ xs, clean x = false) : LongestCleanSuffix clean xs 0 := by
  have hnone : xs.reverse.takeWhile clean = [] := by
    cases hreverse : xs.reverse with
    | nil => rfl
    | cons x rest =>
      have hx : clean x = false := h x (List.mem_reverse.mp (hreverse ▸ List.mem_cons_self))
      rw [List.takeWhile_cons, if_neg (by rw [hx]; exact Bool.false_ne_true)]
  have hlongest := longestCleanSuffix_takeWhile clean xs
  rwa [hnone] at hlongest

end Suffixes

/-! ## Whole periods -/

section Periods
variable {K : Type} [Field K] {last period : K} {available i j : ℕ}

def periodAt (last period : K) (available index : ℕ) : Period K :=
  ⟨index, decide (index + 1 = available), last - available * period + index * period,
    last - available * period + ((index + 1 : ℕ) : K) * period⟩

theorem periodAt_contiguous : (periodAt last period available (i + 1)).start = (periodAt last period available i).stop :=
  rfl

theorem periodAt_length : (periodAt last period available i).stop - (periodAt last period available i).start = period := by
  simp only [periodAt]
  push_cast
  ring

theorem periodAt_last (h : i + 1 = available) : (periodAt last period available i).stop = last := by
  simp only [periodAt, h]
  ring

theorem periodAt_start (h : i ≤ available) :
    (periodAt last period available i).start = last - ((available - i : ℕ) : K) * period := by
  simp only [periodAt, Nat.cast_sub h]
  ring

variable [LinearOrder K] [IsStrictOrderedRing K]

theorem periodAt_start_mono (last : K) (available : ℕ) (hperiod : 0 < period) :
    (periodAt last period available i).start ≤ (periodAt last period available j).start ↔ i ≤ j := by
  simp only [periodAt, add_le_add_iff_left, mul_le_mul_iff_left₀ hperiod, Nat.cast_le]

theorem periodAt_stop_le (hperiod : 0 < period) (h : i < available) :
    (periodAt last period available i).stop ≤ last := by
  have hcount : ((i + 1 : ℕ) : K) ≤ available := by exact_mod_cast h
  have hproduct := mul_le_mul_of_nonneg_right hcount hperiod.le
  simp only [periodAt]
  linarith

theorem eps_le_next (hperiod : 0 < period) (hfirst : -period ≤ 2 * (last - available * period)) :
    (periodAt last period available i).eps ≤ (periodAt last period available (i + 1)).eps := by
  have hstep : ∀ k : ℕ, max |(periodAt last period available k).start| |(periodAt last period available k).stop| =
      (periodAt last period available k).stop := by
    intro k
    have hk : (0 : K) ≤ (k : K) * period := mul_nonneg (Nat.cast_nonneg k) hperiod.le
    have hnext : ((k + 1 : ℕ) : K) * period = k * period + period := by
      push_cast
      ring
    have hstop : 0 ≤ (periodAt last period available k).stop := by
      simp only [periodAt, hnext]
      linarith
    rw [abs_of_nonneg hstop, max_eq_right]
    rw [abs_le]
    simp only [periodAt, hnext]
    constructor <;> linarith
  have hlater : (periodAt last period available i).stop ≤ (periodAt last period available (i + 1)).stop := by
    rw [← periodAt_contiguous, ← sub_nonneg, periodAt_length]
    exact hperiod.le
  rw [Period.eps, Period.eps, hstep, hstep]
  exact mul_le_mul_of_nonneg_right (max_le_max hlater le_rfl) (by positivity)

theorem eps_nonneg (p : Period K) : 0 ≤ p.eps :=
  mul_nonneg (le_max_of_le_right zero_le_one) (by positivity)

theorem exists_owner (hperiod : 0 < period) (hfirst : -period ≤ 2 * (last - available * period)) {t : K}
    (hlast : t ≤ last) (hj : j < available)
    (hreach : (periodAt last period available j).start - (periodAt last period available j).eps ≤ t) :
    ∃ k, j ≤ k ∧ k < available ∧ (periodAt last period available k).owns t = true := by
  -- the induction is on the periods left; the last one takes what the others leave
  obtain ⟨left, hleft⟩ : ∃ left, available = j + 1 + left := ⟨available - (j + 1), by omega⟩
  induction left generalizing j with
  | zero =>
    refine ⟨j, le_rfl, hj, ?_⟩
    have hend : j + 1 = available := by omega
    have hown : t ≤ (periodAt last period available j).stop + (periodAt last period available j).eps := by
      rw [periodAt_last hend]
      linarith [eps_nonneg (periodAt last period available j)]
    have hisLast : (periodAt last period available j).isLast = true := decide_eq_true hend
    simp only [Period.owns, hisLast, if_true, decide_eq_true hreach, decide_eq_true hown, Bool.and_self]
  | succ left ih =>
    have hinner : (periodAt last period available j).isLast = false := decide_eq_false (by omega)
    by_cases hown : t < (periodAt last period available j).stop - (periodAt last period available j).eps
    · refine ⟨j, le_rfl, hj, ?_⟩
      simp only [Period.owns, hinner, Bool.false_eq_true, if_false, decide_eq_true hreach, decide_eq_true hown,
        Bool.and_self]
    · have heps := eps_le_next (i := j) hperiod hfirst
      have hnext : (periodAt last period available (j + 1)).start - (periodAt last period available (j + 1)).eps ≤ t := by
        rw [periodAt_contiguous]
        linarith [not_lt.mp hown]
      obtain ⟨k, hjk, hk, howns⟩ := ih (by omega) hnext (by omega)
      exact ⟨k, by omega, hk, howns⟩

end Periods

/-! ## Evidence and verdicts -/

section Verdicts
variable {K : Type} [Field K] [LinearOrder K] [FloorRing K]

theorem cycleEvidence_usable {shared : Shared K} {p : Period K} (h : (cycleEvidence shared p).hardReasons = []) :
    shared.minSamples ≤ (cycleEvidence shared p).samples ∧ ∀ t ∈ shared.invalidTimes, ¬p.owns t = true := by
  simp only [cycleEvidence, List.append_eq_nil_iff, ite_eq_right_iff, List.cons_ne_nil, imp_false, not_lt] at h
  obtain ⟨⟨⟨⟨hsamples, -⟩, -⟩, hinvalid⟩, -⟩ := h
  exact ⟨hsamples, fun t ht howns => hinvalid (List.any_eq_true.mpr ⟨t, ht, howns⟩)⟩

/-- The verdict is about the cycle of the evidence, and keeps its hard reasons. -/
structure Judges (cycle : CycleEvidence K) (verdict : CycleAudit K) : Prop where
  index : verdict.index = cycle.period.index
  start : verdict.start = cycle.period.start
  stop : verdict.stop = cycle.period.stop
  samples : verdict.samples = cycle.samples
  hard : verdict.hardReasons = [] → cycle.hardReasons = []

omit [LinearOrder K] [FloorRing K] in
theorem unusable_judges (cycle : CycleEvidence K) : Judges cycle (unusable cycle) := ⟨rfl, rfl, rfl, rfl, id⟩

theorem compareCycle_judges (numerics : Numerics K) (template : Template K) (cycle : CycleEvidence K) :
    Judges cycle (compareCycle numerics template cycle) :=
  ⟨rfl, rfl, rfl, rfl, fun h => (List.append_eq_nil_iff.mp h).1⟩

omit [Field K] [LinearOrder K] [FloorRing K] in
theorem templateSource_isEmpty {requirement : ℤ} {evidence : List (CycleEvidence K)}
    (h : (templateSource requirement evidence).isEmpty = true) : ∀ cycle ∈ evidence, cycle.hardReasons ≠ [] := by
  rw [templateSource, List.isEmpty_iff, List.drop_eq_nil_iff] at h
  have hlimit : 5 ≤ (max (requirement + 2) finalCleanCycleMinimum).toNat := by
    have hfloor : (5 : ℤ) ≤ max (requirement + 2) finalCleanCycleMinimum := le_max_right _ _
    omega
  have hnone : evidence.filter (fun cycle => cycle.hardReasons.isEmpty) = [] := by
    rw [← List.length_eq_zero_iff]
    omega
  intro cycle hcycle hhard
  have hmem := List.filter_eq_nil_iff.mp hnone cycle hcycle
  rw [hhard] at hmem
  exact hmem rfl

theorem judge_spec (numerics : Numerics K) (period : K) (phaseSamples requirement : ℤ)
    (evidence : List (CycleEvidence K)) :
    ∃ verdict : CycleEvidence K → CycleAudit K, (∀ cycle, Judges cycle (verdict cycle)) ∧
      (judge numerics period phaseSamples requirement evidence).cycles = evidence.map verdict ∧
      (judge numerics period phaseSamples requirement evidence).requiredCleanCycles = requirement ∧
      LongestCleanSuffix CycleAudit.clean (judge numerics period phaseSamples requirement evidence).cycles
        (judge numerics period phaseSamples requirement evidence).terminalCleanCycles := by
  unfold judge
  dsimp only
  split
  · next hsource =>
    refine ⟨unusable, unusable_judges, rfl, rfl, longestCleanSuffix_zero fun verdict hverdict => ?_⟩
    obtain ⟨cycle, hcycle, rfl⟩ := List.mem_map.mp hverdict
    have hhard := templateSource_isEmpty hsource cycle hcycle
    simpa [CycleAudit.clean, unusable] using hhard
  · exact ⟨compareCycle numerics _, compareCycle_judges numerics _, rfl, rfl, longestCleanSuffix_takeWhile _ _⟩

/-! ## Requirements and damaged times -/

omit [Field K] [LinearOrder K] [FloorRing K] in
theorem two_le_cleanCycleMinimum (fidelity : Option String) (minimumCycles : Option ℤ) :
    2 ≤ cleanCycleMinimum fidelity minimumCycles := by
  refine le_trans ?_ (le_max_left _ _)
  split_ifs
  · exact le_rfl
  · exact (by decide : (2 : ℤ) ≤ finalCleanCycleMinimum)
  · exact (by decide : (2 : ℤ) ≤ fastCleanCycleMinimum)

theorem two_le_requirement {args : Arguments K} {requirement : ℤ} (h : args.requirement = .ok requirement) :
    2 ≤ requirement := by
  have hminimum := two_le_cleanCycleMinimum args.fidelity args.minCleanCycles
  unfold Arguments.requirement at h
  dsimp only at h
  split at h
  · split at h
    · cases h
      exact hminimum.trans (le_max_left _ _)
    · cases h
  · cases h
    exact hminimum.trans (le_max_left _ _)

/-- The time of an entry with a coefficient that is no number, or a damaged time from an outer reader. -/
def Arguments.InvalidTime (args : Arguments K) (t : K) : Prop :=
  (∃ raw ∈ args.rows, raw.t = t ∧ raw.isFinite = false) ∨ ∃ values ∈ args.invalidCoefficientTimes, fin t ∈ values

theorem mem_finiteTimes {values : List (Extended K)} {t : K} (h : fin t ∈ values) : t ∈ finiteTimes values := by
  rw [finiteTimes, KeyOrder.mem_sortBy, List.mem_dedup, List.mem_map]
  exact ⟨fin t, List.mem_filter.mpr ⟨h, rfl⟩, rfl⟩

theorem mem_invalidTimes {args : Arguments K} {t : K} (hlength : args.sameLength = true) (h : args.InvalidTime t) :
    t ∈ args.invalidTimes := by
  have hmem : t ∈ args.invalidValueTimes ∨ t ∈ normaliseInvalidTimes args.invalidCoefficientTimes := by
    obtain ⟨raw, hraw, rfl, hfinite⟩ | ⟨values, hvalues, ht⟩ := h
    · rw [Arguments.invalidValueTimes, if_pos hlength]
      exact .inl (List.mem_map_of_mem (List.mem_filter.mpr ⟨hraw, by rw [hfinite]; rfl⟩))
    · rw [normaliseInvalidTimes, Option.mem_def.mp hvalues]
      exact .inr (mem_finiteTimes ht)
  unfold Arguments.invalidTimes
  dsimp only
  split
  · next hempty =>
    rw [List.isEmpty_iff.mp hempty] at hmem
    exact hmem.resolve_right List.not_mem_nil
  · rw [KeyOrder.mem_sortBy, List.mem_dedup, List.mem_append]
    exact hmem

omit [Field K] [LinearOrder K] [FloorRing K] in
theorem t_mem_of_mem_zipSamples {ts : List K} {cl cd cm : List (Extended K)} {raw : RawSample K}
    (h : raw ∈ zipSamples ts cl cd cm) : raw.t ∈ ts := by
  induction ts generalizing cl cd cm with
  | nil => simp [zipSamples] at h
  | cons t ts ih =>
    cases cl <;> cases cd <;> cases cm <;> simp only [zipSamples, List.not_mem_nil, List.mem_cons] at h
    obtain rfl | h := h
    · exact List.mem_cons_self
    · exact List.mem_cons_of_mem t (ih h)

theorem t_mem_of_mem_normaliseSeries {args : Arguments K} {sample : Sample K} (h : sample ∈ args.normaliseSeries) :
    sample.t ∈ args.times := by
  obtain ⟨raw, hraw, rfl⟩ := List.mem_map.mp (Spaced.mem_of_mem_thin h)
  exact t_mem_of_mem_zipSamples ((KeyOrder.mem_sortBy RawSample.t).mp (List.mem_of_mem_filter hraw))

end Verdicts

/-! ## The audit -/

section Audit
variable {K : Type} [Field K] [LinearOrder K]

/-- Consecutive cycles, one period each, the last of which ends at `last`. -/
structure Tiles (period last : K) (cycles : List (CycleAudit K)) : Prop where
  consecutive : cycles.IsChain fun c d => d.index = c.index + 1 ∧ d.start = c.stop
  length : ∀ cycle ∈ cycles, cycle.stop - cycle.start = period
  last : ∀ cycle ∈ cycles.getLast?, cycle.stop = last

variable [FloorRing K]

def Arguments.lastKept (args : Arguments K) : Option K := args.normaliseSeries.getLast?.map Sample.t

structure Publishable (args : Arguments K) (cycle : CycleAudit K) : Prop where
  hard : cycle.hardReasons = []
  soft : cycle.softReasons = []
  samples : max 2 args.minSamplesPerCycle ≤ cycle.samples
  undamaged : ∀ t, args.InvalidTime t → ¬(cycle.start ≤ t ∧ t ≤ cycle.stop)

theorem tiles_verdicts {verdict : CycleEvidence K → CycleAudit K} (hverdict : ∀ cycle, Judges cycle (verdict cycle))
    (shared : Shared K) (last period : K) (available : ℕ) :
    Tiles period last (((periodsOf last period available).map (cycleEvidence shared)).map verdict) := by
  have hcycles : ((periodsOf last period available).map (cycleEvidence shared)).map verdict =
      (List.range available).map fun i => verdict (cycleEvidence shared (periodAt last period available i)) := by
    rw [periodsOf, List.map_map, List.map_map]
    rfl
  have hstart := fun i => (hverdict (cycleEvidence shared (periodAt last period available i))).start
  have hstop := fun i => (hverdict (cycleEvidence shared (periodAt last period available i))).stop
  have hindex := fun i => (hverdict (cycleEvidence shared (periodAt last period available i))).index
  rw [hcycles]
  refine ⟨?_, fun cycle hcycle => ?_, fun cycle hcycle => ?_⟩
  · rw [List.isChain_map, List.isChain_range]
    intro i _
    rw [hindex, hindex, hstart, hstop]
    exact ⟨rfl, periodAt_contiguous⟩
  · obtain ⟨i, -, rfl⟩ := List.mem_map.mp hcycle
    rw [hstart, hstop]
    exact periodAt_length
  · cases available with
    | zero => simp at hcycle
    | succ available =>
      rw [List.range_succ, List.map_append, List.map_singleton, List.getLast?_concat] at hcycle
      obtain rfl := Option.mem_some_iff.mp hcycle
      rw [hstop]
      exact periodAt_last rfl

variable [IsStrictOrderedRing K]

theorem certified_window {verdict : CycleEvidence K → CycleAudit K} (hverdict : ∀ cycle, Judges cycle (verdict cycle))
    {args : Arguments K} {shared : Shared K} {last period : K} {available : ℕ} {audit : CleanCycleAudit K}
    (hcycles : audit.cycles = ((periodsOf last period available).map (cycleEvidence shared)).map verdict)
    (hsuffix : LongestCleanSuffix CycleAudit.clean audit.cycles audit.terminalCleanCycles)
    (hrequired : 2 ≤ audit.requiredCleanCycles) (hperiod : 0 < period)
    (hfirst : -period ≤ 2 * (last - available * period)) (hsamples : shared.minSamples = max 2 args.minSamplesPerCycle)
    (hinvalid : ∀ t, args.InvalidTime t → t ∈ shared.invalidTimes) (hcertified : audit.certified = true) :
    audit.selectedStart = some (last - audit.requiredCleanCycles * period) ∧
      ∀ cycle ∈ audit.cycles, last - audit.requiredCleanCycles * period ≤ cycle.start → Publishable args cycle := by
  obtain ⟨required, hnat⟩ : ∃ required : ℕ, audit.requiredCleanCycles = required :=
    ⟨audit.requiredCleanCycles.toNat, by omega⟩
  rw [hnat] at hrequired ⊢
  rw [Int.cast_natCast]
  have hstartAt : ∀ i, (verdict (cycleEvidence shared (periodAt last period available i))).start =
      (periodAt last period available i).start := fun i => (hverdict _).start
  have hstopAt : ∀ i, (verdict (cycleEvidence shared (periodAt last period available i))).stop =
      (periodAt last period available i).stop := fun i => (hverdict _).stop
  have hcycles' : audit.cycles =
      (List.range available).map fun i => verdict (cycleEvidence shared (periodAt last period available i)) := by
    rw [hcycles, periodsOf, List.map_map, List.map_map]
    rfl
  have hcount : audit.cycles.length = available := by rw [hcycles', List.length_map, List.length_range]
  have hterminal : required ≤ audit.terminalCleanCycles := by
    have hle := of_decide_eq_true hcertified
    omega
  have hle : required ≤ available := hterminal.trans (hcount ▸ hsuffix.le)
  have hselected : (periodAt last period available (available - required)).start = last - (required : K) * period := by
    rw [periodAt_start (Nat.sub_le _ _), Nat.sub_sub_self hle]
  have hclean : ∀ k, available - required ≤ k → k < available →
      (verdict (cycleEvidence shared (periodAt last period available k))).clean = true := by
    intro k hfrom hk
    have hall := hsuffix.suffix
    rw [hcycles', List.length_map, List.length_range] at hall
    have hposition : available - audit.terminalCleanCycles + (k - (available - audit.terminalCleanCycles)) = k := by
      omega
    refine hall _ (List.mem_drop_iff_getElem.mpr ⟨k - (available - audit.terminalCleanCycles), ?_, ?_⟩)
    · rw [List.length_map, List.length_range]
      omega
    · simp only [hposition, List.getElem_map, List.getElem_range]
  have hhard : ∀ k, available - required ≤ k → k < available →
      (cycleEvidence shared (periodAt last period available k)).hardReasons = [] := by
    intro k hfrom hk
    have h := hclean k hfrom hk
    rw [CycleAudit.clean, Bool.and_eq_true] at h
    exact (hverdict _).hard (List.isEmpty_iff.mp h.1)
  refine ⟨?_, fun cycle hcycle hstart => ?_⟩
  · have hindex : available - required < available := by omega
    rw [CleanCycleAudit.selectedStart, if_pos hcertified, hnat, Int.toNat_natCast, hcount, hcycles',
      List.getElem?_map, List.getElem?_range hindex, Option.map_some, Option.map_some, hstartAt, hselected]
  · rw [hcycles'] at hcycle
    obtain ⟨i, hi, rfl⟩ := List.mem_map.mp hcycle
    have hi' := List.mem_range.mp hi
    rw [hstartAt] at hstart
    have hfrom : available - required ≤ i := by
      rw [← periodAt_start_mono last available hperiod, hselected]
      exact hstart
    have h := hclean i hfrom hi'
    rw [CycleAudit.clean, Bool.and_eq_true] at h
    refine ⟨List.isEmpty_iff.mp h.1, List.isEmpty_iff.mp h.2, ?_, fun t ht hwithin => ?_⟩
    · rw [(hverdict _).samples, ← hsamples]
      exact (cycleEvidence_usable (hhard i hfrom hi')).1
    · rw [hstartAt, hstopAt] at hwithin
      have hreach : (periodAt last period available i).start - (periodAt last period available i).eps ≤ t := by
        linarith [eps_nonneg (periodAt last period available i), hwithin.1]
      obtain ⟨k, hik, hk, howns⟩ :=
        exists_owner hperiod hfirst (hwithin.2.trans (periodAt_stop_le hperiod hi')) hi' hreach
      exact (cycleEvidence_usable (hhard k (hfrom.trans hik) hk)).2 t (hinvalid t ht) howns

/-- What a returned audit promises about the entries that the series keeps. -/
structure Guaranteed (args : Arguments K) (audit : CleanCycleAudit K) : Prop where
  cycles : audit.cycles ≠ [] →
    ∃ period last, args.periodS = fin period ∧ args.lastKept = some last ∧ Tiles period last audit.cycles
  suffix : LongestCleanSuffix CycleAudit.clean audit.cycles audit.terminalCleanCycles
  window : audit.certified = true →
    ∃ period last, args.periodS = fin period ∧ args.lastKept = some last ∧
      audit.selectedStart = some (last - audit.requiredCleanCycles * period) ∧
      ∀ cycle ∈ audit.cycles, last - audit.requiredCleanCycles * period ≤ cycle.start → Publishable args cycle

omit [IsStrictOrderedRing K] in
theorem emptyAudit_guaranteed (args : Arguments K) (period : K) (phaseSamples : ℤ) {requirement : ℤ}
    (h : 2 ≤ requirement) : Guaranteed args (emptyAudit period phaseSamples requirement) := by
  refine ⟨fun hne => absurd rfl hne, longestCleanSuffix_zero fun x hx => absurd hx List.not_mem_nil, fun hcertified => ?_⟩
  have hle : requirement ≤ 0 := of_decide_eq_true hcertified
  omega

theorem first_period_late {first last period : K} (hperiod : 0 < period) (hfirst : 0 ≤ first)
    (havailable : ¬⌊(last - first) / period + 1 / 10 ^ 9⌋ < 1) :
    -period ≤ 2 * (last - (⌊(last - first) / period + 1 / 10 ^ 9⌋.toNat : K) * period) := by
  have hcast : ((⌊(last - first) / period + 1 / 10 ^ 9⌋.toNat : ℕ) : K) =
      (⌊(last - first) / period + 1 / 10 ^ 9⌋ : K) := by
    rw [← Int.cast_natCast, Int.toNat_of_nonneg (by omega)]
  have hfloor := mul_le_mul_of_nonneg_right (Int.floor_le ((last - first) / period + 1 / 10 ^ 9)) hperiod.le
  have hproduct : ((last - first) / period + 1 / 10 ^ 9) * period = last - first + period / 10 ^ 9 := by
    field_simp
  rw [hcast]
  rw [hproduct] at hfloor
  have hsmall : period / 10 ^ 9 ≤ period / 2 := div_le_div_of_nonneg_left hperiod.le (by norm_num) (by norm_num)
  linarith

omit [IsStrictOrderedRing K] in
theorem auditPeriodCycles_cases {numerics : Numerics K} {args : Arguments K} {audit : CleanCycleAudit K}
    (h : auditPeriodCycles numerics args = .ok audit) :
    ∃ requirement, args.requirement = .ok requirement ∧
      ((∃ period phaseSamples, audit = emptyAudit period phaseSamples requirement) ∨
        ∃ period first last, args.periodS = fin period ∧ 0 < period ∧ args.sameLength = true ∧
          args.normaliseSeries.head? = some first ∧ args.normaliseSeries.getLast? = some last ∧
          ¬⌊(last.t - first.t) / period + 1 / 10 ^ 9⌋ < 1 ∧
          ∃ shared : Shared K, shared.minSamples = max 2 args.minSamplesPerCycle ∧
            shared.invalidTimes = args.invalidTimes ∧
            audit = judge numerics period args.phaseSamples requirement
              ((periodsOf last.t period ⌊(last.t - first.t) / period + 1 / 10 ^ 9⌋.toNat).map
                (cycleEvidence shared))) := by
  unfold auditPeriodCycles at h
  split at h
  · cases h
  · next requirement hrequirement =>
    refine ⟨requirement, hrequirement, ?_⟩
    split at h
    · next period hperiod =>
      split at h
      · cases h
        exact .inl ⟨_, _, rfl⟩
      · next hpositive =>
        split at h
        · cases h
        · next hlength =>
          dsimp only at h
          split at h
          · next first last hfirst hlast =>
            split at h
            · cases h
              exact .inl ⟨_, _, rfl⟩
            · split at h
              · cases h
                exact .inl ⟨_, _, rfl⟩
              · next havailable =>
                cases h
                exact .inr ⟨period, first, last, hperiod, not_le.mp (not_or.mp hpositive).1, by simpa using hlength,
                  hfirst, hlast, havailable, _, rfl, rfl, rfl⟩
          · cases h
            exact .inl ⟨_, _, rfl⟩
    · cases h
      exact .inl ⟨_, _, rfl⟩

theorem auditPeriodCycles_guaranteed {numerics : Numerics K} {args : Arguments K} {audit : CleanCycleAudit K}
    (hnonneg : ∀ t ∈ args.times, 0 ≤ t) (h : auditPeriodCycles numerics args = .ok audit) : Guaranteed args audit := by
  obtain ⟨requirement, hrequirement, hcases⟩ := auditPeriodCycles_cases h
  have hrequired := two_le_requirement hrequirement
  obtain ⟨period, phaseSamples, rfl⟩ |
    ⟨period, first, last, hperiod, hpos, hlength, hfirst, hlast, havailable, shared, hsamples, hinvalid, rfl⟩ := hcases
  · exact emptyAudit_guaranteed args period phaseSamples hrequired
  · have hkept : args.lastKept = some last.t := by rw [Arguments.lastKept, hlast, Option.map_some]
    have hstart : 0 ≤ first.t := hnonneg _ (t_mem_of_mem_normaliseSeries (List.mem_of_head? hfirst))
    obtain ⟨verdict, hverdict, hcycles, hreq, hsuffix⟩ := judge_spec numerics period args.phaseSamples requirement
      ((periodsOf last.t period ⌊(last.t - first.t) / period + 1 / 10 ^ 9⌋.toNat).map (cycleEvidence shared))
    refine ⟨fun _ => ⟨period, last.t, hperiod, hkept, ?_⟩, hsuffix, fun hcertified =>
      ⟨period, last.t, hperiod, hkept, ?_⟩⟩
    · rw [hcycles]
      exact tiles_verdicts hverdict shared last.t period _
    · have hdamaged : ∀ t, args.InvalidTime t → t ∈ shared.invalidTimes := fun t ht => by
        rw [hinvalid]
        exact mem_invalidTimes hlength ht
      exact certified_window hverdict hcycles hsuffix (by rw [hreq]; exact hrequired) hpos
        (first_period_late hpos hstart havailable) hsamples hdamaged hcertified

end Audit

/-! ## Two series -/

def constantSeries (times : List ℚ) (period : ℚ) : Arguments ℚ where
  times
  cl := times.map fun _ => fin 1
  cd := times.map fun _ => fin 1
  cm := times.map fun _ => fin 0
  periodS := fin period
  fidelity := some "candidate"
  requiredCycles := fin 0
  minCleanCycles := none
  frameTimes := none
  minFramesPerCycle := 20
  minSamplesPerCycle := 10
  phaseSamples := 8
  invalidCoefficientTimes := none

def zeroNumerics : Numerics ℚ := ⟨fun _ => 0, fun _ _ => 0⟩

def twoPeriods : Arguments ℚ := constantSeries ((List.range 21).map fun (i : ℕ) => (i : ℚ)) 10
def closeRows : Arguments ℚ := constantSeries [0, 1, 1 + 1 / 10 ^ 13] 1

theorem series_outcomes :
    (auditPeriodCycles zeroNumerics twoPeriods).map CleanCycleAudit.certified = .ok true ∧
      (auditPeriodCycles zeroNumerics closeRows).map (fun audit => audit.cycles.map CycleAudit.stop) = .ok [1] := by
  decide +kernel

theorem auditPeriodCycles_guaranteed_two_periods :
    ∃ audit, auditPeriodCycles zeroNumerics twoPeriods = .ok audit ∧ audit.certified = true ∧
      Guaranteed twoPeriods audit := by
  have hcertified := series_outcomes.1
  cases haudit : auditPeriodCycles zeroNumerics twoPeriods with
  | error e =>
    rw [haudit] at hcertified
    cases hcertified
  | ok audit =>
    rw [haudit] at hcertified
    refine ⟨audit, rfl, Except.ok.inj hcertified, auditPeriodCycles_guaranteed (fun t ht => ?_) haudit⟩
    obtain ⟨i, -, rfl⟩ := List.mem_map.mp ht
    exact Nat.cast_nonneg i

/-- The row at `1 + 1e-13` is dropped as a repetition of the one before, and the last cycle ends at `1`. -/
theorem last_cycle_ends_before_last_row :
    closeRows.times.Pairwise (· < ·) ∧ (∀ t ∈ closeRows.times, 0 ≤ t) ∧
      ∃ audit, auditPeriodCycles zeroNumerics closeRows = .ok audit ∧ ∃ cycle,
        audit.cycles.getLast? = some cycle ∧ ∃ last, closeRows.times.getLast? = some last ∧ cycle.stop ≠ last := by
  refine ⟨by simp [closeRows, constantSeries]; norm_num, by simp [closeRows, constantSeries]; norm_num, ?_⟩
  have hstops := series_outcomes.2
  cases haudit : auditPeriodCycles zeroNumerics closeRows with
  | error e =>
    rw [haudit] at hstops
    cases hstops
  | ok audit =>
    rw [haudit] at hstops
    obtain ⟨cycle, hcycle, hstop⟩ := List.map_eq_singleton_iff.mp (Except.ok.inj hstops)
    refine ⟨audit, rfl, cycle, by rw [hcycle, List.getLast?_singleton], 1 + 1 / 10 ^ 13, rfl, ?_⟩
    rw [hstop]
    norm_num

end XFoilFoam.Unsteady.Exact
