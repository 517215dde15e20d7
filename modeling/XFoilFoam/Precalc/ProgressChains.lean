import XFoilFoam.Foundations.Extended
import XFoilFoam.Foundations.Literals
import XFoilFoam.Precalc.Recovery
import Mathlib.Tactic.Linarith

/-! Chains of continuations that made progress, in exact arithmetic: what grows along them, and that no measurement comes
back. -/
namespace XFoilFoam.Precalc
open Extended (fin)
set_option autoImplicit false

/-! ## Chains of two kinds of steps -/

section Chains
variable {α : Type} {A B : α → α → Prop} {P : α → Prop}

theorem isChain_or_split (hA : ∀ a b, A a b → P a ∧ P b) (hB : ∀ a b, B a b → ¬P a ∧ ¬P b) {l : List α}
    (h : l.IsChain fun a b => A a b ∨ B a b) :
    ((∀ a ∈ l, P a) ∧ l.IsChain A) ∨ ((∀ a ∈ l, ¬P a) ∧ l.IsChain B) := by
  induction l with
  | nil => exact .inl ⟨fun a ha => absurd ha List.not_mem_nil, .nil⟩
  | cons a rest ih =>
    cases rest with
    | nil =>
      by_cases ha : P a
      · exact .inl ⟨by simpa using ha, .singleton a⟩
      · exact .inr ⟨by simpa using ha, .singleton a⟩
    | cons b rest =>
      rw [List.isChain_cons_cons] at h
      obtain ⟨hstep, hrest⟩ := h
      -- the step before decides between the kinds of the chain after it, through its later end
      obtain ⟨hall, hchain⟩ | ⟨hall, hchain⟩ := ih hrest
      · have hb : P b := hall b List.mem_cons_self
        obtain hstep | hstep := hstep
        · exact .inl ⟨List.forall_mem_cons.mpr ⟨(hA a b hstep).1, hall⟩, .cons_cons hstep hchain⟩
        · exact absurd hb (hB a b hstep).2
      · have hb : ¬P b := hall b List.mem_cons_self
        obtain hstep | hstep := hstep
        · exact absurd (hA a b hstep).2 hb
        · exact .inr ⟨List.forall_mem_cons.mpr ⟨(hB a b hstep).1, hall⟩, .cons_cons hstep hchain⟩

variable {K : Type} [LinearOrder K]

def Increases (f : α → Option K) (a b : α) : Prop := ∃ x y, f a = some x ∧ f b = some y ∧ x < y

theorem Increases.trans {f : α → Option K} {a b c : α} (h : Increases f a b) (h' : Increases f b c) :
    Increases f a c := by
  obtain ⟨x, y, hx, hy, hlt⟩ := h
  obtain ⟨y', z, hy', hz, hlt'⟩ := h'
  obtain rfl : y = y' := Option.some.inj (hy.symm.trans hy')
  exact ⟨x, z, hx, hz, hlt.trans hlt'⟩

theorem Increases.ne {f : α → Option K} {a b : α} (h : Increases f a b) : f a ≠ f b := by
  obtain ⟨x, y, hx, hy, hlt⟩ := h
  rw [hx, hy]
  exact fun heq => hlt.ne (Option.some.inj heq)

theorem pairwise_ne_of_increases {f : α → Option K} {l : List α} (h : l.IsChain (Increases f)) :
    l.Pairwise fun a b => f a ≠ f b := by
  have : Trans (Increases f) (Increases f) (Increases f) := ⟨Increases.trans⟩
  exact (List.isChain_iff_pairwise.mp h).imp Increases.ne

end Chains

/-! ## Snapshots -/

section Snapshots
variable (K : Type) [Field K] [LinearOrder K]

structure Snapshot where
  periodsRetained : Option K
  simulatedTimeS : Option K
  periodS : Option K
  driftFrac : Option K
  stationary : Option Bool
  terminalCleanCycles : Option K
  requiredCleanCycles : Option K
  cleanCycleCount : Option K
  period_pos : ∀ period ∈ periodS, 0 < period

variable {K}

def Snapshot.progress (s : Snapshot K) : ContinuationProgress (Extended K) where
  periodsRetained := s.periodsRetained.map fin
  simulatedTimeS := s.simulatedTimeS.map fin
  periodS := s.periodS.map fin
  driftFrac := s.driftFrac.map fin
  stationary := s.stationary
  terminalCleanCycles := s.terminalCleanCycles.map fin
  requiredCleanCycles := s.requiredCleanCycles.map fin
  cleanCycleCount := s.cleanCycleCount.map fin

end Snapshots

/-! ## The snapshot of a payload -/

section Evidence
variable {K : Type}

def ofField : Extended K → Option K
  | .fin x => some x
  | _ => none

def Measured (x : Option (Extended K)) : Prop := ∀ v ∈ x, ∃ q : K, v = fin q

theorem Measured.map_ofField {x : Option (Extended K)} (h : Measured x) : (x.bind ofField).map fin = x := by
  cases x with
  | none => rfl
  | some v =>
    obtain ⟨q, rfl⟩ := h v rfl
    rfl

theorem Measured.or {x y : Option (Extended K)} (hx : Measured x) (hy : Measured y) : Measured (x.or y) := by
  cases x with
  | none => simpa using hy
  | some v => simpa using hx

theorem Measured.filter {x : Option (Extended K)} (h : Measured x) (keep : Extended K → Bool) :
    Measured (x.filter keep) := fun v hv => h v (Option.mem_filter_iff.mp hv).1

variable [Field K] [LinearOrder K] [FloorRing K]

theorem finiteMetric_measured (value : JsValue (Extended K)) : Measured (finiteMetric value) := by
  refine Measured.filter (fun v hv => ?_) _
  cases value with
  | num x =>
    cases x with
    | fin q => exact ⟨q, (Option.some.inj hv).symm⟩
    | _ => cases hv
  | _ => cases hv

theorem positiveMetric_measured (value : JsValue (Extended K)) : Measured (positiveMetric value) :=
  (finiteMetric_measured value).filter _

theorem positiveMetric_pos {value : JsValue (Extended K)} {x : K} (h : fin x ∈ positiveMetric value) : 0 < x := by
  have hlt := (Option.mem_filter_iff.mp h).2
  rw [Extended.lit_eq, Extended.lt_fin, decide_eq_true_eq, Rat.cast_zero] at hlt
  exact hlt

def snapshotOf (payload : JsValue (Extended K)) : Snapshot K :=
  let read := precalcContinuationProgressFromEvidence payload
  { periodsRetained := read.periodsRetained.bind ofField
    simulatedTimeS := read.simulatedTimeS.bind ofField
    periodS := read.periodS.bind ofField
    driftFrac := read.driftFrac.bind ofField
    stationary := read.stationary
    terminalCleanCycles := read.terminalCleanCycles.bind ofField
    requiredCleanCycles := read.requiredCleanCycles.bind ofField
    cleanCycleCount := read.cleanCycleCount.bind ofField
    period_pos := by
      intro period hperiod
      obtain ⟨v, hv, hfield⟩ := Option.bind_eq_some_iff.mp hperiod
      obtain ⟨q, rfl⟩ := ((positiveMetric_measured _).or (positiveMetric_measured _)) v hv
      obtain rfl : q = period := Option.some.inj hfield
      obtain htrack | ⟨-, hforce⟩ := Option.or_eq_some_iff.mp hv
      · exact positiveMetric_pos htrack
      · exact positiveMetric_pos hforce }

theorem progress_snapshotOf (payload : JsValue (Extended K)) :
    (snapshotOf payload).progress = precalcContinuationProgressFromEvidence payload := by
  have hcount : Measured (precalcContinuationProgressFromEvidence payload).cleanCycleCount := by
    intro v hv
    simp only [precalcContinuationProgressFromEvidence] at hv
    split at hv
    · exact ⟨_, (Option.some.inj hv).symm⟩
    · cases hv
  simp only [Snapshot.progress, snapshotOf, hcount.map_ofField]
  simp only [precalcContinuationProgressFromEvidence,
    ((finiteMetric_measured _).or (finiteMetric_measured _)).map_ofField,
    ((positiveMetric_measured _).or (positiveMetric_measured _)).map_ofField, (finiteMetric_measured _).map_ofField,
    ((finiteMetric_measured _).filter _).map_ofField, ((positiveMetric_measured _).filter _).map_ofField]

end Evidence

/-! ## What one step of progress does -/

section Progress
variable {K : Type} [Field K] [LinearOrder K]

/-- Both have a simulated time, the later one by more than `1e-9`. -/
def TimeAdvances (p c : Snapshot K) : Prop :=
  ∃ before now, p.simulatedTimeS = some before ∧ c.simulatedTimeS = some now ∧ 1 / 10 ^ 9 < now - before

/-- Neither has a simulated time; a quarter of a period more is retained, at periods within five percent. -/
def RetainsMore (p c : Snapshot K) : Prop :=
  p.simulatedTimeS = none ∧ c.simulatedTimeS = none ∧
    (∃ before now, p.periodsRetained = some before ∧ c.periodsRetained = some now ∧ 1 / 4 ≤ now - before) ∧
    ∃ before now, p.periodS = some before ∧ c.periodS = some now ∧ |now - before| ≤ 5 / 100 * max now before

def QualityImproves (p c : Snapshot K) : Prop :=
  (∃ n ∈ c.terminalCleanCycles, p.terminalCleanCycles.getD 0 < n) ∨
    (∃ n ∈ c.cleanCycleCount, p.cleanCycleCount.getD 0 < n) ∨
    (c.stationary = some true ∧ p.stationary ≠ some true) ∨
    ∃ now ∈ c.driftFrac, ∃ before ∈ p.driftFrac, 0 < before ∧ now ≤ before * (9 / 10)

def HorizonRetained (c : Snapshot K) : Prop := ∃ n ∈ c.periodsRetained, 3 ≤ n

variable [FloorRing K]

theorem getD_map_fin (x : Option K) : (x.map fin).getD (Binary64.lit 0) = fin (x.getD 0) := by
  cases x <;> simp

theorem qualityImproved_iff (p c : Snapshot K) :
    qualityImproved p.progress c.progress = true ↔ QualityImproves p c := by
  unfold qualityImproved QualityImproves presentAnd
  simp only [Snapshot.progress, getD_map_fin, Option.any_map, Bool.or_eq_true, Bool.and_eq_true, Option.any_eq_true,
    or_assoc]
  simp

theorem horizon_iff (c : Snapshot K) :
    (presentAnd c.progress.periodsRetained fun x => Binary64.le (Binary64.lit frameTrackMinPeriodsPrecalc) x) = true ↔
      HorizonRetained c := by
  simp [Snapshot.progress, presentAnd, HorizonRetained, frameTrackMinPeriodsPrecalc, Option.any_eq_true]

variable [IsStrictOrderedRing K]

theorem periodCompatible_spec {p c : Snapshot K}
    (h : periodCompatible c.progress.periodS p.progress.periodS = true) :
    ∃ before now, p.periodS = some before ∧ c.periodS = some now ∧ |now - before| ≤ 5 / 100 * max now before := by
  cases hp : p.periodS with
  | none => simp [Snapshot.progress, hp, periodCompatible] at h
  | some before =>
    cases hc : c.periodS with
    | none => simp [Snapshot.progress, hp, hc, periodCompatible] at h
    | some now =>
      have hpos : 0 < max now before := lt_max_of_lt_left (c.period_pos now hc)
      simp only [Snapshot.progress, hp, hc, periodCompatible, Option.map_some, Extended.sub_fin, Extended.abs_fin,
        Extended.max_fin, Extended.div_fin hpos.ne', Extended.lit_eq, Extended.le_fin, decide_eq_true_eq,
        div_le_iff₀ hpos] at h
      push_cast at h
      exact ⟨before, now, rfl, rfl, h⟩

omit [IsStrictOrderedRing K] in
theorem timed_step {p c : Snapshot K} {before now : K} (hp : p.simulatedTimeS = some before)
    (hc : c.simulatedTimeS = some now) (h : advanced p.progress c.progress = true) :
    TimeAdvances p c ∧ (HorizonRetained c → QualityImproves p c) := by
  have hbefore : p.progress.simulatedTimeS = some (fin before) := by rw [Snapshot.progress, hp, Option.map_some]
  have hnow : c.progress.simulatedTimeS = some (fin now) := by rw [Snapshot.progress, hc, Option.map_some]
  simp only [advanced, hbefore, hnow] at h
  split at h
  · exact absurd h Bool.false_ne_true
  · next hdelta =>
    simp only [Extended.sub_fin, Extended.abs_fin, Extended.lit_eq, Extended.mul_fin, Extended.max_fin, Extended.le_fin,
      decide_eq_true_eq, not_le] at hdelta
    have hfloor := (le_max_left _ _).trans_lt hdelta
    push_cast at hfloor
    refine ⟨⟨before, now, hp, hc, hfloor⟩, fun hhorizon => ?_⟩
    -- past the horizon only the branch that asks for better quality is left
    rw [if_pos ((horizon_iff c).mpr hhorizon), Bool.and_eq_true] at h
    exact (qualityImproved_iff p c).mp h.2

theorem untimed_step {p c : Snapshot K} (hp : p.simulatedTimeS = none) (hc : c.simulatedTimeS = none)
    (h : advanced p.progress c.progress = true) : RetainsMore p c ∧ (HorizonRetained c → QualityImproves p c) := by
  have hnone : p.progress.simulatedTimeS = none := by rw [Snapshot.progress, hp, Option.map_none]
  have hnone' : c.progress.simulatedTimeS = none := by rw [Snapshot.progress, hc, Option.map_none]
  simp only [advanced, hnone, hnone'] at h
  cases hbefore : p.periodsRetained with
  | none => simp [Snapshot.progress, hbefore] at h
  | some before =>
    cases hnow : c.periodsRetained with
    | none => simp [Snapshot.progress, hnow] at h
    | some now =>
      have hretained : p.progress.periodsRetained = some (fin before) := by
        rw [Snapshot.progress, hbefore, Option.map_some]
      have hretained' : c.progress.periodsRetained = some (fin now) := by rw [Snapshot.progress, hnow, Option.map_some]
      simp only [hretained, hretained'] at h
      split at h
      · exact absurd h Bool.false_ne_true
      · next hgates =>
        rw [Bool.or_eq_true, not_or, Bool.not_eq_true, Bool.not_eq_eq_eq_not, Bool.not_false, Bool.not_eq_true,
          Bool.not_eq_eq_eq_not, Bool.not_false, Extended.sub_fin, Extended.lit_eq, Extended.le_fin,
          decide_eq_true_eq] at hgates
        obtain ⟨hcompatible, hgrowth⟩ := hgates
        push_cast at hgrowth
        refine ⟨⟨hp, hc, ⟨before, now, hbefore, hnow, hgrowth⟩, periodCompatible_spec hcompatible⟩, ?_⟩
        rintro ⟨n, hn, hthree⟩
        obtain rfl : now = n := Option.some.inj (hnow.symm.trans hn)
        have hcomplete : ¬Binary64.lt (fin now) (Binary64.lit frameTrackMinPeriodsPrecalc) = true := by
          simpa [frameTrackMinPeriodsPrecalc] using hthree
        rw [if_neg hcomplete] at h
        exact (qualityImproved_iff p c).mp h

theorem progress_step {p c : Snapshot K} (h : precalcContinuationMadeProgress (some p.progress) c.progress = true) :
    (TimeAdvances p c ∨ RetainsMore p c) ∧ (HorizonRetained c → QualityImproves p c) := by
  have hadvanced : advanced p.progress c.progress = true := h
  cases hp : p.simulatedTimeS with
  | none =>
    cases hc : c.simulatedTimeS with
    | none =>
      obtain ⟨hmore, hquality⟩ := untimed_step hp hc hadvanced
      exact ⟨.inr hmore, hquality⟩
    | some now => simp [advanced, Snapshot.progress, hp, hc] at hadvanced
  | some before =>
    cases hc : c.simulatedTimeS with
    | none => simp [advanced, Snapshot.progress, hp, hc] at hadvanced
    | some now =>
      obtain ⟨hadvance, hquality⟩ := timed_step hp hc hadvanced
      exact ⟨.inl hadvance, hquality⟩

/-! ## Chains of progress -/

theorem TimeAdvances.increases {p c : Snapshot K} (h : TimeAdvances p c) : Increases Snapshot.simulatedTimeS p c := by
  obtain ⟨before, now, hp, hc, hlt⟩ := h
  have hpos : (0 : K) < 1 / 10 ^ 9 := by positivity
  exact ⟨before, now, hp, hc, by linarith⟩

theorem RetainsMore.increases {p c : Snapshot K} (h : RetainsMore p c) : Increases Snapshot.periodsRetained p c := by
  obtain ⟨-, -, ⟨before, now, hp, hc, hle⟩, -⟩ := h
  have hpos : (0 : K) < 1 / 4 := by positivity
  exact ⟨before, now, hp, hc, by linarith⟩

theorem progress_chain {snapshots : List (Snapshot K)}
    (h : snapshots.IsChain fun p c => precalcContinuationMadeProgress (some p.progress) c.progress = true) :
    (((∀ s ∈ snapshots, s.simulatedTimeS.isSome) ∧ snapshots.IsChain TimeAdvances ∧
        snapshots.Pairwise fun p c => p.simulatedTimeS ≠ c.simulatedTimeS) ∨
      ((∀ s ∈ snapshots, s.simulatedTimeS = none) ∧ snapshots.IsChain RetainsMore ∧
        snapshots.Pairwise fun p c => p.periodsRetained ≠ c.periodsRetained)) ∧
      snapshots.IsChain fun p c => HorizonRetained c → QualityImproves p c := by
  have hsteps : snapshots.IsChain fun p c => TimeAdvances p c ∨ RetainsMore p c :=
    h.imp fun _ _ hstep => (progress_step hstep).1
  refine ⟨?_, h.imp fun _ _ hstep => (progress_step hstep).2⟩
  have htimed : ∀ p c : Snapshot K, TimeAdvances p c → p.simulatedTimeS.isSome ∧ c.simulatedTimeS.isSome := by
    rintro p c ⟨before, now, hp, hc, -⟩
    exact ⟨by rw [hp, Option.isSome_some], by rw [hc, Option.isSome_some]⟩
  have huntimed : ∀ p c : Snapshot K, RetainsMore p c → ¬p.simulatedTimeS.isSome ∧ ¬c.simulatedTimeS.isSome := by
    rintro p c ⟨hp, hc, -⟩
    exact ⟨by simp [hp], by simp [hc]⟩
  obtain ⟨hall, hchain⟩ | ⟨hall, hchain⟩ := isChain_or_split htimed huntimed hsteps
  · exact .inl ⟨hall, hchain, pairwise_ne_of_increases (hchain.imp fun _ _ hstep => hstep.increases)⟩
  · refine .inr ⟨fun s hs => ?_, hchain, pairwise_ne_of_increases (hchain.imp fun _ _ hstep => hstep.increases)⟩
    rw [← Option.not_isSome_iff_eq_none]
    exact hall s hs

end Progress

def threeSegments : List (Snapshot ℚ) :=
  [⟨some 1, some 2, some 2, none, none, none, none, none, by simp⟩,
    ⟨some (5 / 4), some (5 / 2), some (21 / 10), none, none, none, none, none, by simp⟩,
    ⟨some 4, some 8, some 2, none, none, some 1, some 3, some 1, by simp⟩]

theorem progress_chain_three_segments :
    (((∀ s ∈ threeSegments, s.simulatedTimeS.isSome) ∧ threeSegments.IsChain TimeAdvances ∧
        threeSegments.Pairwise fun p c => p.simulatedTimeS ≠ c.simulatedTimeS) ∨
      ((∀ s ∈ threeSegments, s.simulatedTimeS = none) ∧ threeSegments.IsChain RetainsMore ∧
        threeSegments.Pairwise fun p c => p.periodsRetained ≠ c.periodsRetained)) ∧
      threeSegments.IsChain fun p c => HorizonRetained c → QualityImproves p c :=
  progress_chain (by
    simp [threeSegments, precalcContinuationMadeProgress, advanced, Snapshot.progress, periodCompatible, presentAnd,
      qualityImproved, frameTrackMinPeriodsPrecalc]
    norm_num)

end XFoilFoam.Precalc
