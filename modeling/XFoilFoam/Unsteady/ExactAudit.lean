import XFoilFoam.Unsteady.CleanRecovery
import XFoilFoam.Unsteady.Waveforms

/-! `audit_period_cycles` of `postprocess/unsteady.py` in exact arithmetic, with every evidence and comparison pass: the
cycles it returns, the clean suffix and the window that a certified audit selects. -/
namespace XFoilFoam.Unsteady.Exact
open Aperiodic (Channel)
open Extended (fin)
open Sampling
set_option autoImplicit false

variable {K : Type} [Field K] [LinearOrder K] [FloorRing K]

/-! ## Series -/

structure RawSample (K : Type) where
  t : K
  value : Channel → Extended K

structure Sample (K : Type) where
  t : K
  value : Channel → K

def RawSample.isFinite (raw : RawSample K) : Bool := Channel.all.all fun c => Binary64.isFinite (raw.value c)

def RawSample.sample (raw : RawSample K) : Sample K := ⟨raw.t, fun c => Aperiodic.number (raw.value c)⟩

/-- The arguments of `audit_period_cycles`. -/
structure Arguments (K : Type) where
  times : List K
  cl : List (Extended K)
  cd : List (Extended K)
  cm : List (Extended K)
  periodS : Extended K
  fidelity : Option String
  requiredCycles : Extended K
  minCleanCycles : Option ℤ
  frameTimes : Option (List (Extended K))
  minFramesPerCycle : K
  minSamplesPerCycle : ℤ
  phaseSamples : ℤ
  invalidCoefficientTimes : Option (List (Extended K))

def zipSamples : List K → List (Extended K) → List (Extended K) → List (Extended K) → List (RawSample K)
  | t :: ts, cl :: cls, cd :: cds, cm :: cms =>
    ⟨t, fun
      | .cl => cl
      | .cd => cd
      | .cm => cm⟩ :: zipSamples ts cls cds cms
  | _, _, _, _ => []

namespace Arguments

def rows (args : Arguments K) : List (RawSample K) := zipSamples args.times args.cl args.cd args.cm

def sameLength (args : Arguments K) : Bool :=
  args.cl.length == args.times.length && args.cd.length == args.times.length && args.cm.length == args.times.length

/-- `_normalise_series` on arrays of one length: in time order, finite, more than `1e-12` after the entry before.
Equal times keep their order here, which `numpy.argsort` leaves open. -/
def normaliseSeries (args : Arguments K) : List (Sample K) :=
  Spaced.thin (fun a b => decide (1 / 10 ^ 12 < b.t - a.t))
    (((KeyOrder.sortBy RawSample.t args.rows).filter RawSample.isFinite).map RawSample.sample)

def invalidValueTimes (args : Arguments K) : List K :=
  if args.sameLength then (args.rows.filter fun raw => !raw.isFinite).map RawSample.t else []

end Arguments

def finiteTimes (values : List (Extended K)) : List K :=
  KeyOrder.sortBy id ((values.filter Binary64.isFinite).map Aperiodic.number).dedup

def normaliseInvalidTimes (values : Option (List (Extended K))) : List K := finiteTimes (values.getD [])

def Arguments.invalidTimes (args : Arguments K) : List K :=
  let inherited := normaliseInvalidTimes args.invalidCoefficientTimes
  if inherited.isEmpty then args.invalidValueTimes
  else KeyOrder.sortBy id (args.invalidValueTimes ++ inherited).dedup

/-- `required_clean_cycle_count`; the ceiling of an infinite horizon raises. -/
def Arguments.requirement (args : Arguments K) : Except SeriesError ℤ :=
  let minimum := cleanCycleMinimum args.fidelity args.minCleanCycles
  if Binary64.lt (Binary64.lit 0) args.requiredCycles then
    match args.requiredCycles with
    | .fin horizon => .ok (max minimum ⌈horizon - 1 / 10 ^ 12⌉)
    | _ => .error .overflowError
  else .ok (max minimum 0)

/-! ## The evidence of a cycle -/

/-- The period that a call of `_cycle_evidence` is about. -/
structure Period (K : Type) where
  index : ℕ
  isLast : Bool
  start : K
  stop : K

namespace Period

/-- `max(abs(start), abs(end), 1.0) * 1e-10`. -/
def eps (p : Period K) : K := max (max |p.start| |p.stop|) 1 * (1 / 10 ^ 10)

/-- The entry of `raw_mask`, `invalid_mask` or `frame_mask` at a time. -/
def owns (p : Period K) (t : K) : Bool :=
  decide (p.start - p.eps ≤ t) &&
    if p.isLast then decide (t ≤ p.stop + p.eps) else decide (t < p.stop - p.eps)

end Period

inductive Reason (K : Type) where
  | samples (samples : ℕ) (minimum : ℤ)
  | phaseGap (gap : K)
  | frames (frames : ℕ) (minimum : K)
  | nonFiniteSample
  | impulsiveDiscontinuity
  | highFrequencyBurst (channel : Channel)
  | meanOutlier (channel : Channel)
  | shape (channel : Channel) (error : K)
  | amplitudeDeviation (channel : Channel) (deviation : K)
  | phaseShift (bins : ℤ)

def cyclePhaseGap (times : List K) (start stop : K) : K :=
  let span := stop - start
  if times.length < 2 ∨ span ≤ 0 then 1
  else
    let phase := KeyOrder.sortBy id (times.map fun t => max 0 (min 1 ((t - start) / span))).dedup
    if phase.length < 2 then 1 else largest (diff (0 :: phase ++ [1]))

/-- `np.interp` on one channel. -/
def valueAt (samples : List (Sample K)) (c : Channel) (x : K) : K :=
  interp x (samples.map fun s => (s.t, s.value c))

def windowSeries (samples : List (Sample K)) (start stop : K) : List (Sample K) :=
  match samples.head?, samples.getLast? with
  | some first, some last =>
    let start := max first.t start
    let stop := min last.t stop
    if stop ≤ start then samples
    else
      ⟨start, fun c => valueAt samples c start⟩ ::
        (samples.filter fun s => decide (start < s.t) && decide (s.t < stop)) ++
          [⟨stop, fun c => valueAt samples c stop⟩]
  | _, _ => samples

structure CycleEvidence (K : Type) where
  period : Period K
  series : List (Sample K)
  phase : Channel → List K
  samples : ℕ
  frames : Option ℕ
  phaseGap : K
  hardReasons : List (Reason K)

def cleanCycleMaxPhaseGap : ℚ := 1 / 10

/-- The arguments that every call of `_cycle_evidence` shares. -/
structure Shared (K : Type) where
  samples : List (Sample K)
  phaseSamples : ℤ
  frameTimes : Option (List K)
  minSamples : ℤ
  minFrames : K
  invalidTimes : List K

def cycleEvidence (shared : Shared K) (p : Period K) : CycleEvidence K :=
  let t := shared.samples.map Sample.t
  let samples := t.countP p.owns
  let phaseGap := cyclePhaseGap (t.filter p.owns) p.start p.stop
  let frames := shared.frameTimes.map fun times => times.countP p.owns
  let series := windowSeries shared.samples p.start p.stop
  let impulse := hasCycleImpulse (series.map Sample.t) (Channel.all.map fun c => series.map fun s => s.value c)
  let hard : List (Reason K) :=
    (if (samples : ℤ) < shared.minSamples then [.samples samples shared.minSamples] else []) ++
    (if (cleanCycleMaxPhaseGap : K) < phaseGap then [.phaseGap phaseGap] else []) ++
    (match frames with
      | some n => if (n : K) + 1 / 10 ^ 9 < shared.minFrames then [.frames n shared.minFrames] else []
      | none => []) ++
    (if shared.invalidTimes.any p.owns then [.nonFiniteSample] else []) ++
    (if impulse then [.impulsiveDiscontinuity] else [])
  let grid := phaseGrid p.start p.stop (max 8 shared.phaseSamples).toNat
  { period := p
    series
    phase := fun c => grid.map (valueAt series c)
    samples
    frames
    phaseGap
    hardReasons := hard }

/-! ## The verdict on a cycle -/

structure CycleAudit (K : Type) where
  index : ℕ
  start : K
  stop : K
  samples : ℕ
  frames : Option ℕ
  phaseGap : K
  phaseShiftBins : ℤ
  mean : Channel → K
  shapeError : Channel → K
  amplitudeDeviation : Channel → K
  highFrequency : Channel → K
  hardReasons : List (Reason K)
  softReasons : List (Reason K)

def CycleAudit.clean (cycle : CycleAudit K) : Bool := cycle.hardReasons.isEmpty && cycle.softReasons.isEmpty

def unusable (cycle : CycleEvidence K) : CycleAudit K where
  index := cycle.period.index
  start := cycle.period.start
  stop := cycle.period.stop
  samples := cycle.samples
  frames := cycle.frames
  phaseGap := cycle.phaseGap
  phaseShiftBins := 0
  mean _ := 0
  shapeError _ := (unboundedMetric : K)
  amplitudeDeviation _ := (unboundedMetric : K)
  highFrequency _ := 0
  hardReasons := cycle.hardReasons
  softReasons := []

def maxShapeNrmse : ℚ := 12 / 100
def maxAmplitudeDeviation : ℚ := 30 / 100
def maxPhaseShiftBins : ℤ := 4
def highFrequencyFraction : ℚ := 5 / 100

structure Template (K : Type) where
  phase : Channel → List K
  highFrequencyMedian : Channel → K
  highFrequencyMad : Channel → K

def columnMedians (rows : List (List K)) : List K :=
  match rows with
  | [] => []
  | first :: _ => (List.range first.length).map fun i => median (rows.map fun row => row.getD i 0)

/-- `_cycle_template`, and the energies of the cycles behind it. -/
def cycleTemplate (numerics : Numerics K) (source : List (CycleEvidence K)) : Template K :=
  let energies := fun c => source.map fun cycle => highFrequencyAmplitude numerics (cycle.phase c)
  { phase := fun c => columnMedians (source.map fun cycle => cycle.phase c)
    highFrequencyMedian := fun c => median (energies c)
    highFrequencyMad := fun c => median ((energies c).map fun energy => |energy - median (energies c)|) }

/-- A burst: a part of the waveform, and more than the other cycles have. -/
def isBurst (template : Template K) (c : Channel) (energy : K) : Bool :=
  let centre := template.highFrequencyMedian c
  let mad := template.highFrequencyMad c
  let peerOutlier := decide (3 * max centre (1 / 10 ^ 12) < energy) ||
    decide (centre + 6 * max mad (1 / 10 ^ 12) < energy)
  decide ((highFrequencyFraction : K) * (channelScale (template.phase c)).scale < energy) && peerOutlier

def compareCycle (numerics : Numerics K) (template : Template K) (cycle : CycleEvidence K) : CycleAudit K :=
  let errors := phaseAlignedErrors numerics cycle.phase template.phase
  let means := fun c => timeWeightedMean (cycle.series.map fun s => (s.t, s.value c))
  let highFrequency := fun c => highFrequencyAmplitude numerics (cycle.phase c)
  let soft : List (Reason K) :=
    ((Channel.all.filter fun c => meanOutlier c (means c) (mean (template.phase c))).map .meanOutlier) ++
    ((Channel.all.filter fun c => decide ((maxShapeNrmse : K) < errors.shape c)).map
      fun c => .shape c (errors.shape c)) ++
    ((Channel.all.filter fun c => decide ((maxAmplitudeDeviation : K) < errors.amplitude c)).map
      fun c => .amplitudeDeviation c (errors.amplitude c)) ++
    (if maxPhaseShiftBins < |errors.shift| then [.phaseShift errors.shift] else [])
  { index := cycle.period.index
    start := cycle.period.start
    stop := cycle.period.stop
    samples := cycle.samples
    frames := cycle.frames
    phaseGap := cycle.phaseGap
    phaseShiftBins := errors.shift
    mean := means
    shapeError := errors.shape
    amplitudeDeviation := errors.amplitude
    highFrequency := highFrequency
    hardReasons := cycle.hardReasons ++
      (Channel.all.filter fun c => isBurst template c (highFrequency c)).map .highFrequencyBurst
    softReasons := soft }

/-! ## The audit -/

/-- `CleanCycleAudit`; no recovery marker is attached. -/
structure CleanCycleAudit (K : Type) where
  periodS : K
  phaseSamples : ℤ
  cycles : List (CycleAudit K)
  terminalCleanCycles : ℕ
  requiredCleanCycles : ℤ
  templateCycles : ℕ
  shapeError : Extended K
  measuredPeriods : ℕ

namespace CleanCycleAudit

def certified (audit : CleanCycleAudit K) : Bool := decide (audit.requiredCleanCycles ≤ audit.terminalCleanCycles)

/-- `selected_start`; the requirement is positive, so that `-required_clean_cycles` counts from the end. -/
def selectedStart (audit : CleanCycleAudit K) : Option K :=
  if audit.certified then
    audit.cycles[audit.cycles.length - audit.requiredCleanCycles.toNat]?.map CycleAudit.start
  else none

end CleanCycleAudit

def emptyAudit (periodS : K) (phaseSamples requirement : ℤ) : CleanCycleAudit K where
  periodS
  phaseSamples
  cycles := []
  terminalCleanCycles := 0
  requiredCleanCycles := requirement
  templateCycles := 0
  shapeError := .posInf
  measuredPeriods := 0

def periodsOf (last period : K) (available : ℕ) : List (Period K) :=
  let first := last - available * period
  (List.range available).map fun index =>
    ⟨index, decide (index + 1 = available), first + index * period, first + ((index + 1 : ℕ) : K) * period⟩

def templateSource (requirement : ℤ) (evidence : List (CycleEvidence K)) : List (CycleEvidence K) :=
  let usable := evidence.filter fun cycle => cycle.hardReasons.isEmpty
  usable.drop (usable.length - (max (requirement + 2) finalCleanCycleMinimum).toNat)

def terminalClean (cycles : List (CycleAudit K)) : ℕ := (cycles.reverse.takeWhile CycleAudit.clean).length

def judge (numerics : Numerics K) (period : K) (phaseSamples requirement : ℤ) (evidence : List (CycleEvidence K)) :
    CleanCycleAudit K :=
  let source := templateSource requirement evidence
  if source.isEmpty then
    { emptyAudit period phaseSamples requirement with
      cycles := evidence.map unusable
      measuredPeriods := evidence.length }
  else
    let audits := evidence.map (compareCycle numerics (cycleTemplate numerics source))
    { periodS := period
      phaseSamples
      cycles := audits
      terminalCleanCycles := terminalClean audits
      requiredCleanCycles := requirement
      templateCycles := source.length
      shapeError := fin (largest (audits.map fun cycle =>
        max (max (cycle.shapeError .cl) (cycle.shapeError .cd)) (cycle.shapeError .cm)))
      measuredPeriods := evidence.length }

def auditPeriodCycles (numerics : Numerics K) (args : Arguments K) : Except SeriesError (CleanCycleAudit K) :=
  match args.requirement with
  | .error e => .error e
  | .ok requirement =>
    match args.periodS with
    | .fin period =>
      if period ≤ 0 ∨ args.phaseSamples < 8 then .ok (emptyAudit period (max 8 args.phaseSamples) requirement)
      else if !args.sameLength then .error (.valueError "time/value arrays must have the same length")
      else
        let samples := args.normaliseSeries
        match samples.head?, samples.getLast? with
        | some first, some last =>
          if samples.length < 2 ∨ last.t ≤ first.t then .ok (emptyAudit period args.phaseSamples requirement)
          else
            let available := ⌊(last.t - first.t) / period + 1 / 10 ^ 9⌋
            if available < 1 then .ok (emptyAudit period args.phaseSamples requirement)
            else
              let shared : Shared K :=
                ⟨samples, args.phaseSamples, args.frameTimes.map finiteTimes, max 2 args.minSamplesPerCycle,
                  max 0 args.minFramesPerCycle, args.invalidTimes⟩
              .ok (judge numerics period args.phaseSamples requirement
                ((periodsOf last.t period available.toNat).map (cycleEvidence shared)))
        | _, _ => .ok (emptyAudit period args.phaseSamples requirement)
    | _ => .ok (emptyAudit 0 (max 8 args.phaseSamples) requirement)

end XFoilFoam.Unsteady.Exact
