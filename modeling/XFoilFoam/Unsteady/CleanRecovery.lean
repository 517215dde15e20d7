import XFoilFoam.Unsteady.CycleAudit
import XFoilFoam.Engine.RansHold
import XFoilFoam.Foundations.Runs

/-! The recovery ceiling of `postprocess/unsteady.py`: a run audits its cycles, attaches the measured progress and
asks for more periods until the tail is clean or the ceiling of the fidelity is reached.  The comparison of a
cycle with the template is a parameter of the audit; `shape_error` and `cadence_adjusted` are left out. -/
namespace XFoilFoam.Unsteady
open Binary64
open Engine (strip)
set_option autoImplicit false

/-! ## Floors and ceilings -/

def fastCleanCycleMinimum : ℤ := 3
def finalCleanCycleMinimum : ℤ := 5
def fastCleanCycleMaxPeriods : ℤ := 9
def finalCleanCycleMaxPeriods : ℤ := 12

/-- `(fidelity or "").strip().lower().replace("_", "-")`.  No other letter has a lower case in ASCII that one of the
compared texts uses. -/
def fidelityKey (fidelity : Option String) : String :=
  String.ofList (((strip (fidelity.getD "").toList).map asciiLower).map fun c => if c = '_' then '-' else c)

/-- `{"full", "final", "urans-full", "urans-final"}`. -/
def isFinalKey (key : String) : Bool := ["full", "final", "urans-full", "urans-final"].contains key

def cleanCycleMinimum (fidelity : Option String) (minimumCycles : Option ℤ) : ℤ :=
  let key := fidelityKey fidelity
  let base : ℤ :=
    if ["candidate", "live", "monitor"].contains key then 2
    else if isFinalKey key then finalCleanCycleMinimum
    else fastCleanCycleMinimum
  max base (minimumCycles.getD base)

/-- `required_clean_cycle_count`; the ceiling of an infinite horizon raises. -/
def requiredCleanCycleCount (fidelity : Option String) (requiredCycles : Double) (minimumCycles : Option ℤ) :
    Except SeriesError ℤ :=
  if lt (lit 0) requiredCycles then
    match (sub requiredCycles (lit (1 / 10 ^ 12))).val with
    | .fin q => .ok (max (cleanCycleMinimum fidelity minimumCycles) ⌈q⌉)
    | _ => .error .overflowError
  else .ok (max (cleanCycleMinimum fidelity minimumCycles) 0)

def cleanCycleMaxPeriods (fidelity : Option String) : ℤ :=
  if isFinalKey (fidelityKey fidelity) then finalCleanCycleMaxPeriods else fastCleanCycleMaxPeriods

/-! ## The audit -/

/-- `CycleAudit`: the evidence of one cycle, with the reasons that the comparison adds to it. -/
structure CycleAudit where
  evidence : CycleEvidence
  burstReasons : List String
  softReasons : List String
  deriving DecidableEq

/-- `CycleAudit.clean`. -/
def CycleAudit.clean (cycle : CycleAudit) : Bool :=
  cycle.evidence.hardReasons.isEmpty && cycle.burstReasons.isEmpty && cycle.softReasons.isEmpty

structure CleanCycleAudit where
  periodS : Double
  phaseSamples : ℤ
  cycles : List CycleAudit
  terminalCleanCycles : ℕ
  requiredCleanCycles : ℤ
  templateCycles : ℕ
  measuredPeriods : ℤ := 0
  recoveryOriginTime : Option Double := none
  recoveryLatestTime : Option Double := none
  deriving DecidableEq

/-- `CleanCycleAudit.physical_periods`. -/
def CleanCycleAudit.physicalPeriods (audit : CleanCycleAudit) : ℤ :=
  max audit.cycles.length (max 0 audit.measuredPeriods)

/-- The arguments of `audit_period_cycles`.  `impulse` is the derivative test on the interpolated window and
`compare` the reasons that a cycle gets against the template cycles. -/
structure AuditInput where
  times : List Double
  cl : List Double
  cd : List Double
  cm : List Double
  periodS : Double
  requiredCycles : Double
  minCleanCycles : Option ℤ
  frameTimes : Option (List Double)
  minFramesPerCycle : Double
  minSamplesPerCycle : ℤ
  phaseSamples : ℤ
  invalidCoefficientTimes : Option (List Double)
  impulse : Cycle → Bool
  compare : List CycleEvidence → CycleEvidence → List String × List String

def invalidValueTimes (times cl cd cm : List Double) : List Double :=
  if cl.length ≠ times.length ∨ cd.length ≠ times.length ∨ cm.length ≠ times.length then []
  else
    ((zipRows times cl cd cm).filter fun r =>
      isFinite r.t && !(isFinite r.cl && isFinite r.cd && isFinite r.cm)).map SeriesRow.t

def AuditInput.invalidTimes (input : AuditInput) : List Double :=
  let own := invalidValueTimes input.times input.cl input.cd input.cm
  let inherited := unique ((input.invalidCoefficientTimes.getD []).filter isFinite)
  if inherited.isEmpty then own else unique (own ++ inherited)

def AuditInput.evidence (input : AuditInput) (t : List Double) (cycles : List Cycle) : List CycleEvidence :=
  cycles.map (cycleEvidence t (input.frameTimes.map fun times => unique (times.filter isFinite))
    (max 2 input.minSamplesPerCycle) (Double.pyMax (lit 0) input.minFramesPerCycle) input.invalidTimes input.impulse)

def templateSource (requirement : ℤ) (evidence : List CycleEvidence) : List CycleEvidence :=
  let usable := evidence.filter fun cycle => cycle.hardReasons.isEmpty
  usable.drop (usable.length - (max (requirement + 2) finalCleanCycleMinimum).toNat)

def terminalClean (cycles : List CycleAudit) : ℕ := (cycles.reverse.takeWhile CycleAudit.clean).length

def emptyAudit (periodS : Double) (phaseSamples requirement : ℤ) : CleanCycleAudit :=
  { periodS := periodS, phaseSamples := phaseSamples, cycles := [], terminalCleanCycles := 0,
    requiredCleanCycles := requirement, templateCycles := 0 }

def AuditInput.judge (input : AuditInput) (requirement : ℤ) (t : List Double) (cycles : List Cycle) :
    CleanCycleAudit :=
  let evidence := input.evidence t cycles
  let source := templateSource requirement evidence
  let audits :=
    if source.isEmpty then evidence.map fun cycle => ⟨cycle, [], []⟩
    else evidence.map fun cycle => ⟨cycle, (input.compare source cycle).1, (input.compare source cycle).2⟩
  { periodS := input.periodS
    phaseSamples := input.phaseSamples
    cycles := audits
    terminalCleanCycles := if source.isEmpty then 0 else terminalClean audits
    requiredCleanCycles := requirement
    templateCycles := source.length
    measuredPeriods := cycles.length }

/-- `audit_period_cycles`. -/
def AuditInput.audit (numpy : Argsort) (fidelity : Option String) (input : AuditInput) :
    Except SeriesError CleanCycleAudit :=
  match requiredCleanCycleCount fidelity input.requiredCycles input.minCleanCycles with
  | .error e => .error e
  | .ok requirement =>
    if !isFinite input.periodS || le input.periodS (lit 0) || decide (input.phaseSamples < 8) then
      .ok (emptyAudit (if isFinite input.periodS then input.periodS else lit 0) (max 8 input.phaseSamples)
        requirement)
    else
      match auditPeriodCycles numpy input.times input.cl input.cd input.cm input.periodS input.phaseSamples with
      | .error e => .error e
      | .ok (_, []) => .ok (emptyAudit input.periodS input.phaseSamples requirement)
      | .ok (t, cycles) => .ok (input.judge requirement t cycles)

/-! ## Progress and requests -/

def cleanCycleRecoveryExhausted (audit : CleanCycleAudit) (fidelity : Option String) : Bool :=
  decide (cleanCycleMaxPeriods fidelity ≤ audit.physicalPeriods)

/-- `with_clean_cycle_recovery_progress`: an unusable marker leaves the audit as it is. -/
def withCleanCycleRecoveryProgress (audit : CleanCycleAudit) (originTime latestTime : Option Double) :
    Except SeriesError CleanCycleAudit :=
  match originTime, latestTime with
  | some origin, some latest =>
    if !isFinite origin || !isFinite latest || !isFinite audit.periodS || le audit.periodS (lit 0) ||
        lt latest origin then .ok audit
    else
      match (add (div (sub latest origin) audit.periodS) (lit (1 / 10 ^ 9))).val with
      | .fin q =>
        .ok { audit with
          measuredPeriods := max audit.physicalPeriods ⌊q⌋
          recoveryOriginTime := some origin
          recoveryLatestTime := some latest }
      | _ => .error .overflowError
  | _, _ => .ok audit

/-- The other arguments of `additional_periods_for_clean_suffix`. -/
structure ChunkOptions where
  requiredCycles : Double
  minimumCycles : Option ℤ
  borderline : Bool
  maximumChunkPeriods : ℤ
  deriving DecidableEq

def suffixDeficit (audit : CleanCycleAudit) (target cap : ℤ) (borderline : Bool) : ℤ :=
  if (audit.terminalCleanCycles : ℤ) < target then
    if !(audit.cycles.getLast?.any CycleAudit.clean) then cap
    else if audit.cycles.any fun cycle => !cycle.clean then 1
    else min cap (max 1 (target - audit.terminalCleanCycles))
  else if borderline then cap else 0

/-- `additional_periods_for_clean_suffix` on an audit. -/
def additionalPeriodsForCleanSuffix (audit : CleanCycleAudit) (fidelity : Option String)
    (options : ChunkOptions) : Except SeriesError ℤ :=
  match requiredCleanCycleCount fidelity options.requiredCycles options.minimumCycles with
  | .error e => .error e
  | .ok target =>
    if audit.cycles.isEmpty then .ok (max 1 options.maximumChunkPeriods)
    else
      let cap := min (max 1 options.maximumChunkPeriods)
        (max 0 (cleanCycleMaxPeriods fidelity - audit.physicalPeriods))
      if cap ≤ 0 then .ok 0 else .ok (suffixDeficit audit target cap options.borderline)

/-! ## Runs -/

structure Round where
  input : AuditInput
  originTime : Option Double
  latestTime : Option Double
  options : ChunkOptions

structure Request where
  audit : CleanCycleAudit
  options : ChunkOptions
  periods : ℤ
  deriving DecidableEq

/-- A round: audit, attach the progress, ask. -/
def Round.play (numpy : Argsort) (fidelity : Option String) (round : Round) : Except SeriesError Request :=
  match round.input.audit numpy fidelity with
  | .error e => .error e
  | .ok audit =>
    match withCleanCycleRecoveryProgress audit round.originTime round.latestTime with
    | .error e => .error e
    | .ok audit =>
      (additionalPeriodsForCleanSuffix audit fidelity round.options).map fun periods =>
        ⟨audit, round.options, periods⟩

structure RecoveryRun where
  latestTime : Option Double
  requests : List Request

def notBefore (before after : Option Double) : Prop :=
  ∀ s ∈ before, ∀ t ∈ after, lt t s = false

inductive RecoveryRun.Step (numpy : Argsort) (fidelity : Option String) : RecoveryRun → RecoveryRun → Prop
  | round (run : RecoveryRun) (round : Round) (request : Request)
      (later : notBefore run.latestTime round.latestTime)
      (played : round.play numpy fidelity = .ok request) :
      RecoveryRun.Step numpy fidelity run ⟨round.latestTime, run.requests ++ [request]⟩

def RecoveryRun.start (run : RecoveryRun) : Prop := run.requests = []

/-- The request does not take the measured periods over the ceiling, and is nothing at the ceiling. -/
def Request.Bounded (fidelity : Option String) (request : Request) : Prop :=
  request.audit.physicalPeriods + request.periods ≤
      max request.audit.physicalPeriods (cleanCycleMaxPeriods fidelity) ∧
    (cleanCycleRecoveryExhausted request.audit fidelity = true → request.periods = 0)

/-- The audit has a cycle, or a whole chunk fits below the ceiling. -/
def Request.HasRoom (fidelity : Option String) (request : Request) : Prop :=
  request.audit.cycles ≠ [] ∨
    request.audit.physicalPeriods + max 1 request.options.maximumChunkPeriods ≤ cleanCycleMaxPeriods fidelity

theorem suffixDeficit_le {audit : CleanCycleAudit} {target cap : ℤ} {borderline : Bool} (hcap : 0 < cap) :
    suffixDeficit audit target cap borderline ≤ cap := by
  unfold suffixDeficit
  split_ifs <;> omega

theorem additionalPeriods_bounded_iff {audit : CleanCycleAudit} {fidelity : Option String}
    {options : ChunkOptions} {periods : ℤ}
    (h : additionalPeriodsForCleanSuffix audit fidelity options = .ok periods) :
    Request.Bounded fidelity ⟨audit, options, periods⟩ ↔ Request.HasRoom fidelity ⟨audit, options, periods⟩ := by
  unfold additionalPeriodsForCleanSuffix at h
  simp only [Request.Bounded, Request.HasRoom, cleanCycleRecoveryExhausted, decide_eq_true_eq]
  split at h
  · cases h
  · next target _ =>
    split at h
    · next hempty =>
      -- No cycle: the whole chunk is asked for, whatever has been measured.
      have hnil : audit.cycles = [] := List.isEmpty_iff.mp hempty
      cases h
      simp only [hnil, ne_eq, not_true_eq_false, false_or]
      omega
    · next hcycles =>
      have hne : audit.cycles ≠ [] := fun hnil => hcycles (List.isEmpty_iff.mpr hnil)
      simp only [hne, ne_eq, not_false_eq_true, true_or, iff_true]
      dsimp only at h
      split at h
      · cases h
        omega
      · next hcap =>
        have hle : suffixDeficit audit target _ options.borderline ≤ _ := suffixDeficit_le (not_le.mp hcap)
        cases h
        omega

theorem play_eq_ok {numpy : Argsort} {fidelity : Option String} {round : Round} {request : Request}
    (h : round.play numpy fidelity = .ok request) :
    additionalPeriodsForCleanSuffix request.audit fidelity request.options = .ok request.periods := by
  unfold Round.play at h
  split at h
  · cases h
  · split at h
    · cases h
    · next audit _ =>
      cases hperiods : additionalPeriodsForCleanSuffix audit fidelity round.options with
      | error e =>
        rw [hperiods] at h
        cases h
      | ok periods =>
        rw [hperiods] at h
        cases h
        exact hperiods

/-- In every run the requests stay under the ceiling exactly when each of them had room: a round whose audit has
no cycle asks for a whole chunk, whatever the marker has measured. -/
theorem requests_bounded_iff (numpy : Argsort) (fidelity : Option String) (run : RecoveryRun)
    (h : Reachable RecoveryRun.start (RecoveryRun.Step numpy fidelity) run) :
    (∀ request ∈ run.requests, request.Bounded fidelity) ↔ ∀ request ∈ run.requests, request.HasRoom fidelity := by
  have hinv : ∀ request ∈ run.requests, request.Bounded fidelity ↔ request.HasRoom fidelity := by
    refine h.invariant (P := fun run => ∀ request ∈ run.requests,
      request.Bounded fidelity ↔ request.HasRoom fidelity) ?_ ?_
    · intro run hstart request hmem
      rw [hstart] at hmem
      cases hmem
    · intro run _ ih hstep other hmem
      cases hstep with
      | round _ request _ hplayed =>
        obtain hmem | hmem := List.mem_append.mp hmem
        · exact ih other hmem
        · rw [List.mem_singleton.mp hmem]
          exact additionalPeriods_bounded_iff (play_eq_ok hplayed)
  exact forall₂_congr hinv

theorem reachable_of_play {numpy : Argsort} {fidelity : Option String} {round : Round} {request : Request}
    (h : round.play numpy fidelity = .ok request) :
    Reachable RecoveryRun.start (RecoveryRun.Step numpy fidelity) ⟨round.latestTime, [request]⟩ := by
  have hstart : RecoveryRun.start ⟨none, []⟩ := rfl
  exact (Reachable.start hstart).next
    (RecoveryRun.Step.round ⟨none, []⟩ round request (fun _ hs => nomatch hs) h)

def markedRound (times : List Double) : Round where
  input :=
    { times := times
      cl := times.map fun _ => lit 0
      cd := times.map fun _ => lit 1
      cm := times.map fun _ => lit 0
      periodS := lit 1
      requiredCycles := lit 0
      minCleanCycles := none
      frameTimes := none
      minFramesPerCycle := lit 20
      minSamplesPerCycle := 20
      phaseSamples := 96
      invalidCoefficientTimes := none
      impulse := fun _ => false
      compare := fun _ _ => ([], []) }
  originTime := some (lit 0)
  latestTime := some (lit 9)
  options := ⟨lit 0, none, false, 3⟩

/-- The audit of the last period finds its one cycle and asks for nothing at nine measured periods. -/
theorem one_cycle_request_bounded :
    ∃ request, (markedRound [lit 8, lit 9]).play Argsort.stable none = .ok request ∧
      request.audit.physicalPeriods = 9 ∧ request.Bounded none := by
  have hplay : ((markedRound [lit 8, lit 9]).play Argsort.stable none).toOption.map (fun request =>
      (request.audit.cycles.length, request.audit.physicalPeriods)) = some (1, 9) := by
    decide +kernel
  cases hround : (markedRound [lit 8, lit 9]).play Argsort.stable none with
  | error e =>
    rw [hround] at hplay
    cases hplay
  | ok request =>
    rw [hround] at hplay
    obtain ⟨hcycles, hperiods⟩ := Prod.mk.inj (Option.some.inj hplay)
    have hroom : request.HasRoom none := .inl (List.ne_nil_of_length_eq_add_one hcycles)
    refine ⟨request, rfl, hperiods, ?_⟩
    have hall := (requests_bounded_iff Argsort.stable none _ (reachable_of_play hround)).mpr fun other hmem => by
      rw [List.mem_singleton.mp hmem]
      exact hroom
    exact hall request (List.mem_singleton.mpr rfl)

/-- A single row has no cycle: at nine measured periods, the ceiling of the fast tier, three more are asked for. -/
theorem cycleless_audit_overruns :
    ∃ run request, Reachable RecoveryRun.start (RecoveryRun.Step Argsort.stable none) run ∧
      request ∈ run.requests ∧ request.audit.cycles = [] ∧
      request.audit.physicalPeriods = 9 ∧ cleanCycleRecoveryExhausted request.audit none = true ∧
      request.periods = 3 ∧ ¬request.Bounded none := by
  have hplay : ((markedRound [lit 9]).play Argsort.stable none).toOption.map (fun request =>
      (request.audit.cycles, request.audit.physicalPeriods, cleanCycleRecoveryExhausted request.audit none,
        request.periods)) = some ([], 9, true, 3) := by
    decide +kernel
  cases hround : (markedRound [lit 9]).play Argsort.stable none with
  | error e =>
    rw [hround] at hplay
    cases hplay
  | ok request =>
    rw [hround] at hplay
    obtain ⟨hcycles, hrest⟩ := Prod.mk.inj (Option.some.inj hplay)
    obtain ⟨hperiods, hrest⟩ := Prod.mk.inj hrest
    obtain ⟨hexhausted, hasked⟩ := Prod.mk.inj hrest
    refine ⟨_, request, reachable_of_play hround, List.mem_singleton.mpr rfl, hcycles, hperiods, hexhausted, hasked,
      fun hbounded => ?_⟩
    have hzero := hbounded.2 hexhausted
    omega

end XFoilFoam.Unsteady
