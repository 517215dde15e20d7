import Mathlib.Data.Rat.Floor
import Mathlib.Algebra.Order.Field.Rat
import Mathlib.Data.PNat.Basic

/-! The part of `PolarRequest` (`src/airfoilfoam/models.py`) that decides which cases a job has and
how many processors it may use.  Numbers of a request are exact; a field that the validators bound
has the bound in its type. -/
namespace XFoilFoam.Engine
set_option autoImplicit false

/-! ## Angles of attack -/

/-- Python `round(x)`: the nearest integer, the even one on a tie. -/
def pyRound (x : ℚ) : ℤ :=
  if x - ⌊x⌋ < 1 / 2 then ⌊x⌋
  else if 1 / 2 < x - ⌊x⌋ then ⌊x⌋ + 1
  else if ⌊x⌋ % 2 = 0 then ⌊x⌋ else ⌊x⌋ + 1

/-- Python `round(x, 6)`. -/
def pyRound6 (x : ℚ) : ℚ := (pyRound (x * 1000000) : ℚ) / 1000000

/-- `AoASpec` with its validator. -/
structure AoASpec where
  angles : Option (List ℚ)
  start : Option ℚ
  stop : Option ℚ
  step : Option ℚ
  given : angles.isSome ∨ (start.isSome ∧ stop.isSome ∧ step.isSome)
  step_ne : step ≠ some 0

/-- The loop over `result` with the set `seen`. -/
def unseen (seen : List ℚ) : List ℚ → List ℚ
  | [] => []
  | a :: rest => if a ∈ seen then unseen seen rest else a :: unseen (a :: seen) rest

/-- The inclusive range of a specification that has all of start, stop and step. -/
def AoASpec.range (spec : AoASpec) : List ℚ :=
  match spec.start, spec.stop, spec.step with
  | some start, some stop, some step =>
    (List.range (pyRound ((stop - start) / step) + 1).toNat).map
      (fun i => pyRound6 (start + i * step))
  | _, _, _ => []

/-- `AoASpec.expand`. -/
def AoASpec.expand (spec : AoASpec) : List ℚ := unseen [] (spec.angles.getD [] ++ spec.range)

/-! ## Request -/

inductive ResourcePolicy where
  | auto
  | airfoilParallel
  | caseParallel
  | exclusive
  deriving DecidableEq, Repr

/-- `ResourceParams`; a lower bound of one is part of the type. -/
structure ResourceParams where
  cpuBudget : Option ℕ+
  caseConcurrency : Option ℕ+
  solverProcesses : Option ℕ+
  queuePressure : Option ℕ
  policy : ResourcePolicy

structure PolarRequest where
  chordLengths : List ℚ
  speeds : List ℚ
  aoa : AoASpec
  warmStart : Bool
  resources : ResourceParams
  chords_ne : chordLengths ≠ []
  speeds_ne : speeds ≠ []
  chords_pos : ∀ chord ∈ chordLengths, 0 < chord
  speeds_pos : ∀ speed ∈ speeds, 0 < speed

/-- One CFD run: `CaseSpec` without the derived section thickness. -/
structure CaseSpec where
  chord : ℚ
  speed : ℚ
  aoaDeg : ℚ
  deriving DecidableEq, Repr

/-- `PolarRequest.cases`. -/
def PolarRequest.cases (request : PolarRequest) : List CaseSpec :=
  request.chordLengths.flatMap fun chord =>
    request.speeds.flatMap fun speed =>
      request.aoa.expand.map fun aoa => ⟨chord, speed, aoa⟩

theorem PolarRequest.mem_cases (request : PolarRequest) (spec : CaseSpec) :
    spec ∈ request.cases ↔
      spec.chord ∈ request.chordLengths ∧ spec.speed ∈ request.speeds ∧
        spec.aoaDeg ∈ request.aoa.expand := by
  obtain ⟨chord, speed, aoa⟩ := spec
  simp only [cases, List.mem_flatMap, List.mem_map, CaseSpec.mk.injEq]
  constructor
  · rintro ⟨c, hc, u, hu, a, ha, rfl, rfl, rfl⟩
    exact ⟨hc, hu, ha⟩
  · rintro ⟨hc, hu, ha⟩
    exact ⟨chord, hc, speed, hu, aoa, ha, rfl, rfl, rfl⟩

end XFoilFoam.Engine
