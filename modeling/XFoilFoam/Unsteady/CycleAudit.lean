import XFoilFoam.Unsteady.Series

/-! The cycles of `audit_period_cycles` in `postprocess/unsteady.py`: the whole terminal periods of a series,
and the rows, frames and invalid samples that `_cycle_evidence` gives to each of them.  The phase-resolved
waveforms and their comparison with a template are not modelled; `impulse` stands for the derivative test on
the interpolated window. -/
namespace XFoilFoam.Unsteady
open Binary64
set_option autoImplicit false

/-! ## One cycle -/

/-- The period that a call of `_cycle_evidence` is about. -/
structure Cycle where
  index : ℕ
  isLast : Bool
  start : Double
  stop : Double
  deriving DecidableEq

namespace Cycle

/-- `max(abs(start), abs(end), 1.0) * 1e-10`. -/
def eps (c : Cycle) : Double := mul (((abs c.start).pyMax (abs c.stop)).pyMax (lit 1)) (lit (1 / 10 ^ 10))

/-- `t >= start - eps`. -/
def reached (c : Cycle) (t : Double) : Bool := le (sub c.start c.eps) t

/-- `t < end - eps`, and `t <= end + eps` for the last cycle. -/
def within (c : Cycle) (t : Double) : Bool :=
  if c.isLast then le t (add c.stop c.eps) else lt t (sub c.stop c.eps)

/-- The entry of `raw_mask`, `invalid_mask` or `frame_mask` at a time. -/
def owns (c : Cycle) (t : Double) : Bool := c.reached t && c.within t

def left (c : Cycle) (t : Double) : Bool := c.reached t && !c.within t

end Cycle

/-- `np.unique`. -/
def unique (xs : List Double) : List Double := KeyOrder.sortBy Double.rank xs.dedup

/-- `np.clip(x, 0.0, 1.0)`. -/
def clipPhase (x : Double) : Double := if lt x (lit 0) then lit 0 else if lt (lit 1) x then lit 1 else x

def cyclePhaseGap (times : List Double) (start stop : Double) : Double :=
  let span := sub stop start
  if decide (times.length < 2) || !isFinite span || le span (lit 0) then lit 1
  else
    let phase := unique (times.map fun t => clipPhase (div (sub t start) span))
    if phase.length < 2 then lit 1
    else (List.zipWith (fun x y => sub y x) (lit 0 :: phase) (phase ++ [lit 1])).foldl Double.pyMax (lit 0)

inductive HardReason where
  | samples (samples : ℕ) (minimum : ℤ)
  | phaseGap (gap : Double)
  | frames (frames : ℕ) (minimum : Double)
  | nonFiniteSample
  | impulsiveDiscontinuity
  deriving DecidableEq

structure CycleEvidence where
  cycle : Cycle
  samples : ℕ
  frames : Option ℕ
  phaseGap : Double
  hardReasons : List HardReason
  deriving DecidableEq

def cycleEvidence (t : List Double) (frameTimes : Option (List Double)) (minSamples : ℤ) (minFrames : Double)
    (invalidTimes : List Double) (impulse : Cycle → Bool) (c : Cycle) : CycleEvidence :=
  let samples := t.countP c.owns
  let phaseGap := cyclePhaseGap (t.filter c.owns) c.start c.stop
  let frames := frameTimes.map fun times => times.countP c.owns
  let hard : List HardReason :=
    (if (samples : ℤ) < minSamples then [.samples samples minSamples] else []) ++
    (if lt (lit (1 / 10)) phaseGap then [.phaseGap phaseGap] else []) ++
    (match frames with
      | some n => if lt (add (lit (n : ℚ)) (lit (1 / 10 ^ 9))) minFrames then [.frames n minFrames] else []
      | none => []) ++
    (if invalidTimes.any c.owns then [.nonFiniteSample] else []) ++
    (if impulse c then [.impulsiveDiscontinuity] else [])
  ⟨c, samples, frames, phaseGap, hard⟩

/-! ## The terminal periods -/

/-- The `count` periods that end at `last`. -/
def cyclesOf (last period : Double) (count : ℕ) : List Cycle :=
  let first := sub last (mul (lit (count : ℚ)) period)
  (List.range count).map fun index =>
    ⟨index, decide (index + 1 = count), add first (mul (lit (index : ℚ)) period),
      add first (mul (lit ((index + 1 : ℕ) : ℚ)) period)⟩

/-- `int(math.floor((last - first) / period + 1e-9))`. -/
def availableCycles (first last period : Double) : Except SeriesError ℤ :=
  match (add (div (sub last first) period) (lit (1 / 10 ^ 9))).val with
  | .fin q => .ok ⌊q⌋
  | _ => .error .overflowError

/-- The times and the cycles of `audit_period_cycles`. -/
def auditPeriodCycles (numpy : Argsort) (times cl cd cm : List Double) (period : Double) (phaseSamples : ℤ) :
    Except SeriesError (List Double × List Cycle) :=
  if !isFinite period || le period (lit 0) || decide (phaseSamples < 8) then .ok ([], [])
  else
    match normaliseSeries numpy times cl cd cm with
    | .error e => .error e
    | .ok rows =>
      let t := rows.map SeriesRow.t
      match t.head?, t.getLast? with
      | some first, some last =>
        if decide (t.length < 2) || le last first then .ok (t, [])
        else
          match availableCycles first last period with
          | .error e => .error e
          | .ok available =>
            if available < 1 then .ok (t, []) else .ok (t, cyclesOf last period available.toNat)
      | _, _ => .ok (t, [])

/-! ## Owners of a row -/

def inWindow (cycles : List Cycle) (t : Double) : Bool := cycles.head?.any fun c => c.reached t

/-- No row has two owners and the owned rows are those of the window. -/
def RowsPartitioned (ts : List Double) (cycles : List Cycle) : Prop :=
  (cycles.Pairwise fun c d => ∀ t ∈ ts, ¬(c.owns t = true ∧ d.owns t = true)) ∧
    ∀ t ∈ ts, (∃ c ∈ cycles, c.owns t = true) ↔ inWindow cycles t = true

/-- The boundaries where the row is in the next cycle although it has not left the one before. -/
def doubled (t : Double) : List Cycle → ℕ
  | c :: d :: rest => (d.reached t && !c.left t).toNat + doubled t (d :: rest)
  | _ => 0

/-- The boundaries where the row has left a cycle and is not in the next, the end of the last included. -/
def skipped (t : Double) : List Cycle → ℕ
  | c :: d :: rest => (c.left t && !d.reached t).toNat + skipped t (d :: rest)
  | [c] => (c.left t).toNat
  | [] => 0

theorem Cycle.owns_add_left (c : Cycle) (t : Double) :
    (c.owns t).toNat + (c.left t).toNat = (c.reached t).toNat := by
  have hsplit : ∀ r w : Bool, (r && w).toNat + (r && !w).toNat = r.toNat := by decide
  exact hsplit _ _

theorem owners_add_skipped (t : Double) (cycles : List Cycle) :
    (cycles.countP fun c => c.owns t) + skipped t cycles = (inWindow cycles t).toNat + doubled t cycles := by
  have hcount : ∀ b : Bool, (if b = true then 1 else 0) = b.toNat := by decide
  have hboundary : ∀ l r : Bool, (r && !l).toNat + l.toNat = (l && !r).toNat + r.toNat := by decide
  induction cycles with
  | nil => rfl
  | cons c rest ih =>
    have hc := c.owns_add_left t
    rw [List.countP_cons, hcount]
    cases rest with
    | nil =>
      show 0 + (c.owns t).toNat + (c.left t).toNat = (c.reached t).toNat + 0
      omega
    | cons d rest =>
      have hstep := hboundary (c.left t) (d.reached t)
      have ih' : (List.countP (fun c => c.owns t) (d :: rest)) + skipped t (d :: rest) =
          (d.reached t).toNat + doubled t (d :: rest) := ih
      show _ + (c.owns t).toNat + ((c.left t && !d.reached t).toNat + skipped t (d :: rest)) =
        (c.reached t).toNat + ((d.reached t && !c.left t).toNat + doubled t (d :: rest))
      omega

theorem countP_le_one_iff (t : Double) (cycles : List Cycle) :
    (cycles.countP fun c => c.owns t) ≤ 1 ↔ cycles.Pairwise fun c d => ¬(c.owns t = true ∧ d.owns t = true) := by
  induction cycles with
  | nil => simp
  | cons c rest ih =>
    rw [List.countP_cons, List.pairwise_cons, ← ih]
    cases hc : c.owns t with
    | false => simp
    | true =>
      have hzero : (rest.countP fun d => d.owns t) = 0 ↔ ∀ d ∈ rest, ¬d.owns t = true := List.countP_eq_zero
      simp only [if_true, true_and, ← hzero]
      omega

theorem rowsPartitioned_iff_count (ts : List Double) (cycles : List Cycle) :
    RowsPartitioned ts cycles ↔ ∀ t ∈ ts, (cycles.countP fun c => c.owns t) = (inWindow cycles t).toNat := by
  have hone : ∀ t, (∃ c ∈ cycles, c.owns t = true) ↔ 0 < cycles.countP fun c => c.owns t := fun t => by
    rw [List.countP_pos_iff]
  unfold RowsPartitioned
  constructor
  · rintro ⟨hdisjoint, hcover⟩ t ht
    have hle := (countP_le_one_iff t cycles).mpr (hdisjoint.imp fun h => h t ht)
    have hcover' := (hone t).symm.trans (hcover t ht)
    cases hwindow : inWindow cycles t with
    | true =>
      have hpos := hcover'.mpr hwindow
      show _ = 1
      omega
    | false =>
      have hzero : ¬0 < cycles.countP fun c => c.owns t := fun hpos => by
        rw [hcover'.mp hpos] at hwindow
        cases hwindow
      show _ = 0
      omega
  · intro hcount
    constructor
    · refine List.pairwise_iff_forall_sublist.mpr fun {c d} hsub t ht => ?_
      have hle : (cycles.countP fun c => c.owns t) ≤ 1 := by
        rw [hcount t ht]
        exact Bool.toNat_le _
      exact List.pairwise_iff_forall_sublist.mp ((countP_le_one_iff t cycles).mp hle) hsub
    · intro t ht
      rw [hone t, hcount t ht]
      cases inWindow cycles t <;> decide

end XFoilFoam.Unsteady
