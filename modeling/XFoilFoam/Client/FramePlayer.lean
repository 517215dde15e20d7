import XFoilFoam.Foundations.Extended
import XFoilFoam.Foundations.KeyOrder
import XFoilFoam.Foundations.Literals
import XFoilFoam.Foundations.Table
import Mathlib.Algebra.Order.Round
import Mathlib.Data.List.GetD

/-! The frame player of the results dialog, `apps/web/lib/frame-player.ts`, in exact arithmetic: the playback
domain, the nearest frame of a time, the scrub bar, the chart cursor and the playback clock. -/
namespace XFoilFoam.Client
set_option autoImplicit false

/-! ## Numbers -/

section Numbers
variable {K : Type} [Field K] [LinearOrder K] [IsStrictOrderedRing K] [FloorRing K]

/-- `Math.round`. -/
def jsRound (x : K) : ℤ := ⌊x + 1 / 2⌋

/-- `Math.trunc`. -/
def jsTrunc (x : K) : ℤ := if 0 ≤ x then ⌊x⌋ else ⌈x⌉

/-- `x % d`: the remainder has the sign of `x`. -/
def jsRem (x d : K) : K := x - d * jsTrunc (x / d)

theorem jsRem_gt {d : K} (hd : 0 < d) (x : K) : -d < jsRem x d := by
  have hx : x = d * (x / d) := (mul_div_cancel₀ x hd.ne').symm
  unfold jsRem jsTrunc
  split
  · have hfloor := Int.floor_le (x / d)
    nlinarith
  · have hceil := Int.ceil_lt_add_one (x / d)
    nlinarith

theorem jsRem_of_nonneg {d : K} (hd : 0 < d) {x : K} (hx : 0 ≤ x) : jsRem x d = d * Int.fract (x / d) := by
  rw [jsRem, jsTrunc, if_pos (div_nonneg hx hd.le), Int.fract, mul_sub, mul_div_cancel₀ x hd.ne']

theorem wrap_eq {d : K} (hd : 0 < d) (x : K) : jsRem (jsRem x d + d) d = d * Int.fract (x / d) := by
  have hpos : 0 ≤ jsRem x d + d := by linarith [jsRem_gt hd x]
  have hshift : (jsRem x d + d) / d = x / d + ((1 - jsTrunc (x / d) : ℤ) : K) := by
    rw [jsRem]
    field_simp
    push_cast
    ring
  rw [jsRem_of_nonneg hd hpos, hshift, Int.fract_add_intCast]

theorem wrap_mem {d : K} (hd : 0 < d) (x : K) : 0 ≤ d * Int.fract (x / d) ∧ d * Int.fract (x / d) < d :=
  ⟨mul_nonneg hd.le (Int.fract_nonneg _), by nlinarith [Int.fract_lt_one (x / d)]⟩

theorem wrap_add {d : K} (hd : 0 < d) (x y : K) :
    d * Int.fract ((d * Int.fract (x / d) + y) / d) = d * Int.fract ((x + y) / d) := by
  have hshift : (d * Int.fract (x / d) + y) / d = (x + y) / d - (⌊x / d⌋ : K) := by
    rw [Int.fract]
    field_simp
    ring
  rw [hshift, Int.fract_sub_intCast]

end Numbers

/-! ## The nearest frame -/

section Nearest
variable {K : Type} [Field K] [LinearOrder K]

/-- The loop of `frameIndexForTime`: halve until the two indices are neighbours. -/
def searchFrame (times : List K) (t : K) (lo hi : ℕ) : ℕ × ℕ :=
  if 1 < hi - lo then
    if times.getD ((lo + hi) / 2) 0 ≤ t then searchFrame times t ((lo + hi) / 2) hi
    else searchFrame times t lo ((lo + hi) / 2)
  else (lo, hi)
termination_by hi - lo

def frameIndexForTime (times : List K) (t : Extended K) : ℤ :=
  if times.length = 0 then -1
  else match t with
    | .fin t =>
      if t ≤ times.getD 0 0 then 0
      else if times.getD (times.length - 1) 0 ≤ t then times.length - 1
      else
        let ends := searchFrame times t 0 (times.length - 1)
        if t - times.getD ends.1 0 ≤ times.getD ends.2 0 - t then ends.1 else ends.2
    | _ => 0

/-- The frame is at the least distance from the time, and no earlier one is as near. -/
def Nearest (times : List K) (t : K) (index : ℤ) : Prop :=
  ∃ k : ℕ, index = k ∧ k < times.length ∧ ∀ j < times.length,
    |times.getD k 0 - t| ≤ |times.getD j 0 - t| ∧ (|times.getD k 0 - t| = |times.getD j 0 - t| → k ≤ j)

theorem getD_lt {times : List K} (h : times.Pairwise (· < ·)) {i j : ℕ} (hij : i < j) (hj : j < times.length) :
    times.getD i 0 < times.getD j 0 := by
  rw [List.getD_eq_getElem _ _ (hij.trans hj), List.getD_eq_getElem _ _ hj]
  exact List.pairwise_iff_getElem.mp h i j _ hj hij

theorem getD_le {times : List K} (h : times.Pairwise (· < ·)) {i j : ℕ} (hij : i ≤ j) (hj : j < times.length) :
    times.getD i 0 ≤ times.getD j 0 := by
  obtain hlt | rfl := hij.lt_or_eq
  · exact (getD_lt h hlt hj).le
  · exact le_rfl

theorem searchFrame_spec (times : List K) (t : K) (lo hi : ℕ) (hlt : lo < hi) (hlo : times.getD lo 0 ≤ t)
    (hhi : t < times.getD hi 0) :
    (searchFrame times t lo hi).2 = (searchFrame times t lo hi).1 + 1 ∧ (searchFrame times t lo hi).2 ≤ hi ∧
      times.getD (searchFrame times t lo hi).1 0 ≤ t ∧ t < times.getD (searchFrame times t lo hi).2 0 := by
  fun_induction searchFrame times t lo hi with
  | case1 lo hi hwide hmid ih => exact ih (by omega) hmid hhi
  | case2 lo hi hwide hmid ih =>
    obtain ⟨hnext, hle, hbelow, habove⟩ := ih (by omega) hlo (not_le.mp hmid)
    exact ⟨hnext, by omega, hbelow, habove⟩
  | case3 lo hi hnarrow => exact ⟨by omega, le_rfl, hlo, hhi⟩

variable [IsStrictOrderedRing K]

/-- Among increasing times, a frame at the time or just before it is the nearest when the next one is no
nearer. -/
theorem nearest_below {times : List K} (h : times.Pairwise (· < ·)) {t : K} {k : ℕ} (hk : k < times.length)
    (hbelow : times.getD k 0 ≤ t)
    (hnext : ∀ j < times.length, k < j → t - times.getD k 0 ≤ times.getD j 0 - t) : Nearest times t k := by
  refine ⟨k, rfl, hk, fun j hj => ?_⟩
  rw [abs_sub_comm, abs_of_nonneg (sub_nonneg.mpr hbelow)]
  obtain hjk | hkj := lt_or_ge j k
  · have hearlier := getD_lt h hjk hk
    rw [abs_sub_comm, abs_of_nonneg (by linarith)]
    exact ⟨by linarith, fun heq => absurd heq (by linarith)⟩
  · refine ⟨?_, fun _ => hkj⟩
    obtain hlt | rfl := hkj.lt_or_eq
    · exact (hnext j hj hlt).trans (le_abs_self _)
    · rw [abs_sub_comm]
      exact le_abs_self _

theorem nearest_above {times : List K} (h : times.Pairwise (· < ·)) {t : K} {k : ℕ} (hk : k < times.length)
    (habove : t ≤ times.getD k 0)
    (hbefore : ∀ j < k, times.getD k 0 - t < t - times.getD j 0) : Nearest times t k := by
  refine ⟨k, rfl, hk, fun j hj => ?_⟩
  rw [abs_of_nonneg (sub_nonneg.mpr habove)]
  obtain hjk | hkj := lt_or_ge j k
  · have hfar := hbefore j hjk
    rw [abs_sub_comm, abs_of_nonneg (by linarith)]
    exact ⟨hfar.le, fun heq => absurd heq hfar.ne⟩
  · have hlater := getD_le h hkj hj
    exact ⟨(by linarith : _ ≤ times.getD j 0 - t).trans (le_abs_self _), fun _ => hkj⟩

theorem frameIndexForTime_nearest {times : List K} (h : times.Pairwise (· < ·)) (hne : times ≠ []) (t : K) :
    Nearest times t (frameIndexForTime times (.fin t)) := by
  have hpos : 0 < times.length := List.length_pos_of_ne_nil hne
  simp only [frameIndexForTime, if_neg hpos.ne']
  split
  · next hfirst => exact nearest_above h hpos hfirst fun j hj => absurd hj (Nat.not_lt_zero j)
  · next hfirst =>
    split
    · next hlast =>
      have hcast : ((times.length : ℤ) - 1) = ((times.length - 1 : ℕ) : ℤ) := by omega
      rw [hcast]
      exact nearest_below h (by omega) hlast fun j hj hlt => absurd hlt (by omega)
    · next hlast =>
      have hbounds : 0 < times.length - 1 := by
        by_contra hzero
        rw [show times.length - 1 = 0 by omega] at hlast
        exact hlast (not_le.mp hfirst).le
      obtain ⟨hnext, hle, hbelow, habove⟩ :=
        searchFrame_spec times t 0 _ hbounds (not_le.mp hfirst).le (not_le.mp hlast)
      generalize searchFrame times t 0 (times.length - 1) = ends at hnext hle hbelow habove ⊢
      obtain ⟨lo, hi⟩ := ends
      simp only at hnext hle hbelow habove ⊢
      subst hnext
      split
      · next hnear =>
        refine nearest_below h (by omega) hbelow fun j hj hlt => ?_
        linarith [getD_le h (show lo + 1 ≤ j by omega) hj]
      · next hnear =>
        refine nearest_above h (by omega) habove.le fun j hj => ?_
        linarith [getD_le h (show j ≤ lo by omega) (by omega : lo < times.length)]

theorem frameIndexForTime_getD {times : List K} (h : times.Pairwise (· < ·)) {i : ℕ} (hi : i < times.length) :
    frameIndexForTime times (.fin (times.getD i 0)) = i := by
  have hne : times ≠ [] := List.ne_nil_of_length_pos (by omega)
  obtain ⟨k, hk, hlt, hnear⟩ := frameIndexForTime_nearest h hne (times.getD i 0)
  have hzero := (hnear i hi).1
  rw [sub_self, abs_zero, abs_nonpos_iff, sub_eq_zero] at hzero
  rw [hk]
  obtain hki | rfl | hik := lt_trichotomy k i
  · exact absurd hzero (getD_lt h hki hi).ne
  · rfl
  · exact absurd hzero (getD_lt h hik hlt).ne'

end Nearest

/-! ## The player -/

structure FrameTrackFrameDetail (T : Type) where
  t : T
  imageUrls : Table String String

structure TrackWindow (T : Type) where
  tStart : T
  tEnd : T

structure FrameTrackDetail (K S : Type) where
  periodS : Option (Extended K)
  periodsRetained : Extended K
  stationary : Bool
  driftFrac : Extended K
  window : TrackWindow (Extended K)
  stats : S
  fields : List String
  frames : List (FrameTrackFrameDetail (Extended K))

structure FramePlayerModel (K S : Type) where
  frames : List (FrameTrackFrameDetail K)
  times : List K
  tStart : K
  tEnd : K
  durationS : K
  periodS : Option K
  periodsRetained : Extended K
  stationary : Bool
  driftFrac : Extended K
  stats : S
  fields : List String
  imageFields : List String
  frameImageCounts : Table String ℕ

structure ChartGeometry (K : Type) where
  width : K
  padLeft : K
  padRight : K

section Player
variable {K S : Type} [Field K] [LinearOrder K]

/-- `Number.isFinite(f.t)`. -/
def finiteFrame : FrameTrackFrameDetail (Extended K) → Option (FrameTrackFrameDetail K)
  | ⟨.fin t, imageUrls⟩ => some ⟨t, imageUrls⟩
  | _ => none

/-- The recording window, or the span of the frames where its metadata is degenerate. -/
def recordedWindow (window : TrackWindow (Extended K)) (first last : K) : TrackWindow K :=
  match window.tStart, window.tEnd with
  | .fin tStart, .fin tEnd => if tEnd ≤ tStart then ⟨first, last⟩ else ⟨tStart, tEnd⟩
  | _, _ => ⟨first, last⟩

/-- The part of the window that the frames cover: it starts one mean step before the first of them. -/
def coveredWindow (window : TrackWindow K) (times : List K) : TrackWindow K :=
  let first := times.getD 0 0
  let last := times.getD (times.length - 1) 0
  let tStart :=
    if 2 ≤ times.length then
      max window.tStart (first - (last - first) / ((times.length : K) - 1))
    else max window.tStart first
  let tEnd := min window.tEnd last
  if tStart < tEnd then ⟨tStart, tEnd⟩ else ⟨first, last⟩

def frameImageCounts (fields : List String) (frames : List (FrameTrackFrameDetail K)) : Table String ℕ :=
  let zero := fields.foldl (fun counts field => counts.set field 0) Table.empty
  frames.foldl (fun counts frame =>
    (frame.imageUrls.rows.map Prod.fst).foldl (fun counts field =>
      counts.set field ((counts.find? field).getD 0 + 1)) counts) zero

def buildFramePlayerModel (frameTrack : Option (FrameTrackDetail K S)) : Option (FramePlayerModel K S) :=
  frameTrack.bind fun track =>
    let frames := KeyOrder.sortBy (·.t) (track.frames.filterMap finiteFrame)
    if frames.length = 0 then none
    else
      let times := frames.map (·.t)
      let window := coveredWindow
        (recordedWindow track.window (times.getD 0 0) (times.getD (times.length - 1) 0)) times
      let counts := frameImageCounts track.fields frames
      some {
        frames := frames
        times := times
        tStart := window.tStart
        tEnd := window.tEnd
        durationS := max 0 (window.tEnd - window.tStart)
        periodS := track.periodS.bind fun periodS =>
          match periodS with
          | .fin periodS => if 0 < periodS then some periodS else none
          | _ => none
        periodsRetained := track.periodsRetained
        stationary := track.stationary
        driftFrac := track.driftFrac
        stats := track.stats
        fields := track.fields
        imageFields := track.fields.filter fun field => 0 < (counts.find? field).getD 0
        frameImageCounts := counts }

variable (model : FramePlayerModel K S)

def frameForScrubFrac (frac : Extended K) : ℤ :=
  let f := match frac with
    | .fin frac => max 0 (min 1 frac)
    | _ => 0
  frameIndexForTime model.times (.fin (model.tStart + f * model.durationS))

def chartXForTime (t : K) (geom : ChartGeometry K) : K :=
  let plotW := max 1 (geom.width - geom.padLeft - geom.padRight)
  if model.durationS ≤ 0 then geom.padLeft
  else geom.padLeft + max 0 (min 1 ((t - model.tStart) / model.durationS)) * plotW

def frameForChartX (x : K) (geom : ChartGeometry K) : ℤ :=
  let plotW := max 1 (geom.width - geom.padLeft - geom.padRight)
  frameForScrubFrac model (.fin (max 0 (min 1 ((x - geom.padLeft) / plotW))))

variable [FloorRing K]

def clampFrameIndex (frameCount : ℕ) (index : Extended K) : ℤ :=
  if frameCount = 0 then -1
  else match index with
    | .fin index => max 0 (min ((frameCount : ℤ) - 1) (jsRound index))
    | _ => 0

def timeForFrameIndex (index : Extended K) : K :=
  let idx := clampFrameIndex model.frames.length index
  if idx < 0 then model.tStart else model.times.getD idx.toNat 0

def scrubFracForFrame (index : Extended K) : K :=
  if model.durationS ≤ 0 then 0
  else max 0 (min 1 ((timeForFrameIndex model index - model.tStart) / model.durationS))

def windowPeriodCount : Option ℤ :=
  match model.periodS with
  | some periodS => if model.durationS ≤ 0 then none else some (max 1 (jsRound (model.durationS / periodS)))
  | none => none

def wallSecondsPerPeriod : K := 1

def playbackSimRate (speed : K) : K :=
  let period := model.periodS.getD
    (if 0 < model.durationS then
      model.durationS / ((max 1 ((windowPeriodCount model).getD 1) : ℤ) : K)
    else 0)
  if period ≤ 0 then 0 else period / wallSecondsPerPeriod * speed

def advancePlayback (simTime wallDtSeconds : Extended K) (speed : K) : K :=
  if model.durationS ≤ 0 then model.tStart
  else
    let base := match simTime with
      | .fin simTime => simTime
      | _ => model.tStart
    let dt := match wallDtSeconds with
      | .fin wallDt => if 0 < wallDt then wallDt else 0
      | _ => 0
    let advanced := base - model.tStart + dt * playbackSimRate model speed
    model.tStart + jsRem (jsRem advanced model.durationS + model.durationS) model.durationS

end Player

/-! ## The playback domain covers the frames -/

section Covers
variable {K S : Type} [Field K] [LinearOrder K] [IsStrictOrderedRing K]

structure Covers (model : FramePlayerModel K S) : Prop where
  count : model.frames.length = model.times.length
  nonempty : model.times ≠ []
  increasing : model.times.Pairwise (· < ·)
  starts : model.tStart ≤ model.times.getD 0 0
  ends : model.tEnd = model.times.getD (model.times.length - 1) 0
  duration : model.durationS = model.tEnd - model.tStart

def InsideWindow (track : FrameTrackDetail K S) : Prop :=
  ∀ frame ∈ track.frames.filterMap finiteFrame,
    track.window.tStart.le (.fin frame.t) = true ∧ (Extended.fin frame.t).le track.window.tEnd = true

omit [Field K] [IsStrictOrderedRing K] in
theorem recordedWindow_covers {window : TrackWindow (Extended K)} {first last : K}
    (hfirst : window.tStart.le (.fin first) = true) (hlast : (Extended.fin last).le window.tEnd = true) :
    (recordedWindow window first last).tStart ≤ first ∧ last ≤ (recordedWindow window first last).tEnd := by
  have hle {x y : K} (h : (Extended.fin x).le (.fin y) = true) : x ≤ y := by
    simp only [Extended.le, Extended.lt, Extended.eq, Bool.or_eq_true, decide_eq_true_eq] at h
    exact le_iff_lt_or_eq.mpr h
  unfold recordedWindow
  split
  · next tStart tEnd hstart hend =>
    rw [hstart] at hfirst
    rw [hend] at hlast
    split
    · exact ⟨le_rfl, le_rfl⟩
    · exact ⟨hle hfirst, hle hlast⟩
  · exact ⟨le_rfl, le_rfl⟩

theorem coveredWindow_covers {window : TrackWindow K} {times : List K} (h : times.Pairwise (· < ·))
    (hne : times ≠ []) (hstart : window.tStart ≤ times.getD 0 0)
    (hend : times.getD (times.length - 1) 0 ≤ window.tEnd) :
    (coveredWindow window times).tStart ≤ times.getD 0 0 ∧
      (coveredWindow window times).tEnd = times.getD (times.length - 1) 0 := by
  have hpos : 0 < times.length := List.length_pos_of_ne_nil hne
  have hspan : times.getD 0 0 ≤ times.getD (times.length - 1) 0 := getD_le h (Nat.zero_le _) (by omega)
  have hwindow {tStart first last : K} (hle : tStart ≤ first) :
      (if tStart < last then (⟨tStart, last⟩ : TrackWindow K) else ⟨first, last⟩).tStart ≤ first ∧
        (if tStart < last then (⟨tStart, last⟩ : TrackWindow K) else ⟨first, last⟩).tEnd = last := by
    split
    · exact ⟨hle, rfl⟩
    · exact ⟨le_rfl, rfl⟩
  unfold coveredWindow
  simp only [min_eq_right hend]
  split
  · next hlength =>
    have hcast : (2 : K) ≤ (times.length : K) := by exact_mod_cast hlength
    have hstep : 0 ≤ (times.getD (times.length - 1) 0 - times.getD 0 0) / ((times.length : K) - 1) :=
      div_nonneg (by linarith) (by linarith)
    exact hwindow (max_le hstart (by linarith))
  · exact hwindow (max_le hstart le_rfl)

theorem buildFramePlayerModel_covers {track : FrameTrackDetail K S} {model : FramePlayerModel K S}
    (hdistinct : ((track.frames.filterMap finiteFrame).map (·.t)).Nodup) (hinside : InsideWindow track)
    (h : buildFramePlayerModel (some track) = some model) : Covers model := by
  simp only [buildFramePlayerModel, Option.bind_some] at h
  generalize hframes : KeyOrder.sortBy (·.t) (track.frames.filterMap finiteFrame) = frames at h
  split at h
  · cases h
  · next hlength =>
    have hperm : frames.Perm (track.frames.filterMap finiteFrame) := hframes ▸ KeyOrder.sortBy_perm _ _
    have hsorted : (frames.map (·.t)).Pairwise (· ≤ ·) :=
      List.pairwise_map.mpr (hframes ▸ KeyOrder.sortBy_sorted _ _)
    have hnodup : (frames.map (·.t)).Nodup := (hperm.map _).nodup_iff.mpr hdistinct
    have hincreasing : (frames.map (·.t)).Pairwise (· < ·) :=
      (hsorted.and hnodup).imp fun hab => lt_of_le_of_ne hab.1 hab.2
    have hne : frames.map (·.t) ≠ [] := by
      rw [Ne, List.map_eq_nil_iff, ← List.length_eq_zero_iff]
      exact hlength
    have hmem (k : ℕ) (hk : k < (frames.map (·.t)).length) :
        ∃ frame ∈ track.frames.filterMap finiteFrame, frame.t = (frames.map (·.t)).getD k 0 := by
      rw [List.getD_eq_getElem _ _ hk, List.getElem_map]
      exact ⟨_, hperm.mem_iff.mp (List.getElem_mem _), rfl⟩
    have hpos : 0 < (frames.map (·.t)).length := List.length_pos_of_ne_nil hne
    obtain ⟨first, hfirst, hfirstT⟩ := hmem 0 hpos
    obtain ⟨last, hlast, hlastT⟩ := hmem ((frames.map (·.t)).length - 1) (by omega)
    have hwindow := recordedWindow_covers (hfirstT ▸ (hinside first hfirst).1) (hlastT ▸ (hinside last hlast).2)
    obtain ⟨hstart, hend⟩ := coveredWindow_covers hincreasing hne hwindow.1 hwindow.2
    have hspan := getD_le hincreasing (Nat.zero_le _) (show (frames.map (·.t)).length - 1 < _ by omega)
    cases h
    refine ⟨(List.length_map _).symm, hne, hincreasing, hstart, hend, max_eq_right ?_⟩
    linarith

omit [IsStrictOrderedRing K] in
theorem exists_model (track : FrameTrackDetail K S) (hne : track.frames.filterMap finiteFrame ≠ []) :
    ∃ model, buildFramePlayerModel (some track) = some model ∧
      model.frames.length = (track.frames.filterMap finiteFrame).length := by
  have hlength : (KeyOrder.sortBy (·.t) (track.frames.filterMap finiteFrame)).length =
      (track.frames.filterMap finiteFrame).length := (KeyOrder.sortBy_perm _ _).length_eq
  have hpos := List.length_pos_of_ne_nil hne
  simp only [buildFramePlayerModel, Option.bind_some]
  rw [if_neg (by omega)]
  exact ⟨_, rfl, hlength⟩

variable {model : FramePlayerModel K S}

omit [IsStrictOrderedRing K] in
theorem Covers.frame_mem (h : Covers model) {i : ℕ} (hi : i < model.times.length) :
    model.tStart ≤ model.times.getD i 0 ∧ model.times.getD i 0 ≤ model.tEnd := by
  have hfirst := getD_le h.increasing (Nat.zero_le i) hi
  have hlast := getD_le h.increasing (show i ≤ model.times.length - 1 by omega) (by omega)
  rw [h.ends]
  exact ⟨h.starts.trans hfirst, hlast⟩

theorem Covers.single (h : Covers model) (hzero : model.durationS ≤ 0) {i : ℕ} (hi : i < model.times.length) :
    model.times.getD i 0 = model.tStart := by
  obtain ⟨hstart, hend⟩ := h.frame_mem hi
  have hduration := h.duration
  linarith

theorem Covers.frameForScrubFrac_place (h : Covers model) {i : ℕ} (hi : i < model.times.length) {frac : K}
    (hfrac : 0 ≤ frac ∧ frac ≤ 1) (hplace : model.tStart + frac * model.durationS = model.times.getD i 0) :
    frameForScrubFrac model (.fin frac) = i := by
  simp only [frameForScrubFrac, min_eq_right hfrac.2, max_eq_right hfrac.1, hplace]
  exact frameIndexForTime_getD h.increasing hi

theorem Covers.place (h : Covers model) (hpos : 0 < model.durationS) {i : ℕ} (hi : i < model.times.length) :
    max 0 (min 1 ((model.times.getD i 0 - model.tStart) / model.durationS)) =
        (model.times.getD i 0 - model.tStart) / model.durationS ∧
      0 ≤ (model.times.getD i 0 - model.tStart) / model.durationS ∧
      (model.times.getD i 0 - model.tStart) / model.durationS ≤ 1 := by
  obtain ⟨hstart, hend⟩ := h.frame_mem hi
  have hnonneg : 0 ≤ (model.times.getD i 0 - model.tStart) / model.durationS :=
    div_nonneg (by linarith) hpos.le
  have hle : (model.times.getD i 0 - model.tStart) / model.durationS ≤ 1 := by
    rw [div_le_one hpos, h.duration]
    linarith
  exact ⟨by rw [min_eq_right hle, max_eq_right hnonneg], hnonneg, hle⟩

theorem Covers.frameForScrubFrac_time (h : Covers model) {i : ℕ} (hi : i < model.times.length) :
    frameForScrubFrac model (.fin (if model.durationS ≤ 0 then 0
      else max 0 (min 1 ((model.times.getD i 0 - model.tStart) / model.durationS)))) = i := by
  split
  · next hzero =>
    refine h.frameForScrubFrac_place hi ⟨le_rfl, zero_le_one⟩ ?_
    rw [h.single hzero hi, zero_mul, add_zero]
  · next hpos =>
    obtain ⟨hplace, hbounds⟩ := h.place (not_le.mp hpos) hi
    rw [hplace]
    refine h.frameForScrubFrac_place hi hbounds ?_
    rw [div_mul_cancel₀ _ (not_le.mp hpos).ne']
    ring

theorem Covers.frameForChartX_time (h : Covers model) (geom : ChartGeometry K) {i : ℕ}
    (hi : i < model.times.length) :
    frameForChartX model (chartXForTime model (model.times.getD i 0) geom) geom = i := by
  have hplot : (0 : K) < max 1 (geom.width - geom.padLeft - geom.padRight) :=
    zero_lt_one.trans_le (le_max_left _ _)
  have hback := h.frameForScrubFrac_time hi
  simp only [frameForChartX, chartXForTime]
  split at hback
  · next hzero => simpa [hzero] using hback
  · next hpos =>
    obtain ⟨hplace, hnonneg, hle⟩ := h.place (not_le.mp hpos) hi
    rw [if_neg hpos, hplace, add_sub_cancel_left, mul_div_cancel_right₀ _ hplot.ne', hplace]
    rw [hplace] at hback
    exact hback

variable [FloorRing K]

theorem timeForFrameIndex_natCast {i : ℕ} (hi : i < model.frames.length) :
    timeForFrameIndex model (.fin (i : K)) = model.times.getD i 0 := by
  have hround : jsRound (i : K) = i := by
    rw [jsRound, Int.floor_eq_iff]
    constructor
    · push_cast
      linarith
    · push_cast
      linarith
  have hclamp : clampFrameIndex model.frames.length (.fin (i : K)) = i := by
    simp only [clampFrameIndex, if_neg (by omega : ¬ model.frames.length = 0), hround]
    omega
  simp only [timeForFrameIndex, hclamp]
  rw [if_neg (by omega), Int.toNat_natCast]

theorem Covers.frameForScrubFrac_scrubFrac (h : Covers model) {i : ℕ} (hi : i < model.frames.length) :
    frameForScrubFrac model (.fin (scrubFracForFrame model (.fin (i : K)))) = i := by
  rw [scrubFracForFrame, timeForFrameIndex_natCast hi]
  exact h.frameForScrubFrac_time (h.count ▸ hi)

end Covers

/-! ## The playback clock -/

section Clock
variable {K S : Type} [Field K] [LinearOrder K] [IsStrictOrderedRing K] [FloorRing K]
variable {model : FramePlayerModel K S}

theorem advancePlayback_eq (hpos : 0 < model.durationS) (simTime wallDtSeconds : Extended K) (speed : K) :
    ∃ passed : K, advancePlayback model simTime wallDtSeconds speed =
      model.tStart + model.durationS * Int.fract (passed / model.durationS) := by
  simp only [advancePlayback, if_neg hpos.not_ge]
  exact ⟨_, congrArg _ (wrap_eq hpos _)⟩

theorem advancePlayback_mem (h : Covers model) (hpos : 0 < model.durationS)
    (simTime wallDtSeconds : Extended K) (speed : K) :
    model.tStart ≤ advancePlayback model simTime wallDtSeconds speed ∧
      advancePlayback model simTime wallDtSeconds speed < model.tEnd := by
  obtain ⟨passed, heq⟩ := advancePlayback_eq hpos simTime wallDtSeconds speed
  obtain ⟨hnonneg, hlt⟩ := wrap_mem hpos passed
  have hduration := h.duration
  rw [heq]
  exact ⟨by linarith, by linarith⟩

theorem advancePlayback_add (simTime : Extended K) {a b : K} (ha : 0 ≤ a) (hb : 0 ≤ b) (speed : K) :
    advancePlayback model (.fin (advancePlayback model simTime (.fin a) speed)) (.fin b) speed =
      advancePlayback model simTime (.fin (a + b)) speed := by
  have hdt {x : K} (hx : 0 ≤ x) : (if 0 < x then x else 0) = x := by
    split
    · rfl
    · next hnot => exact le_antisymm hx (not_lt.mp hnot)
  simp only [advancePlayback]
  split
  · rfl
  · next hpos =>
    have hduration := not_le.mp hpos
    simp only [hdt ha, hdt hb, hdt (add_nonneg ha hb), wrap_eq hduration]
    rw [add_sub_cancel_left, wrap_add hduration]
    congr 4
    ring

end Clock

/-- The player of a track whose finite frame times are distinct and in its window: scrub bar and chart
return each frame to itself, every time has its nearest frame, and the clock stays in the domain and adds
up. -/
theorem framePlayer_maps {K S : Type} [Field K] [LinearOrder K] [IsStrictOrderedRing K] [FloorRing K]
    {track : FrameTrackDetail K S} {model : FramePlayerModel K S}
    (hdistinct : ((track.frames.filterMap finiteFrame).map (·.t)).Nodup) (hinside : InsideWindow track)
    (h : buildFramePlayerModel (some track) = some model) :
    (∀ i : ℕ, i < model.frames.length →
        frameForScrubFrac model (.fin (scrubFracForFrame model (.fin (i : K)))) = i ∧
          ∀ geom, frameForChartX model (chartXForTime model (model.times.getD i 0) geom) geom = i) ∧
      (∀ t, Nearest model.times t (frameIndexForTime model.times (.fin t))) ∧
      (0 < model.durationS → ∀ simTime wallDtSeconds speed,
        model.tStart ≤ advancePlayback model simTime wallDtSeconds speed ∧
          advancePlayback model simTime wallDtSeconds speed < model.tEnd) ∧
      ∀ simTime a b speed, 0 ≤ a → 0 ≤ b →
        advancePlayback model (.fin (advancePlayback model simTime (.fin a) speed)) (.fin b) speed =
          advancePlayback model simTime (.fin (a + b)) speed := by
  have hcovers := buildFramePlayerModel_covers hdistinct hinside h
  refine ⟨fun i hi => ⟨hcovers.frameForScrubFrac_scrubFrac hi, fun geom => ?_⟩, fun t => ?_,
    fun hpos simTime dt speed => advancePlayback_mem hcovers hpos simTime dt speed,
    fun simTime a b speed ha hb => advancePlayback_add simTime ha hb speed⟩
  · exact hcovers.frameForChartX_time geom (hcovers.count ▸ hi)
  · exact frameIndexForTime_nearest hcovers.increasing hcovers.nonempty t

def sampleTrack : FrameTrackDetail ℚ Unit where
  periodS := some (.fin 2)
  periodsRetained := .fin 4
  stationary := true
  driftFrac := .fin 0
  window := ⟨.fin 0, .fin 8⟩
  stats := ()
  fields := ["p"]
  frames := [⟨.fin 8, .empty⟩, ⟨.fin 5, .empty⟩, ⟨.nan, .empty⟩, ⟨.fin 6, .empty⟩]

theorem framePlayer_maps_three_frames :
    ∃ model : FramePlayerModel ℚ Unit, buildFramePlayerModel (some sampleTrack) = some model ∧
      frameForScrubFrac model (.fin (scrubFracForFrame model (.fin ((1 : ℕ) : ℚ)))) = (1 : ℕ) := by
  have hframes : sampleTrack.frames.filterMap finiteFrame = [⟨8, .empty⟩, ⟨5, .empty⟩, ⟨6, .empty⟩] := rfl
  have hdistinct : ((sampleTrack.frames.filterMap finiteFrame).map (·.t)).Nodup := by
    rw [hframes]
    decide
  have hinside : InsideWindow sampleTrack := by
    intro frame hmem
    rw [hframes] at hmem
    simp only [List.mem_cons, List.not_mem_nil, or_false] at hmem
    obtain rfl | rfl | rfl := hmem <;> exact ⟨rfl, rfl⟩
  obtain ⟨model, hmodel, hcount⟩ := exists_model sampleTrack (by rw [hframes]; exact List.cons_ne_nil _ _)
  rw [hframes] at hcount
  exact ⟨model, hmodel, ((framePlayer_maps hdistinct hinside hmodel).1 1 (hcount ▸ by decide)).1⟩

end XFoilFoam.Client
