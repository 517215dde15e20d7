import XFoilFoam.Foundations.JsValue
import Mathlib.Data.List.Nodup
import Mathlib.Data.List.Sort
import Mathlib.Data.List.TakeWhile

/-! `DivergenceWatchdog` of `tasks.py`: when the coefficients of a live solver condemn it. -/
namespace XFoilFoam.DivergenceWatchdog
open Binary64
set_option autoImplicit false

/-! ## `observe` -/

/-- A row of `coefficient_tail`. -/
structure Row (F : Type) where
  time : F
  cl : F
  deriving DecidableEq

/-- What one call of `observe` is given. -/
structure Beat (F : Type) where
  tail : List (Row F)
  now : F
  markerPresent : Bool

structure SegmentState (F : Type) where
  firstSeen : F
  insaneBeats : ℕ
  dtBelowSince : Option F
  condemnedReason : Option String
  condemnedLastTime : Option F

/-- The settings after `__init__`; `general n` is the format `.ng`. -/
structure Watchdog (F : Type) where
  clBound : F
  dtFloor : F
  graceS : F
  startupGraceS : F
  consecutive : ℕ
  positive : 1 ≤ consecutive
  general : ℕ → F → String

section Observe
variable {F : Type} [Binary64 F]

def SegmentState.fresh (now : F) : SegmentState F := ⟨now, 0, none, none, none⟩

/-- `_tail_delta_t`: the middle one of the positive time steps. -/
def tailDeltaT (tail : List (Row F)) : Option F :=
  let deltas := ((tail.zip tail.tail).map fun pair => sub pair.2.time pair.1.time).filter fun delta => lt (lit 0) delta
  (deltas.insertionSort fun a b => lt b a = false)[deltas.length / 2]?

/-- Rule 2: since when the step has been below the floor, and whether the grace has passed. -/
def dtClock (w : Watchdog F) (state : SegmentState F) (dt : Option F) (now : F) : Option F × Bool :=
  match dt with
  | some step =>
    if lt step w.dtFloor then
      if le w.startupGraceS (sub now state.firstSeen) then
        match state.dtBelowSince with
        | none => (some now, false)
        | some since => (some since, le w.graceS (sub now since))
      else (state.dtBelowSince, false)
    else (none, false)
  | none => (none, false)

def exceeds (w : Watchdog F) (row : Row F) : Bool := lt w.clBound (abs row.cl)

def insaneAfter (w : Watchdog F) (insaneBeats : ℕ) (row : Row F) : ℕ := if exceeds w row then insaneBeats + 1 else 0

def reasonText (w : Watchdog F) (row : Row F) (dt : Option F) : String :=
  "transient diverged at t=" ++ w.general 6 row.time ++ ": |Cl|=" ++ w.general 4 (abs row.cl) ++ ", dt=" ++
    dt.elim "unknown" (w.general 3)

/-- The rules of `observe`, for a state that is not condemned. -/
def judge (w : Watchdog F) (state : SegmentState F) (beat : Beat F) : SegmentState F × Option String :=
  match beat.tail.getLast? with
  | none => (state, none)
  | some row =>
    let dt := tailDeltaT beat.tail
    let insane := insaneAfter w state.insaneBeats row
    let clock := dtClock w state dt beat.now
    let judged := { state with insaneBeats := insane, dtBelowSince := clock.1 }
    if insane < w.consecutive ∧ clock.2 = false then (judged, none)
    else
      let reason := reasonText w row dt
      ({ judged with condemnedReason := some reason, condemnedLastTime := some row.time }, some reason)

def unchanged (state : SegmentState F) (beat : Beat F) : Bool :=
  match beat.tail.getLast?, state.condemnedLastTime with
  | some row, some time => eq row.time time
  | _, _ => false

/-- `observe`, on the entry of one segment. -/
def observe (w : Watchdog F) (segment : Option (SegmentState F)) (beat : Beat F) : SegmentState F × Option String :=
  let state := segment.getD (.fresh beat.now)
  match state.condemnedReason with
  | some reason =>
    if beat.markerPresent then (state, some reason)
    else if unchanged state beat then (state, none)
    else judge w (.fresh beat.now) beat
  | none => judge w state beat

end Observe

/-! ## Calls on one segment, the newest first -/

section Calls
variable {F : Type} [Binary64 F] (w : Watchdog F)

def segment : List (Beat F) → Option (SegmentState F)
  | [] => none
  | beat :: earlier => some (observe w (segment earlier) beat).1

def verdict (earlier : List (Beat F)) (beat : Beat F) : Option String := (observe w (segment w earlier) beat).2

/-- The call starts the segment, or starts it over: the marker is gone and the tail is another one. -/
def restarts (segment : Option (SegmentState F)) (beat : Beat F) : Bool :=
  match segment with
  | none => true
  | some state => state.condemnedReason.isSome && !beat.markerPresent && !unchanged state beat

def judgedState (segment : Option (SegmentState F)) (beat : Beat F) : Option (SegmentState F) :=
  if restarts segment beat then some (.fresh beat.now)
  else segment.filter fun state => state.condemnedReason.isNone

def seen : List (Beat F) → List (Beat F)
  | [] => []
  | beat :: earlier =>
    if restarts (segment w earlier) beat then [beat]
    else if (judgedState (segment w earlier) beat).isSome then beat :: seen earlier
    else seen earlier

def newestRows (beats : List (Beat F)) : List (Row F) := beats.filterMap fun beat => beat.tail.getLast?

end Calls
/-! ## One call -/

section Step
variable {F : Type} [Binary64 F] {w : Watchdog F} {state : SegmentState F} {beat : Beat F} {earlier beats : List (Beat F)}

def BelowFloor (w : Watchdog F) (beat : Beat F) : Prop :=
  beat.tail ≠ [] → ∃ step, tailDeltaT beat.tail = some step ∧ lt step w.dtFloor = true

/-- From a call on, not before the end of the startup grace, every shown step is below the floor. -/
def Collapsing (w : Watchdog F) (firstSeen since : F) (beats : List (Beat F)) : Prop :=
  ∃ recent first older, beats = recent ++ first :: older ∧ first.now = since ∧
    le w.startupGraceS (sub since firstSeen) = true ∧ ∀ beat ∈ recent ++ [first], BelowFloor w beat

theorem Collapsing.cons {firstSeen since : F} (h : Collapsing w firstSeen since beats) (hbelow : BelowFloor w beat) :
    Collapsing w firstSeen since (beat :: beats) := by
  obtain ⟨recent, first, older, rfl, hnow, hgrace, hall⟩ := h
  refine ⟨beat :: recent, first, older, rfl, hnow, hgrace, ?_⟩
  rw [List.cons_append]
  exact List.forall_mem_cons.mpr ⟨hbelow, hall⟩

/-- What the state of a segment that is not condemned says about the calls since its start. -/
structure Watched (w : Watchdog F) (state : SegmentState F) (beats : List (Beat F)) : Prop where
  streak : state.insaneBeats = ((newestRows beats).takeWhile (exceeds w)).length
  few : state.insaneBeats < w.consecutive
  first : ∀ beat ∈ beats.getLast?, beat.now = state.firstSeen
  clock : ∀ since, state.dtBelowSince = some since → Collapsing w state.firstSeen since beats

theorem watched_fresh (w : Watchdog F) (now : F) : Watched w (.fresh now) [] where
  streak := rfl
  few := w.positive
  first := by simp
  clock := by
    intro since hsince
    cases hsince

theorem dtClock_cases {dt : Option F} {now since : F} (h : (dtClock w state dt now).1 = some since) :
    (∃ step, dt = some step ∧ lt step w.dtFloor = true) ∧
      (state.dtBelowSince = some since ∨ since = now ∧ le w.startupGraceS (sub now state.firstSeen) = true) := by
  unfold dtClock at h
  cases dt with
  | none => cases h
  | some step =>
    dsimp only at h
    split_ifs at h with hfloor hstartup
    · refine ⟨⟨step, rfl, hfloor⟩, ?_⟩
      cases hbelow : state.dtBelowSince with
      | none =>
        rw [hbelow] at h
        exact .inr ⟨(Option.some.inj h).symm, hstartup⟩
      | some before =>
        rw [hbelow] at h
        exact .inl h
    · exact ⟨⟨step, rfl, hfloor⟩, .inl h⟩

theorem dtClock_collapsed {dt : Option F} {now : F} (h : (dtClock w state dt now).2 = true) :
    ∃ since, (dtClock w state dt now).1 = some since ∧ state.dtBelowSince = some since ∧
      le w.graceS (sub now since) = true := by
  unfold dtClock at h ⊢
  cases dt with
  | none => cases h
  | some step =>
    dsimp only at h ⊢
    split_ifs at h ⊢ with hfloor hstartup
    cases hbelow : state.dtBelowSince with
    | none =>
      rw [hbelow] at h
      cases h
    | some since =>
      rw [hbelow] at h
      exact ⟨since, rfl, rfl, h⟩

omit [Binary64 F] in
theorem newestRows_cons_none (h : beat.tail.getLast? = none) : newestRows (beat :: beats) = newestRows beats :=
  List.filterMap_cons_none h

omit [Binary64 F] in
theorem newestRows_cons_some {row : Row F} (h : beat.tail.getLast? = some row) :
    newestRows (beat :: beats) = row :: newestRows beats :=
  List.filterMap_cons_some h

theorem streak_cons {row : Row F} (h : beat.tail.getLast? = some row) (n : ℕ)
    (hn : n = ((newestRows beats).takeWhile (exceeds w)).length) :
    insaneAfter w n row = ((newestRows (beat :: beats)).takeWhile (exceeds w)).length := by
  rw [newestRows_cons_some h, hn, insaneAfter]
  by_cases hexceeds : exceeds w row = true
  · rw [if_pos hexceeds, List.takeWhile_cons_of_pos hexceeds, List.length_cons]
  · rw [if_neg hexceeds, List.takeWhile_cons_of_neg hexceeds, List.length_nil]

omit [Binary64 F] in
theorem getLast_cons_now (hfirst : ∀ beat ∈ beats.getLast?, beat.now = state.firstSeen)
    (hstart : beats = [] → state.firstSeen = beat.now) :
    ∀ b ∈ (beat :: beats).getLast?, b.now = state.firstSeen := by
  cases beats with
  | nil =>
    intro b hb
    rw [Option.mem_def, List.getLast?_singleton] at hb
    rw [← Option.some.inj hb, hstart rfl]
  | cons head rest =>
    rw [List.getLast?_cons_cons]
    exact hfirst

theorem Watched.clock_cons (h : Watched w state beats) {since : F}
    (hsince : (dtClock w state (tailDeltaT beat.tail) beat.now).1 = some since) :
    Collapsing w state.firstSeen since (beat :: beats) := by
  obtain ⟨hbelow, hbefore | ⟨rfl, hstartup⟩⟩ := dtClock_cases hsince
  · exact (h.clock since hbefore).cons fun _ => hbelow
  · refine ⟨[], beat, beats, rfl, rfl, hstartup, ?_⟩
    intro b hb
    rw [List.mem_singleton.mp hb]
    exact fun _ => hbelow

theorem Watched.quiet (h : Watched w state beats) (hstart : beats = [] → state.firstSeen = beat.now)
    (hnone : (judge w state beat).2 = none) :
    Watched w (judge w state beat).1 (beat :: beats) ∧
      (judge w state beat).1.condemnedReason = state.condemnedReason := by
  unfold judge at hnone ⊢
  cases hrow : beat.tail.getLast? with
  | none =>
    refine ⟨⟨?_, h.few, getLast_cons_now h.first hstart, ?_⟩, rfl⟩
    · rw [newestRows_cons_none hrow]
      exact h.streak
    · intro since hsince
      refine (h.clock since hsince).cons fun hne => ?_
      exact absurd (List.getLast?_eq_none_iff.mp hrow) hne
  | some row =>
    rw [hrow] at hnone
    dsimp only at hnone ⊢
    split_ifs at hnone ⊢ with hquiet
    refine ⟨⟨streak_cons hrow _ h.streak, hquiet.1, getLast_cons_now h.first hstart, ?_⟩, rfl⟩
    exact fun since hsince => h.clock_cons hsince

structure Condemns (w : Watchdog F) (state : SegmentState F) (beat : Beat F) (beats : List (Beat F)) (row : Row F) :
    Prop where
  newest : beat.tail.getLast? = some row
  latched : (judge w state beat).1.condemnedReason = some (reasonText w row (tailDeltaT beat.tail))
  lastTime : (judge w state beat).1.condemnedLastTime = some row.time
  bound : (dtClock w state (tailDeltaT beat.tail) beat.now).2 = false →
    ((newestRows (beat :: beats)).takeWhile (exceeds w)).length = w.consecutive
  collapse : (dtClock w state (tailDeltaT beat.tail) beat.now).2 = true →
    ∃ since, Collapsing w state.firstSeen since (beat :: beats) ∧ le w.graceS (sub beat.now since) = true

theorem Watched.condemns (h : Watched w state beats) {reason : String} (hsome : (judge w state beat).2 = some reason) :
    ∃ row, Condemns w state beat beats row := by
  cases hrow : beat.tail.getLast? with
  | none =>
    simp only [judge, hrow] at hsome
    cases hsome
  | some row =>
    have hcondemned : ¬(insaneAfter w state.insaneBeats row < w.consecutive ∧
        (dtClock w state (tailDeltaT beat.tail) beat.now).2 = false) := by
      intro hquiet
      simp only [judge, hrow, if_pos hquiet] at hsome
      cases hsome
    have hjudge : (judge w state beat).1 = { state with
        insaneBeats := insaneAfter w state.insaneBeats row
        dtBelowSince := (dtClock w state (tailDeltaT beat.tail) beat.now).1
        condemnedReason := some (reasonText w row (tailDeltaT beat.tail))
        condemnedLastTime := some row.time } := by
      simp only [judge, hrow, if_neg hcondemned]
    refine ⟨row, hrow, by rw [hjudge], by rw [hjudge], fun hopen => ?_, fun hcollapsed => ?_⟩
    · have hstreak := streak_cons hrow _ h.streak
      have hfew := h.few
      rw [← hstreak]
      by_contra hne
      refine hcondemned ⟨?_, hopen⟩
      rw [insaneAfter] at hstreak hne ⊢
      split_ifs at hne ⊢ <;> omega
    · obtain ⟨since, hsince, _, hgrace⟩ := dtClock_collapsed hcollapsed
      exact ⟨since, h.clock_cons hsince, hgrace⟩

end Step

/-! ## Runs -/

section Runs
variable {F : Type} [Binary64 F] {w : Watchdog F} {state : SegmentState F} {beat : Beat F} {earlier beats : List (Beat F)}

theorem observe_judged {entry : Option (SegmentState F)} (h : judgedState entry beat = some state) :
    observe w entry beat = judge w state beat := by
  cases entry with
  | none =>
    have hstate : SegmentState.fresh beat.now = state := Option.some.inj h
    rw [← hstate]
    rfl
  | some before =>
    unfold judgedState at h
    cases hreason : before.condemnedReason with
    | none =>
      have hopen : restarts (some before) beat = false := by simp [restarts, hreason]
      rw [hopen, if_neg Bool.false_ne_true] at h
      simp only [Option.filter, hreason, Option.isNone_none, if_true, Option.some.injEq] at h
      rw [← h]
      simp only [observe, Option.getD_some, hreason]
    | some reason =>
      split_ifs at h with hrestart
      · simp only [restarts, Bool.and_eq_true, Bool.not_eq_true'] at hrestart
        simp only [observe, Option.getD_some, hreason, hrestart.1.2, hrestart.2, Bool.false_eq_true, if_false]
        rw [← Option.some.inj h]
      · simp [Option.filter, hreason] at h

theorem observe_standing {reason : String} (hreason : state.condemnedReason = some reason)
    (h : beat.markerPresent = true ∨ unchanged state beat = true) :
    (observe w (some state) beat).1 = state ∧
      (beat.markerPresent = false → (observe w (some state) beat).2 = none) := by
  simp only [observe, Option.getD_some, hreason]
  cases hmarker : beat.markerPresent with
  | true => simp
  | false =>
    have hsame := h.resolve_left (by simp [hmarker])
    simp [hsame]

theorem standing_of_not_judged {entry : Option (SegmentState F)} (h : judgedState entry beat = none) :
    ∃ before reason, entry = some before ∧ before.condemnedReason = some reason ∧
      (beat.markerPresent = true ∨ unchanged before beat = true) := by
  cases entry with
  | none => cases h
  | some before =>
    cases hreason : before.condemnedReason with
    | none => simp [judgedState, restarts, hreason, Option.filter] at h
    | some reason =>
      refine ⟨before, reason, rfl, hreason, ?_⟩
      by_contra hchanged
      rw [not_or, Bool.not_eq_true, Bool.not_eq_true] at hchanged
      simp [judgedState, restarts, hreason, hchanged] at h

theorem judged_watched (haccount : ∀ before, segment w earlier = some before → before.condemnedReason = none →
      Watched w before (seen w earlier) ∧ seen w earlier ≠ [])
    (h : judgedState (segment w earlier) beat = some state) :
    ∃ before, seen w (beat :: earlier) = beat :: before ∧ Watched w state before ∧
      (before = [] → state.firstSeen = beat.now) ∧ state.condemnedReason = none := by
  by_cases hrestart : restarts (segment w earlier) beat = true
  · have hstate : SegmentState.fresh beat.now = state := by
      rw [judgedState, if_pos hrestart] at h
      exact Option.some.inj h
    refine ⟨[], by rw [seen, if_pos hrestart], ?_, fun _ => ?_, ?_⟩
    · exact hstate ▸ watched_fresh w beat.now
    · rw [← hstate]
      rfl
    · rw [← hstate]
      rfl
  · have hseen : seen w (beat :: earlier) = beat :: seen w earlier := by
      rw [seen, if_neg hrestart, h, if_pos (Option.isSome_some)]
    rw [judgedState, if_neg hrestart, Option.filter_eq_some_iff] at h
    have hnone : state.condemnedReason = none := Option.isNone_iff_eq_none.mp h.2
    obtain ⟨hwatched, hne⟩ := haccount state h.1 hnone
    exact ⟨seen w earlier, hseen, hwatched, fun hempty => absurd hempty hne, hnone⟩

theorem accounts (w : Watchdog F) (beats : List (Beat F)) :
    ∀ state, segment w beats = some state → state.condemnedReason = none →
      Watched w state (seen w beats) ∧ seen w beats ≠ [] := by
  induction beats with
  | nil =>
    intro state h
    cases h
  | cons beat earlier ih =>
    intro state h hnone
    have hstate : (observe w (segment w earlier) beat).1 = state := Option.some.inj h
    cases hjudged : judgedState (segment w earlier) beat with
    | some before =>
      rw [observe_judged hjudged] at hstate
      obtain ⟨rest, hseen, hwatched, hstart, _⟩ := judged_watched ih hjudged
      cases hverdict : (judge w before beat).2 with
      | none =>
        rw [hseen, ← hstate]
        exact ⟨(hwatched.quiet hstart hverdict).1, List.cons_ne_nil _ _⟩
      | some reason =>
        obtain ⟨row, hrow⟩ := hwatched.condemns hverdict
        rw [← hstate, hrow.latched] at hnone
        cases hnone
    | none =>
      obtain ⟨before, reason, hbefore, hreason, hstands⟩ := standing_of_not_judged hjudged
      rw [hbefore, (observe_standing hreason hstands).1] at hstate
      rw [← hstate, hreason] at hnone
      cases hnone

def Issues (w : Watchdog F) (earlier : List (Beat F)) (beat : Beat F) : Prop :=
  ∃ state reason, judgedState (segment w earlier) beat = some state ∧ verdict w earlier beat = some reason

def dtCollapsed (w : Watchdog F) (earlier : List (Beat F)) (beat : Beat F) : Bool :=
  (judgedState (segment w earlier) beat).any fun state => (dtClock w state (tailDeltaT beat.tail) beat.now).2

theorem verdict_judged (h : judgedState (segment w earlier) beat = some state) :
    verdict w earlier beat = (judge w state beat).2 := by
  rw [verdict, observe_judged h]

theorem segment_judged (h : judgedState (segment w earlier) beat = some state) :
    segment w (beat :: earlier) = some (judge w state beat).1 := by
  rw [segment, observe_judged h]

theorem issues_condemns (h : Issues w earlier beat) :
    ∃ state before row, judgedState (segment w earlier) beat = some state ∧ seen w (beat :: earlier) = beat :: before ∧
      Watched w state before ∧ (before = [] → state.firstSeen = beat.now) ∧ Condemns w state beat before row := by
  obtain ⟨state, reason, hjudged, hverdict⟩ := h
  obtain ⟨before, hseen, hwatched, hstart, _⟩ := judged_watched (accounts w earlier) hjudged
  rw [verdict_judged hjudged] at hverdict
  obtain ⟨row, hrow⟩ := hwatched.condemns hverdict
  exact ⟨state, before, row, hjudged, hseen, hwatched, hstart, hrow⟩

def SameNewest (a b : Beat F) : Prop :=
  ∃ row ∈ a.tail.getLast?, ∃ other ∈ b.tail.getLast?, row.time = other.time ∨ eq row.time other.time = true

/-- The newest row of the last call has a number for its time, and if the last `consecutive` newest rows that were judged
since the start of the segment are all beyond the bound, their times are different. -/
def Steady (w : Watchdog F) (beats : List (Beat F)) : Prop :=
  (∀ beat ∈ beats.head?, ∀ row ∈ beat.tail.getLast?, eq row.time row.time = true) ∧
    (((newestRows (seen w beats)).take w.consecutive).length = w.consecutive →
      (∀ row ∈ (newestRows (seen w beats)).take w.consecutive, exceeds w row = true) →
      (((newestRows (seen w beats)).take w.consecutive).map Row.time).Nodup)

theorem segment_waiting {reason : String} (hstate : segment w beats = some state)
    (hreason : state.condemnedReason = some reason) (waiting : List (Beat F))
    (hwaiting : ∀ beat ∈ waiting, beat.markerPresent = true ∨ unchanged state beat = true) :
    segment w (waiting ++ beats) = some state := by
  induction waiting with
  | nil => exact hstate
  | cons beat waiting ih =>
    obtain ⟨hbeat, hrest⟩ := List.forall_mem_cons.mp hwaiting
    rw [List.cons_append, segment, ih hrest, (observe_standing hreason hbeat).1]

theorem segment_restarted (h : judgedState (segment w earlier) beat = some (.fresh beat.now)) (later : List (Beat F)) :
    segment w (later ++ beat :: earlier) = segment w (later ++ [beat]) := by
  induction later with
  | nil => exact segment_judged h
  | cons last later ih => rw [List.cons_append, List.cons_append, segment, segment, ih]

theorem unchanged_iff {other : Beat F} {row : Row F} (hrow : other.tail.getLast? = some row)
    (hlast : state.condemnedLastTime = some row.time) (hnumber : eq row.time row.time = true) :
    unchanged state beat = true ↔ SameNewest beat other := by
  unfold unchanged SameNewest
  rw [hlast, hrow]
  cases hbeat : beat.tail.getLast? with
  | none => simp
  | some newest =>
    simp only [Option.mem_def, Option.some.injEq, exists_eq_left']
    constructor
    · exact .inr
    · rintro (htime | heq)
      · rw [htime]
        exact hnumber
      · exact heq

/-- A condemnation is issued by the first rule for rows of different times, by the second for a step that has stayed below
the floor. -/
theorem issued_verdict (hsteady : Steady w (beat :: earlier)) (h : Issues w earlier beat) :
    (dtCollapsed w earlier beat = false →
      ∃ rows, rows <+: newestRows (seen w (beat :: earlier)) ∧ w.consecutive ≤ rows.length ∧
        (∀ row ∈ rows, exceeds w row = true) ∧ (rows.map Row.time).Nodup) ∧
    (dtCollapsed w earlier beat = true →
      ∃ first ∈ (seen w (beat :: earlier)).getLast?, ∃ since,
        Collapsing w first.now since (seen w (beat :: earlier)) ∧ le w.graceS (sub beat.now since) = true) := by
  obtain ⟨state, before, row, hjudged, hseen, hwatched, hstart, hcondemns⟩ := issues_condemns h
  have hcollapsed : dtCollapsed w earlier beat = (dtClock w state (tailDeltaT beat.tail) beat.now).2 := by
    rw [dtCollapsed, hjudged, Option.any_some]
  rw [hcollapsed]
  constructor
  · intro hopen
    have hlength := hcondemns.bound hopen
    have hstreak := List.takeWhile_prefix (exceeds w) (l := newestRows (beat :: before))
    have htake : (newestRows (beat :: before)).take w.consecutive =
        (newestRows (beat :: before)).takeWhile (exceeds w) := by
      rw [← hlength]
      exact (List.prefix_iff_eq_take.mp hstreak).symm
    have hall : ∀ row ∈ (newestRows (beat :: before)).takeWhile (exceeds w), exceeds w row = true :=
      fun row hrow => List.mem_takeWhile_imp hrow
    have hnodup := hsteady.2
    rw [hseen, htake] at hnodup
    rw [hseen]
    exact ⟨_, hstreak, hlength.ge, hall, hnodup hlength hall⟩
  · intro hclosed
    obtain ⟨since, hcollapsing, hgrace⟩ := hcondemns.collapse hclosed
    have hfirst := getLast_cons_now hwatched.first hstart
    obtain ⟨first, hmem⟩ := Option.isSome_iff_exists.mp (List.getLast?_isSome.mpr (List.cons_ne_nil beat before))
    rw [hseen]
    refine ⟨first, hmem, since, ?_, hgrace⟩
    rw [hfirst first hmem]
    exact hcollapsing

/-- After a condemnation whose marker is gone, the same newest row is not judged, and from the first other tail on the
verdicts are those of a new segment. -/
theorem verdicts_after_condemnation {condemned : Beat F} (hsteady : Steady w (condemned :: earlier))
    (h : Issues w earlier condemned) (waiting : List (Beat F))
    (hwaiting : ∀ b ∈ waiting, b.markerPresent = true ∨ SameNewest b condemned) (hmarker : beat.markerPresent = false) :
    (SameNewest beat condemned →
      verdict w (waiting ++ condemned :: earlier) beat = none ∧
        segment w (beat :: (waiting ++ condemned :: earlier)) = segment w (condemned :: earlier)) ∧
    (¬SameNewest beat condemned →
      verdict w (waiting ++ condemned :: earlier) beat = verdict w [] beat ∧
        ∀ later last, verdict w (later ++ beat :: (waiting ++ condemned :: earlier)) last = verdict w (later ++ [beat]) last) := by
  obtain ⟨state, before, row, hjudged, _, _, _, hcondemns⟩ := issues_condemns h
  have hnumber : eq row.time row.time = true := hsteady.1 condemned rfl row hcondemns.newest
  have hsame : ∀ b, unchanged (judge w state condemned).1 b = true ↔ SameNewest b condemned :=
    fun b => unchanged_iff hcondemns.newest hcondemns.lastTime hnumber
  have hsegment := segment_judged hjudged
  have hwaited := segment_waiting hsegment hcondemns.latched waiting
    fun b hb => (hwaiting b hb).imp_right (hsame b).mpr
  constructor
  · intro hbeat
    have hstands := observe_standing (w := w) hcondemns.latched (.inr ((hsame beat).mpr hbeat))
    rw [verdict, segment, hwaited, hsegment]
    exact ⟨hstands.2 hmarker, congrArg some hstands.1⟩
  · intro hbeat
    have hchanged : unchanged (judge w state condemned).1 beat = false := by
      rw [← Bool.not_eq_true, hsame]
      exact hbeat
    have hrestart : judgedState (segment w (waiting ++ condemned :: earlier)) beat = some (.fresh beat.now) := by
      rw [hwaited]
      simp [judgedState, restarts, hcondemns.latched, hmarker, hchanged]
    constructor
    · exact verdict_judged hrestart
    · intro later last
      rw [verdict, verdict, segment_restarted hrestart]

/-- In every run of calls on one segment whose out-of-bound rows are not shown twice: a condemnation without a collapsed
step is issued only for `consecutive` newest rows of different times in a row, all beyond the bound, since the start of
the segment; one for a collapsed step only if every tail over the grace, from the end of the startup grace on, had its
step below the floor; and after a condemnation whose marker is gone the same newest row is not judged and the verdicts
depend only on the tails from the first other one on. -/
theorem watchdog_verdicts (w : Watchdog F) (beats : List (Beat F)) (hsteady : ∀ run, run <:+ beats → Steady w run)
    (beat : Beat F) (earlier : List (Beat F)) (hrun : beat :: earlier <:+ beats) (hissues : Issues w earlier beat) :
    (dtCollapsed w earlier beat = false →
      ∃ rows, rows <+: newestRows (seen w (beat :: earlier)) ∧ w.consecutive ≤ rows.length ∧
        (∀ row ∈ rows, exceeds w row = true) ∧ (rows.map Row.time).Nodup) ∧
    (dtCollapsed w earlier beat = true →
      ∃ first ∈ (seen w (beat :: earlier)).getLast?, ∃ since,
        Collapsing w first.now since (seen w (beat :: earlier)) ∧ le w.graceS (sub beat.now since) = true) ∧
    ∀ waiting next, (∀ b ∈ waiting, b.markerPresent = true ∨ SameNewest b beat) → next.markerPresent = false →
      (SameNewest next beat →
        verdict w (waiting ++ beat :: earlier) next = none ∧
          segment w (next :: (waiting ++ beat :: earlier)) = segment w (beat :: earlier)) ∧
      (¬SameNewest next beat →
        verdict w (waiting ++ beat :: earlier) next = verdict w [] next ∧
          ∀ later last, verdict w (later ++ next :: (waiting ++ beat :: earlier)) last = verdict w (later ++ [next]) last) := by
  have hstep := hsteady _ hrun
  have hissued := issued_verdict hstep hissues
  refine ⟨hissued.1, hissued.2, fun waiting next hwaiting hmarker => ?_⟩
  exact verdicts_after_condemnation hstep hissues waiting hwaiting hmarker

end Runs

def defaultWatchdog : Watchdog ExactNum where
  clBound := .fin 50
  dtFloor := .fin (1 / 10 ^ 7)
  graceS := .fin 300
  startupGraceS := .fin 60
  consecutive := 3
  positive := by decide
  general := fun _ x => if x = .fin 1 then "1" else if x = .fin 2 then "2" else if x = .fin 3 then "3" else "60"

def highBeat (time now : ℚ) : Beat ExactNum := ⟨[⟨.fin time, .fin 60⟩], .fin now, false⟩

theorem watchdog_verdicts_three_rows :
    ∃ rows, rows <+: newestRows (seen defaultWatchdog [highBeat 3 20, highBeat 2 10, highBeat 1 0]) ∧
      3 ≤ rows.length ∧ (∀ row ∈ rows, exceeds defaultWatchdog row = true) ∧ (rows.map Row.time).Nodup := by
  have hsteady : ∀ run, run <:+ [highBeat 3 20, highBeat 2 10, highBeat 1 0] → Steady defaultWatchdog run := by
    intro run hrun
    simp only [List.suffix_cons_iff, List.suffix_nil] at hrun
    obtain rfl | rfl | rfl | rfl := hrun
    · exact ⟨by decide, by decide⟩
    · exact ⟨by decide, by decide⟩
    · exact ⟨by decide, by decide⟩
    · exact ⟨by decide, by decide⟩
  have hissues : Issues defaultWatchdog [highBeat 2 10, highBeat 1 0] (highBeat 3 20) := ⟨_, _, rfl, rfl⟩
  exact (watchdog_verdicts defaultWatchdog _ hsteady _ _ List.suffix_rfl hissues).1 rfl

/-- One row beyond the bound that three calls are shown condemns the solver. -/
theorem one_row_condemns :
    Issues defaultWatchdog [highBeat 1 10, highBeat 1 0] (highBeat 1 20) ∧
      dtCollapsed defaultWatchdog [highBeat 1 10, highBeat 1 0] (highBeat 1 20) = false ∧
      ¬∃ rows, rows <+: newestRows (seen defaultWatchdog [highBeat 1 20, highBeat 1 10, highBeat 1 0]) ∧
        3 ≤ rows.length ∧ (∀ row ∈ rows, exceeds defaultWatchdog row = true) ∧ (rows.map Row.time).Nodup := by
  refine ⟨⟨_, _, rfl, rfl⟩, rfl, ?_⟩
  rintro ⟨rows, hrows, hlength, _, hnodup⟩
  have hseen : newestRows (seen defaultWatchdog [highBeat 1 20, highBeat 1 10, highBeat 1 0]) =
      List.replicate 3 ⟨.fin 1, .fin 60⟩ := rfl
  rw [hseen] at hrows
  have hwhole := hrows.eq_of_length_le hlength
  rw [hwhole] at hnodup
  exact absurd hnodup (by decide)

end XFoilFoam.DivergenceWatchdog
