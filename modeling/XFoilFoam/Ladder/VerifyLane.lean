import XFoilFoam.Ladder.VerifyQueue
import XFoilFoam.Foundations.Runs

/-! Sweepers that consume the verify queue side by side.  A claim carries no token, so what keeps two of them off one
item is the order of their statements. -/
namespace XFoilFoam.Ladder
open Sweeper (SimJobStatus)
open Precalc (liveStatus)
open Progressive (CampaignStatus)
open VerifyStore (submitting)
set_option autoImplicit false

/-! ## One call of `consumeVerifyItem` -/

inductive Phase where
  | claimed
  | composed (jobId : String)
  | bound (jobId : String)
  | leased (jobId : String)
  /-- the outcome asks for `releaseClaimedVerifyItem`, which has not run yet -/
  | releasing (jobId : Option String)
  | finished
  deriving DecidableEq

/-- The statements of a call, and what the engine may answer. -/
inductive Move where
  | reject
  | block
  | yield
  | compose (jobId : String)
  | bind
  | lease (others : Bool)
  | stop
  | accepted (engineState : String) (others : Bool)
  | compensate
  | unreachable
  | answered (httpStatus : Option ℕ)
  | release
  /-- the call returns with no further statement, or its process dies -/
  | leave

def move (s : VerifyStore) (itemId : String) : Phase → Move → Option (VerifyStore × Phase)
  | .claimed, .reject => some (s.cancelVerifyItem itemId, .finished)
  | .claimed, .block => some (s.blockFinalUransVerificationBeforeSubmit itemId, .finished)
  -- media repair, or an engine that lacks the capability
  | .claimed, .yield => some (s, .releasing none)
  | .claimed, .compose jobId =>
    (s.jobs.insert? jobId (s.composedJob itemId)).map fun jobs => ({ s with jobs := jobs }, .composed jobId)
  | .composed jobId, .bind =>
    if s.itemRuns itemId then some (s.bindVerifyItem itemId jobId, .bound jobId)
    else some (s.cancelUnboundJob jobId, .releasing (some jobId))
  | .bound jobId, .lease others =>
    if s.pendingSubmitWhere jobId others && s.waitsIn jobId none then some (s.leaseSubmit jobId, .leased jobId)
    else none
  -- a guard that read no row, or the global permit, stops the call
  | .bound jobId, .stop => some (s.stopBeforeEngineSubmit jobId none, .releasing (some jobId))
  | .leased jobId, .stop => some (s.stopBeforeEngineSubmit jobId (some submitting), .releasing (some jobId))
  | .leased jobId, .accepted engineState others =>
    if s.pendingSubmitWhere jobId others && s.waitsIn jobId (some submitting) then
      some (s.recordSubmitted itemId jobId engineState, .finished)
    else none
  | .leased jobId, .compensate => some (s.recordAcceptedButStopped jobId, .releasing (some jobId))
  | .leased jobId, .unreachable =>
    some (s.recordUnexecutedTransientSubmitFailure itemId jobId, .releasing (some jobId))
  | .leased jobId, .answered httpStatus => some (s.recordAnsweredSubmitFailure itemId jobId httpStatus, .finished)
  | .releasing _, .release => some (s.releaseClaimedVerifyItem itemId, .finished)
  | _, .leave => some (s, .finished)
  | _, _ => none

/-! ## Many calls -/

structure Flight where
  itemId : String
  phase : Phase

/-- Every call that claimed an item so far, the earliest first; finished ones stay. -/
structure Lane where
  store : VerifyStore
  flights : List Flight

def jobMoves : SimJobStatus → SimJobStatus → Bool
  | .pending, .cancelled => true
  | .submitted, .pending | .running, .pending | .ingesting, .pending => false
  | .submitted, _ | .running, _ | .ingesting, _ => true
  | _, _ => false

inductive Action where
  | clock (now : ℕ)
  | campaigns (statuses : Table String CampaignStatus)
  | enqueue (itemId : String) (item : VerifyItem)
  /-- owners, retries and outcomes as other writers leave them; neither state nor binding is theirs -/
  | schedule (itemId : String) (item : VerifyItem)
  | advance (jobId : String) (status : SimJobStatus)
  | claim (seen : VerifyStore) (scope : PendingVerifyScope)
  | move (flight : ℕ) (move : Move)
  -- the three statements of `healOrphanedVerifyItems`
  | cancelOwnerless (scope : PendingVerifyScope) (locked : List String)
  | cancelCompositions (scope : PendingVerifyScope)
  | returnItems (scope : PendingVerifyScope)

namespace Lane

def setStore (l : Lane) (s : VerifyStore) : Lane := { l with store := s }

def perform (l : Lane) : Action → Lane
  | .clock now => l.setStore { l.store with now := now }
  | .campaigns statuses => l.setStore { l.store with campaigns := statuses }
  | .enqueue itemId item =>
    match l.store.items.insert? itemId { item with state := .pending, simJobId := none } with
    | none => l
    | some items => l.setStore { l.store with items := items }
  | .schedule itemId item =>
    l.setStore (l.store.modifyItem itemId fun old => { item with state := old.state, simJobId := old.simJobId })
  | .advance jobId status =>
    l.setStore (l.store.modifyJob jobId fun job =>
      if jobMoves job.status status then { job with status := status, updatedAt := l.store.now } else job)
  | .claim seen scope =>
    match VerifyStore.claimNextPendingVerifyItem seen l.store scope with
    | none => l
    | some (itemId, s) => { store := s, flights := l.flights ++ [⟨itemId, .claimed⟩] }
  | .move f m =>
    match l.flights[f]? with
    | none => l
    | some flight =>
      match Ladder.move l.store flight.itemId flight.phase m with
      | none => l
      | some (s, phase) => { store := s, flights := l.flights.set f { flight with phase := phase } }
  | .cancelOwnerless scope locked => l.setStore (l.store.cancelOwnerlessItems scope locked)
  | .cancelCompositions scope => l.setStore (l.store.cancelOrphanedCompositions scope)
  | .returnItems scope => l.setStore (l.store.returnOrphanedItems scope)

def idle (l : Lane) (itemId : String) : Bool :=
  l.flights.all fun flight => decide (flight.itemId = itemId → flight.phase = .finished)

/-- An item is taken only when nobody is still on the way with it. -/
def orderly (l : Lane) : Action → Bool
  | .claim seen scope =>
    (VerifyStore.claimNextPendingVerifyItem seen l.store scope).all fun taken => l.idle taken.1
  | _ => true

end Lane

def LaneStart (l : Lane) : Prop :=
  l.flights = [] ∧ ∀ jobId job, l.store.jobs.find? jobId = some job → liveStatus job.status = false

def LaneStep (l l' : Lane) : Prop := ∃ action, l' = l.perform action

def OrderlyStep (l l' : Lane) : Prop := ∃ action, l.orderly action = true ∧ l' = l.perform action

/-! ## What is kept -/

def VerifyJob.executes (job : VerifyJob) : Bool :=
  liveStatus job.status && (decide (job.status ≠ .pending) || decide (job.engineState = some submitting))

def BoundTo (s : VerifyStore) (itemId jobId : String) : Prop :=
  ∃ item, s.items.find? itemId = some item ∧ item.state = .running ∧ item.simJobId = some jobId

def Phase.boundJob : Phase → Option String
  | .bound jobId | .leased jobId => some jobId
  | .releasing jobId => jobId
  | _ => none

/-- While the item runs it is bound to nothing but the job of the call. -/
def HeldIn (s : VerifyStore) (itemId : String) (phase : Phase) : Prop :=
  ∀ jobId, BoundTo s itemId jobId → phase.boundJob = some jobId

/-- The engine knows nothing of the job: it waits in this `engine_state`, or was cancelled. -/
def Unsent (engineState : Option String) (job : VerifyJob) : Prop :=
  job.status = .pending ∧ job.engineState = engineState ∨ job.status = .cancelled

def OwnJob (s : VerifyStore) (itemId : String) : Phase → Prop
  | .composed jobId | .bound jobId =>
    ∃ job, s.jobs.find? jobId = some job ∧ job.verifyQueueItemId = itemId ∧ Unsent none job
  | .leased jobId =>
    ∃ job, s.jobs.find? jobId = some job ∧ job.verifyQueueItemId = itemId ∧ Unsent (some submitting) job
  | .releasing (some jobId) =>
    ∃ job, s.jobs.find? jobId = some job ∧ job.verifyQueueItemId = itemId ∧ liveStatus job.status = false
  | _ => True

def ExecutingBound (s : VerifyStore) (itemId : String) : Prop :=
  ∀ jobId job, s.jobs.find? jobId = some job → job.verifyQueueItemId = itemId → job.executes = true →
    BoundTo s itemId jobId

structure LaneInv (l : Lane) : Prop where
  latest : ∀ (f g : ℕ) (flight other : Flight), l.flights[f]? = some flight → l.flights[g]? = some other →
    other.itemId = flight.itemId → flight.phase ≠ .finished → g ≤ f
  held : ∀ (f : ℕ) (flight : Flight), l.flights[f]? = some flight → flight.phase ≠ .finished →
    HeldIn l.store flight.itemId flight.phase
  own : ∀ (f : ℕ) (flight : Flight), l.flights[f]? = some flight → flight.phase ≠ .finished →
    OwnJob l.store flight.itemId flight.phase
  executing : ∀ itemId, ExecutingBound l.store itemId

theorem LaneStart.inv {l : Lane} (h : LaneStart l) : LaneInv l := by
  obtain ⟨hflights, hjobs⟩ := h
  constructor
  · intro f g flight other hf
    simp [hflights] at hf
  · intro f flight hf
    simp [hflights] at hf
  · intro f flight hf
    simp [hflights] at hf
  · intro itemId jobId job hjob _ hexec
    simp [VerifyJob.executes, hjobs jobId job hjob] at hexec

/-! ## A statement of one call -/

structure OnlyItem (itemId : String) (s s' : VerifyStore) : Prop where
  items : ∀ other, other ≠ itemId → s'.items.find? other = s.items.find? other
  jobs : ∀ jobId job, job.verifyQueueItemId ≠ itemId →
    (s'.jobs.find? jobId = some job ↔ s.jobs.find? jobId = some job)

namespace OnlyItem
variable {itemId : String} {s s' : VerifyStore}

theorem refl : OnlyItem itemId s s := ⟨fun _ _ => rfl, fun _ _ _ => Iff.rfl⟩

theorem trans {s'' : VerifyStore} (h : OnlyItem itemId s s') (h' : OnlyItem itemId s' s'') : OnlyItem itemId s s'' where
  items other hne := (h'.items other hne).trans (h.items other hne)
  jobs jobId job hne := (h'.jobs jobId job hne).trans (h.jobs jobId job hne)

theorem modifyItem (f : VerifyItem → VerifyItem) : OnlyItem itemId s (s.modifyItem itemId f) where
  items _ hne := Table.find?_modify_ne s.items f hne
  jobs _ _ _ := Iff.rfl

theorem modifyJob {jobId : String} {f : VerifyJob → VerifyJob} {own : VerifyJob}
    (hown : s.jobs.find? jobId = some own) (hitem : own.verifyQueueItemId = itemId)
    (hkeep : ∀ job, (f job).verifyQueueItemId = job.verifyQueueItemId) : OnlyItem itemId s (s.modifyJob jobId f) where
  items _ _ := rfl
  jobs other job hne := by
    rw [VerifyStore.modifyJob, Table.find?_modify]
    split
    · rename_i heq
      rw [heq, hown, Option.map_some, Option.some.injEq, Option.some.injEq]
      constructor
      · intro hjob
        rw [← hjob, hkeep] at hne
        exact absurd hitem hne
      · intro hjob
        rw [hjob] at hitem
        exact absurd hitem hne
    · exact Iff.rfl

theorem boundTo_iff (h : OnlyItem itemId s s') {other jobId : String} (hne : other ≠ itemId) :
    BoundTo s' other jobId ↔ BoundTo s other jobId := by
  simp only [BoundTo, h.items other hne]

theorem executingBound (h : OnlyItem itemId s s') {other : String} (hne : other ≠ itemId)
    (hexec : ExecutingBound s other) : ExecutingBound s' other := by
  intro jobId job hjob hitem hruns
  rw [h.boundTo_iff hne]
  exact hexec jobId job ((h.jobs jobId job (by rw [hitem]; exact hne)).1 hjob) hitem hruns

theorem ownJob (h : OnlyItem itemId s s') {other : String} (hne : other ≠ itemId) {phase : Phase}
    (hown : OwnJob s other phase) : OwnJob s' other phase := by
  have hkeep : ∀ jobId job, s.jobs.find? jobId = some job → job.verifyQueueItemId = other →
      s'.jobs.find? jobId = some job := fun jobId job hjob hitem =>
    (h.jobs jobId job (by rw [hitem]; exact hne)).2 hjob
  cases phase with
  | composed jobId | bound jobId | leased jobId =>
    obtain ⟨job, hjob, hitem, hunsent⟩ := hown
    exact ⟨job, hkeep _ _ hjob hitem, hitem, hunsent⟩
  | releasing jobId =>
    cases jobId with
    | none => trivial
    | some jobId =>
      obtain ⟨job, hjob, hitem, hlive⟩ := hown
      exact ⟨job, hkeep _ _ hjob hitem, hitem, hlive⟩
  | claimed | finished => trivial

end OnlyItem

def NoneExecutes (s : VerifyStore) (itemId : String) : Prop :=
  ∀ jobId job, s.jobs.find? jobId = some job → job.verifyQueueItemId = itemId → job.executes = false

theorem NoneExecutes.executingBound {s : VerifyStore} {itemId : String} (h : NoneExecutes s itemId) :
    ExecutingBound s itemId := by
  intro jobId job hjob hitem hexec
  rw [h jobId job hjob hitem] at hexec
  cases hexec

theorem not_executes_of_not_live {job : VerifyJob} (h : liveStatus job.status = false) : job.executes = false := by
  simp [VerifyJob.executes, h]

theorem Unsent.not_executes {job : VerifyJob} (h : Unsent none job) : job.executes = false := by
  obtain ⟨hstatus, hstate⟩ | hstatus := h
  · simp [VerifyJob.executes, hstatus, hstate]
  · exact not_executes_of_not_live (by rw [hstatus]; rfl)

section Phases
variable {s : VerifyStore} {itemId : String} {phase : Phase}

theorem noneExecutes_of_held (hheld : HeldIn s itemId phase) (hown : OwnJob s itemId phase)
    (hexec : ExecutingBound s itemId) (hphase : ∀ jobId, phase ≠ .leased jobId) (hon : phase ≠ .finished) :
    NoneExecutes s itemId := by
  intro jobId job hjob hitem
  by_contra hruns
  rw [Bool.not_eq_false] at hruns
  have hbound := hheld jobId (hexec jobId job hjob hitem hruns)
  have hsame : ∀ own, s.jobs.find? jobId = some own → own = job := fun own h => Option.some.inj (h.symm.trans hjob)
  cases phase with
  | claimed | composed _ => cases hbound
  | bound own =>
    cases hbound
    obtain ⟨own, hfind, -, hunsent⟩ := hown
    rw [hsame own hfind] at hunsent
    simp [hunsent.not_executes] at hruns
  | leased own => exact hphase own rfl
  | releasing own =>
    cases hbound
    obtain ⟨own, hfind, -, hlive⟩ := hown
    rw [hsame own hfind] at hlive
    simp [not_executes_of_not_live hlive] at hruns
  | finished => exact hon rfl

theorem eq_of_executes {own : String} (hheld : HeldIn s itemId (.leased own)) (hexec : ExecutingBound s itemId)
    {jobId : String} {job : VerifyJob} (hjob : s.jobs.find? jobId = some job) (hitem : job.verifyQueueItemId = itemId)
    (hruns : job.executes = true) : jobId = own :=
  (Option.some.inj (hheld jobId (hexec jobId job hjob hitem hruns))).symm

end Phases

section JobChange
variable {s : VerifyStore} {itemId jobId : String} {f : VerifyJob → VerifyJob} {own : VerifyJob}

theorem find?_modifyJob (hown : s.jobs.find? jobId = some own) :
    (s.modifyJob jobId f).jobs.find? jobId = some (f own) := by
  rw [VerifyStore.modifyJob, Table.find?_modify_self, hown]
  rfl

theorem noneExecutes_modifyJob (hown : s.jobs.find? jobId = some own) (hstill : (f own).executes = false)
    (hothers : ∀ other job, other ≠ jobId → s.jobs.find? other = some job → job.verifyQueueItemId = itemId →
      job.executes = false) : NoneExecutes (s.modifyJob jobId f) itemId := by
  intro other job hjob hitem
  rw [VerifyStore.modifyJob, Table.find?_modify] at hjob
  split at hjob
  · rename_i heq
    rw [heq, hown, Option.map_some, Option.some.injEq] at hjob
    rw [← hjob]
    exact hstill
  · exact hothers other job ‹_› hjob hitem

end JobChange

def LeavesOnly (f : VerifyItem → VerifyItem) : Prop :=
  ∀ item, (f item).state = .running → item.state = .running ∧ (f item).simJobId = item.simJobId

theorem leavesOnly_ite {p : VerifyItem → Prop} [DecidablePred p] {g : VerifyItem → VerifyItem}
    (hg : ∀ item, (g item).state ≠ .running) : LeavesOnly fun item => if p item then g item else item := by
  intro item hruns
  dsimp only at hruns ⊢
  split at hruns
  · exact absurd hruns (hg item)
  · rename_i hguard
    rw [if_neg hguard]
    exact ⟨hruns, rfl⟩

theorem returned_not_running (s : VerifyStore) (item : VerifyItem) : (s.returned item).state ≠ .running := by
  simp only [VerifyStore.returned, VerifyStore.claimReleaseState]
  split <;> simp

theorem boundTo_of_modifyItem {s : VerifyStore} {itemId : String} {f : VerifyItem → VerifyItem} (hf : LeavesOnly f)
    {jobId : String} (h : BoundTo (s.modifyItem itemId f) itemId jobId) : BoundTo s itemId jobId := by
  obtain ⟨item', hfind, hruns, hjob⟩ := h
  rw [VerifyStore.modifyItem, Table.find?_modify_self, Option.map_eq_some_iff] at hfind
  obtain ⟨item, hfind, rfl⟩ := hfind
  obtain ⟨hstate, hsame⟩ := hf item hruns
  exact ⟨item, hfind, hstate, by rw [← hsame]; exact hjob⟩

theorem BoundTo.modifyItem {s : VerifyStore} {itemId jobId other : String} {f : VerifyItem → VerifyItem}
    (h : BoundTo s itemId jobId) (hf : ∀ item, (f item).state = item.state ∧ (f item).simJobId = item.simJobId) :
    BoundTo (s.modifyItem other f) itemId jobId := by
  obtain ⟨item, hfind, hstate, hjob⟩ := h
  rw [BoundTo, VerifyStore.modifyItem, Table.find?_modify, hfind]
  split
  · exact ⟨f item, rfl, by rw [(hf item).1, hstate], by rw [(hf item).2, hjob]⟩
  · exact ⟨item, rfl, hstate, hjob⟩

/-- What a call in this phase may rely on, and what holds of its item. -/
structure Sound (s : VerifyStore) (itemId : String) (phase : Phase) : Prop where
  held : phase ≠ .finished → HeldIn s itemId phase
  own : phase ≠ .finished → OwnJob s itemId phase
  executing : ExecutingBound s itemId

theorem Sound.finished {s : VerifyStore} {itemId : String} (h : ExecutingBound s itemId) : Sound s itemId .finished :=
  ⟨fun hon => absurd rfl hon, fun hon => absurd rfl hon, h⟩

section Moves
variable {s s' : VerifyStore} {itemId jobId : String} {phase phase' : Phase}

theorem Sound.noneExecutes (h : Sound s itemId phase) (hphase : ∀ jobId, phase ≠ .leased jobId)
    (hon : phase ≠ .finished) : NoneExecutes s itemId :=
  noneExecutes_of_held (h.held hon) (h.own hon) h.executing hphase hon

theorem Sound.others_idle (h : Sound s itemId (.leased jobId)) (other : String) (job : VerifyJob)
    (hne : other ≠ jobId) (hjob : s.jobs.find? other = some job) (hitem : job.verifyQueueItemId = itemId) :
    job.executes = false := by
  by_contra hruns
  rw [Bool.not_eq_false] at hruns
  exact hne (eq_of_executes (h.held (by simp)) h.executing hjob hitem hruns)

theorem ended_on_item (hnone : NoneExecutes s itemId) (f : VerifyItem → VerifyItem) :
    OnlyItem itemId s (s.modifyItem itemId f) ∧ Sound (s.modifyItem itemId f) itemId .finished := by
  refine ⟨.modifyItem f, .finished (NoneExecutes.executingBound ?_)⟩
  exact hnone

theorem stopped_on_job {own : VerifyJob} {f : VerifyJob → VerifyJob} (hown : s.jobs.find? jobId = some own)
    (hitem : own.verifyQueueItemId = itemId) (hkeep : ∀ job, (f job).verifyQueueItemId = job.verifyQueueItemId)
    (hlive : liveStatus (f own).status = false) (hheld : ∀ other, BoundTo s itemId other → jobId = other)
    (hothers : ∀ other job, other ≠ jobId → s.jobs.find? other = some job → job.verifyQueueItemId = itemId →
      job.executes = false) :
    OnlyItem itemId s (s.modifyJob jobId f) ∧ Sound (s.modifyJob jobId f) itemId (.releasing (some jobId)) := by
  refine ⟨.modifyJob hown hitem hkeep, ?_, ?_, ?_⟩
  · intro _ other hbound
    exact congrArg some (hheld other hbound)
  · intro _
    exact ⟨f own, find?_modifyJob hown, (hkeep own).trans hitem, hlive⟩
  · exact (noneExecutes_modifyJob hown (not_executes_of_not_live hlive) hothers).executingBound

theorem compose_sound (h : Sound s itemId .claimed) {jobs : Table String VerifyJob}
    (hins : s.jobs.insert? jobId (s.composedJob itemId) = some jobs) :
    OnlyItem itemId s { s with jobs := jobs } ∧ Sound { s with jobs := jobs } itemId (.composed jobId) := by
  have hnone := h.noneExecutes (by simp) (by simp)
  refine ⟨⟨fun _ _ => rfl, ?_⟩, ?_, ?_, NoneExecutes.executingBound ?_⟩
  · intro other job hne
    rw [Table.find?_insert hins]
    constructor
    · rintro (hjob | ⟨-, rfl⟩)
      · exact hjob
      · exact absurd rfl hne
    · exact .inl
  · intro _ other hbound
    exact h.held (by simp) other hbound
  · intro _
    exact ⟨s.composedJob itemId, (Table.find?_insert hins).2 (.inr ⟨rfl, rfl⟩), rfl, .inl ⟨rfl, rfl⟩⟩
  · intro other job hjob hitem
    rcases (Table.find?_insert hins).1 hjob with hjob | ⟨-, rfl⟩
    · exact hnone other job hjob hitem
    · rfl

theorem bind_sound (h : Sound s itemId (.composed jobId)) :
    OnlyItem itemId s (s.bindVerifyItem itemId jobId) ∧
      Sound (s.bindVerifyItem itemId jobId) itemId (.bound jobId) := by
  refine ⟨.modifyItem _, ?_, ?_, NoneExecutes.executingBound ?_⟩
  · rintro - other ⟨item', hfind, hruns, hjob⟩
    rw [VerifyStore.bindVerifyItem, VerifyStore.modifyItem, Table.find?_modify_self, Option.map_eq_some_iff] at hfind
    obtain ⟨item, -, rfl⟩ := hfind
    split at hjob
    · exact hjob
    · rename_i hstate
      rw [if_neg hstate] at hruns
      exact absurd hruns hstate
  · intro _
    exact h.own (by simp)
  · exact h.noneExecutes (by simp) (by simp)

theorem unbound_sound (h : Sound s itemId (.composed jobId)) (hruns : s.itemRuns itemId = false) :
    OnlyItem itemId s (s.cancelUnboundJob jobId) ∧
      Sound (s.cancelUnboundJob jobId) itemId (.releasing (some jobId)) := by
  obtain ⟨own, hown, hitem, hunsent⟩ := h.own (by simp)
  refine stopped_on_job hown hitem ?_ ?_ ?_ ?_
  · intro job
    split <;> rfl
  · obtain ⟨hstatus, -⟩ | hstatus := hunsent <;> simp [hstatus, VerifyStore.cancelledJob, liveStatus]
  · rintro other ⟨item, hfind, hstate, -⟩
    simp [VerifyStore.itemRuns, hfind, hstate] at hruns
  · intro other job _ hjob hitem
    exact h.noneExecutes (by simp) (by simp) other job hjob hitem

theorem waitsIn_iff {engineState : Option String} {own : VerifyJob} (hown : s.jobs.find? jobId = some own) :
    s.waitsIn jobId engineState = true ↔ own.status = .pending ∧ own.engineState = engineState := by
  simp [VerifyStore.waitsIn, hown]

theorem boundTo_of_pendingSubmitWhere {others : Bool} {own : VerifyJob} (hown : s.jobs.find? jobId = some own)
    (hguard : s.pendingSubmitWhere jobId others = true) : BoundTo s own.verifyQueueItemId jobId := by
  rw [VerifyStore.pendingSubmitWhere, hown, Bool.and_eq_true] at hguard
  simp only [Option.any_some, Bool.and_eq_true] at hguard
  obtain ⟨-, -, hitem⟩ := hguard
  rw [Option.any_eq_true] at hitem
  obtain ⟨item, hfind, hitem⟩ := hitem
  simp only [Bool.and_eq_true] at hitem
  obtain ⟨hstate, hsim⟩ := VerifyStore.runsFor_iff.1 hitem.1.1
  exact ⟨item, hfind, hstate, hsim⟩

theorem lease_sound (h : Sound s itemId (.bound jobId)) {others : Bool}
    (hguard : s.pendingSubmitWhere jobId others = true) (hwaits : s.waitsIn jobId none = true) :
    OnlyItem itemId s (s.leaseSubmit jobId) ∧ Sound (s.leaseSubmit jobId) itemId (.leased jobId) := by
  obtain ⟨own, hown, hitem, -⟩ := h.own (by simp)
  have hbound := boundTo_of_pendingSubmitWhere hown hguard
  rw [hitem] at hbound
  have hnone := h.noneExecutes (by simp) (by simp)
  refine ⟨.modifyJob hown hitem fun _ => rfl, ?_, ?_, ?_⟩
  · intro _ other hother
    exact h.held (by simp) other hother
  · intro _
    exact ⟨_, find?_modifyJob hown, hitem, .inl ⟨((waitsIn_iff hown).1 hwaits).1, rfl⟩⟩
  · intro other job hjob hother hruns
    rw [VerifyStore.leaseSubmit, VerifyStore.modifyJob, Table.find?_modify] at hjob
    split at hjob
    · rename_i heq
      rw [heq]
      exact hbound
    · rw [hnone other job hjob hother] at hruns
      cases hruns

theorem stop_sound (h : Sound s itemId (.bound jobId)) :
    OnlyItem itemId s (s.stopBeforeEngineSubmit jobId none) ∧
      Sound (s.stopBeforeEngineSubmit jobId none) itemId (.releasing (some jobId)) := by
  obtain ⟨own, hown, hitem, hunsent⟩ := h.own (by simp)
  refine stopped_on_job hown hitem ?_ ?_ ?_ ?_
  · intro job
    split <;> rfl
  · obtain ⟨hstatus, hstate⟩ | hstatus := hunsent
    · rw [if_pos ⟨hstatus, hstate⟩]
      rfl
    · rw [if_neg (by simp [hstatus]), hstatus]
      rfl
  · intro other hother
    exact Option.some.inj (h.held (by simp) other hother)
  · intro other job _ hjob hother
    exact h.noneExecutes (by simp) (by simp) other job hjob hother

theorem given_up_sound (h : Sound s itemId (.leased jobId)) {f : VerifyJob → VerifyJob}
    (hkeep : ∀ job, (f job).verifyQueueItemId = job.verifyQueueItemId)
    (hstops : ∀ job, Unsent (some submitting) job → liveStatus (f job).status = false) :
    OnlyItem itemId s (s.modifyJob jobId f) ∧ Sound (s.modifyJob jobId f) itemId (.releasing (some jobId)) := by
  obtain ⟨own, hown, hitem, hunsent⟩ := h.own (by simp)
  refine stopped_on_job hown hitem hkeep (hstops own hunsent) ?_ h.others_idle
  intro other hother
  exact Option.some.inj (h.held (by simp) other hother)

theorem stop_leased_sound (h : Sound s itemId (.leased jobId)) :
    OnlyItem itemId s (s.stopBeforeEngineSubmit jobId (some submitting)) ∧
      Sound (s.stopBeforeEngineSubmit jobId (some submitting)) itemId (.releasing (some jobId)) := by
  refine given_up_sound h (fun job => by split <;> rfl) ?_
  rintro job (⟨hstatus, hstate⟩ | hstatus)
  · rw [if_pos ⟨hstatus, hstate⟩]
    rfl
  · rw [if_neg (by simp [hstatus]), hstatus]
    rfl

theorem compensate_sound (h : Sound s itemId (.leased jobId)) :
    OnlyItem itemId s (s.recordAcceptedButStopped jobId) ∧
      Sound (s.recordAcceptedButStopped jobId) itemId (.releasing (some jobId)) := by
  refine given_up_sound h (fun job => by split <;> [rfl; split <;> rfl]) ?_
  rintro job (⟨hstatus, hstate⟩ | hstatus)
  · rw [if_pos ⟨hstatus, hstate⟩]
    rfl
  · rw [if_neg (by simp [hstatus]), if_pos hstatus]
    rfl

theorem Sound.modifyItem (h : Sound s itemId (.leased jobId)) {f : VerifyItem → VerifyItem} (hf : LeavesOnly f) :
    ∀ other, BoundTo (s.modifyItem itemId f) itemId other → jobId = other := by
  intro other hother
  exact Option.some.inj (h.held (by simp) other (boundTo_of_modifyItem hf hother))

theorem releaseLadderOwner_leavesOnly (jobId : String) :
    LeavesOnly fun item =>
      let item := if VerifyStore.runsFor item jobId && VerifyStore.retryPointsTo item jobId then s.returned item
        else item
      { item with
        submitRetry := item.submitRetry.map fun r => if r.pointsNowhereElse jobId then r.point jobId else r } := by
  intro item hruns
  have hleaves := leavesOnly_ite
    (p := fun item => (VerifyStore.runsFor item jobId && VerifyStore.retryPointsTo item jobId) = true)
    (returned_not_running s) item
  exact hleaves hruns

theorem unreachable_sound (h : Sound s itemId (.leased jobId)) :
    OnlyItem itemId s (s.recordUnexecutedTransientSubmitFailure itemId jobId) ∧
      Sound (s.recordUnexecutedTransientSubmitFailure itemId jobId) itemId (.releasing (some jobId)) := by
  obtain ⟨own, hown, hitem, hunsent⟩ := h.own (by simp)
  rw [VerifyStore.recordUnexecutedTransientSubmitFailure]
  split
  · have hstop := stopped_on_job (s := s.releaseLadderOwnerAfterTransportFailure itemId jobId)
      (f := s.cancelledJob "cancelled") hown hitem (fun _ => rfl) rfl
      (h.modifyItem (releaseLadderOwner_leavesOnly jobId)) h.others_idle
    exact ⟨(OnlyItem.modifyItem _).trans hstop.1, hstop.2⟩
  · -- somebody else has cancelled the job by now
    have hcancelled : own.status = .cancelled := by
      obtain hwaits | hcancelled := hunsent
      · exact absurd ((waitsIn_iff hown).2 hwaits) ‹_›
      · exact hcancelled
    refine ⟨.refl, ?_, ?_, h.executing⟩
    · intro _ other hother
      exact h.held (by simp) other hother
    · intro _
      exact ⟨own, hown, hitem, by rw [hcancelled]; rfl⟩

theorem answered_sound (h : Sound s itemId (.leased jobId)) (httpStatus : Option ℕ) :
    OnlyItem itemId s (s.recordAnsweredSubmitFailure itemId jobId httpStatus) ∧
      Sound (s.recordAnsweredSubmitFailure itemId jobId httpStatus) itemId .finished := by
  obtain ⟨own, hown, hitem, -⟩ := h.own (by simp)
  rw [VerifyStore.recordAnsweredSubmitFailure]
  split
  · refine ⟨(OnlyItem.modifyItem _).trans (.modifyJob hown hitem fun _ => rfl), .finished ?_⟩
    exact (noneExecutes_modifyJob (s := s.settleAnsweredLadderFailure itemId jobId httpStatus) hown rfl
      h.others_idle).executingBound
  · exact ⟨.refl, .finished h.executing⟩

theorem accepted_sound (h : Sound s itemId (.leased jobId)) {engineState : String} {others : Bool}
    (hguard : s.pendingSubmitWhere jobId others = true) :
    OnlyItem itemId s (s.recordSubmitted itemId jobId engineState) ∧
      Sound (s.recordSubmitted itemId jobId engineState) itemId .finished := by
  obtain ⟨own, hown, hitem, -⟩ := h.own (by simp)
  have hbound := boundTo_of_pendingSubmitWhere hown hguard
  rw [hitem] at hbound
  refine ⟨(OnlyItem.modifyItem _).trans (.modifyJob hown hitem fun _ => rfl), .finished ?_⟩
  intro other job hjob hother hruns
  rw [VerifyStore.recordSubmitted, VerifyStore.modifyJob, Table.find?_modify] at hjob
  split at hjob
  · rename_i heq
    rw [heq]
    exact hbound.modifyItem fun _ => ⟨rfl, rfl⟩
  · rw [h.others_idle other job ‹_› hjob hother] at hruns
    cases hruns

theorem move_sound {m : Move} (h : Sound s itemId phase) (hon : phase ≠ .finished)
    (hmove : move s itemId phase m = some (s', phase')) : OnlyItem itemId s s' ∧ Sound s' itemId phase' := by
  unfold move at hmove
  split at hmove
  · cases hmove
    exact ended_on_item (h.noneExecutes (by simp) hon) _
  · cases hmove
    exact ended_on_item (h.noneExecutes (by simp) hon) _
  · cases hmove
    exact ⟨.refl, fun _ => h.held hon, fun _ => trivial, h.executing⟩
  · obtain ⟨jobs, hins, hjobs⟩ := Option.map_eq_some_iff.1 hmove
    cases hjobs
    exact compose_sound h hins
  · split at hmove
    · cases hmove
      exact bind_sound h
    · cases hmove
      exact unbound_sound h (Bool.eq_false_of_not_eq_true ‹_›)
  · split at hmove
    · cases hmove
      rename_i hguard
      rw [Bool.and_eq_true] at hguard
      exact lease_sound h hguard.1 hguard.2
    · cases hmove
  · cases hmove
    exact stop_sound h
  · cases hmove
    exact stop_leased_sound h
  · split at hmove
    · cases hmove
      rename_i hguard
      rw [Bool.and_eq_true] at hguard
      exact accepted_sound h hguard.1
    · cases hmove
  · cases hmove
    exact compensate_sound h
  · cases hmove
    exact unreachable_sound h
  · cases hmove
    exact answered_sound h _
  · cases hmove
    exact ended_on_item (h.noneExecutes (by simp) hon) _
  · cases hmove
    exact ⟨.refl, .finished h.executing⟩
  · cases hmove

end Moves

theorem LaneInv.moved {l : Lane} (h : LaneInv l) {f : ℕ} {flight : Flight} (hf : l.flights[f]? = some flight)
    (hon : flight.phase ≠ .finished) {s : VerifyStore} {phase : Phase} (honly : OnlyItem flight.itemId l.store s)
    (hsound : Sound s flight.itemId phase) :
    LaneInv { store := s, flights := l.flights.set f { flight with phase := phase } } := by
  have hget : ∀ g other, (l.flights.set f { flight with phase := phase })[g]? = some other →
      g = f ∧ other = { flight with phase := phase } ∨ g ≠ f ∧ l.flights[g]? = some other := by
    intro g other hg
    rw [List.getElem?_set] at hg
    split at hg
    · rename_i heq
      split at hg
      · exact .inl ⟨heq.symm, (Option.some.inj hg).symm⟩
      · cases hg
    · exact .inr ⟨fun heq => ‹¬ f = g› heq.symm, hg⟩
  -- two calls on the way never share an item
  have hapart : ∀ g other, g ≠ f → l.flights[g]? = some other → other.phase ≠ .finished →
      other.itemId ≠ flight.itemId := by
    intro g other hne hg hother heq
    have hle := h.latest f g flight other hf hg heq hon
    have hge := h.latest g f other flight hg hf heq.symm hother
    omega
  constructor
  · intro a b first second ha hb heq hfirst
    rcases hget a first ha with ⟨rfl, rfl⟩ | ⟨-, ha'⟩
    · rcases hget b second hb with ⟨rfl, rfl⟩ | ⟨-, hb'⟩
      · exact le_refl _
      · exact h.latest a b flight second hf hb' heq hon
    · rcases hget b second hb with ⟨rfl, rfl⟩ | ⟨-, hb'⟩
      · exact h.latest a b first flight ha' hf heq hfirst
      · exact h.latest a b first second ha' hb' heq hfirst
  · intro g other hg hother jobId hbound
    rcases hget g other hg with ⟨rfl, rfl⟩ | ⟨hne, hg'⟩
    · exact hsound.held hother jobId hbound
    · rw [honly.boundTo_iff (hapart g other hne hg' hother)] at hbound
      exact h.held g other hg' hother jobId hbound
  · intro g other hg hother
    rcases hget g other hg with ⟨rfl, rfl⟩ | ⟨hne, hg'⟩
    · exact hsound.own hother
    · exact honly.ownJob (hapart g other hne hg' hother) (h.own g other hg' hother)
  · intro itemId
    by_cases hitem : itemId = flight.itemId
    · rw [hitem]
      exact hsound.executing
    · exact honly.executingBound hitem (h.executing itemId)

end XFoilFoam.Ladder
