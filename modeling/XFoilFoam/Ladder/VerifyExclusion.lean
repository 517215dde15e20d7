import XFoilFoam.Ladder.VerifyLane

/-! A verify item is never in two hands as long as nobody takes it up while an earlier claimant is still on the way. -/
namespace XFoilFoam.Ladder
open Sweeper (SimJobStatus)
open Precalc (liveStatus)
open VerifyStore (submitting)
set_option autoImplicit false

/-! ## The healer and the world around -/

structure JobSettles (job job' : VerifyJob) : Prop where
  item : job'.verifyQueueItemId = job.verifyQueueItemId
  executes : job'.executes = true → job.executes = true
  unsent : ∀ engineState, Unsent engineState job → Unsent engineState job'
  ended : liveStatus job.status = false → liveStatus job'.status = false

theorem JobSettles.refl (job : VerifyJob) : JobSettles job job := ⟨rfl, id, fun _ => id, id⟩

/-- No binding is new, and none to a job that executes is lost. -/
structure Quiet (s s' : VerifyStore) : Prop where
  jobs : ∃ f : String → VerifyJob → VerifyJob, (∀ jobId job, JobSettles job (f jobId job)) ∧
    ∀ jobId, s'.jobs.find? jobId = (s.jobs.find? jobId).map (f jobId)
  bound : ∀ itemId jobId, BoundTo s' itemId jobId → BoundTo s itemId jobId
  kept : ∀ itemId jobId job, s'.jobs.find? jobId = some job → job.executes = true → BoundTo s itemId jobId →
    BoundTo s' itemId jobId

theorem Quiet.of_same_jobs {s s' : VerifyStore} (hjobs : s'.jobs = s.jobs)
    (hbound : ∀ itemId jobId, BoundTo s' itemId jobId → BoundTo s itemId jobId)
    (hkept : ∀ itemId jobId job, s'.jobs.find? jobId = some job → job.executes = true → BoundTo s itemId jobId →
      BoundTo s' itemId jobId) : Quiet s s' where
  jobs := ⟨fun _ job => job, fun _ job => .refl job, fun jobId => by simp [hjobs]⟩
  bound := hbound
  kept := hkept

theorem OwnJob.quiet {s s' : VerifyStore} (h : Quiet s s') {itemId : String} {phase : Phase}
    (hown : OwnJob s itemId phase) : OwnJob s' itemId phase := by
  obtain ⟨f, hf, hjobs⟩ := h.jobs
  have hfind : ∀ jobId job, s.jobs.find? jobId = some job → s'.jobs.find? jobId = some (f jobId job) := by
    intro jobId job hjob
    rw [hjobs, hjob]
    rfl
  cases phase with
  | composed jobId | bound jobId | leased jobId =>
    obtain ⟨job, hjob, hitem, hunsent⟩ := hown
    exact ⟨_, hfind _ _ hjob, (hf jobId job).item.trans hitem, (hf jobId job).unsent _ hunsent⟩
  | releasing jobId =>
    cases jobId with
    | none => trivial
    | some jobId =>
      obtain ⟨job, hjob, hitem, hlive⟩ := hown
      exact ⟨_, hfind _ _ hjob, (hf jobId job).item.trans hitem, (hf jobId job).ended hlive⟩
  | claimed | finished => trivial

theorem LaneInv.quiet {l : Lane} (h : LaneInv l) {s : VerifyStore} (hq : Quiet l.store s) :
    LaneInv (l.setStore s) where
  latest := h.latest
  held f flight hf hon jobId hbound := h.held f flight hf hon jobId (hq.bound _ _ hbound)
  own f flight hf hon := (h.own f flight hf hon).quiet hq
  executing := by
    intro itemId jobId job' hjob' hitem hexec
    obtain ⟨f, hf, hjobs⟩ := hq.jobs
    have hjob := hjob'
    simp only [Lane.setStore] at hjob
    rw [hjobs, Option.map_eq_some_iff] at hjob
    obtain ⟨job, hjob, rfl⟩ := hjob
    have hbound := h.executing itemId jobId job hjob ((hf jobId job).item.symm.trans hitem)
      ((hf jobId job).executes hexec)
    exact hq.kept itemId jobId _ hjob' hexec hbound

/-! ### The statements of the healer -/

section Healing
variable {s : VerifyStore}

theorem quiet_map_items {f : String → VerifyItem → VerifyItem} (hf : ∀ itemId, LeavesOnly (f itemId))
    (hkept : ∀ itemId item jobId job, s.items.find? itemId = some item → item.state = .running →
      item.simJobId = some jobId → s.jobs.find? jobId = some job → job.executes = true → f itemId item = item) :
    Quiet s { s with items := s.items.map f } := by
  refine .of_same_jobs rfl ?_ ?_
  · rintro itemId jobId ⟨item', hfind, hruns, hjob⟩
    rw [Table.find?_map, Option.map_eq_some_iff] at hfind
    obtain ⟨item, hfind, rfl⟩ := hfind
    obtain ⟨hstate, hsame⟩ := hf itemId item hruns
    exact ⟨item, hfind, hstate, hsame ▸ hjob⟩
  · rintro itemId jobId job hjob hexec ⟨item, hfind, hruns, hbound⟩
    refine ⟨item, ?_, hruns, hbound⟩
    rw [Table.find?_map, hfind, Option.map_some, hkept itemId item jobId job hfind hruns hbound hjob hexec]

theorem cancelOwnerlessItems_quiet (scope : PendingVerifyScope) (locked : List String) :
    Quiet s (s.cancelOwnerlessItems scope locked) := by
  refine quiet_map_items ?_ ?_
  · intro itemId
    exact leavesOnly_ite fun _ => by simp
  · intro itemId item jobId job _ hruns _ _ _
    rw [if_neg]
    rintro ⟨-, hstate, -⟩
    rw [hruns] at hstate
    cases hstate

theorem live_of_executes {job : VerifyJob} (h : job.executes = true) : liveStatus job.status = true := by
  rw [VerifyJob.executes, Bool.and_eq_true] at h
  exact h.1

theorem returnOrphanedItems_quiet (scope : PendingVerifyScope) : Quiet s (s.returnOrphanedItems scope) := by
  refine quiet_map_items ?_ ?_
  · intro itemId
    exact leavesOnly_ite (returned_not_running s)
  · intro itemId item jobId job _ _ hbound hjob hexec
    rw [if_neg]
    rintro ⟨-, -, hlive, -⟩
    simp [VerifyStore.liveBinding, hbound, hjob, live_of_executes hexec] at hlive

theorem quiet_map_jobs {f : String → VerifyJob → VerifyJob} (hf : ∀ jobId job, JobSettles job (f jobId job)) :
    Quiet s { s with jobs := s.jobs.map f } where
  jobs := ⟨f, hf, fun _ => Table.find?_map _ _ _⟩
  bound _ _ h := h
  kept _ _ _ _ _ h := h

theorem jobSettles_of_cancelled {job job' : VerifyJob} (hitem : job'.verifyQueueItemId = job.verifyQueueItemId)
    (hcancelled : job'.status = .cancelled) : JobSettles job job' where
  item := hitem
  executes h := by
    have := live_of_executes h
    rw [hcancelled] at this
    cases this
  unsent _ _ := .inr hcancelled
  ended _ := by rw [hcancelled]; rfl

theorem cancelOrphanedCompositions_quiet (scope : PendingVerifyScope) :
    Quiet s (s.cancelOrphanedCompositions scope) := by
  refine quiet_map_jobs fun jobId job => ?_
  split
  · exact jobSettles_of_cancelled rfl rfl
  · exact .refl job

end Healing

/-! ### Other writers -/

theorem jobMoves_settles {job : VerifyJob} {status : SimJobStatus} (h : jobMoves job.status status = true)
    (updatedAt : ℕ) : JobSettles job { job with status := status, updatedAt := updatedAt } := by
  cases hstatus : job.status with
  | pending =>
    have hcancelled : status = .cancelled := by
      rw [hstatus] at h
      cases status <;> first | rfl | cases h
    exact jobSettles_of_cancelled rfl hcancelled
  | submitted | running | ingesting =>
    refine ⟨rfl, fun _ => by simp [VerifyJob.executes, hstatus, liveStatus], ?_, ?_⟩
    · rintro engineState (⟨hpending, -⟩ | hcancelled)
      · rw [hstatus] at hpending
        cases hpending
      · rw [hstatus] at hcancelled
        cases hcancelled
    · intro hended
      rw [hstatus] at hended
      cases hended
  | done | failed | cancelled =>
    rw [hstatus] at h
    cases h

theorem advance_quiet (s : VerifyStore) (jobId : String) (status : SimJobStatus) :
    Quiet s (s.modifyJob jobId fun job =>
      if jobMoves job.status status then { job with status := status, updatedAt := s.now } else job) := by
  refine quiet_map_jobs fun other job => ?_
  split
  · dsimp only
    split
    · exact jobMoves_settles ‹_› s.now
    · exact .refl job
  · exact .refl job

theorem schedule_quiet (s : VerifyStore) (itemId : String) (item : VerifyItem) :
    Quiet s (s.modifyItem itemId fun old => { item with state := old.state, simJobId := old.simJobId }) := by
  refine .of_same_jobs rfl ?_ ?_
  · intro other jobId hbound
    by_cases hother : other = itemId
    · rw [hother] at hbound ⊢
      refine boundTo_of_modifyItem ?_ hbound
      intro old hruns
      exact ⟨hruns, rfl⟩
    · exact ((OnlyItem.modifyItem _).boundTo_iff hother).1 hbound
  · intro other jobId _ _ _ hbound
    exact hbound.modifyItem fun _ => ⟨rfl, rfl⟩

theorem enqueue_quiet {s : VerifyStore} {itemId : String} {item : VerifyItem} {items : Table String VerifyItem}
    (hins : s.items.insert? itemId item = some items) (hstate : item.state = .pending) :
    Quiet s { s with items := items } := by
  refine .of_same_jobs rfl ?_ ?_
  · rintro other jobId ⟨row, hfind, hruns, hjob⟩
    rcases (Table.find?_insert hins).1 hfind with hfind | ⟨-, rfl⟩
    · exact ⟨row, hfind, hruns, hjob⟩
    · rw [hstate] at hruns
      cases hruns
  · rintro other jobId _ _ _ ⟨row, hfind, hrow⟩
    exact ⟨row, (Table.find?_insert hins).2 (.inl hfind), hrow⟩

/-! ## A claim -/

theorem claimNextPendingVerifyItem_cases {seen s s' : VerifyStore} {scope : PendingVerifyScope} {itemId : String}
    (h : VerifyStore.claimNextPendingVerifyItem seen s scope = some (itemId, s')) :
    s' = s.claimed itemId ∧ ∃ item, s.items.find? itemId = some item ∧ item.state = .pending := by
  rw [VerifyStore.claimNextPendingVerifyItem] at h
  split at h
  · cases h
  · split at h
    · cases h
      rename_i hclaim
      rw [Option.any_eq_true] at hclaim
      obtain ⟨item, hfind, hclaim⟩ := hclaim
      simp only [VerifyStore.claimable, Bool.and_eq_true, decide_eq_true_eq] at hclaim
      exact ⟨rfl, item, hfind, hclaim.1.1.1.1.1.1⟩
    · cases h

theorem claimed_not_bound (s : VerifyStore) (itemId jobId : String) : ¬ BoundTo (s.claimed itemId) itemId jobId := by
  rintro ⟨item', hfind, -, hjob⟩
  rw [VerifyStore.claimed, VerifyStore.modifyItem, Table.find?_modify_self, Option.map_eq_some_iff] at hfind
  obtain ⟨item, -, rfl⟩ := hfind
  cases hjob

theorem LaneInv.claim {l : Lane} (h : LaneInv l) {itemId : String} {item : VerifyItem}
    (hfind : l.store.items.find? itemId = some item) (hpending : item.state = .pending)
    (hidle : l.idle itemId = true) :
    LaneInv { store := l.store.claimed itemId, flights := l.flights ++ [⟨itemId, .claimed⟩] } := by
  have hget : ∀ (g : ℕ) (other : Flight), (l.flights ++ [⟨itemId, .claimed⟩])[g]? = some other →
      l.flights[g]? = some other ∧ g < l.flights.length ∨ g = l.flights.length ∧ other = ⟨itemId, .claimed⟩ := by
    intro g other hg
    rcases lt_trichotomy g l.flights.length with hlt | heq | hgt
    · rw [List.getElem?_append_left hlt] at hg
      exact .inl ⟨hg, hlt⟩
    · rw [heq, List.getElem?_concat_length] at hg
      exact .inr ⟨heq, (Option.some.inj hg).symm⟩
    · rw [List.getElem?_eq_none (by simp only [List.length_append, List.length_singleton]; omega)] at hg
      cases hg
  -- whoever is on the way has another item
  have hapart : ∀ (g : ℕ) (other : Flight), l.flights[g]? = some other → other.phase ≠ .finished →
      other.itemId ≠ itemId := by
    intro g other hg hon heq
    rw [Lane.idle, List.all_eq_true] at hidle
    exact hon (of_decide_eq_true (hidle other (List.mem_of_getElem? hg)) heq)
  have honly : OnlyItem itemId l.store (l.store.claimed itemId) := .modifyItem _
  -- the item waited, so no job of it executes
  have hnone : NoneExecutes l.store itemId := by
    intro jobId job hjob hitem
    by_contra hruns
    rw [Bool.not_eq_false] at hruns
    obtain ⟨row, hrow, hstate, -⟩ := h.executing itemId jobId job hjob hitem hruns
    cases hrow.symm.trans hfind
    rw [hpending] at hstate
    cases hstate
  constructor
  · intro f g flight other hf hg heq hon
    rcases hget g other hg with ⟨hg', hlt⟩ | ⟨rfl, rfl⟩
    · rcases hget f flight hf with ⟨hf', -⟩ | ⟨rfl, rfl⟩
      · exact h.latest f g flight other hf' hg' heq hon
      · exact hlt.le
    · rcases hget f flight hf with ⟨hf', -⟩ | ⟨rfl, rfl⟩
      · exact absurd heq.symm (hapart f flight hf' hon)
      · exact le_refl _
  · intro f flight hf hon jobId hbound
    rcases hget f flight hf with ⟨hf', -⟩ | ⟨-, rfl⟩
    · rw [honly.boundTo_iff (hapart f flight hf' hon)] at hbound
      exact h.held f flight hf' hon jobId hbound
    · exact absurd hbound (claimed_not_bound _ _ _)
  · intro f flight hf hon
    rcases hget f flight hf with ⟨hf', -⟩ | ⟨-, rfl⟩
    · exact honly.ownJob (hapart f flight hf' hon) (h.own f flight hf' hon)
    · trivial
  · intro other
    by_cases hother : other = itemId
    · rw [hother]
      exact NoneExecutes.executingBound hnone
    · exact honly.executingBound hother (h.executing other)

/-! ## Runs -/

theorem move_finished {s s' : VerifyStore} {itemId : String} {m : Move} {phase : Phase}
    (h : move s itemId .finished m = some (s', phase)) : s' = s ∧ phase = .finished := by
  cases m with
  | leave =>
    cases h
    exact ⟨rfl, rfl⟩
  | _ => cases h

theorem LaneInv.sound {l : Lane} (h : LaneInv l) {f : ℕ} {flight : Flight} (hf : l.flights[f]? = some flight) :
    Sound l.store flight.itemId flight.phase :=
  ⟨h.held f flight hf, h.own f flight hf, h.executing flight.itemId⟩

theorem LaneInv.perform {l : Lane} (h : LaneInv l) {action : Action} (horderly : l.orderly action = true) :
    LaneInv (l.perform action) := by
  cases action with
  | clock now => exact h.quiet (.of_same_jobs rfl (fun _ _ hbound => hbound) fun _ _ _ _ _ hbound => hbound)
  | campaigns statuses => exact h.quiet (.of_same_jobs rfl (fun _ _ hbound => hbound) fun _ _ _ _ _ hbound => hbound)
  | enqueue itemId item =>
    simp only [Lane.perform]
    split
    · exact h
    · exact h.quiet (enqueue_quiet ‹_› rfl)
  | schedule itemId item => exact h.quiet (schedule_quiet _ _ _)
  | advance jobId status => exact h.quiet (advance_quiet _ _ _)
  | claim seen scope =>
    simp only [Lane.orderly] at horderly
    simp only [Lane.perform]
    split
    · exact h
    · rename_i itemId s hclaim
      rw [hclaim, Option.all_some] at horderly
      obtain ⟨rfl, item, hfind, hpending⟩ := claimNextPendingVerifyItem_cases hclaim
      exact h.claim hfind hpending horderly
  | move f m =>
    simp only [Lane.perform]
    split
    · exact h
    · rename_i flight hf
      split
      · exact h
      · rename_i s phase hmove
        by_cases hon : flight.phase = .finished
        · rw [hon] at hmove
          obtain ⟨rfl, rfl⟩ := move_finished hmove
          obtain ⟨hlt, hget⟩ := List.getElem?_eq_some_iff.1 hf
          rw [← hon, ← hget, List.set_getElem_self hlt]
          exact h
        · obtain ⟨honly, hsound⟩ := move_sound (h.sound hf) hon hmove
          exact h.moved hf hon honly hsound
  | cancelOwnerless scope locked => exact h.quiet (cancelOwnerlessItems_quiet scope locked)
  | cancelCompositions scope => exact h.quiet (cancelOrphanedCompositions_quiet scope)
  | returnItems scope => exact h.quiet (returnOrphanedItems_quiet scope)

theorem laneInv_of_reachable {l : Lane} (h : Reachable LaneStart OrderlyStep l) : LaneInv l := by
  refine h.invariant (fun _ => LaneStart.inv) ?_
  rintro l l' hinv ⟨action, horderly, rfl⟩
  exact hinv.perform horderly

theorem reachable_heal {l : Lane} (h : Reachable LaneStart OrderlyStep l) (scope : PendingVerifyScope)
    (locked : List String) :
    Reachable LaneStart OrderlyStep (l.setStore (l.store.healOrphanedVerifyItems scope locked)) := by
  have hownerless : OrderlyStep l (l.perform (.cancelOwnerless scope locked)) := ⟨_, rfl, rfl⟩
  have hcompositions := (h.next hownerless).next ⟨.cancelCompositions scope, rfl, rfl⟩
  exact hcompositions.next ⟨.returnItems scope, rfl, rfl⟩

def orderlyRun (l : Lane) : List Action → Bool
  | [] => true
  | action :: rest => l.orderly action && orderlyRun (l.perform action) rest

theorem reachable_orderlyRun {l : Lane} (h : Reachable LaneStart OrderlyStep l) {actions : List Action}
    (horderly : orderlyRun l actions = true) : Reachable LaneStart OrderlyStep (actions.foldl Lane.perform l) := by
  induction actions generalizing l with
  | nil => exact h
  | cons action rest ih =>
    rw [orderlyRun, Bool.and_eq_true] at horderly
    exact ih (h.next ⟨action, horderly.1, rfl⟩) horderly.2

theorem reachable_run {l : Lane} (h : Reachable LaneStart LaneStep l) (actions : List Action) :
    Reachable LaneStart LaneStep (actions.foldl Lane.perform l) := by
  induction actions generalizing l with
  | nil => exact h
  | cons action rest ih => exact ih (h.next ⟨action, rfl⟩)

/-! ## Returns to the queue -/

def Returned (s s' : VerifyStore) (itemId : String) : Prop :=
  ∃ item item', s.items.find? itemId = some item ∧ item.state = .running ∧
    s'.items.find? itemId = some item' ∧ item'.state = .pending

def LastClaim (l : Lane) (f : ℕ) (itemId : String) : Prop :=
  (∃ flight : Flight, l.flights[f]? = some flight ∧ flight.itemId = itemId) ∧
    ∀ (g : ℕ) (other : Flight), l.flights[g]? = some other → other.itemId = itemId → g ≤ f

def SafeReturn (s s' : VerifyStore) : Prop :=
  ∀ itemId jobId job, Returned s s' itemId → BoundTo s itemId jobId → s'.jobs.find? jobId = some job →
    liveStatus job.status = false

theorem not_returned_of_find? {s s' : VerifyStore} {itemId : String}
    (h : s'.items.find? itemId = s.items.find? itemId) : ¬ Returned s s' itemId := by
  rintro ⟨item, item', hfind, hruns, hfind', hwaits⟩
  rw [h, hfind] at hfind'
  cases hfind'
  rw [hruns] at hwaits
  cases hwaits

theorem safeReturn_of_items {s s' : VerifyStore} (h : s'.items = s.items) : SafeReturn s s' := by
  intro itemId jobId job hreturned
  exact absurd hreturned (not_returned_of_find? (by rw [h]))

theorem safeReturn_of_modify {s s' : VerifyStore} {itemId : String} {f : VerifyItem → VerifyItem}
    (hitems : s'.items = s.items.modify itemId f)
    (hf : ∀ item jobId job, s.items.find? itemId = some item → item.state = .running → (f item).state = .pending →
      item.simJobId = some jobId → s'.jobs.find? jobId = some job → liveStatus job.status = false) :
    SafeReturn s s' := by
  intro other jobId job hreturned hbound hjob
  by_cases hother : other = itemId
  · subst hother
    obtain ⟨item, item', hfind, hruns, hfind', hwaits⟩ := hreturned
    obtain ⟨row, hrow, -, hsim⟩ := hbound
    cases hrow.symm.trans hfind
    rw [hitems, Table.find?_modify_self, hfind, Option.map_some, Option.some.injEq] at hfind'
    rw [← hfind'] at hwaits
    exact hf item jobId job hfind hruns hwaits hsim hjob
  · refine absurd hreturned (not_returned_of_find? ?_)
    rw [hitems, Table.find?_modify_ne _ _ hother]

section Returns
variable {s s' : VerifyStore} {itemId jobId : String} {phase phase' : Phase}

theorem safeReturn_modifyItem {f : VerifyItem → VerifyItem}
    (hf : ∀ item jobId job, s.items.find? itemId = some item → item.state = .running → (f item).state = .pending →
      item.simJobId = some jobId → s.jobs.find? jobId = some job → liveStatus job.status = false) :
    SafeReturn s (s.modifyItem itemId f) := safeReturn_of_modify rfl hf

theorem safeReturn_never {f : VerifyItem → VerifyItem}
    (hf : ∀ item : VerifyItem, item.state = .running → (f item).state ≠ .pending) :
    SafeReturn s (s.modifyItem itemId f) :=
  safeReturn_modifyItem fun item _ _ _ hruns hwaits _ _ => absurd hwaits (hf item hruns)

theorem safeReturn_modifyBoth {f : VerifyItem → VerifyItem} {g : VerifyJob → VerifyJob}
    (hf : ∀ item : VerifyItem, item.state = .running → (f item).state = .pending → item.simJobId = some jobId)
    (hg : ∀ job, liveStatus (g job).status = false) :
    SafeReturn s ((s.modifyItem itemId f).modifyJob jobId g) := by
  refine safeReturn_of_modify rfl ?_
  intro item other job _ hruns hwaits hsim hjob
  have hown : other = jobId := Option.some.inj (hsim.symm.trans (hf item hruns hwaits))
  rw [hown, VerifyStore.modifyJob, Table.find?_modify_self, Option.map_eq_some_iff] at hjob
  obtain ⟨own, -, rfl⟩ := hjob
  exact hg own

theorem release_safeReturn {own : Option String} (h : Sound s itemId (.releasing own)) :
    SafeReturn s (s.releaseClaimedVerifyItem itemId) := by
  refine safeReturn_modifyItem ?_
  intro item jobId job hfind hruns _ hsim hjob
  have hheld := h.held (by simp) jobId ⟨item, hfind, hruns, hsim⟩
  cases hheld
  obtain ⟨row, hrow, -, hlive⟩ := h.own (by simp)
  cases hrow.symm.trans hjob
  exact hlive

theorem unreachable_safeReturn : SafeReturn s (s.recordUnexecutedTransientSubmitFailure itemId jobId) := by
  rw [VerifyStore.recordUnexecutedTransientSubmitFailure]
  split
  · refine safeReturn_modifyBoth ?_ fun _ => rfl
    intro item hruns hwaits
    dsimp only at hwaits
    split at hwaits
    · rename_i hguard
      rw [Bool.and_eq_true] at hguard
      exact (VerifyStore.runsFor_iff.1 hguard.1).2
    · rw [hruns] at hwaits
      cases hwaits
  · exact safeReturn_of_items rfl

theorem answered_safeReturn {httpStatus : Option ℕ} :
    SafeReturn s (s.recordAnsweredSubmitFailure itemId jobId httpStatus) := by
  rw [VerifyStore.recordAnsweredSubmitFailure]
  split
  · refine safeReturn_modifyBoth ?_ fun _ => rfl
    intro item hruns hwaits
    split at hwaits
    · rename_i hguard
      rw [Bool.and_eq_true] at hguard
      exact (VerifyStore.runsFor_iff.1 hguard.1).2
    · rw [hruns] at hwaits
      cases hwaits
  · exact safeReturn_of_items rfl

theorem recordSubmitted_safeReturn {engineState : String} :
    SafeReturn s (s.recordSubmitted itemId jobId engineState) := by
  refine safeReturn_of_modify (f := fun item =>
    { item with submitRetry := item.submitRetry.filter fun r => !r.pointsNowhereElse jobId }) rfl ?_
  intro item _ _ _ hruns hwaits
  rw [hruns] at hwaits
  cases hwaits

theorem move_safeReturn {m : Move} (h : Sound s itemId phase) (hmove : move s itemId phase m = some (s', phase')) :
    SafeReturn s s' := by
  unfold move at hmove
  split at hmove
  · cases hmove
    exact safeReturn_never fun _ _ => by simp
  · cases hmove
    refine safeReturn_never fun item hruns => ?_
    split
    · simp
    · simp [hruns]
  · cases hmove
    exact safeReturn_of_items rfl
  · obtain ⟨jobs, -, hjobs⟩ := Option.map_eq_some_iff.1 hmove
    cases hjobs
    exact safeReturn_of_items rfl
  · split at hmove
    · cases hmove
      exact safeReturn_never fun item hruns => by simp [hruns]
    · cases hmove
      exact safeReturn_of_items rfl
  · split at hmove
    · cases hmove
      exact safeReturn_of_items rfl
    · cases hmove
  · cases hmove
    exact safeReturn_of_items rfl
  · cases hmove
    exact safeReturn_of_items rfl
  · split at hmove
    · cases hmove
      exact recordSubmitted_safeReturn
    · cases hmove
  · cases hmove
    exact safeReturn_of_items rfl
  · cases hmove
    exact unreachable_safeReturn
  · cases hmove
    exact answered_safeReturn
  · cases hmove
    exact release_safeReturn h
  · cases hmove
    exact safeReturn_of_items rfl
  · cases hmove

end Returns

theorem returnItems_safeReturn {s : VerifyStore} (scope : PendingVerifyScope) :
    SafeReturn s (s.returnOrphanedItems scope) := by
  rintro itemId jobId job ⟨item, item', hfind, hruns, hfind', hwaits⟩ ⟨row, hrow, -, hsim⟩ hjob
  cases hrow.symm.trans hfind
  rw [VerifyStore.returnOrphanedItems, Table.find?_map, hfind, Option.map_some, Option.some.injEq] at hfind'
  split at hfind'
  · rename_i hguard
    have hlive := hguard.2.2.1
    rw [VerifyStore.liveBinding, hsim, Option.any_some] at hlive
    rw [show s.jobs.find? jobId = some job from hjob] at hlive
    exact hlive
  · rw [← hfind', hruns] at hwaits
    cases hwaits

theorem safeReturn_of_state {s s' : VerifyStore} (h : ∀ itemId item item', s.items.find? itemId = some item →
    s'.items.find? itemId = some item' → item.state = .running → item'.state ≠ .pending) : SafeReturn s s' := by
  rintro itemId jobId job ⟨item, item', hfind, hruns, hfind', hwaits⟩
  exact absurd hwaits (h itemId item item' hfind hfind' hruns)

theorem LaneInv.safeReturn {l : Lane} (h : LaneInv l) (action : Action) :
    SafeReturn l.store (l.perform action).store := by
  cases action with
  | clock now => exact safeReturn_of_items rfl
  | campaigns statuses => exact safeReturn_of_items rfl
  | enqueue itemId item =>
    simp only [Lane.perform]
    split
    · exact safeReturn_of_items rfl
    · rename_i items hins
      refine safeReturn_of_state ?_
      intro other row row' hfind hfind' hruns
      have hkept := (Table.find?_insert hins).2 (.inl hfind)
      cases hkept.symm.trans hfind'
      simp [hruns]
  | schedule itemId item => exact safeReturn_never fun old hruns => by simp [hruns]
  | advance jobId status => exact safeReturn_of_items rfl
  | claim seen scope =>
    simp only [Lane.perform]
    split
    · exact safeReturn_of_items rfl
    · rename_i itemId s hclaim
      obtain ⟨rfl, -⟩ := claimNextPendingVerifyItem_cases hclaim
      exact safeReturn_never fun _ _ => by simp
  | move f m =>
    simp only [Lane.perform]
    split
    · exact safeReturn_of_items rfl
    · split
      · exact safeReturn_of_items rfl
      · exact move_safeReturn (h.sound ‹_›) ‹_›
  | cancelOwnerless scope locked =>
    refine safeReturn_of_state ?_
    intro itemId item item' hfind hfind' hruns
    simp only [Lane.perform, Lane.setStore, VerifyStore.cancelOwnerlessItems, Table.find?_map, hfind,
      Option.map_some, Option.some.injEq] at hfind'
    rw [← hfind', if_neg (by simp [hruns]), hruns]
    simp
  | cancelCompositions scope => exact safeReturn_of_items rfl
  | returnItems scope => exact returnItems_safeReturn scope

theorem LaneInv.lastClaim {l : Lane} (h : LaneInv l) {f : ℕ} {m : Move} {itemId : String}
    (hreturned : Returned l.store (l.perform (.move f m)).store itemId) : LastClaim l f itemId := by
  simp only [Lane.perform] at hreturned
  split at hreturned
  · exact absurd hreturned (not_returned_of_find? rfl)
  · rename_i flight hf
    split at hreturned
    · exact absurd hreturned (not_returned_of_find? rfl)
    · rename_i s phase hmove
      by_cases hon : flight.phase = .finished
      · rw [hon] at hmove
        obtain ⟨rfl, -⟩ := move_finished hmove
        exact absurd hreturned (not_returned_of_find? rfl)
      · have hitem : itemId = flight.itemId := by
          by_contra hne
          obtain ⟨honly, -⟩ := move_sound (h.sound hf) hon hmove
          exact not_returned_of_find? (honly.items itemId hne) hreturned
        refine ⟨⟨flight, hf, hitem.symm⟩, ?_⟩
        intro g other hg hother
        exact h.latest f g flight other hf hg (hother.trans hitem) hon

def ExecutedTwice (s : VerifyStore) (itemId : String) : Prop :=
  ∃ first second a b, first ≠ second ∧ s.jobs.find? first = some a ∧ s.jobs.find? second = some b ∧
    a.verifyQueueItemId = itemId ∧ b.verifyQueueItemId = itemId ∧ a.executes = true ∧ b.executes = true

theorem LaneInv.not_executedTwice {l : Lane} (h : LaneInv l) (itemId : String) : ¬ ExecutedTwice l.store itemId := by
  rintro ⟨first, second, a, b, hne, ha, hb, hitema, hitemb, hexeca, hexecb⟩
  obtain ⟨item, hfind, -, hfirst⟩ := h.executing itemId first a ha hitema hexeca
  obtain ⟨row, hrow, -, hsecond⟩ := h.executing itemId second b hb hitemb hexecb
  cases hrow.symm.trans hfind
  exact hne (Option.some.inj (hfirst.symm.trans hsecond))

/-- When no item is taken up while an earlier claimant is still on the way with it, a call gives back its own claim
only, no item that runs for a live job goes back to the queue, and no two jobs execute one item. -/
theorem verify_claims_exclusive {l : Lane} (h : Reachable LaneStart OrderlyStep l) :
    (∀ action, SafeReturn l.store (l.perform action).store) ∧
      (∀ f m itemId, Returned l.store (l.perform (.move f m)).store itemId → LastClaim l f itemId) ∧
        ∀ itemId, ¬ ExecutedTwice l.store itemId := by
  have hinv := laneInv_of_reachable h
  refine ⟨hinv.safeReturn, ?_, hinv.not_executedTwice⟩
  intro f m itemId hreturned
  exact hinv.lastClaim hreturned

/-! ## One item, three sweepers -/

def catalogItem : VerifyItem where
  state := .pending
  simJobId := none
  backgroundOwner := true
  campaigns := []
  requests := []
  freshAttemptCount := 0
  continuationAttemptCount := 0
  nextSubmitAt := none
  lastOutcome := none
  submitRetry := none
  createdAt := 0
  updatedAt := 0

def queuedStore : VerifyStore where
  now := 0
  campaigns := Table.empty
  items := ⟨[("item", catalogItem)], List.nodup_singleton _⟩
  jobs := Table.empty

def quietLane : Lane where
  store := queuedStore
  flights := []

theorem quietLane_start : LaneStart quietLane := ⟨rfl, fun _ _ hjob => nomatch hjob⟩

def upToSubmit (f : ℕ) (jobId : String) : List Action :=
  [.claim queuedStore ⟨none, none, some true⟩, .move f (.compose jobId), .move f .bind, .move f (.lease true)]

/-- The engine cannot be reached; the failure is recorded and the claim given back. -/
theorem unreachable_returns_own_claim :
    LastClaim ((upToSubmit 0 "first").foldl Lane.perform quietLane) 0 "item" := by
  refine (verify_claims_exclusive (reachable_orderlyRun (.start quietLane_start) (by decide +kernel))).2.1 0
    .unreachable "item" ?_
  exact ⟨_, _, rfl, rfl, rfl, rfl⟩

/-- The first call has failed to reach the engine, and the failure has put the item back; a second call has taken it up
and submitted it, all before the first call comes to its release. -/
def takenUp : List Action :=
  upToSubmit 0 "first" ++ [.move 0 .unreachable] ++ upToSubmit 1 "second" ++ [.move 1 (.accepted "running" true)]

def collided : List Action :=
  takenUp ++ [.move 0 .release] ++ upToSubmit 2 "third" ++ [.move 2 (.accepted "running" true)]

theorem late_release_frees_foreign_claim :
    Reachable LaneStart LaneStep (takenUp.foldl Lane.perform quietLane) ∧
      (Returned (takenUp.foldl Lane.perform quietLane).store
          ((takenUp.foldl Lane.perform quietLane).perform (.move 0 .release)).store "item" ∧
        ¬ LastClaim (takenUp.foldl Lane.perform quietLane) 0 "item") ∧
      ¬ SafeReturn (takenUp.foldl Lane.perform quietLane).store
        ((takenUp.foldl Lane.perform quietLane).perform (.move 0 .release)).store ∧
      Reachable LaneStart LaneStep (collided.foldl Lane.perform quietLane) ∧
        ExecutedTwice (collided.foldl Lane.perform quietLane).store "item" := by
  have hreturned : Returned (takenUp.foldl Lane.perform quietLane).store
      ((takenUp.foldl Lane.perform quietLane).perform (.move 0 .release)).store "item" :=
    ⟨_, _, rfl, rfl, rfl, rfl⟩
  refine ⟨reachable_run (.start quietLane_start) _, ⟨hreturned, ?_⟩, ?_, reachable_run (.start quietLane_start) _, ?_⟩
  · rintro ⟨-, hlast⟩
    have hle := hlast 1 ⟨"item", .finished⟩ rfl rfl
    omega
  · intro hsafe
    have hended := hsafe "item" "second" _ hreturned ⟨_, rfl, rfl, rfl⟩ rfl
    cases hended
  · exact ⟨"second", "third", _, _, by decide, rfl, rfl, rfl, rfl, rfl, rfl⟩

end XFoilFoam.Ladder
