import XFoilFoam.Precalc.Actions
import XFoilFoam.Precalc.Turn

/-! Composition by several sweepers.  The lease of an obligation is the one fence: a composition reads the status of the
job that holds it before it overwrites it, so a live job that was composed holds the lease of all that it lists. -/
namespace XFoilFoam.Precalc
set_option autoImplicit false

variable {F : Type} [Binary64 F]

/-! ## The sweepers' runs -/

structure Fleet (F : Type) where
  store : Store F
  composed : List String

def composes (s : Store F) (a : Admission) (spec : Composition F) : Bool :=
  match composePhysicalPrecalcJob s a spec with
  | .ok (some _) => true
  | _ => false

def Fleet.perform (f : Fleet F) (action : Action F) : Fleet F where
  store := Precalc.perform f.store action
  composed := match action with
    | .compose a spec => if composes f.store a spec then spec.jobId :: f.composed else f.composed
    | _ => f.composed

/-- Jobs stay, with what they list and whose children they are, and none that has ended is live again. -/
def StatusesAdvance (w w' : World F) : Prop :=
  ∀ jobId job, w.jobs.find? jobId = some job → ∃ job', w'.jobs.find? jobId = some job' ∧
    precalcObligationIds job'.requestPayload = precalcObligationIds job.requestPayload ∧
    job'.parentJobId = job.parentJobId ∧ job'.wave = job.wave ∧
    (liveStatus job'.status = true → liveStatus job.status = true)

/-- What the callers and the other writers keep to: a composed job is the child of the parent that its composition
locks, as in `composeWave2Child` and in the recovery of a recorded promotion. -/
def Admissible (s : Store F) : Action F → Prop
  | .compose _ spec => spec.job.parentJobId = spec.directParent.map DirectParent.parentJobId
  | .observe world => StatusesAdvance s.world world
  | _ => True

def FleetStart (f : Fleet F) : Prop := f.composed = []

def FleetStep (f f' : Fleet F) : Prop := ∃ action, Admissible f.store action ∧ f' = f.perform action

namespace Fleet

structure Live (f : Fleet F) (jobId : String) (job : SimJob F) : Prop where
  composed : jobId ∈ f.composed
  stored : f.store.world.jobs.find? jobId = some job
  live : liveStatus job.status = true

def Lists (f : Fleet F) (id jobId : String) : Prop :=
  ∃ job, f.Live jobId job ∧ id ∈ precalcObligationIds job.requestPayload

def ChildOf (f : Fleet F) (parentJobId jobId : String) : Prop :=
  ∃ job, f.Live jobId job ∧ job.parentJobId = some parentJobId ∧ job.wave = 2

end Fleet

/-! ## The invariant -/

structure FleetInv (f : Fleet F) : Prop where
  known : ∀ jobId ∈ f.composed, (f.store.world.jobs.find? jobId).isSome = true
  leased : ∀ id jobId, f.Lists id jobId →
    ∃ l, f.store.obligations.find? id = some l ∧ l.obligation.latestSimJobId = some jobId
  oneChild : ∀ parentJobId jobId jobId', f.ChildOf parentJobId jobId → f.ChildOf parentJobId jobId' → jobId = jobId'

section Leases
variable {s : Store F} {id jobId : String} {l : Ledger F}

theorem settle_latest {t : Settling} {j : Judgement F} (h : l.obligation.latestSimJobId = some jobId) :
    (settleLedger t j l).obligation.latestSimJobId = some jobId := by
  have hleased : l.obligation.leasedTo t.jobId = true → t.jobId = jobId := by
    intro hleased
    rw [Obligation.leasedTo, h, Option.all_some, beq_iff_eq] at hleased
    exact hleased.symm
  obtain ⟨hlatest, -⟩ | ⟨⟨-, hwrites⟩, hlatest, -⟩ := settle_lease t j l
  · rw [hlatest]
    obtain ⟨hsame, -⟩ | ⟨hlost, l', -, hentered⟩ := recoverSubmission_cases l t.jobId t.crossed j.source.isSome
    · rw [Settling.recovered, hsame]
      exact h
    · rw [lostSubmission, Bool.and_eq_true, Bool.and_eq_true] at hlost
      rw [Settling.recovered, hentered, ← hleased hlost.1.2]
      rfl
  · rw [hlatest, hleased (writes_leasedTo hwrites)]

theorem perform_latest {action : Action F} (haction : ∀ a spec, action ≠ .compose a spec)
    (hfind : s.obligations.find? id = some l) (hlease : l.obligation.latestSimJobId = some jobId) :
    ∃ l', (perform s action).obligations.find? id = some l' ∧ l'.obligation.latestSimJobId = some jobId := by
  obtain ⟨l', hfind'⟩ := Option.isSome_iff_exists.mp
    (perform_isSome action (Option.isSome_of_eq_some hfind))
  refine ⟨l', hfind', ?_⟩
  cases action with
  | enroll id₀ o =>
    obtain hold | ⟨hnone, -⟩ := enroll_cases hfind'
    · rw [hfind] at hold
      cases hold
      exact hlease
    · rw [hfind] at hnone
      cases hnone
  | compose a spec => exact absurd rfl (haction a spec)
  | record jobId₀ ids =>
    obtain hsame | hok := record_cases (s := s) jobId₀ ids
    · rw [hsame, hfind] at hfind'
      cases hfind'
      exact hlease
    · obtain ⟨l₀, hl₀, hturn⟩ := (recordPrecalcObligationSubmission_cases hok).2.2 id l' hfind'
      rw [hfind] at hl₀
      cases hl₀
      obtain rfl | ⟨-, sameCase, hrecord⟩ := hturn
      · exact hlease
      · obtain rfl | ⟨-, hlatest, -, -, l'', -, hle, rfl⟩ := recordSubmission_cases hrecord
        · exact hlease
        · rw [← hlease, hlatest]
          rfl
  | settle jobId₀ job opts now =>
    obtain ⟨l₀, hl₀, hturn⟩ := settle_cases hfind'
    rw [hfind] at hl₀
    cases hl₀
    obtain rfl | ⟨-, -, rfl⟩ := hturn
    · exact hlease
    · exact settle_latest hlease
  | requeue scope =>
    obtain ⟨l₀, hl₀, hturn⟩ := requeue_effect hfind'
    rw [hfind] at hl₀
    cases hl₀
    obtain rfl | ⟨-, hrequeue⟩ := hturn
    · exact hlease
    · obtain ⟨rfl, -⟩ | ⟨c, -, ⟨rfl, -⟩ | ⟨-, hle, rfl⟩⟩ := requeueLedger_cases hrequeue
      · exact hlease
      · exact hlease
      · exact hlease
  | observe world =>
    rw [observe_obligations, hfind] at hfind'
    cases hfind'
    exact hlease

end Leases

namespace FleetInv
variable {f : Fleet F}

omit [Binary64 F] in
theorem of_live {f' : Fleet F} (h : FleetInv f) (hcomposed : f'.composed = f.composed)
    (hknown : ∀ jobId ∈ f.composed, (f'.store.world.jobs.find? jobId).isSome = true)
    (hlive : ∀ jobId job', f'.Live jobId job' → ∃ job, f.Live jobId job ∧
      precalcObligationIds job'.requestPayload = precalcObligationIds job.requestPayload ∧
      job'.parentJobId = job.parentJobId ∧ job'.wave = job.wave)
    (hlatest : ∀ id jobId l, f.store.obligations.find? id = some l → l.obligation.latestSimJobId = some jobId →
      ∃ l', f'.store.obligations.find? id = some l' ∧ l'.obligation.latestSimJobId = some jobId) :
    FleetInv f' where
  known := by
    rw [hcomposed]
    exact hknown
  leased := by
    rintro id jobId ⟨job', hjob', hid⟩
    obtain ⟨job, hjob, hids, -, -⟩ := hlive jobId job' hjob'
    obtain ⟨l, hfind, hlease⟩ := h.leased id jobId ⟨job, hjob, hids ▸ hid⟩
    exact hlatest id jobId l hfind hlease
  oneChild := by
    rintro parentJobId jobId jobId' ⟨job, hjob, hparent, hwave⟩ ⟨job', hjob', hparent', hwave'⟩
    obtain ⟨old, hold, -, hp, hw⟩ := hlive jobId job hjob
    obtain ⟨old', hold', -, hp', hw'⟩ := hlive jobId' job' hjob'
    exact h.oneChild parentJobId jobId jobId' ⟨old, hold, hp ▸ hparent, hw ▸ hwave⟩
      ⟨old', hold', hp' ▸ hparent', hw' ▸ hwave'⟩

theorem of_world (h : FleetInv f) {action : Action F} (haction : ∀ a spec, action ≠ .compose a spec)
    (hworld : (perform f.store action).world = f.store.world) : FleetInv (f.perform action) := by
  have hcomposed : (f.perform action).composed = f.composed := by
    cases action with
    | compose a spec => exact absurd rfl (haction a spec)
    | enroll => rfl
    | record => rfl
    | settle => rfl
    | requeue => rfl
    | observe => rfl
  have hjobs : (f.perform action).store.world.jobs = f.store.world.jobs := congrArg World.jobs hworld
  refine h.of_live hcomposed ?_ ?_ fun id jobId l hfind hlease => perform_latest haction hfind hlease
  · intro jobId hjobId
    rw [hjobs]
    exact h.known jobId hjobId
  · rintro jobId job ⟨hin, hstored, hlive⟩
    rw [hcomposed] at hin
    rw [hjobs] at hstored
    exact ⟨job, ⟨hin, hstored, hlive⟩, rfl, rfl, rfl⟩

theorem observe (h : FleetInv f) {world : World F} (hadvance : StatusesAdvance f.store.world world) :
    FleetInv (f.perform (.observe world)) := by
  cases hkeeps : keepsJobs f.store.world world with
  | false =>
    refine h.of_world (fun a spec hne => by cases hne) ?_
    simp only [perform, hkeeps, Bool.false_eq_true, if_false]
  | true =>
    have hworld : (f.perform (.observe world)).store.world = world := by
      simp only [Fleet.perform, perform, hkeeps, if_true]
    refine h.of_live rfl ?_ ?_ fun id jobId l hfind hlease =>
      perform_latest (fun a spec hne => by cases hne) hfind hlease
    · intro jobId hjobId
      obtain ⟨job, hjob⟩ := Option.isSome_iff_exists.mp (h.known jobId hjobId)
      obtain ⟨job', hjob', -⟩ := hadvance jobId job hjob
      rw [hworld]
      exact Option.isSome_of_eq_some hjob'
    · rintro jobId job ⟨hin, hstored, hlive⟩
      obtain ⟨old, hold⟩ := Option.isSome_iff_exists.mp (h.known jobId hin)
      obtain ⟨job', hjob', hids, hparent, hwave, hback⟩ := hadvance jobId old hold
      rw [hworld, hjob'] at hstored
      cases hstored
      exact ⟨old, ⟨hin, hold, hback hlive⟩, hids, hparent, hwave⟩

theorem composed (h : FleetInv f) {a : Admission} {spec : Composition F} {s' : Store F}
    (hparent : spec.job.parentJobId = spec.directParent.map DirectParent.parentJobId)
    (hok : composePhysicalPrecalcJob f.store a spec = .ok (some s')) : FleetInv ⟨s', spec.jobId :: f.composed⟩ := by
  obtain ⟨hclaimable, hadmits, hproblem, jobs, hinsert, rfl⟩ := composePhysicalPrecalcJob_cases hok
  have hfresh : f.store.world.jobs.find? spec.jobId = none := Table.find?_eq_none (Table.insert?_rows hinsert).1
  have hlive : ∀ jobId job, Fleet.Live ⟨⟨{ f.store.world with jobs := jobs }, f.store.obligations.map fun id l =>
      if spec.obligationIds.contains id then l.lease spec.jobId else l⟩, spec.jobId :: f.composed⟩ jobId job →
        f.Live jobId job ∨ jobId = spec.jobId ∧ job = spec.job := by
    rintro jobId job ⟨hin, hstored, hlive⟩
    obtain hold | hnew := (Table.find?_insert hinsert).mp hstored
    · refine .inl ⟨?_, hold, hlive⟩
      obtain rfl | hin := List.mem_cons.mp hin
      · rw [hfresh] at hold
        cases hold
      · exact hin
    · exact .inr hnew
  refine ⟨?_, ?_, ?_⟩
  · intro jobId hin
    obtain rfl | hin := List.mem_cons.mp hin
    · exact Option.isSome_of_eq_some ((Table.find?_insert hinsert).mpr (.inr ⟨rfl, rfl⟩))
    · obtain ⟨job, hjob⟩ := Option.isSome_iff_exists.mp (h.known jobId hin)
      exact Option.isSome_of_eq_some ((Table.find?_insert hinsert).mpr (.inl hjob))
  · rintro id jobId ⟨job, hjob, hid⟩
    obtain hold | ⟨rfl, rfl⟩ := hlive jobId job hjob
    · obtain ⟨l, hfind, hlease⟩ := h.leased id jobId ⟨job, hold, hid⟩
      refine ⟨_, by rw [Table.find?_map, hfind, Option.map_some], ?_⟩
      split
      · -- a live holder would have refused the composition
        rename_i hclaimed
        obtain ⟨l₀, hl₀, hclaim⟩ := hclaimable id (List.contains_iff_mem.mp hclaimed)
        rw [hfind] at hl₀
        cases hl₀
        rw [claimable, Bool.and_eq_true, leaseLive, hlease, Option.bind_some, hold.stored, Option.any_some,
          hold.live] at hclaim
        cases hclaim.2
      · exact hlease
    · have hclaimed : id ∈ spec.obligationIds := (Composition.perm_of_problem hproblem).mem_iff.mp hid
      obtain ⟨l, hfind, -⟩ := hclaimable id hclaimed
      refine ⟨_, by rw [Table.find?_map, hfind, Option.map_some], ?_⟩
      rw [if_pos (List.contains_iff_mem.mpr hclaimed)]
      rfl
  · have hclash : ∀ parentJobId jobId, f.ChildOf parentJobId jobId → spec.job.parentJobId ≠ some parentJobId := by
      rintro parentJobId jobId ⟨job, hjob, hchild, hwave⟩ hspec
      rw [hparent, Option.map_eq_some_iff] at hspec
      obtain ⟨parent, hdirect, rfl⟩ := hspec
      obtain ⟨row, -, hrow⟩ := (Option.any_eq_true _ _).mp (hadmits parent hdirect)
      rw [Bool.and_eq_true, Bool.not_eq_true', liveChild, List.any_eq_false] at hrow
      exact hrow.2 (jobId, job) (Table.mem_of_find? hjob.stored) (by simp [hchild, hwave, hjob.live])
    rintro parentJobId jobId jobId' ⟨job, hjob, hchild, hwave⟩ ⟨job', hjob', hchild', hwave'⟩
    obtain hold | ⟨rfl, rfl⟩ := hlive jobId job hjob
    · obtain hold' | ⟨rfl, rfl⟩ := hlive jobId' job' hjob'
      · exact h.oneChild parentJobId jobId jobId' ⟨job, hold, hchild, hwave⟩ ⟨job', hold', hchild', hwave'⟩
      · exact absurd hchild' (hclash parentJobId jobId ⟨job, hold, hchild, hwave⟩)
    · obtain hold' | ⟨rfl, rfl⟩ := hlive jobId' job' hjob'
      · exact absurd hchild (hclash parentJobId jobId' ⟨job', hold', hchild', hwave'⟩)
      · rfl

theorem compose (h : FleetInv f) {a : Admission} {spec : Composition F}
    (hparent : spec.job.parentJobId = spec.directParent.map DirectParent.parentJobId) :
    FleetInv (f.perform (.compose a spec)) := by
  cases hresult : composePhysicalPrecalcJob f.store a spec with
  | error text =>
    simp only [Fleet.perform, perform, composes, hresult, Bool.false_eq_true, if_false]
    exact h
  | ok outcome =>
    cases outcome with
    | none =>
      simp only [Fleet.perform, perform, composes, hresult, Bool.false_eq_true, if_false]
      exact h
    | some s' =>
      simp only [Fleet.perform, perform, composes, hresult, if_true]
      exact h.composed hparent hresult

theorem step (h : FleetInv f) {action : Action F} (hadmissible : Admissible f.store action) :
    FleetInv (f.perform action) := by
  cases action with
  | enroll id o => exact h.of_world (fun a spec hne => by cases hne) (enroll_world id o)
  | compose a spec => exact h.compose hadmissible
  | record jobId ids =>
    refine h.of_world (fun a spec hne => by cases hne) ?_
    obtain hsame | hok := record_cases (s := f.store) jobId ids
    · rw [hsame]
    · exact (recordPrecalcObligationSubmission_cases hok).1
  | settle jobId job opts now =>
    exact h.of_world (fun a spec hne => by cases hne) (settle_world jobId job opts now)
  | requeue scope => exact h.of_world (fun a spec hne => by cases hne) (requeue_world scope)
  | observe world => exact h.observe hadmissible

end FleetInv

/-- In every interleaving, an obligation is listed by one live composed job at most, a parent has one live composed
second-wave child at most, and a composition that returns null or throws changes nothing. -/
theorem compositions_exclusive {f : Fleet F} (h : Reachable FleetStart FleetStep f) :
    (∀ id jobId jobId', f.Lists id jobId → f.Lists id jobId' → jobId = jobId') ∧
      (∀ parentJobId jobId jobId', f.ChildOf parentJobId jobId → f.ChildOf parentJobId jobId' → jobId = jobId') ∧
      ∀ a spec, (∀ s', composePhysicalPrecalcJob f.store a spec ≠ .ok (some s')) →
        f.perform (.compose a spec) = f := by
  have hinv : FleetInv f := by
    refine h.invariant (P := FleetInv) ?_ ?_
    · intro f hstart
      have hnone : ∀ jobId, jobId ∉ f.composed := by
        intro jobId
        rw [hstart]
        exact List.not_mem_nil
      exact ⟨fun jobId hin => absurd hin (hnone jobId),
        fun id jobId hlists => absurd hlists.choose_spec.1.composed (hnone jobId),
        fun parentJobId jobId jobId' hchild _ => absurd hchild.choose_spec.1.composed (hnone jobId)⟩
    · rintro f f' hf ⟨action, hadmissible, rfl⟩
      exact hf.step hadmissible
  refine ⟨?_, hinv.oneChild, ?_⟩
  · intro id jobId jobId' hlists hlists'
    obtain ⟨l, hfind, hlease⟩ := hinv.leased id jobId hlists
    obtain ⟨l', hfind', hlease'⟩ := hinv.leased id jobId' hlists'
    rw [hfind] at hfind'
    cases hfind'
    rw [hlease] at hlease'
    exact Option.some.inj hlease'
  · intro a spec hrefused
    cases hresult : composePhysicalPrecalcJob f.store a spec with
    | error text => simp only [Fleet.perform, perform, composes, hresult, Bool.false_eq_true, if_false]
    | ok outcome =>
      cases outcome with
      | none => simp only [Fleet.perform, perform, composes, hresult, Bool.false_eq_true, if_false]
      | some s' => exact absurd hresult (hrefused s')

def composedFleet : Fleet ExactNum :=
  Fleet.perform (Fleet.perform ⟨quietStore, []⟩ (.enroll "obligation" freshObligation))
    (.compose openAdmission (freshComposition "first"))

/-- The one job that lists the obligation, and a second composition of it that is refused. -/
theorem composed_job_exclusive :
    composedFleet.Lists "obligation" "first" ∧
      (∀ jobId, composedFleet.Lists "obligation" jobId → jobId = "first") ∧
      composedFleet.perform (.compose openAdmission (freshComposition "second")) = composedFleet := by
  have hreach : Reachable FleetStart FleetStep composedFleet := by
    have hstart : Reachable FleetStart FleetStep (⟨quietStore, []⟩ : Fleet ExactNum) := Reachable.start rfl
    have henrolled := hstart.next ⟨.enroll "obligation" freshObligation, trivial, rfl⟩
    exact henrolled.next ⟨.compose openAdmission (freshComposition "first"), rfl, rfl⟩
  have hlists : composedFleet.Lists "obligation" "first" := by
    have hcomposed : composedFleet.composed = ["first"] := by decide +kernel
    have hstored : ((composedFleet.store.world.jobs.find? "first").any fun job =>
        liveStatus job.status && (precalcObligationIds job.requestPayload).contains "obligation") = true := by
      decide +kernel
    obtain ⟨job, hjob, hlive⟩ := (Option.any_eq_true _ _).mp hstored
    rw [Bool.and_eq_true] at hlive
    refine ⟨job, ⟨?_, hjob, hlive.1⟩, List.contains_iff_mem.mp hlive.2⟩
    rw [hcomposed]
    exact List.mem_singleton_self _
  obtain ⟨hone, -, hrefused⟩ := compositions_exclusive hreach
  refine ⟨hlists, fun jobId h => hone "obligation" jobId "first" h hlists, hrefused _ _ fun s' hs' => ?_⟩
  have hnone : composes composedFleet.store openAdmission (freshComposition "second") = false := by decide +kernel
  rw [composes, hs'] at hnone
  cases hnone

end XFoilFoam.Precalc
