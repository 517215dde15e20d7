import XFoilFoam.Ladder.RequestBook
import XFoilFoam.Foundations.ExceptLists
import XFoilFoam.Foundations.Runs

/-! The angles that the open requests of one airfoil, revision and fidelity ask for.  Creating a request looks at what is
open; reopening one does not, and is where two requests for one angle can come from. -/
namespace XFoilFoam.Ladder
set_option autoImplicit false

/-! ## Overlap -/

namespace SimUransRequest

def overlaps (r q : SimUransRequest) : Bool :=
  decide (r.airfoilId = q.airfoilId) && decide (r.revisionId = q.revisionId) && decide (r.fidelity = q.fidelity) &&
    (decide (r.aoaDeg = none) || decide (q.aoaDeg = none) || decide (r.aoaDeg = q.aoaDeg))

theorem overlaps_iff {r q : SimUransRequest} :
    r.overlaps q = true ↔ r.airfoilId = q.airfoilId ∧ r.revisionId = q.revisionId ∧ r.fidelity = q.fidelity ∧
      (r.aoaDeg = none ∨ q.aoaDeg = none ∨ r.aoaDeg = q.aoaDeg) := by
  simp only [overlaps, Bool.and_eq_true, Bool.or_eq_true, decide_eq_true_eq]
  tauto

theorem overlaps_congr {r r' q q' : SimUransRequest} (h : r'.cell = r.cell) (h' : q'.cell = q.cell) :
    r'.overlaps q' = r.overlaps q := by
  simp only [cell, Prod.mk.injEq] at h h'
  obtain ⟨h₁, h₂, h₃, h₄⟩ := h
  obtain ⟨h₁', h₂', h₃', h₄'⟩ := h'
  simp only [overlaps, h₁, h₂, h₃, h₄, h₁', h₂', h₃', h₄']

theorem overlaps_comm (r q : SimUransRequest) : r.overlaps q = q.overlaps r := by
  rw [Bool.eq_iff_iff, overlaps_iff, overlaps_iff, eq_comm (a := r.airfoilId), eq_comm (a := r.revisionId),
    eq_comm (a := r.fidelity), eq_comm (a := r.aoaDeg) (b := q.aoaDeg)]
  tauto

end SimUransRequest

/-- One request for the whole polar, or requests for angles that are all different. -/
def Separate (opened : List (String × SimUransRequest)) : Prop :=
  (∃ row, opened = [row] ∧ row.2.aoaDeg = none) ∨
    (∀ row ∈ opened, row.2.aoaDeg ≠ none) ∧ (opened.map fun row => row.2.aoaDeg).Nodup

namespace RequestBook

def Apart (b : RequestBook) : Prop :=
  ∀ x ∈ b.rows, ∀ y ∈ b.rows, x.2.isOpen = true → y.2.isOpen = true → x.1 ≠ y.1 → x.2.overlaps y.2 = false

theorem mem_openRequests {b : RequestBook} {airfoilId revisionId : String} {fidelity : UransFidelity}
    {row : String × SimUransRequest} :
    row ∈ b.openRequests airfoilId revisionId fidelity ↔
      row ∈ b.rows ∧ row.2.airfoilId = airfoilId ∧ row.2.revisionId = revisionId ∧ row.2.fidelity = fidelity ∧
        row.2.isOpen = true := by
  rw [openRequests, List.mem_insertionSort, List.mem_filter]
  simp only [Bool.and_eq_true, decide_eq_true_eq]
  tauto

theorem openRequests_ids (b : RequestBook) (airfoilId revisionId : String) (fidelity : UransFidelity) :
    ((b.openRequests airfoilId revisionId fidelity).map Prod.fst).Nodup := by
  have hperm := (List.perm_insertionSort (fun x y : String × SimUransRequest => x.2.createdAt ≤ y.2.createdAt)
    (b.rows.filter fun row => decide (row.2.airfoilId = airfoilId) && decide (row.2.revisionId = revisionId) &&
      decide (row.2.fidelity = fidelity) && row.2.isOpen)).map Prod.fst
  rw [openRequests, hperm.nodup_iff]
  exact b.requests.table.nodup.sublist (List.filter_sublist.map Prod.fst)

theorem eq_singleton_of_ids {opened : List (String × SimUransRequest)} {row : String × SimUransRequest}
    (hids : (opened.map Prod.fst).Nodup) (hrow : row ∈ opened) (h : ∀ other ∈ opened, other.1 = row.1) :
    opened = [row] := by
  match opened with
  | [] => exact absurd hrow List.not_mem_nil
  | [x] => rw [List.mem_singleton.1 hrow]
  | x :: y :: rest =>
    have hx : x.1 = y.1 := (h x (by simp)).trans (h y (by simp)).symm
    simp [hx] at hids

theorem Apart.separate {b : RequestBook} (h : b.Apart) (airfoilId revisionId : String) (fidelity : UransFidelity) :
    Separate (b.openRequests airfoilId revisionId fidelity) := by
  have hids := b.openRequests_ids airfoilId revisionId fidelity
  have hapart : ∀ x ∈ b.openRequests airfoilId revisionId fidelity,
      ∀ y ∈ b.openRequests airfoilId revisionId fidelity, x.1 ≠ y.1 →
        x.2.aoaDeg ≠ none ∧ y.2.aoaDeg ≠ none ∧ x.2.aoaDeg ≠ y.2.aoaDeg := by
    intro x hx y hy hne
    obtain ⟨hx, hx₁, hx₂, hx₃, hxopen⟩ := mem_openRequests.1 hx
    obtain ⟨hy, hy₁, hy₂, hy₃, hyopen⟩ := mem_openRequests.1 hy
    have hxy := h x hx y hy hxopen hyopen hne
    have hnot := Bool.eq_false_iff.1 hxy
    rw [Ne, SimUransRequest.overlaps_iff, hx₁, hx₂, hx₃, hy₁, hy₂, hy₃] at hnot
    tauto
  by_cases hwhole : ∃ row ∈ b.openRequests airfoilId revisionId fidelity, row.2.aoaDeg = none
  · obtain ⟨row, hrow, haoa⟩ := hwhole
    refine .inl ⟨row, eq_singleton_of_ids hids hrow ?_, haoa⟩
    intro other hother
    by_contra hne
    exact (hapart other hother row hrow hne).2.1 haoa
  · push Not at hwhole
    refine .inr ⟨hwhole, ?_⟩
    rw [List.Nodup, List.pairwise_map]
    rw [List.Nodup, List.pairwise_map] at hids
    refine hids.imp_of_mem ?_
    intro x y hx hy hne
    exact (hapart x hx y hy hne).2.2

/-! ## What a call opens -/

/-- `b'` holds rows of `b` for the cells they were for; one that is open was open before, or was reopened. -/
def Opens (reopened : String → SimUransRequest → Bool) (b b' : RequestBook) : Prop :=
  ∀ id r', b'.find? id = some r' → ∃ r, b.find? id = some r ∧ r'.cell = r.cell ∧
    (r'.isOpen = true → r.isOpen = true ∨ reopened id r = true)

def ReopensApart (b : RequestBook) (reopened : String → SimUransRequest → Bool) : Prop :=
  ∀ x ∈ b.rows, ∀ y ∈ b.rows, reopened x.1 x.2 = true → y.2.isOpen = true ∨ reopened y.1 y.2 = true → x.1 ≠ y.1 →
    x.2.overlaps y.2 = false

instance (b : RequestBook) (reopened : String → SimUransRequest → Bool) : Decidable (b.ReopensApart reopened) := by
  unfold ReopensApart
  infer_instance

theorem Apart.opens {b b' : RequestBook} {reopened : String → SimUransRequest → Bool} (h : b.Apart)
    (hreopened : b.ReopensApart reopened) (hopens : Opens reopened b b') : b'.Apart := by
  intro x' hx' y' hy' hxopen hyopen hne
  obtain ⟨x, hx, hxcell, hxback⟩ := hopens x'.1 x'.2 (Table.find?_of_mem hx')
  obtain ⟨y, hy, hycell, hyback⟩ := hopens y'.1 y'.2 (Table.find?_of_mem hy')
  have hxrow : (x'.1, x) ∈ b.rows := Table.mem_of_find? hx
  have hyrow : (y'.1, y) ∈ b.rows := Table.mem_of_find? hy
  rw [SimUransRequest.overlaps_congr hxcell hycell]
  obtain hxopen | hxreopened := hxback hxopen
  · obtain hyopen | hyreopened := hyback hyopen
    · exact h _ hxrow _ hyrow hxopen hyopen hne
    · rw [SimUransRequest.overlaps_comm]
      exact hreopened _ hyrow _ hxrow hyreopened (.inl hxopen) (Ne.symm hne)
  · exact hreopened _ hxrow _ hyrow hxreopened (hyback hyopen) hne

theorem putRequests_ok {b b' : RequestBook} {t : Table String SimUransRequest} (h : b.putRequests t = .ok b') :
    ∃ huq, b' = { b with requests := ⟨t, huq⟩ } := by
  unfold putRequests at h
  split at h
  · cases h
    exact ⟨_, rfl⟩
  · cases h

theorem opens_putRequests {b b' c : RequestBook} {reopened : String → SimUransRequest → Bool}
    {f : String → SimUransRequest → SimUransRequest} (h : c.putRequests (b.requests.table.map f) = .ok b')
    (hf : ∀ id r, b.find? id = some r → (f id r).cell = r.cell ∧
      ((f id r).isOpen = true → r.isOpen = true ∨ reopened id r = true)) :
    Opens reopened b b' := by
  obtain ⟨huq, rfl⟩ := putRequests_ok h
  intro id r' hr'
  change (b.requests.table.map f).find? id = some r' at hr'
  rw [Table.find?_map, Option.map_eq_some_iff] at hr'
  obtain ⟨r, hr, rfl⟩ := hr'
  exact ⟨r, hr, hf id r hr⟩

theorem opens_modify {b b' : RequestBook} {requestId : String} {reopened : String → SimUransRequest → Bool}
    {f : SimUransRequest → SimUransRequest} (h : b.putRequests (b.requests.table.modify requestId f) = .ok b')
    (hf : ∀ r, b.find? requestId = some r → (f r).cell = r.cell ∧
      ((f r).isOpen = true → r.isOpen = true ∨ reopened requestId r = true)) :
    Opens reopened b b' := by
  refine opens_putRequests h ?_
  intro id r hr
  by_cases hid : id = requestId
  · rw [if_pos hid]
    subst hid
    exact hf r hr
  · rw [if_neg hid]
    exact ⟨rfl, .inl⟩

/-! ## Creating -/

theorem covering_none {aoaDeg : Option ℚ} {opened : List (String × SimUransRequest)}
    (h : covering aoaDeg opened = .ok none) :
    ∀ row ∈ opened, aoaDeg ≠ none ∧ row.2.aoaDeg ≠ none ∧ row.2.aoaDeg ≠ aoaDeg := by
  intro row hrow
  unfold covering at h
  cases aoaDeg with
  | none =>
    simp only at h
    split at h
    · cases h
    · split at h
      · rename_i hempty
        rw [List.isEmpty_iff] at hempty
        rw [hempty] at hrow
        exact absurd hrow List.not_mem_nil
      · cases h
  | some aoaDeg =>
    simp only [Except.ok.injEq, Option.or_eq_none_iff, List.find?_eq_none] at h
    obtain ⟨hwhole, hsame⟩ := h
    exact ⟨nofun, by simpa [wholePolar] using hwhole row hrow, by simpa using hsame row hrow⟩

theorem createUransRequest_cases {b b' : RequestBook} {newId id : String} {input : CreateInput} {created : Bool}
    (h : b.createUransRequest newId input = .ok (b', id, created)) :
    Opens (fun _ _ => false) b b' ∨
      (b.requests.table.insert? newId (input.inserted b.now) = some b'.requests.table ∧
        ∀ row ∈ b.openRequests input.airfoilId input.revisionId input.fidelity,
          input.aoaDeg ≠ none ∧ row.2.aoaDeg ≠ none ∧ row.2.aoaDeg ≠ input.aoaDeg) := by
  unfold createUransRequest at h
  split at h
  · cases h
  simp only at h
  split at h
  · cases h
  split at h
  · cases h
  · rename_i row hcovering
    split at h
    · cases h
      exact .inl fun id r' hr' => ⟨r', hr', rfl, .inl⟩
    · obtain ⟨c, hc, hpair⟩ := map_eq_ok.1 h
      cases hpair
      refine .inl (opens_modify hc ?_)
      intro r _
      split
      · exact ⟨rfl, .inl⟩
      · exact ⟨rfl, .inl⟩
  · rename_i hcovering
    obtain ⟨c, hc, hpair⟩ := map_eq_ok.1 h
    cases hpair
    refine .inr ⟨?_, covering_none hcovering⟩
    unfold insertRequest at hc
    split at hc
    · cases hc
    · rename_i t ht
      obtain ⟨huq, rfl⟩ := putRequests_ok hc
      exact ht

theorem Apart.create {b b' : RequestBook} {newId id : String} {input : CreateInput} {created : Bool} (hb : b.Apart)
    (h : b.createUransRequest newId input = .ok (b', id, created)) : b'.Apart := by
  obtain hopens | ⟨hinsert, hclear⟩ := createUransRequest_cases h
  · refine hb.opens ?_ hopens
    intro x _ y _ hx
    cases hx
  have hnew : ∀ row ∈ b.rows, row.2.isOpen = true → (input.inserted b.now).overlaps row.2 = false := by
    intro row hrow hopen
    rw [Bool.eq_false_iff]
    intro hoverlaps
    obtain ⟨h₁, h₂, h₃, hangle⟩ := SimUransRequest.overlaps_iff.1 hoverlaps
    obtain ⟨hwhole, hother, hsame⟩ := hclear row (mem_openRequests.2 ⟨hrow, h₁.symm, h₂.symm, h₃.symm, hopen⟩)
    obtain hnone | hnone | heq := hangle
    · exact hwhole hnone
    · exact hother hnone
    · exact hsame heq.symm
  intro x hx y hy hxopen hyopen hne
  rw [rows, (Table.insert?_rows hinsert).2, List.mem_append, List.mem_singleton] at hx hy
  obtain hx | rfl := hx
  · obtain hy | rfl := hy
    · exact hb x hx y hy hxopen hyopen hne
    · rw [SimUransRequest.overlaps_comm]
      exact hnew x hx hxopen
  · obtain hy | rfl := hy
    · exact hnew y hy hyopen
    · exact absurd rfl hne

/-! ## Claiming, releasing, reopening -/

theorem opens_claim {b b' : RequestBook} {scope : PendingUransRequestScope}
    (h : b.claimNextPendingUransRequest scope = .ok b') : Opens (fun _ _ => false) b b' := by
  unfold claimNextPendingUransRequest at h
  split at h
  · cases h
    exact fun id r' hr' => ⟨r', hr', rfl, .inl⟩
  · rename_i candidate hcandidate
    refine opens_modify h ?_
    intro r hr
    have hmem := List.argmin_mem hcandidate
    rw [List.mem_filter] at hmem
    have hrow : b.find? candidate.1 = some candidate.2 := Table.find?_of_mem hmem.1
    rw [hrow, Option.some.injEq] at hr
    subst hr
    have hpending : candidate.2.isOpen = true := by
      have hclaimable := hmem.2
      simp only [claimable, Bool.and_eq_true] at hclaimable
      rw [UransRequest.isOpen, hclaimable.1.1.1.1, Bool.true_or]
    exact ⟨rfl, fun _ => .inl hpending⟩

theorem opens_release {b b' : RequestBook} {requestId : String}
    (h : b.releaseClaimedUransRequest requestId = .ok b') : Opens (fun _ _ => false) b b' := by
  refine opens_modify h ?_
  intro r _
  split
  · rename_i hrunning
    exact ⟨rfl, fun _ => .inl (by simp [UransRequest.isOpen, hrunning])⟩
  · exact ⟨rfl, .inl⟩

theorem opens_requeue {b b' : RequestBook} {chosen : List String}
    (h : b.requeueRestartablePrecalcContinuations chosen = .ok b') :
    Opens (b.reopensRequest (b.reopenObligations chosen)) b b' := by
  have hput : ({ b with obligations := _ } : RequestBook).putRequests _ = .ok b' := h
  refine opens_putRequests hput ?_
  intro id r _
  split
  · rename_i hreopens
    exact ⟨rfl, fun _ => .inr hreopens⟩
  · exact ⟨rfl, .inl⟩

/-! ## Healing -/

def refreshOpens (b : RequestBook) (requestIds : Option (List String)) (id : String) (r : SimUransRequest) : Bool :=
  decide (r.fidelity = .full) && decide (r.state ≠ .cancelled) && RequestStore.inRequestScope requestIds id &&
    decide (b.fullUransRequestStateFromCoverage id r ∈ [RequestState.pending, .running])

structure HealedRow (b : RequestBook) (requestIds : Option (List String)) (id : String) (r r' : SimUransRequest) :
    Prop where
  cell : r'.cell = r.cell
  backgroundOwner : r'.backgroundOwner = r.backgroundOwner
  owners : r'.owners = r.owners
  opened : r'.isOpen = true → r.isOpen = true ∨ b.refreshOpens requestIds id r = true
  cancelled : r.state = .cancelled → r'.state = .cancelled

/-- The ledgers that the projection of a full request reads are those of `b`. -/
structure Healed (b : RequestBook) (requestIds : Option (List String)) (b' : RequestBook) : Prop where
  campaigns : b'.campaigns = b.campaigns
  obligations : b'.obligations = b.obligations
  coverage : b'.coverage = b.coverage
  queue : b'.queue = b.queue
  finalCoverage : b'.finalCoverage = b.finalCoverage
  row : ∀ id r', b'.find? id = some r' → ∃ r, b.find? id = some r ∧ HealedRow b requestIds id r r'

/-- A statement that opens no request and leaves a cancelled one cancelled. -/
def Closes (statement : RequestStore → RequestStore) : Prop :=
  ∀ (s : RequestStore) (id : String) (r : UransRequest), s.requests.find? id = some r →
    ∃ r', (statement s).requests.find? id = some r' ∧ r'.fidelity = r.fidelity ∧
      r'.backgroundOwner = r.backgroundOwner ∧ r'.owners = r.owners ∧ (r'.isOpen = true → r.isOpen = true) ∧
        (r.state = .cancelled → r'.state = .cancelled)

theorem closes_of_find {statement : RequestStore → RequestStore}
    (h : ∀ s id r, s.requests.find? id = some r → ∃ r', (statement s).requests.find? id = some r' ∧
      (r' = r ∨ r.isOpen = true ∧ r'.fidelity = r.fidelity ∧ r'.backgroundOwner = r.backgroundOwner ∧
        r'.owners = r.owners)) : Closes statement := by
  intro s id r hr
  obtain ⟨r', hr', rfl | ⟨hopen, hfidelity, hbackground, howners⟩⟩ := h s id r hr
  · exact ⟨r', hr', rfl, rfl, rfl, fun h => h, fun h => h⟩
  · refine ⟨r', hr', hfidelity, hbackground, howners, fun _ => hopen, ?_⟩
    intro hcancelled
    simp [UransRequest.isOpen, hcancelled] at hopen

theorem closes_cancelOwnerless (requestIds : Option (List String)) :
    Closes fun s => s.cancelOwnerlessRequests requestIds := by
  refine closes_of_find ?_
  intro s id r hr
  rw [RequestStore.cancelOwnerlessRequests, Table.find?_map, hr, Option.map_some]
  refine ⟨_, rfl, ?_⟩
  split
  · rename_i hownerless
    simp only [RequestStore.ownerless, Bool.and_eq_true] at hownerless
    exact .inr ⟨hownerless.1.1.1.1, rfl, rfl, rfl⟩
  · exact .inl rfl

theorem closes_settleTerminal (requestIds : Option (List String)) (choice : JoinChoice) :
    Closes fun s => s.settleTerminalRequests requestIds choice := by
  refine closes_of_find ?_
  intro s id r hr
  rw [RequestStore.settleTerminalRequests, Table.find?_map, hr, Option.map_some]
  refine ⟨_, rfl, ?_⟩
  cases hpick : choice.pick (s.terminalJobs requestIds id r) with
  | none => exact .inl rfl
  | some row =>
    obtain ⟨-, hrunning, -⟩ := RequestStore.mem_terminalJobs (choice.mem _ _ hpick)
    exact .inr ⟨by simp [UransRequest.isOpen, hrunning], rfl, rfl, rfl⟩

theorem closes_cancelOrphaned (requestIds : Option (List String)) :
    Closes fun s => s.cancelOrphanedCompositions requestIds :=
  closes_of_find fun _ _ r hr => ⟨r, hr, .inl rfl⟩

theorem closes_returnOrphaned (requestIds : Option (List String)) :
    Closes fun s => s.returnOrphanedRequests requestIds := by
  refine closes_of_find ?_
  intro s id r hr
  rw [RequestStore.returnOrphanedRequests, Table.find?_map, hr, Option.map_some]
  refine ⟨_, rfl, ?_⟩
  split
  · rename_i horphaned
    exact .inr ⟨by simp [UransRequest.isOpen, horphaned.1], rfl, rfl, rfl⟩
  · exact .inl rfl

theorem closes_healStatements {requestIds : Option (List String)} {choice : JoinChoice}
    {statement : RequestStore → RequestStore} (h : statement ∈ healStatements requestIds choice) :
    Closes statement := by
  simp only [healStatements, List.mem_cons, List.not_mem_nil, or_false] at h
  obtain rfl | rfl | rfl | rfl := h
  · exact closes_cancelOwnerless requestIds
  · exact closes_settleTerminal requestIds choice
  · exact closes_cancelOrphaned requestIds
  · exact closes_returnOrphaned requestIds

section Heal
variable {b₀ b b' : RequestBook} {requestIds : Option (List String)}

theorem HealedRow.refl (b : RequestBook) (requestIds : Option (List String)) (id : String) (r : SimUransRequest) :
    HealedRow b requestIds id r r := ⟨rfl, rfl, rfl, .inl, fun h => h⟩

theorem Healed.refl (b : RequestBook) (requestIds : Option (List String)) : Healed b requestIds b :=
  ⟨rfl, rfl, rfl, rfl, rfl, fun id r hr => ⟨r, hr, .refl b requestIds id r⟩⟩

theorem Healed.put (h : Healed b₀ requestIds b) {jobs : Table String LadderJob}
    {f : String → SimUransRequest → SimUransRequest}
    (hput : ({ b with jobs := jobs } : RequestBook).putRequests (b.requests.table.map f) = .ok b')
    (hf : ∀ id r r₀, b.find? id = some r → b₀.find? id = some r₀ → HealedRow b₀ requestIds id r₀ r →
      HealedRow b₀ requestIds id r₀ (f id r)) :
    Healed b₀ requestIds b' := by
  obtain ⟨huq, rfl⟩ := putRequests_ok hput
  refine ⟨h.campaigns, h.obligations, h.coverage, h.queue, h.finalCoverage, ?_⟩
  intro id r' hr'
  change (b.requests.table.map f).find? id = some r' at hr'
  rw [Table.find?_map, Option.map_eq_some_iff] at hr'
  obtain ⟨r, hr, rfl⟩ := hr'
  obtain ⟨r₀, hr₀, hrow⟩ := h.row id r hr
  exact ⟨r₀, hr₀, hf id r r₀ hr hr₀ hrow⟩

theorem Healed.runStatement {statement : RequestStore → RequestStore} (h : Healed b₀ requestIds b)
    (hcloses : Closes statement) (hrun : b.runStatement statement = .ok b') : Healed b₀ requestIds b' := by
  refine h.put hrun ?_
  intro id r r₀ hr _ hrow
  have hstored : b.store.requests.find? id = some r.toUransRequest := by
    change (b.requests.table.retype SimUransRequest.toUransRequest).find? id = _
    rw [Table.find?_retype, show b.requests.table.find? id = some r from hr, Option.map_some]
  obtain ⟨healed, hhealed, hfidelity, hbackground, howners, hopen, hcancelled⟩ := hcloses _ _ _ hstored
  rw [hhealed]
  refine ⟨?_, hbackground.trans hrow.backgroundOwner, howners.trans hrow.owners, fun h => hrow.opened (hopen h),
    fun h => hcancelled (hrow.cancelled h)⟩
  rw [← hrow.cell]
  simp only [SimUransRequest.cell, hfidelity]

theorem Healed.runStatements {statements : List (RequestStore → RequestStore)}
    (hcloses : ∀ statement ∈ statements, Closes statement) (h : Healed b₀ requestIds b)
    (hrun : b.runStatements statements = .ok b') : Healed b₀ requestIds b' := by
  induction statements generalizing b with
  | nil =>
    cases hrun
    exact h
  | cons statement statements ih =>
    unfold RequestBook.runStatements at hrun
    split at hrun
    · cases hrun
    · rename_i c hc
      exact ih (fun s hs => hcloses s (List.mem_cons_of_mem _ hs)) (h.runStatement (hcloses _ List.mem_cons_self) hc)
        hrun

theorem Healed.projection (h : Healed b₀ requestIds b) {id : String} {r₀ r : SimUransRequest}
    (hrow : HealedRow b₀ requestIds id r₀ r) :
    b.fullUransRequestStateFromCoverage id r = b₀.fullUransRequestStateFromCoverage id r₀ := by
  have hfinal : b.finalRows id = b₀.finalRows id := by
    simp only [finalRows, h.queue, h.finalCoverage]
  have hpreliminary : b.preliminaryRows id = b₀.preliminaryRows id := by
    simp only [preliminaryRows, hasFinal, h.obligations, h.coverage, hfinal]
  have hlive : b.ownerLive r = b₀.ownerLive r₀ := by
    rw [ownerLive, ownerLive, hrow.backgroundOwner, hrow.owners, h.campaigns]
  rw [fullUransRequestStateFromCoverage, fullUransRequestStateFromCoverage, hlive, hpreliminary, hfinal]

theorem refreshed_keeps (b : RequestBook) (id : String) (r : SimUransRequest) :
    (b.refreshed id r).cell = r.cell ∧ (b.refreshed id r).backgroundOwner = r.backgroundOwner ∧
      (b.refreshed id r).owners = r.owners ∧ (b.refreshed id r).state = b.projectedState id r := by
  unfold refreshed
  split
  · exact ⟨rfl, rfl, rfl, rfl⟩
  · rename_i hsame
    push Not at hsame
    exact ⟨rfl, rfl, rfl, hsame.1⟩

theorem refreshed_isOpen (b : RequestBook) (id : String) (r : SimUransRequest) :
    (b.refreshed id r).isOpen = decide (b.fullUransRequestStateFromCoverage id r ∈
      [RequestState.pending, .running]) := by
  rw [UransRequest.isOpen, (b.refreshed_keeps id r).2.2.2, projectedState, activePhysicalJob]
  cases b.fullUransRequestStateFromCoverage id r <;> simp

theorem Healed.refresh {requestId : String} (hscope : RequestStore.inRequestScope requestIds requestId = true)
    (h : Healed b₀ requestIds b) (hrefresh : b.refreshFullUransRequestStateInTransaction requestId = .ok b') :
    Healed b₀ requestIds b' := by
  refine h.put hrefresh ?_
  intro id r r₀ _ _ hrow
  split
  · rename_i hid
    subst hid
    dsimp only
    split
    · rename_i hfull
      obtain ⟨hcell, hbackground, howners, -⟩ := b.refreshed_keeps id r
      have hlive : r₀.state ≠ .cancelled := fun hcancelled => hfull.2 (hrow.cancelled hcancelled)
      have hfidelity : r₀.fidelity = .full := by
        rw [← hfull.1]
        exact (congrArg (fun cell => cell.2.2.1) hrow.cell).symm
      refine ⟨hcell.trans hrow.cell, hbackground.trans hrow.backgroundOwner, howners.trans hrow.owners, ?_,
        fun hcancelled => absurd hcancelled hlive⟩
      intro hopen
      rw [refreshed_isOpen, h.projection hrow] at hopen
      refine .inr ?_
      rw [refreshOpens, hopen, hscope, hfidelity]
      simp [hlive]
    · exact hrow
  · exact hrow

theorem Healed.refreshAll {ids : List String} (hscope : ∀ id ∈ ids, RequestStore.inRequestScope requestIds id = true)
    (h : Healed b₀ requestIds b) (hrefresh : b.refreshAll ids = .ok b') : Healed b₀ requestIds b' := by
  induction ids generalizing b with
  | nil =>
    cases hrefresh
    exact h
  | cons id ids ih =>
    unfold RequestBook.refreshAll at hrefresh
    split at hrefresh
    · cases hrefresh
    · rename_i c hc
      exact ih (fun id' hid' => hscope id' (List.mem_cons_of_mem _ hid'))
        (h.refresh (hscope id List.mem_cons_self) hc) hrefresh

theorem opens_heal {choice : JoinChoice} (h : b.healOrphanedUransRequests requestIds choice = .ok b') :
    Opens (b.refreshOpens requestIds) b b' := by
  unfold healOrphanedUransRequests at h
  split at h
  · cases h
  rename_i c hc
  have hstatements := (Healed.refl b requestIds).runStatements (fun _ => closes_healStatements) hc
  have hscope : ∀ id ∈ c.fullRequestIds requestIds, RequestStore.inRequestScope requestIds id = true := by
    intro id hid
    rw [fullRequestIds, List.mem_insertionSort, List.mem_map] at hid
    obtain ⟨row, hrow, rfl⟩ := hid
    rw [List.mem_filter, Bool.and_eq_true] at hrow
    exact hrow.2.2
  have hhealed := hstatements.refreshAll hscope h
  intro id r' hr'
  obtain ⟨r, hr, hrow⟩ := hhealed.row id r' hr'
  exact ⟨r, hr, hrow.cell, hrow.opened⟩

end Heal

end RequestBook

/-! ## Runs -/

inductive RequestCall where
  | create (newId : String) (input : RequestBook.CreateInput)
  | claim (scope : RequestBook.PendingUransRequestScope)
  | release (requestId : String)
  | heal (requestIds : Option (List String)) (choice : JoinChoice)
  | requeue (chosen : List String)

namespace RequestBook

/-- A call that throws is rolled back. -/
def perform (b : RequestBook) : RequestCall → Except RequestError RequestBook
  | .create newId input => (b.createUransRequest newId input).map Prod.fst
  | .claim scope => b.claimNextPendingUransRequest scope
  | .release requestId => b.releaseClaimedUransRequest requestId
  | .heal requestIds choice => b.healOrphanedUransRequests requestIds choice
  | .requeue chosen => b.requeueRestartablePrecalcContinuations chosen

def reopened (b : RequestBook) : RequestCall → String → SimUransRequest → Bool
  | .heal requestIds _ => fun id r => !r.isOpen && b.refreshOpens requestIds id r
  | .requeue chosen => b.reopensRequest (b.reopenObligations chosen)
  | _ => fun _ _ => false

/-- One of the calls, or anything else in the system, which opens no request. -/
inductive Step (allowed : RequestBook → RequestCall → Prop) (b b' : RequestBook) : Prop where
  | call (call : RequestCall) (hallowed : allowed b call) (h : b.perform call = .ok b')
  | elsewhere (h : Opens (fun _ _ => false) b b')

theorem reopensApart_none (b : RequestBook) : b.ReopensApart fun _ _ => false := by
  intro x _ y _ hx
  cases hx

theorem Apart.step {b b' : RequestBook} (hb : b.Apart)
    (h : Step (fun b call => b.ReopensApart (b.reopened call)) b b') : b'.Apart := by
  cases h with
  | elsewhere hopens => exact hb.opens b.reopensApart_none hopens
  | call call hallowed h =>
    cases call with
    | create newId input =>
      obtain ⟨⟨c, id, created⟩, hc, rfl⟩ := map_eq_ok.1 h
      exact hb.create hc
    | claim scope => exact hb.opens b.reopensApart_none (opens_claim h)
    | release requestId => exact hb.opens b.reopensApart_none (opens_release h)
    | requeue chosen => exact hb.opens hallowed (opens_requeue h)
    | heal requestIds choice =>
      refine hb.opens hallowed ?_
      intro id r' hr'
      obtain ⟨r, hr, hcell, hback⟩ := opens_heal h id r' hr'
      refine ⟨r, hr, hcell, ?_⟩
      intro hopen
      cases hr₀ : r.isOpen with
      | true => exact .inl rfl
      | false =>
        have hrefresh := (hback hopen).resolve_left (by simp [hr₀])
        exact .inr (by simp [reopened, hr₀, hrefresh])

/-- As long as no request is reopened beside one that it overlaps, the open requests of an airfoil, a revision and a
fidelity are one for the whole polar or ask for different angles. -/
theorem open_requests_separate {b : RequestBook}
    (h : Reachable (fun b => b.rows = []) (Step fun b call => b.ReopensApart (b.reopened call)) b)
    (airfoilId revisionId : String) (fidelity : UransFidelity) :
    Separate (b.openRequests airfoilId revisionId fidelity) := by
  refine Apart.separate (h.invariant ?_ fun _ _ => Apart.step) airfoilId revisionId fidelity
  intro b hempty x hx
  rw [hempty] at hx
  exact absurd hx List.not_mem_nil

def fullInput (aoaDeg : Option ℚ) : CreateInput where
  airfoilId := "airfoil"
  revisionId := "revision"
  aoaDeg := aoaDeg
  fidelity := .full
  requestedBy := none
  continueFromResultId := none
  continueFromResultAttemptId := none
  budgetOverrideS := none

def emptyBook : RequestBook where
  now := 0
  campaigns := Table.empty
  requests := ⟨Table.empty, by decide⟩
  jobs := Table.empty
  obligations := Table.empty
  coverage := []
  queue := Table.empty
  finalCoverage := []

def after (b : RequestBook) (call : RequestCall) : RequestBook :=
  match b.perform call with
  | .ok b' => b'
  | .error _ => b

theorem Reachable.after {allowed : RequestBook → RequestCall → Prop} {init : RequestBook → Prop} {b : RequestBook}
    (h : Reachable init (Step allowed) b) (call : RequestCall) (hallowed : allowed b call) :
    Reachable init (Step allowed) (b.after call) := by
  unfold RequestBook.after
  split
  · rename_i hok
    exact h.next (.call call hallowed hok)
  · exact h

def blockAngle (b : RequestBook) : RequestBook :=
  { b with
    obligations := ⟨[("obligation",
      { airfoilId := "airfoil", revisionId := "revision", aoaDeg := 5, state := .blocked })], List.nodup_singleton _⟩
    coverage := [("exact", "obligation")] }

def blockedBook : RequestBook :=
  (emptyBook.after (.create "exact" (fullInput (some 5)))).blockAngle.after (.heal none .first)

theorem reachable_blockedBook {allowed : RequestBook → RequestCall → Prop}
    (hcreate : allowed emptyBook (.create "exact" (fullInput (some 5))))
    (hheal : allowed (emptyBook.after (.create "exact" (fullInput (some 5)))).blockAngle (.heal none .first)) :
    Reachable (fun b => b.rows = []) (Step allowed) blockedBook := by
  have hempty : Reachable (fun b => b.rows = []) (Step allowed) emptyBook := Reachable.start rfl
  have hcreated := Reachable.after hempty _ hcreate
  have hstep : Step allowed (emptyBook.after (.create "exact" (fullInput (some 5))))
      (emptyBook.after (.create "exact" (fullInput (some 5)))).blockAngle :=
    .elsewhere fun id r' hr' => ⟨r', hr', rfl, .inl⟩
  exact Reachable.after (hcreated.next hstep) _ hheal

/-- The closed request is reopened while nothing else is open. -/
theorem reopened_alone :
    Separate ((blockedBook.after (.requeue ["obligation"])).openRequests "airfoil" "revision" .full) := by
  refine open_requests_separate (Reachable.after (reachable_blockedBook ?_ ?_) _ ?_) _ _ _
  · exact reopensApart_none _
  · decide +kernel
  · decide +kernel

/-- A request for the whole polar is accepted while the request for the angle is blocked, and the repair then reopens
the latter: the angle is asked for twice. -/
theorem reopened_under_whole_polar :
    ∃ b : RequestBook, Reachable (fun b => b.rows = []) (Step fun _ _ => True) b ∧
      ¬ ∀ airfoilId revisionId fidelity, Separate (b.openRequests airfoilId revisionId fidelity) := by
  refine ⟨(blockedBook.after (.create "whole" (fullInput none))).after (.requeue ["obligation"]),
    Reachable.after (Reachable.after (reachable_blockedBook trivial trivial) _ trivial) _ trivial, ?_⟩
  intro h
  have hrows : (((blockedBook.after (.create "whole" (fullInput none))).after (.requeue ["obligation"])).openRequests
      "airfoil" "revision" .full).map (fun row => row.2.aoaDeg) = [some 5, none] := by decide +kernel
  obtain ⟨row, hone, -⟩ | ⟨hexact, -⟩ := h "airfoil" "revision" .full
  · rw [hone] at hrows
    simp at hrows
  · obtain ⟨row, hrow, hnone⟩ := List.mem_map.1 (hrows ▸ by simp : (none : Option ℚ) ∈
      (((blockedBook.after (.create "whole" (fullInput none))).after (.requeue ["obligation"])).openRequests
        "airfoil" "revision" .full).map fun row => row.2.aoaDeg)
    exact hexact row hrow hnone

end RequestBook

end XFoilFoam.Ladder
