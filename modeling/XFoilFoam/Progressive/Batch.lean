import XFoilFoam.Foundations.ExceptLists
import XFoilFoam.Progressive.RowEffects

/-! Batches: which leases a batch claim returns, and when the composer takes them. -/
namespace XFoilFoam.Progressive
set_option autoImplicit false

/-! ## Offers to one target -/

section Offers
variable {cat : ClaimCatalog} {input : ClaimInput} {l : Ledger} {u : CfdUnit}

theorem openRow_pending (h : openRow cat input l u = true) : u.state = .pending := by
  simp only [openRow, Bool.and_eq_true, decide_eq_true_eq] at h
  exact h.1.1.2

theorem openRow_target {same : SameTarget} (hsame : input.sameTarget = some same)
    (h : openRow cat input l u = true) :
    u.work.generationId = same.generationId ∧ u.work.targetId = same.targetId ∧
      effectiveRecipe cat u = same.recipe ∧ recoveryParent u = same.recoveryParentJobId := by
  have htarget : targetFilter cat input u = true := by
    simp only [openRow, Bool.and_eq_true] at h
    exact h.1.1.1.1.1.1.1.1.1.1.1.2
  simp only [targetFilter, hsame, Bool.and_eq_true, decide_eq_true_eq] at htarget
  exact ⟨htarget.1.1.1.1, htarget.1.1.1.2, htarget.1.1.2, htarget.1.2⟩

theorem fastTargetSettled_iff {generationId targetId : Uuid} :
    fastTargetSettled l generationId targetId = true ↔
      (∃ r ∈ l.units.rows, r.2.work = ⟨generationId, targetId, .fast⟩) ∧
        ∀ r ∈ l.units.rows, r.2.work = ⟨generationId, targetId, .fast⟩ →
          r.2.state = .complete ∨ r.2.state = .gap := by
  simp only [fastTargetSettled, Bool.and_eq_true, Bool.not_eq_true', List.all_eq_true, List.mem_filter,
    decide_eq_true_eq, Bool.or_eq_true, and_imp]
  refine and_congr ?_ Iff.rfl
  rw [← Bool.not_eq_true, List.isEmpty_iff, List.filter_eq_nil_iff]
  simp only [decide_eq_true_eq]
  push Not
  rfl

theorem fastTargetSettled_eq_false {r : Uuid × CfdUnit} (hmem : r ∈ l.units.rows)
    (hopen : openRow cat input l r.2 = true) (hfast : r.2.work.stage = .fast) :
    fastTargetSettled l r.2.work.generationId r.2.work.targetId = false := by
  rw [← Bool.not_eq_true, fastTargetSettled_iff]
  rintro ⟨-, hall⟩
  have hended := hall r hmem (by rw [← hfast])
  rw [openRow_pending hopen] at hended
  rcases hended with hended | hended <;> cases hended

/-! ### Leasing one row -/

theorem modifyUnit_rows (l : Ledger) (id : Uuid) (f : CfdUnit → CfdUnit) :
    (l.modifyUnit id f).units.rows = l.units.rows.map fun r =>
      (r.1, keepScope (fun id' u => if id' = id then f u else u) r.1 r.2) := rfl

structure Leases (l l' : Ledger) (id : Uuid) : Prop where
  works : l'.works = l.works
  stops : l'.stops = l.stops
  rows : ∃ f : Uuid × CfdUnit → Uuid × CfdUnit, l'.units.rows = l.units.rows.map f ∧
    (∀ r ∈ l.units.rows, r.1 ≠ id → f r = r) ∧
    ∀ r ∈ l.units.rows, r.1 = id → r.2.state = .pending ∧ (f r).2.work = r.2.work ∧
      ∃ lease, (f r).2.state = .leased lease

theorem modifyUnit_leases {id token : Uuid} (hfind : l.units.find? id = some u)
    (hpending : u.state = .pending) : Leases l (l.modifyUnit id (leaseRow cat input token)) id := by
  refine ⟨rfl, rfl, _, modifyUnit_rows l id _, ?_, ?_⟩
  · rintro ⟨id', v⟩ hmem hne
    simp only [keepScope, if_neg hne]
  · rintro ⟨id', v⟩ hmem heq
    cases heq
    have hv := Table.find?_of_mem hmem
    rw [hfind] at hv
    cases hv
    simp only [keepScope, if_true]
    exact ⟨hpending, trivial, ⟨token, input.owner, cat.now + input.leaseSeconds⟩, rfl⟩

namespace Leases
variable {l' : Ledger} {id : Uuid}

theorem fastTargetSettled (h : Leases l l' id) (generationId targetId : Uuid) :
    Progressive.fastTargetSettled l' generationId targetId =
      Progressive.fastTargetSettled l generationId targetId := by
  obtain ⟨-, -, f, hrows, hother, hleased⟩ := h
  have hwork : ∀ r ∈ l.units.rows, (f r).2.work = r.2.work := by
    intro r hmem
    by_cases hid : r.1 = id
    · exact (hleased r hmem hid).2.1
    · rw [hother r hmem hid]
  have hstate : ∀ r ∈ l.units.rows, ((f r).2.state = .complete ∨ (f r).2.state = .gap) ↔
      (r.2.state = .complete ∨ r.2.state = .gap) := by
    intro r hmem
    by_cases hid : r.1 = id
    · obtain ⟨hpending, -, lease, hlease⟩ := hleased r hmem hid
      simp [hpending, hlease]
    · rw [hother r hmem hid]
  rw [Bool.eq_iff_iff, fastTargetSettled_iff, fastTargetSettled_iff, hrows]
  simp only [List.mem_map, forall_exists_index, and_imp, forall_apply_eq_imp_iff₂,
    exists_exists_and_eq_and]
  refine and_congr ?_ ?_
  · exact exists_congr fun r => and_congr_right fun hmem => by rw [hwork r hmem]
  · exact forall₂_congr fun r hmem => by rw [hwork r hmem, hstate r hmem]

theorem openRow (h : Leases l l' id) (u : CfdUnit) :
    Progressive.openRow cat input l' u = Progressive.openRow cat input l u := by
  simp only [Progressive.openRow, h.works]

theorem eligible (h : Leases l l' id) (u : CfdUnit) :
    Progressive.eligible cat input l' u = Progressive.eligible cat input l u := by
  simp only [Progressive.eligible, h.openRow, h.stops]

theorem mixedRow (h : Leases l l' id) (campaign : Uuid) (r : Uuid × CfdUnit) :
    Progressive.mixedRow cat input l' campaign r = Progressive.mixedRow cat input l campaign r := by
  simp only [Progressive.mixedRow, h.eligible, h.fastTargetSettled]

theorem preciseRow (h : Leases l l' id) (campaign : Uuid) (r : Uuid × CfdUnit) :
    Progressive.preciseRow cat input l' campaign r = Progressive.preciseRow cat input l campaign r := by
  simp only [Progressive.preciseRow, h.openRow, h.fastTargetSettled, h.stops]

theorem filter (h : Leases l l' id) {selected selected' : Uuid × CfdUnit → Bool}
    (hselected : ∀ r, selected' r = selected r)
    (hpending : ∀ r, selected' r = true → r.2.state = .pending) :
    l'.units.rows.filter selected' = (l.units.rows.filter selected).filter fun r => r.1 ≠ id := by
  obtain ⟨-, -, f, hrows, hother, hleased⟩ := h
  rw [hrows]
  apply KeyOrder.filter_map_of_dropped
  · intro r hmem hkept
    exact ⟨hother r hmem (by simpa using hkept), hselected r⟩
  · intro r hmem hdropped
    obtain ⟨-, -, lease, hlease⟩ := hleased r hmem (by simpa using hdropped)
    rw [← Bool.not_eq_true]
    intro hsel
    rw [hpending _ hsel] at hlease
    cases hlease

end Leases

/-! ### Candidates of one target -/

theorem mixedRow_eligible {campaign : Uuid} {r : Uuid × CfdUnit}
    (h : mixedRow cat input l campaign r = true) : eligible cat input l r.2 = true := by
  simp only [mixedRow, Bool.and_eq_true] at h
  exact h.1.1.1.1.2

theorem eligible_open (h : eligible cat input l u = true) : openRow cat input l u = true := by
  rw [eligible, Bool.and_eq_true] at h
  exact h.1

theorem preciseRow_spec {campaign : Uuid} {r : Uuid × CfdUnit}
    (h : preciseRow cat input l campaign r = true) :
    eligible cat input l r.2 = true ∧ r.2.work.stage = .precise ∧
      fastTargetSettled l r.2.work.generationId r.2.work.targetId = true := by
  simp only [preciseRow, Bool.and_eq_true, Bool.or_eq_true, decide_eq_true_eq] at h
  obtain ⟨⟨⟨⟨⟨-, hopen⟩, hstage⟩, hsettled⟩, hattempts⟩, -⟩ := h
  refine ⟨?_, hstage, hsettled⟩
  rw [eligible, hopen, Bool.true_and]
  exact hattempts.elim (attemptAvailable_of_few _ _) id

def admissible (cat : ClaimCatalog) (campaign : Uuid) : Bool :=
  campaign ∈ cat.campaigns &&
    (cat.campaignStatus campaign = .active || cat.campaignStatus campaign = .attention)

def fastOffered (cat : ClaimCatalog) (input : ClaimInput) (l : Ledger) : Bool :=
  l.units.rows.any fun r => eligible cat input l r.2 && r.2.work.stage = .fast

variable {same : SameTarget}

theorem selectCampaign_sameTarget (hsame : input.sameTarget = some same) :
    selectCampaign cat input l =
      if admissible cat (cat.generation same.generationId).campaignId &&
          l.units.rows.any fun r => eligible cat input l r.2 then
        some (cat.generation same.generationId).campaignId
      else none := by
  have hoffers : ∀ campaign, offersWork cat input l campaign =
      (decide (campaign = (cat.generation same.generationId).campaignId) &&
        l.units.rows.any fun r => eligible cat input l r.2) := by
    intro campaign
    rw [Bool.eq_iff_iff]
    simp only [offersWork, List.any_eq_true, Bool.and_eq_true, decide_eq_true_eq]
    constructor
    · rintro ⟨r, hmem, rfl, heligible⟩
      rw [(openRow_target hsame (eligible_open heligible)).1]
      exact ⟨rfl, r, hmem, heligible⟩
    · rintro ⟨rfl, r, hmem, heligible⟩
      refine ⟨r, hmem, ?_, heligible⟩
      rw [(openRow_target hsame (eligible_open heligible)).1]
  simp only [selectCampaign, hoffers]
  cases hfound : cat.campaigns.find? fun campaign =>
      (decide (cat.campaignStatus campaign = .active) || decide (cat.campaignStatus campaign = .attention)) &&
        (decide (campaign = (cat.generation same.generationId).campaignId) &&
          l.units.rows.any fun r => eligible cat input l r.2) with
  | none =>
    rw [if_neg]
    intro hyes
    simp only [admissible, Bool.and_eq_true, decide_eq_true_eq] at hyes
    rw [List.find?_eq_none] at hfound
    exact hfound _ hyes.1.1 (by simp [hyes.1.2, hyes.2])
  | some campaign =>
    have hmem := List.mem_of_find?_eq_some hfound
    have hyes := List.find?_some hfound
    simp only [Bool.and_eq_true, decide_eq_true_eq] at hyes
    obtain ⟨hstatus, rfl, hany⟩ := hyes
    rw [if_pos (by simp [admissible, hmem, hstatus, hany])]

theorem candidates_sameTarget (hsame : input.sameTarget = some same) :
    candidates cat input l =
      if !admissible cat (cat.generation same.generationId).campaignId then []
      else if fastOffered cat input l then
        KeyOrder.sortBy (mixedKey cat)
          (l.units.rows.filter (mixedRow cat input l (cat.generation same.generationId).campaignId))
      else if ((cat.mach same.targetId).any fun mach => mach < 1) ||
          cat.highAllowed (cat.generation same.generationId).campaignId then
        KeyOrder.sortBy (preciseKey cat)
          (l.units.rows.filter (preciseRow cat input l (cat.generation same.generationId).campaignId))
      else [] := by
  unfold candidates
  rw [selectCampaign_sameTarget hsame]
  cases hadmissible : admissible cat (cat.generation same.generationId).campaignId with
  | false => simp
  | true =>
    simp only [Bool.true_and, Bool.not_true, Bool.false_eq_true, if_false]
    have hfast : allStage3 cat input l (cat.generation same.generationId).campaignId =
        !fastOffered cat input l := by
      rw [allStage3, fastOffered]
      congr 1
      apply List.any_congr rfl
      intro r
      cases heligible : eligible cat input l r.2 with
      | false => simp
      | true => simp [(openRow_target hsame (eligible_open heligible)).1]
    have hsubsonic : ∀ r, preciseRow cat input l (cat.generation same.generationId).campaignId r = true →
        subsonic cat r.2 = (cat.mach same.targetId).any fun mach => mach < 1 := by
      intro r hrow
      rw [subsonic, (openRow_target hsame (eligible_open (preciseRow_spec hrow).1)).2.1]
    by_cases hany : (l.units.rows.any fun r => eligible cat input l r.2) = true
    · rw [if_pos hany]
      simp only [hfast]
      cases fastOffered cat input l with
      | true => rfl
      | false =>
        rw [KeyOrder.filter_and_of_const fun r _ => hsubsonic r,
          KeyOrder.filter_and_of_const fun r _ hrow => congrArg not (hsubsonic r hrow)]
        cases hrows : l.units.rows.filter
            (preciseRow cat input l (cat.generation same.generationId).campaignId) with
        | nil => simp [KeyOrder.sortBy]
        | cons r rows =>
          cases (cat.mach same.targetId).any fun mach => mach < 1 <;> simp
    · have hnone : ∀ r ∈ l.units.rows, eligible cat input l r.2 = false := by
        intro r hmem
        rw [← Bool.not_eq_true]
        exact fun heligible => hany (List.any_eq_true.2 ⟨r, hmem, heligible⟩)
      have hoffered : fastOffered cat input l = false := by
        rw [fastOffered, List.any_eq_false]
        intro r hmem
        simp [hnone r hmem]
      have hrows : l.units.rows.filter
          (preciseRow cat input l (cat.generation same.generationId).campaignId) = [] := by
        rw [List.filter_eq_nil_iff]
        intro r hmem hrow
        have heligible := (preciseRow_spec hrow).1
        rw [hnone r hmem] at heligible
        cases heligible
      rw [if_neg hany, hoffered, hrows]
      simp [KeyOrder.sortBy]

theorem fastOffered_iff : fastOffered cat input l = true ↔
    ∃ r ∈ l.units.rows, eligible cat input l r.2 = true ∧ r.2.work.stage = .fast := by
  simp [fastOffered, List.any_eq_true]

theorem fastOffered_of_lease {l' : Ledger} {id : Uuid} (h : Leases l l' id)
    (hafter : fastOffered cat input l' = true) : fastOffered cat input l = true := by
  rw [fastOffered_iff] at hafter ⊢
  obtain ⟨r, hmem, heligible, hfast⟩ := hafter
  have hrow : r ∈ l'.units.rows.filter fun r => eligible cat input l' r.2 :=
    List.mem_filter.2 ⟨hmem, heligible⟩
  rw [h.filter (fun r => h.eligible r.2) fun r hr => openRow_pending (eligible_open hr), List.mem_filter,
    List.mem_filter] at hrow
  exact ⟨r, hrow.1.1, hrow.1.2, hfast⟩

theorem not_settled_of_fastOffered (hsame : input.sameTarget = some same)
    (h : fastOffered cat input l = true) :
    fastTargetSettled l same.generationId same.targetId = false := by
  obtain ⟨r, hmem, heligible, hfast⟩ := fastOffered_iff.1 h
  have hopen := eligible_open heligible
  obtain ⟨hgeneration, htarget, -⟩ := openRow_target hsame hopen
  rw [← hgeneration, ← htarget]
  exact fastTargetSettled_eq_false hmem hopen hfast

theorem preciseRows_eq_nil (hsame : input.sameTarget = some same) (campaign : Uuid)
    (h : fastTargetSettled l same.generationId same.targetId = false) :
    l.units.rows.filter (preciseRow cat input l campaign) = [] := by
  rw [List.filter_eq_nil_iff]
  intro r _ hrow
  obtain ⟨heligible, -, hsettled⟩ := preciseRow_spec hrow
  obtain ⟨hgeneration, htarget, -⟩ := openRow_target hsame (eligible_open heligible)
  rw [hgeneration, htarget, h] at hsettled
  cases hsettled

theorem mixedRows_eq_nil (hsame : input.sameTarget = some same) (campaign : Uuid)
    (h : fastTargetSettled l same.generationId same.targetId = false)
    (hnone : fastOffered cat input l = false) :
    l.units.rows.filter (mixedRow cat input l campaign) = [] := by
  rw [List.filter_eq_nil_iff]
  intro r hmem hrow
  have heligible := mixedRow_eligible hrow
  have hopen := eligible_open heligible
  obtain ⟨hgeneration, htarget, -⟩ := openRow_target hsame hopen
  cases hstage : r.2.work.stage with
  | baseline =>
    simp only [openRow, Bool.and_eq_true, decide_eq_true_eq] at hopen
    exact hopen.1.1.1.1.1.1.2 hstage
  | fast =>
    rw [fastOffered_iff.2 ⟨r, hmem, heligible, hstage⟩] at hnone
    cases hnone
  | precise => simp [mixedRow, hstage, hgeneration, htarget, h] at hrow

theorem candidates_lease {l' : Ledger} {id : Uuid} (hsame : input.sameTarget = some same)
    (h : Leases l l' id) :
    candidates cat input l' = (candidates cat input l).filter fun r => r.1 ≠ id := by
  rw [candidates_sameTarget hsame, candidates_sameTarget hsame]
  generalize (cat.generation same.generationId).campaignId = campaign
  have hmixed : l'.units.rows.filter (mixedRow cat input l' campaign) =
      (l.units.rows.filter (mixedRow cat input l campaign)).filter fun r => r.1 ≠ id :=
    h.filter (h.mixedRow campaign) fun r hr => openRow_pending (eligible_open (mixedRow_eligible hr))
  have hprecise : l'.units.rows.filter (preciseRow cat input l' campaign) =
      (l.units.rows.filter (preciseRow cat input l campaign)).filter fun r => r.1 ≠ id :=
    h.filter (h.preciseRow campaign) fun r hr => openRow_pending (eligible_open (preciseRow_spec hr).1)
  cases admissible cat campaign with
  | false => rfl
  | true =>
    simp only [Bool.not_true, Bool.false_eq_true, if_false]
    by_cases hbefore : fastOffered cat input l = true
    · rw [if_pos hbefore, KeyOrder.filter_sortBy, ← hmixed]
      have hunsettled : fastTargetSettled l' same.generationId same.targetId = false := by
        rw [h.fastTargetSettled]
        exact not_settled_of_fastOffered hsame hbefore
      by_cases hafter : fastOffered cat input l' = true
      · rw [if_pos hafter]
      · -- the last stage-2 row was leased: the target is not settled, so nothing is offered
        rw [if_neg hafter, preciseRows_eq_nil hsame campaign hunsettled,
          mixedRows_eq_nil hsame campaign hunsettled (by simpa using hafter)]
        simp [KeyOrder.sortBy]
    · have hafter : ¬ fastOffered cat input l' = true := fun hafter =>
        hbefore (fastOffered_of_lease h hafter)
      rw [if_neg hbefore, if_neg hafter, hprecise]
      split
      · rw [KeyOrder.filter_sortBy]
      · rfl

/-- Offers are rows of the ledger, each once, open and in the stage their target is in. -/
structure Offered (cat : ClaimCatalog) (input : ClaimInput) (l : Ledger)
    (offers : List (Uuid × CfdUnit)) : Prop where
  perm : ∃ rows : List (Uuid × CfdUnit), rows.Sublist l.units.rows ∧ offers.Perm rows
  isOpen : ∀ r ∈ offers, openRow cat input l r.2 = true
  settled : ∀ r ∈ offers, r.2.work.stage = .precise →
    fastTargetSettled l r.2.work.generationId r.2.work.targetId = true

namespace Offered

theorem nil (cat : ClaimCatalog) (input : ClaimInput) (l : Ledger) : Offered cat input l [] :=
  ⟨⟨[], List.nil_sublist _, .refl _⟩, by simp, by simp⟩

theorem sortBy (key : Uuid × CfdUnit → List ℚ) {selected : Uuid × CfdUnit → Bool}
    (hopen : ∀ r, selected r = true → openRow cat input l r.2 = true)
    (hsettled : ∀ r, selected r = true → r.2.work.stage = .precise →
      fastTargetSettled l r.2.work.generationId r.2.work.targetId = true) :
    Offered cat input l (KeyOrder.sortBy key (l.units.rows.filter selected)) := by
  refine ⟨⟨_, List.filter_sublist, KeyOrder.sortBy_perm _ _⟩, ?_, ?_⟩
  · intro r hr
    exact hopen r (List.mem_filter.1 ((KeyOrder.mem_sortBy key).1 hr)).2
  · intro r hr
    exact hsettled r (List.mem_filter.1 ((KeyOrder.mem_sortBy key).1 hr)).2

theorem precise (campaign : Uuid) (q : Uuid × CfdUnit → Bool) :
    Offered cat input l (KeyOrder.sortBy (preciseKey cat) (l.units.rows.filter fun r =>
      preciseRow cat input l campaign r && q r)) := by
  apply sortBy
  · intro r hr
    rw [Bool.and_eq_true] at hr
    exact eligible_open (preciseRow_spec hr.1).1
  · intro r hr _
    rw [Bool.and_eq_true] at hr
    exact (preciseRow_spec hr.1).2.2

theorem mixed (campaign : Uuid) :
    Offered cat input l
      (KeyOrder.sortBy (mixedKey cat) (l.units.rows.filter (mixedRow cat input l campaign))) := by
  apply sortBy
  · exact fun r hr => eligible_open (mixedRow_eligible hr)
  · intro r hr hstage
    simp only [mixedRow, hstage, Bool.and_eq_true, Bool.or_eq_true, decide_eq_true_eq, ne_eq,
      not_true_eq_false, false_or] at hr
    exact hr.1.1.2

theorem nodup {offers : List (Uuid × CfdUnit)} (h : Offered cat input l offers) :
    (offers.map Prod.fst).Nodup := by
  obtain ⟨rows, hsub, hperm⟩ := h.perm
  exact (hperm.map Prod.fst).nodup_iff.2 ((hsub.map Prod.fst).nodup l.units.nodup)

theorem mem {offers : List (Uuid × CfdUnit)} (h : Offered cat input l offers) {r : Uuid × CfdUnit}
    (hr : r ∈ offers) : r ∈ l.units.rows := by
  obtain ⟨rows, hsub, hperm⟩ := h.perm
  exact hsub.subset (hperm.mem_iff.1 hr)

end Offered

theorem candidates_offered (cat : ClaimCatalog) (input : ClaimInput) (l : Ledger) :
    Offered cat input l (candidates cat input l) := by
  unfold candidates
  split
  · exact .nil cat input l
  · rename_i campaign _
    dsimp only
    split
    · split
      · exact .precise campaign _
      · split
        · exact .precise campaign _
        · exact .nil cat input l
    · exact .mixed campaign

end Offers

/-! ## The loop -/

section Loop
variable {cat : ClaimCatalog} {input : ClaimInput} {same : SameTarget}

def invalidRequest (input : ClaimInput) : Bool :=
  input.owner.toList.all jsWhitespace || input.leaseSeconds < 10 || input.leaseSeconds > 3600

/-- No claim query is run: no solver family is allowed, or the sweeper is off. -/
def claimsNothing (cat : ClaimCatalog) (input : ClaimInput) : Bool :=
  input.allowedSolverFamilies = some [] || input.requireSweeperEnabled && !cat.sweeperEnabled

theorem claimUnit_eq (hvalid : invalidRequest input = false) (hopen : claimsNothing cat input = false)
    (token : Uuid) (l : Ledger) :
    claimProgressiveCfdUnit cat input token l =
      match (candidates cat input l).head? with
      | none => .ok none
      | some (id, u) =>
        if l.tokenUsed token || u.history.rows.any fun r => r.2.outcome = .running then
          .error "duplicate key value violates unique constraint"
        else .ok (some (l.modifyUnit id (leaseRow cat input token), leaseOf cat input token id u)) := by
  rw [invalidRequest] at hvalid
  rw [claimsNothing, Bool.or_eq_false_iff, decide_eq_false_iff_not] at hopen
  rw [claimProgressiveCfdUnit, hvalid, if_neg hopen.1, hopen.2]
  rfl

theorem leaseOf_extension (token id : Uuid) (u : CfdUnit) :
    (leaseOf cat input token id u).budgetExtension.isSome = extensionPending u := by
  cases hext : u.budgetExtension with
  | none => simp [leaseOf, extensionPending, hext]
  | some e => by_cases hpending : e.state = .pending <;> simp [leaseOf, extensionPending, hext, hpending]

/-- The rows a loop takes from a list of offers: it ends with the first extension. -/
def batchRows : ℕ → List (Uuid × CfdUnit) → List (Uuid × CfdUnit)
  | 0, _ => []
  | _ + 1, [] => []
  | n + 1, r :: rest => if extensionPending r.2 then [r] else r :: batchRows n rest

theorem batchRows_sublist (n : ℕ) (offers : List (Uuid × CfdUnit)) :
    (batchRows n offers).Sublist offers := by
  induction offers generalizing n with
  | nil => cases n <;> exact .refl _
  | cons r rest ih =>
    cases n with
    | zero => exact List.nil_sublist _
    | succ n =>
      rw [batchRows]
      split
      · exact (List.nil_sublist rest).cons_cons r
      · exact (ih n).cons_cons r

theorem batchRows_any (n : ℕ) (offers : List (Uuid × CfdUnit)) :
    ((batchRows n offers).any fun r => extensionPending r.2) =
      (offers.take n).any fun r => extensionPending r.2 := by
  induction offers generalizing n with
  | nil => cases n <;> rfl
  | cons r rest ih =>
    cases n with
    | zero => rfl
    | succ n =>
      rw [batchRows, List.take_succ_cons, List.any_cons]
      split
      · rename_i hpending
        simp [hpending]
      · rw [List.any_cons, ih n]

theorem claimRest_leases {tokens : ℕ → Uuid} {n i : ℕ} {l l' : Ledger} {leases : List CfdLease}
    (hsame : input.sameTarget = some same) (hvalid : invalidRequest input = false)
    (hopen : claimsNothing cat input = false)
    (h : claimRest cat input tokens n i l = .ok (l', leases)) :
    List.Forall₂ (fun lease r => ∃ token, lease = leaseOf cat input token r.1 r.2) leases
      (batchRows n (candidates cat input l)) := by
  induction n generalizing i l leases with
  | zero =>
    cases h
    exact .nil
  | succ n ih =>
    rw [claimRest, claimUnit_eq hvalid hopen] at h
    have hoffered := candidates_offered cat input l
    cases hoffers : candidates cat input l with
    | nil =>
      rw [hoffers] at h
      cases h
      exact .nil
    | cons r rest =>
      rw [hoffers] at h hoffered
      simp only [List.head?_cons] at h
      have hmem : r ∈ l.units.rows := hoffered.mem List.mem_cons_self
      have hpending := openRow_pending (hoffered.isOpen r List.mem_cons_self)
      -- the list the next claim sees
      have hnext : candidates cat input (l.modifyUnit r.1 (leaseRow cat input (tokens i))) = rest := by
        rw [candidates_lease hsame (modifyUnit_leases (Table.find?_of_mem hmem) hpending), hoffers]
        have hnodup := hoffered.nodup
        rw [List.map_cons, List.nodup_cons] at hnodup
        rw [List.filter_cons_of_neg (by simp), List.filter_eq_self]
        intro s hs
        have hne : s.1 ≠ r.1 := fun heq => hnodup.1 (heq ▸ List.mem_map_of_mem hs)
        simpa using hne
      split at h
      · cases h
      · rename_i hclaim
        split at hclaim <;> cases hclaim
      · rename_i l₁ next hclaim
        split at hclaim
        · cases hclaim
        · cases hclaim
          rw [leaseOf_extension] at h
          rw [batchRows]
          split at h
          · rename_i hext
            cases h
            rw [if_pos hext]
            exact .cons ⟨tokens i, rfl⟩ .nil
          · rename_i hext
            rw [if_neg hext]
            split at h
            · cases h
            · rename_i l₂ leases' hrest
              cases h
              have ih' := ih hrest
              rw [hnext] at ih'
              exact .cons ⟨tokens i, rfl⟩ ih'

end Loop

/-! ## What the composer checks -/

theorem continuationAlone_iff (leases : List CfdLease) : continuationAlone leases = true ↔
    ∀ lease ∈ leases, lease.budgetExtension.isSome = true → leases.length = 1 := by
  cases leases with
  | nil => simp [continuationAlone]
  | cons first rest =>
    simp only [continuationAlone, Bool.and_eq_true, List.all_eq_true, decide_eq_true_eq, Bool.or_eq_true,
      Option.isNone_iff_eq_none]
    constructor
    · rintro ⟨hsame, hnone | hone⟩ lease hmem hsome
      · have hfirst := hsame lease hmem
        rw [hsome, hnone] at hfirst
        cases hfirst
      · exact hone
    · intro h
      by_cases hone : (first :: rest).length = 1
      · have hrest : rest = [] := by simpa using hone
        subst hrest
        exact ⟨by simp, .inr rfl⟩
      · have hnone : ∀ lease ∈ first :: rest, lease.budgetExtension = none := by
          intro lease hmem
          by_contra hsome
          exact hone (h lease hmem (Option.isSome_iff_ne_none.2 hsome))
        have hfirst := hnone first List.mem_cons_self
        exact ⟨fun lease hmem => by rw [hnone lease hmem, hfirst], .inl hfirst⟩

def SameScope (a b : CfdLease) : Prop :=
  a.work = b.work ∧ a.revisionId = b.revisionId ∧ a.recoveryParentJobId = b.recoveryParentJobId ∧
    a.recipe = b.recipe

theorem sharesTargetAndRecipe_of {leases : List CfdLease} (hids : (leases.map CfdLease.id).Nodup)
    (halphas : (leases.map CfdLease.alpha).Nodup)
    (hscope : ∀ a ∈ leases, ∀ b ∈ leases, SameScope a b) : sharesTargetAndRecipe leases = true := by
  cases leases with
  | nil => rfl
  | cons first rest =>
    simp only [sharesTargetAndRecipe, Bool.and_eq_true, decide_eq_true_eq, List.all_eq_true]
    refine ⟨⟨hids, halphas⟩, ?_⟩
    intro lease hmem
    obtain ⟨hwork, hrevision, hparent, hrecipe⟩ := hscope lease hmem first List.mem_cons_self
    exact ⟨⟨⟨hwork, hrevision⟩, hparent⟩, hrecipe⟩

theorem alphas_nodup {l : Ledger} {rows : List (Uuid × CfdUnit)} {work : WorkKey}
    (hids : (rows.map Prod.fst).Nodup) (hmem : ∀ r ∈ rows, r ∈ l.units.rows)
    (hwork : ∀ r ∈ rows, r.2.work = work) : (rows.map fun r => r.2.aoaDeg).Nodup := by
  refine List.Nodup.map_on ?_ hids.of_map
  intro r hr s hs hangle
  apply List.inj_on_of_nodup_map l.anglesUnique (hmem r hr) (hmem s hs)
  rw [hwork r hr, hwork s hs, hangle]

/-! ## Batches -/

section Batches
variable {cat : ClaimCatalog} {input : ClaimInput} {l : Ledger}

theorem openRow_stage {u : CfdUnit} (h : openRow cat input l u = true) : u.work.stage ≠ .baseline := by
  simp only [openRow, Bool.and_eq_true, decide_eq_true_eq] at h
  exact h.1.1.1.1.1.1.2

def LeaseFor (cat : ClaimCatalog) (lease : CfdLease) (r : Uuid × CfdUnit) : Prop :=
  ∃ input token, lease = leaseOf cat input token r.1 r.2

theorem map_eq_of_leaseFor {β : Type} {f : CfdLease → β} {g : Uuid × CfdUnit → β} {leases : List CfdLease}
    {rows : List (Uuid × CfdUnit)} (h : List.Forall₂ (LeaseFor cat) leases rows)
    (hfg : ∀ input token r, f (leaseOf cat input token r.1 r.2) = g r) : leases.map f = rows.map g := by
  induction h with
  | nil => rfl
  | cons hlease _ ih =>
    obtain ⟨input, token, rfl⟩ := hlease
    rw [List.map_cons, List.map_cons, ih, hfg]

theorem mem_of_leaseFor {leases : List CfdLease} {rows : List (Uuid × CfdUnit)} {lease : CfdLease}
    (h : List.Forall₂ (LeaseFor cat) leases rows) (hmem : lease ∈ leases) :
    ∃ r ∈ rows, LeaseFor cat lease r := by
  induction h with
  | nil => cases hmem
  | cons hlease _ ih =>
    rcases List.mem_cons.1 hmem with rfl | hmem
    · exact ⟨_, List.mem_cons_self, hlease⟩
    · obtain ⟨r, hr, hfor⟩ := ih hmem
      exact ⟨r, List.mem_cons_of_mem _ hr, hfor⟩

def followUp (cat : ClaimCatalog) (input : ClaimInput) (token : Uuid) (r : Uuid × CfdUnit) : ClaimInput :=
  sameTargetAs input (leaseOf cat { input with sameTarget := none } token r.1 r.2)

variable {token : Uuid} {first r : Uuid × CfdUnit}

theorem followUp_scope (hfirst : first ∈ candidates cat { input with sameTarget := none } l)
    (hr : r ∈ candidates cat (followUp cat input token first) l) :
    r.2.work = first.2.work ∧ effectiveRecipe cat r.2 = effectiveRecipe cat first.2 ∧
      recoveryParent r.2 = recoveryParent first.2 := by
  have hoffered := candidates_offered cat { input with sameTarget := none } l
  have hfollow := candidates_offered cat (followUp cat input token first) l
  have hopen := hoffered.isOpen first hfirst
  have hopen' := hfollow.isOpen r hr
  obtain ⟨hgeneration, htarget, hrecipe, hparent⟩ := openRow_target rfl hopen'
  have hgeneration' : r.2.work.generationId = first.2.work.generationId := hgeneration
  have htarget' : r.2.work.targetId = first.2.work.targetId := htarget
  refine ⟨?_, hrecipe, hparent⟩
  have hstage : r.2.work.stage = first.2.work.stage := by
    cases hr' : r.2.work.stage with
    | baseline => exact absurd hr' (openRow_stage hopen')
    | fast =>
      cases hfirst' : first.2.work.stage with
      | baseline => exact absurd hfirst' (openRow_stage hopen)
      | fast => rfl
      | precise =>
        have hsettled := hoffered.settled first hfirst hfirst'
        rw [← hgeneration', ← htarget', fastTargetSettled_eq_false (hfollow.mem hr) hopen' hr'] at hsettled
        cases hsettled
    | precise =>
      cases hfirst' : first.2.work.stage with
      | baseline => exact absurd hfirst' (openRow_stage hopen)
      | fast =>
        have hsettled := hfollow.settled r hr hr'
        rw [hgeneration', htarget', fastTargetSettled_eq_false (hoffered.mem hfirst) hopen hfirst'] at hsettled
        cases hsettled
      | precise => rfl
  cases hw : r.2.work
  cases hw' : first.2.work
  rw [hw, hw'] at hgeneration' htarget' hstage
  simp_all

def followUps (cat : ClaimCatalog) (input : ClaimInput) (token : Uuid) (l : Ledger)
    (first : Uuid × CfdUnit) : List (Uuid × CfdUnit) :=
  (candidates cat (followUp cat input token first) l).filter fun r => r.1 ≠ first.1

theorem followUps_mem (h : r ∈ followUps cat input token l first) :
    r ∈ candidates cat (followUp cat input token first) l ∧ r.1 ≠ first.1 := by
  rw [followUps, List.mem_filter] at h
  exact ⟨h.1, by simpa using h.2⟩

theorem batch_rows (hfirst : first ∈ candidates cat { input with sameTarget := none } l) (n : ℕ) :
    ((first :: batchRows n (followUps cat input token l first)).map Prod.fst).Nodup ∧
      ∀ r ∈ first :: batchRows n (followUps cat input token l first), r ∈ l.units.rows ∧
        r.2.work = first.2.work ∧ effectiveRecipe cat r.2 = effectiveRecipe cat first.2 ∧
        recoveryParent r.2 = recoveryParent first.2 := by
  have hsub := batchRows_sublist n (followUps cat input token l first)
  have hoffered := candidates_offered cat (followUp cat input token first) l
  constructor
  · rw [List.map_cons, List.nodup_cons]
    constructor
    · intro hmem
      obtain ⟨r, hr, heq⟩ := List.mem_map.1 hmem
      exact (followUps_mem (hsub.subset hr)).2 heq
    · exact ((hsub.trans List.filter_sublist).map Prod.fst).nodup hoffered.nodup
  · intro r hr
    rcases List.mem_cons.1 hr with rfl | hr
    · exact ⟨(candidates_offered cat _ l).mem hfirst, rfl, rfl, rfl⟩
    · have hmem := (followUps_mem (hsub.subset hr)).1
      exact ⟨hoffered.mem hmem, followUp_scope hfirst hmem⟩

theorem batch_shares {lease : CfdLease} {rest : List CfdLease} {n : ℕ}
    (hfirst : first ∈ candidates cat { input with sameTarget := none } l)
    (hleases : List.Forall₂ (LeaseFor cat) (lease :: rest)
      (first :: batchRows n (followUps cat input token l first))) :
    sharesTargetAndRecipe (KeyOrder.sortBy CfdLease.alpha (lease :: rest)) = true := by
  have hperm := KeyOrder.sortBy_perm CfdLease.alpha (lease :: rest)
  obtain ⟨hids, hrows⟩ := batch_rows hfirst n
  apply sharesTargetAndRecipe_of
  · rw [(hperm.map CfdLease.id).nodup_iff, map_eq_of_leaseFor hleases fun _ _ _ => rfl]
    exact hids
  · rw [(hperm.map CfdLease.alpha).nodup_iff, map_eq_of_leaseFor hleases fun _ _ _ => rfl]
    exact alphas_nodup hids (fun r hr => (hrows r hr).1) fun r hr => (hrows r hr).2.1
  · intro a ha b hb
    obtain ⟨r, hr, inputA, tokenA, rfl⟩ := mem_of_leaseFor hleases (hperm.mem_iff.1 ha)
    obtain ⟨s, hs, inputB, tokenB, rfl⟩ := mem_of_leaseFor hleases (hperm.mem_iff.1 hb)
    obtain ⟨-, hworkR, hrecipeR, hparentR⟩ := hrows r hr
    obtain ⟨-, hworkS, hrecipeS, hparentS⟩ := hrows s hs
    have hwork : r.2.work = s.2.work := hworkR.trans hworkS.symm
    refine ⟨hwork, ?_, hparentR.trans hparentS.symm, hrecipeR.trans hrecipeS.symm⟩
    simp only [leaseOf, hwork]

theorem batchChecks_iff {lease : CfdLease} {rest : List CfdLease} {n : ℕ}
    (hfirst : first ∈ candidates cat { input with sameTarget := none } l)
    (hlease : LeaseFor cat lease first) (hnone : extensionPending first.2 = false)
    (hrest : List.Forall₂ (LeaseFor cat) rest (batchRows n (followUps cat input token l first))) :
    (continuationAlone (KeyOrder.sortBy CfdLease.alpha (lease :: rest)) = true ∧
        sharesTargetAndRecipe (KeyOrder.sortBy CfdLease.alpha (lease :: rest)) = true) ↔
      (((followUps cat input token l first).take n).any fun r => extensionPending r.2) = false := by
  have hperm := KeyOrder.sortBy_perm CfdLease.alpha (lease :: rest)
  have hflags : rest.map (fun a => a.budgetExtension.isSome) =
      (batchRows n (followUps cat input token l first)).map fun r => extensionPending r.2 :=
    map_eq_of_leaseFor hrest fun _ _ r => leaseOf_extension _ _ r.2
  have hany : (rest.any fun a => a.budgetExtension.isSome) =
      ((followUps cat input token l first).take n).any fun r => extensionPending r.2 := by
    have hmap := congrArg (fun flags => flags.any id) hflags
    simp only [List.any_map] at hmap
    exact hmap.trans (batchRows_any n _)
  rw [and_iff_left (batch_shares hfirst (.cons hlease hrest)), continuationAlone_iff, ← hany]
  constructor
  · intro h
    rw [← Bool.not_eq_true, List.any_eq_true]
    rintro ⟨a, ha, hsome⟩
    have hone := h a (hperm.mem_iff.2 (List.mem_cons_of_mem lease ha)) hsome
    rw [hperm.length_eq, List.length_cons] at hone
    have hpos := List.length_pos_of_mem ha
    omega
  · intro h a ha hsome
    exfalso
    rcases List.mem_cons.1 (hperm.mem_iff.1 ha) with rfl | ha
    · obtain ⟨_, _, rfl⟩ := hlease
      rw [leaseOf_extension, hnone] at hsome
      cases hsome
    · rw [List.any_eq_false] at h
      exact h a ha hsome

/-- Before the claim: nothing is claimed, or the first offer is a continuation, or none of the offers
that follow it in the batch is. -/
def batchComposable (cat : ClaimCatalog) (input : ClaimInput) (maximumUnits : Option ℤ) (token : Uuid)
    (l : Ledger) : Bool :=
  !cat.admissionLock || claimsNothing cat input ||
    match (candidates cat { input with sameTarget := none } l).head? with
    | none => true
    | some first =>
      extensionPending first.2 ||
        !((followUps cat input token l first).take
          ((maximumUnits.getD (progressiveCfdBatchMaximum first.2.work.stage)).toNat - 1)).any
          fun r => extensionPending r.2

theorem claimUnit_open {result : Option (Ledger × CfdLease)}
    (h : claimProgressiveCfdUnit cat input token l = .ok result) : invalidRequest input = false := by
  rw [← Bool.not_eq_true]
  intro hinvalid
  rw [invalidRequest] at hinvalid
  rw [claimProgressiveCfdUnit, if_pos hinvalid] at h
  cases h

theorem claimUnit_closed (hvalid : invalidRequest input = false) (hclosed : claimsNothing cat input = true) :
    claimProgressiveCfdUnit cat input token l = .ok none := by
  rw [invalidRequest] at hvalid
  rw [claimsNothing, Bool.or_eq_true, decide_eq_true_eq] at hclosed
  rw [claimProgressiveCfdUnit, hvalid]
  rcases hclosed with hfamilies | hsweeper
  · simp [hfamilies]
  · simp [hsweeper]

theorem claimRest_followUps {tokens : ℕ → Uuid} {n : ℕ} {l₁ l' : Ledger} {rest : List CfdLease}
    (hvalid : invalidRequest input = false) (hopen : claimsNothing cat input = false)
    (hleases : Leases l l₁ first.1)
    (h : claimRest cat (followUp cat input token first) tokens n 1 l₁ = .ok (l', rest)) :
    List.Forall₂ (LeaseFor cat) rest (batchRows n (followUps cat input token l first)) := by
  have hvalid' : invalidRequest (followUp cat input token first) = false := hvalid
  have hopen' : claimsNothing cat (followUp cat input token first) = false := hopen
  have hrows := claimRest_leases rfl hvalid' hopen' h
  rw [candidates_lease rfl hleases] at hrows
  exact hrows.imp fun lease r ⟨token, hlease⟩ => ⟨_, token, hlease⟩

theorem claimBatch_cases {maximumUnits : Option ℤ} {tokens : ℕ → Uuid} {l' : Ledger} {batch : List CfdLease}
    (h : claimProgressiveCfdBatch cat input maximumUnits tokens l = .ok (l', batch)) :
    (batch = [] ∧ batchComposable cat input maximumUnits (tokens 0) l = true) ∨
      ∃ first, (candidates cat { input with sameTarget := none } l).head? = some first ∧
        cat.admissionLock = true ∧ claimsNothing cat input = false ∧
        ((extensionPending first.2 = true ∧ ∃ lease, batch = [lease]) ∨
          (extensionPending first.2 = false ∧ ∃ lease rest, LeaseFor cat lease first ∧
            List.Forall₂ (LeaseFor cat) rest (batchRows
              ((maximumUnits.getD (progressiveCfdBatchMaximum first.2.work.stage)).toNat - 1)
              (followUps cat input (tokens 0) l first)) ∧
            batch = KeyOrder.sortBy CfdLease.alpha (lease :: rest))) := by
  unfold claimProgressiveCfdBatch at h
  split at h
  · rename_i hlock
    cases h
    exact .inl ⟨rfl, by simp [batchComposable, hlock]⟩
  rename_i hlock
  rw [Bool.not_eq_true, Bool.not_eq_false'] at hlock
  split at h
  · cases h
  · rename_i hclaim
    cases h
    refine .inl ⟨rfl, ?_⟩
    have hvalid := claimUnit_open hclaim
    by_cases hclosed : claimsNothing cat input = true
    · simp [batchComposable, hclosed]
    · rw [claimUnit_eq hvalid ((Bool.not_eq_true _).mp hclosed)] at hclaim
      split at hclaim
      · rename_i hhead
        simp [batchComposable, hhead]
      · split at hclaim <;> cases hclaim
  · rename_i l₁ lease hclaim
    have hvalid := claimUnit_open hclaim
    have hopen : claimsNothing cat input = false := by
      rw [← Bool.not_eq_true]
      intro hclosed
      rw [claimUnit_closed hvalid hclosed] at hclaim
      cases hclaim
    obtain hnone | ⟨id, u, hhead, -, hresult⟩ := claimUnit_cases hclaim
    · cases hnone
    cases hresult
    refine .inr ⟨(id, u), hhead, hlock, hopen, ?_⟩
    simp only at h
    split at h
    · cases h
    rw [leaseOf_extension] at h
    split at h
    · rename_i hext
      cases h
      exact .inl ⟨hext, _, rfl⟩
    rename_i hext
    split at h
    · cases h
    rename_i l₂ rest hrest
    cases h
    have hoffered := candidates_offered cat { input with sameTarget := none } l
    have hfirst := List.mem_of_mem_head? hhead
    have hfind : l.units.find? id = some u := Table.find?_of_mem (hoffered.mem hfirst)
    have hrow : openRow cat { input with sameTarget := none } l u = true := hoffered.isOpen (id, u) hfirst
    have hpending := openRow_pending hrow
    have hleases : Leases l (l.modifyUnit id (leaseRow cat { input with sameTarget := none } (tokens 0))) id :=
      modifyUnit_leases hfind hpending
    have hstage : (leaseOf cat { input with sameTarget := none } (tokens 0) id u).work = u.work := rfl
    rw [hstage] at hrest
    change claimRest cat (followUp cat input (tokens 0) (id, u)) tokens _ 1 _ = _ at hrest
    have hfor := claimRest_followUps hvalid hopen hleases hrest
    exact .inr ⟨(Bool.not_eq_true _).mp hext, _, rest, ⟨_, _, rfl⟩, hfor, rfl⟩

/-- A claimed batch passes the checks of the composer exactly when, before the claim, no continuation
stood among the offers it took after a first one that is none. -/
theorem claimed_batch_checks_iff {maximumUnits : Option ℤ} {tokens : ℕ → Uuid} {l' : Ledger}
    {batch : List CfdLease}
    (h : claimProgressiveCfdBatch cat input maximumUnits tokens l = .ok (l', batch)) :
    (continuationAlone batch = true ∧ sharesTargetAndRecipe batch = true) ↔
      batchComposable cat input maximumUnits (tokens 0) l = true := by
  rcases claimBatch_cases h with ⟨rfl, hcomposable⟩ | ⟨first, hhead, hlock, hopen, hbatch⟩
  · exact iff_of_true ⟨rfl, rfl⟩ hcomposable
  have hcomposable : batchComposable cat input maximumUnits (tokens 0) l =
      (extensionPending first.2 || !((followUps cat input (tokens 0) l first).take
        ((maximumUnits.getD (progressiveCfdBatchMaximum first.2.work.stage)).toNat - 1)).any
        fun r => extensionPending r.2) := by
    simp only [batchComposable, hlock, hopen, hhead, Bool.not_true, Bool.false_or]
  rw [hcomposable]
  rcases hbatch with ⟨hext, lease, rfl⟩ | ⟨hext, lease, rest, hlease, hrest, rfl⟩
  · refine iff_of_true ⟨?_, ?_⟩ (by simp [hext])
    · exact (continuationAlone_iff _).2 fun _ _ _ => rfl
    · simp [sharesTargetAndRecipe]
  · rw [batchChecks_iff (List.mem_of_mem_head? hhead) hlease hext hrest, hext, Bool.false_or,
      Bool.not_eq_true']

theorem claimed_batch_checks_two_angles :
    ∃ l l' batch, runWhile (fun _ _ => true) sampleLedger
        [.insertUnit 1 sampleUnit, .insertUnit 2 { sampleUnit with aoaDeg := 1, ordinal := 1 }] = some l ∧
      claimProgressiveCfdBatch (sampleClaims 0) sampleInput none (fun i => 20 + i) l = .ok (l', batch) ∧
      batch.length = 2 ∧ continuationAlone batch = true ∧ sharesTargetAndRecipe batch = true := by
  have h : ((runWhile (fun _ _ => true) sampleLedger
      [.insertUnit 1 sampleUnit, .insertUnit 2 { sampleUnit with aoaDeg := 1, ordinal := 1 }]).any fun l =>
      (claimProgressiveCfdBatch (sampleClaims 0) sampleInput none (fun i => 20 + i) l).toOption.any
        fun claimed => claimed.2.length = 2 &&
          batchComposable (sampleClaims 0) sampleInput none 20 l) = true := by decide +kernel
  simp only [Option.any_eq_true, Bool.and_eq_true, decide_eq_true_eq] at h
  obtain ⟨l, hrun, ⟨l', batch⟩, hclaim, htwo, hcomposable⟩ := h
  rw [toOption_eq_some] at hclaim
  exact ⟨l, l', batch, hrun, hclaim, htwo, (claimed_batch_checks_iff hclaim).2 hcomposable⟩

def continuationBehind : List Op :=
  [.insertUnit 1 sampleUnit, .claimUnit (sampleClaims 0) sampleInput 11,
    .recoverUnbound (sampleCatalog 200) 1 (fun _ => true), .claimUnit (sampleClaims 201) sampleInput 12,
    .recoverUnbound (sampleCatalog 400) 1 (fun _ => true), .insertUnit 2 { preciseUnit with ordinal := 1 },
    .claimUnit (sampleClaims 401) sampleInput 13,
    .recoverUnbound (sampleCatalog 600) 1 (fun _ => true), .claimUnit (sampleClaims 601) sampleInput 14,
    .compose (sampleCatalog 602) sampleCompose
      [{ sampleLease 14 43200 with id := 2, work := preciseWork }] 7,
    .evidence (sampleCatalog 603) (sampleScope 7) .strict [sampleReceipt 7 43200],
    .acknowledgeStop ⟨7, true, true⟩ ⟨"7", some .recordedExecutionNamespace⟩,
    .settle (fullFidelity 604) settleJob, .insertUnit 3 { preciseUnit with aoaDeg := 1 }]

/-- The stage-3 order does not put continuations first, and the loop looks at one only after it has
taken it: the batch of both cannot be composed. -/
theorem continuation_joins_batch :
    ∃ l l' batch, Reachable Initial Step l ∧
      claimProgressiveCfdBatch (sampleClaims 605) sampleInput none (fun i => 20 + i) l = .ok (l', batch) ∧
      batch.length = 2 ∧ composeBatchChecks sampleCompose batch =
        .error "Progressive continuation must be one exact capable case" ∧
      ¬ (continuationAlone batch = true ∧ sharesTargetAndRecipe batch = true) := by
  have h : ((runWhile (fun _ _ => true) twoStageLedger continuationBehind).any fun l =>
      (claimProgressiveCfdBatch (sampleClaims 605) sampleInput none (fun i => 20 + i) l).toOption.any
        fun claimed => claimed.2.length = 2 && continuationAlone claimed.2 = false) = true := by
    decide +kernel
  simp only [Option.any_eq_true, Bool.and_eq_true, decide_eq_true_eq] at h
  obtain ⟨l, hrun, ⟨l', batch⟩, hclaim, htwo, halone⟩ := h
  rw [toOption_eq_some] at hclaim
  refine ⟨l, l', batch, reachable_of_runWhile (fun _ _ _ => trivial) (.start ⟨rfl, rfl⟩) hrun, hclaim, htwo,
    ?_, by simp [halone]⟩
  have hempty : batch.isEmpty = false := by
    cases batch with
    | nil => cases htwo
    | cons lease rest => rfl
  simp [composeBatchChecks, halone, htwo, hempty, sampleCompose]

end Batches
end XFoilFoam.Progressive
