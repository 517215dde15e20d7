import XFoilFoam.Foundations.Runs
import XFoilFoam.Sweeper.GapClaims

/-! Calls of `claimAoas` that run at once.  Each is a transaction: it takes the locks of its cells, runs its statements one
by one, and commits or is rolled back; a row it wrote stays locked until then.  Between the statements of one call come
those of others and every other writer of `results`, and each statement sees tables of its own beside `results`. -/
namespace XFoilFoam.Sweeper.Gaps
open Precalc (ResultStatus DataSource Regime)
set_option autoImplicit false

/-! ## Rows by their identifiers -/

/-- The primary key, and that identifiers are drawn once. -/
def Results.Keyed (results : Results) : Prop :=
  (results.rows.rows.map fun row => row.2.id).Nodup ∧ ∀ row ∈ results.rows.rows, row.2.id < results.nextId

/-- The row with this identifier is `pending` or `stale`. -/
def Results.setBack (results : Results) (id : ℕ) : Bool :=
  results.rows.rows.any fun row => decide (row.2.id = id) && awaits row.2

section Rows
variable {results : Results} {cell cell' : Cell} {row row' : ResultRow}

theorem Results.setBack_iff {id : ℕ} :
    results.setBack id = true ↔ ∃ cell row, results.rows.find? cell = some row ∧ row.id = id ∧ awaits row = true := by
  unfold Results.setBack
  rw [List.any_eq_true]
  constructor
  · rintro ⟨⟨cell, row⟩, hrow, hback⟩
    obtain ⟨hid, hawaits⟩ := Bool.and_eq_true_iff.mp hback
    exact ⟨cell, row, Table.find?_of_mem hrow, of_decide_eq_true hid, hawaits⟩
  · rintro ⟨cell, row, hfind, hid, hawaits⟩
    exact ⟨(cell, row), Table.mem_of_find? hfind, Bool.and_eq_true_iff.mpr ⟨decide_eq_true hid, hawaits⟩⟩

theorem Results.Keyed.unique (h : results.Keyed) (hrow : results.rows.find? cell = some row)
    (hrow' : results.rows.find? cell' = some row') (hid : row.id = row'.id) : cell = cell' ∧ row = row' :=
  Prod.mk.inj (List.inj_on_of_nodup_map h.1 (Table.mem_of_find? hrow) (Table.mem_of_find? hrow') hid)

theorem Results.Keyed.drawn (h : results.Keyed) (hrow : results.rows.find? cell = some row) : row.id < results.nextId :=
  h.2 _ (Table.mem_of_find? hrow)

theorem Results.Keyed.insert (h : results.Keyed) (hfind : results.rows.find? cell = none) (hid : row.id = results.nextId) :
    Results.Keyed { rows := results.rows.set cell row, nextId := results.nextId + 1 } := by
  obtain ⟨rows', hinsert⟩ := Table.exists_insert hfind row
  have hrows : (results.rows.set cell row).rows = results.rows.rows ++ [(cell, row)] := by
    rw [Table.set, hinsert, Option.getD_some, (Table.insert?_rows hinsert).2]
  constructor
  · rw [hrows, List.map_append, List.map_singleton, List.nodup_append]
    refine ⟨h.1, List.nodup_singleton _, ?_⟩
    intro id hmem id' hmem' heq
    obtain ⟨old, hold, rfl⟩ := List.mem_map.mp hmem
    have hlt := h.2 old hold
    have hnew : id' = results.nextId := (List.mem_singleton.mp hmem').trans hid
    omega
  · intro r hr
    rw [hrows, List.mem_append, List.mem_singleton] at hr
    rcases hr with hold | rfl
    · exact Nat.lt_succ_of_lt (h.2 r hold)
    · exact hid ▸ Nat.lt_succ_self _

theorem Results.Keyed.modify (h : results.Keyed) {f : ResultRow → ResultRow}
    (hf : ∀ row, results.rows.find? cell = some row → (f row).id = row.id) :
    Results.Keyed { results with rows := results.rows.modify cell f } := by
  have hsame : ∀ r ∈ results.rows.rows, (if r.1 = cell then f r.2 else r.2).id = r.2.id := by
    rintro ⟨k, r⟩ hr
    by_cases hk : k = cell
    · subst hk
      rw [if_pos rfl]
      exact hf r (Table.find?_of_mem hr)
    · rw [if_neg hk]
  have hids : ((results.rows.modify cell f).rows.map fun row => row.2.id) = results.rows.rows.map fun row => row.2.id := by
    rw [Table.modify, Table.map, List.map_map]
    exact List.map_congr_left hsame
  refine ⟨by rw [hids]; exact h.1, fun r hr => ?_⟩
  obtain ⟨old, hold, hid⟩ := List.mem_map.mp (hids ▸ List.mem_map_of_mem hr)
  rw [← hid]
  exact h.2 old hold

theorem Results.Keyed.erase (h : results.Keyed) (cell : Cell) :
    Results.Keyed { results with rows := results.rows.erase cell } := by
  constructor
  · exact h.1.sublist (List.filter_sublist.map _)
  · intro r hr
    exact h.2 r (Table.mem_erase.mp hr).1

end Rows

/-! ## Calls at once -/

/-- A row that was returned to a call, and what stood under its cell before. -/
structure Hold where
  cell : Cell
  id : ℕ
  before : Option ResultRow

/-- A call between its locks and its end: the angles still to come and the rows returned to it, the last one first. -/
structure OpenCall where
  scope : ClaimScope
  keys : List String
  rest : List Double
  held : List Hold

def OpenCall.handed (call : OpenCall) : List (String × ℕ) := call.held.map fun hold => (call.scope.simJobId, hold.id)

def OpenCall.answered (call : OpenCall) (results : Results) (aoa : Double) (id : Option ℕ) (rest : List Double) : OpenCall :=
  match id with
  | none => { call with rest }
  | some id =>
    let cell := call.scope.cell aoa
    { call with rest, held := ⟨cell, id, results.rows.find? cell⟩ :: call.held }

/-- `returned` are the rows that ended calls returned, each until it is set back. -/
structure ClaimWorld where
  results : Results
  calls : List OpenCall
  returned : List (String × ℕ)

/-- The jobs with the rows that calls were returned and that were not set back since. -/
def ClaimWorld.handed (w : ClaimWorld) : List (String × ℕ) := w.calls.flatMap OpenCall.handed ++ w.returned

def ClaimWorld.holders (w : ClaimWorld) (id : ℕ) : List String := (w.handed.filter fun r => r.2 = id).map Prod.fst

/-- A row that some call of these wrote and has not released. -/
def locked (calls : List OpenCall) (cell : Cell) : Prop := ∃ call ∈ calls, ∃ hold ∈ call.held, hold.cell = cell

def undo (results : Results) (hold : Hold) : Results :=
  match hold.before with
  | none => { results with rows := results.rows.erase hold.cell }
  | some row => { results with rows := results.rows.modify hold.cell fun _ => row }

inductive ClaimStep : ClaimWorld → ClaimWorld → Prop where
  | start {w : ClaimWorld} (scope : ClaimScope) (aoas : List Double) (keys : List String)
      (hkeys : lockKeys scope aoas = some keys) (hfree : ∀ call ∈ w.calls, ∀ key ∈ keys, key ∉ call.keys) :
      ClaimStep w { w with calls := ⟨scope, keys, aoas, []⟩ :: w.calls }
  | claim {w : ClaimWorld} {before after : List OpenCall} {call : OpenCall} {aoa : Double} {rest : List Double}
      (ledger : Ledger) (now : ℤ) (id : Option ℕ) (results : Results) (hcalls : w.calls = before ++ call :: after)
      (hrest : call.rest = aoa :: rest) (hfree : ¬ locked (before ++ after) (call.scope.cell aoa))
      (hclaim : claimAoa ledger now call.scope none aoa w.results = some (id, results)) :
      ClaimStep w { w with results, calls := before ++ call.answered w.results aoa id rest :: after }
  | commit {w : ClaimWorld} {before after : List OpenCall} {call : OpenCall} (hcalls : w.calls = before ++ call :: after)
      (hrest : call.rest = []) :
      ClaimStep w { w with calls := before ++ after, returned := w.returned ++ call.handed }
  | rollback {w : ClaimWorld} {before after : List OpenCall} {call : OpenCall}
      (hcalls : w.calls = before ++ call :: after) :
      ClaimStep w { w with results := call.held.foldl undo w.results, calls := before ++ after }
  -- any other writer, kept off the locked rows; what it leaves `pending` or `stale` is set back
  | other {w : ClaimWorld} (results : Results) (hkeyed : results.Keyed) (hnext : w.results.nextId ≤ results.nextId)
      (hlocked : ∀ cell, locked w.calls cell → results.rows.find? cell = w.results.rows.find? cell) :
      ClaimStep w { w with results, returned := w.returned.filter fun r => !results.setBack r.2 }

/-- No call has begun; the rows are any. -/
def ClaimWorld.Fresh (w : ClaimWorld) : Prop := w.results.Keyed ∧ w.calls = [] ∧ w.returned = []

/-! ## What the statement grants -/

/-- A row returned: what it was, what it is, and that nothing else changed. -/
structure Granted (results : Results) (cell : Cell) (id : ℕ) (results' : Results) : Prop where
  keyed : results'.Keyed
  nextId_le : results.nextId ≤ results'.nextId
  from_ : (results.rows.find? cell = none ∧ id = results.nextId) ∨
    ∃ row, results.rows.find? cell = some row ∧ row.id = id ∧ awaits row = true
  to_ : ∃ row, results'.rows.find? cell = some row ∧ row.id = id ∧ awaits row = false
  others : ∀ cell', cell' ≠ cell → results'.rows.find? cell' = results.rows.find? cell'

theorem Granted.id_lt {results results' : Results} {cell : Cell} {id : ℕ} (h : Granted results cell id results') :
    id < results'.nextId := by
  obtain ⟨row, hfind, rfl, -⟩ := h.to_
  exact h.keyed.drawn hfind

theorem granted_of_claimAoa {ledger : Ledger} {now : ℤ} {scope : ClaimScope} {aoa : Double} {results results' : Results}
    {id : ℕ} (h : claimAoa ledger now scope none aoa results = some (some id, results')) (hkeyed : results.Keyed) :
    Granted results (scope.cell aoa) id results' := by
  have hothers (cell' : Cell) (hcell : cell' ≠ scope.cell aoa) := claimAoa_other h hcell
  obtain ⟨hnone, rfl, rfl⟩ | ⟨row, hrow, rfl, hclaimable, rfl⟩ := claimAoa_some h
  · exact
      { keyed := hkeyed.insert hnone rfl
        nextId_le := Nat.le_succ _
        from_ := .inl ⟨hnone, rfl⟩
        to_ := ⟨_, Table.find?_set_self _ _ _, rfl, rfl⟩
        others := hothers }
  · -- without a unit the update asks that the row waits
    have hawaits : awaits row = true := by
      unfold claimable progressiveRetryClaimSql at hclaimable
      rw [SqlTruth.and_eq_holds, SqlTruth.or_eq_holds, SqlTruth.and_eq_holds, SqlTruth.ofBool_eq_holds] at hclaimable
      rcases hclaimable.1 with hwaits | hretry
      · exact hwaits.1
      · cases hretry
    exact
      { keyed := hkeyed.modify fun _ _ => rfl
        nextId_le := le_rfl
        from_ := .inr ⟨row, hrow, rfl, hawaits⟩
        to_ := ⟨claimedRow now scope row, by rw [Table.find?_modify_self, hrow]; rfl, rfl, rfl⟩
        others := hothers }

/-! ## The invariant -/

structure Exclusive (w : ClaimWorld) : Prop where
  keyed : w.results.Keyed
  once : (w.handed.map Prod.snd).Nodup
  drawn : ∀ r ∈ w.handed, r.2 < w.results.nextId
  taken : ∀ r ∈ w.handed, w.results.setBack r.2 = false
  stands : ∀ call ∈ w.calls, ∀ hold ∈ call.held, (∃ row, w.results.rows.find? hold.cell = some row ∧ row.id = hold.id) ∧
    ∀ row, hold.before = some row → row.id = hold.id

section Steps
variable {w : ClaimWorld} {results : Results} {before after calls : List OpenCall} {call : OpenCall}
  {returned : List (String × ℕ)} {hold : Hold} {held : List Hold}

theorem mem_handed {r : String × ℕ} : r ∈ w.handed ↔ (∃ call ∈ w.calls, r ∈ call.handed) ∨ r ∈ w.returned := by
  rw [ClaimWorld.handed, List.mem_append, List.mem_flatMap]

theorem handed_perm :
    (ClaimWorld.mk results (before ++ call :: after) returned).handed.Perm
      (call.handed ++ (ClaimWorld.mk results (before ++ after) returned).handed) := by
  simp only [ClaimWorld.handed, List.flatMap_append, List.flatMap_cons]
  rw [← List.append_assoc, List.append_assoc, List.append_assoc, List.append_assoc]
  exact List.perm_append_comm_assoc _ _ _

theorem Exclusive.not_handed (h : Exclusive w) {cell : Cell} {id : ℕ} {results' : Results}
    (hgranted : Granted w.results cell id results') {r : String × ℕ} (hr : r ∈ w.handed) : r.2 ≠ id := by
  intro heq
  rcases hgranted.from_ with ⟨-, hid⟩ | ⟨row, hfind, hid, hawaits⟩
  · have := h.drawn r hr
    omega
  · have hback : w.results.setBack r.2 = true := Results.setBack_iff.mpr ⟨cell, row, hfind, hid.trans heq.symm, hawaits⟩
    rw [h.taken r hr] at hback
    cases hback

theorem Exclusive.grant {aoa : Double} {rest : List Double} {id : ℕ} {results' : Results}
    (h : Exclusive ⟨results, before ++ call :: after, returned⟩)
    (hgranted : Granted results (call.scope.cell aoa) id results') :
    Exclusive ⟨results', before ++ call.answered results aoa (some id) rest :: after, returned⟩ := by
  have hhanded : (ClaimWorld.mk results' (before ++ call.answered results aoa (some id) rest :: after) returned).handed.Perm
      ((call.scope.simJobId, id) :: (ClaimWorld.mk results (before ++ call :: after) returned).handed) := by
    have hall : (ClaimWorld.mk results (before ++ call :: after) returned).handed.Perm
        (call.handed ++ (ClaimWorld.mk results (before ++ after) returned).handed) := handed_perm
    exact handed_perm.trans (hall.symm.cons (call.scope.simJobId, id))
  have hfresh : ∀ r ∈ (ClaimWorld.mk results (before ++ call :: after) returned).handed, r.2 ≠ id :=
    fun r hr => h.not_handed hgranted hr
  -- a row that was held stands under another cell
  have hcells : ∀ c ∈ before ++ call :: after, ∀ hold ∈ c.held, hold.cell ≠ call.scope.cell aoa := by
    intro c hc hold hhold heq
    obtain ⟨⟨row, hfind, hid⟩, -⟩ := h.stands c hc hold hhold
    have hr : (c.scope.simJobId, hold.id) ∈ (ClaimWorld.mk results (before ++ call :: after) returned).handed :=
      mem_handed.mpr (.inl ⟨c, hc, List.mem_map_of_mem hhold⟩)
    rw [heq] at hfind
    rcases hgranted.from_ with ⟨hnone, -⟩ | ⟨row', hfind', hid', -⟩
    · rw [hfind] at hnone
      cases hnone
    · rw [hfind] at hfind'
      cases hfind'
      exact hfresh _ hr (hid.symm.trans hid')
  have hkept : ∀ c ∈ before ++ call :: after, ∀ hold ∈ c.held,
      (∃ row, results'.rows.find? hold.cell = some row ∧ row.id = hold.id) ∧
        ∀ row, hold.before = some row → row.id = hold.id := by
    intro c hc hold hhold
    rw [hgranted.others _ (hcells c hc hold hhold)]
    exact h.stands c hc hold hhold
  exact
    { keyed := hgranted.keyed
      once := by
        rw [(hhanded.map Prod.snd).nodup_iff, List.map_cons, List.nodup_cons]
        refine ⟨fun hmem => ?_, h.once⟩
        obtain ⟨r, hr, hid⟩ := List.mem_map.mp hmem
        exact hfresh r hr hid
      drawn := by
        intro r hr
        rcases List.mem_cons.mp (hhanded.mem_iff.mp hr) with rfl | hr
        · exact hgranted.id_lt
        · exact (h.drawn r hr).trans_le hgranted.nextId_le
      taken := by
        intro r hr
        obtain ⟨row, hfind, hid, hqueued⟩ := hgranted.to_
        rw [Bool.eq_false_iff]
        intro hback
        obtain ⟨cell, row', hfind', hid', hawaits⟩ := Results.setBack_iff.mp hback
        by_cases hcell : cell = call.scope.cell aoa
        · subst hcell
          rw [hfind] at hfind'
          cases hfind'
          rw [hqueued] at hawaits
          cases hawaits
        · rw [hgranted.others _ hcell] at hfind'
          rcases List.mem_cons.mp (hhanded.mem_iff.mp hr) with rfl | hr
          · -- the identifier stands under the claimed cell only
            exact hcell (hgranted.keyed.unique ((hgranted.others _ hcell).trans hfind') hfind (hid'.trans hid.symm)).1
          · have hold : results.setBack r.2 = true := Results.setBack_iff.mpr ⟨cell, row', hfind', hid', hawaits⟩
            rw [h.taken r hr] at hold
            cases hold
      stands := by
        intro c hc hold hhold
        rcases List.mem_append.mp hc with hc | hc
        · exact hkept c (List.mem_append_left _ hc) hold hhold
        · rcases List.mem_cons.mp hc with rfl | hc
          · rcases List.mem_cons.mp hhold with rfl | hhold
            · obtain ⟨row, hfind, hid, -⟩ := hgranted.to_
              refine ⟨⟨row, hfind, hid⟩, fun old hold => ?_⟩
              rcases hgranted.from_ with ⟨hnone, -⟩ | ⟨row', hfind', hid', -⟩
              · rw [hnone] at hold
                cases hold
              · rw [hfind'] at hold
                cases hold
                exact hid'
            · exact hkept call (List.mem_append_right _ List.mem_cons_self) hold hhold
          · exact hkept c (List.mem_append_right _ (List.mem_cons_of_mem _ hc)) hold hhold }

theorem Exclusive.release {returned' : List (String × ℕ)} (h : Exclusive ⟨results, before ++ call :: after, returned⟩)
    (hperm : (ClaimWorld.mk results (before ++ after) returned').handed.Perm
      (ClaimWorld.mk results (before ++ call :: after) returned).handed) :
    Exclusive ⟨results, before ++ after, returned'⟩ where
  keyed := h.keyed
  once := (hperm.map Prod.snd).nodup_iff.mpr h.once
  drawn := fun r hr => h.drawn r (hperm.mem_iff.mp hr)
  taken := fun r hr => h.taken r (hperm.mem_iff.mp hr)
  stands := fun c hc => h.stands c (by
    rcases List.mem_append.mp hc with hc | hc
    · exact List.mem_append_left _ hc
    · exact List.mem_append_right _ (List.mem_cons_of_mem _ hc))

theorem Exclusive.commit (h : Exclusive ⟨results, before ++ call :: after, returned⟩) :
    Exclusive ⟨results, before ++ after, returned ++ call.handed⟩ := by
  have hmoved : (ClaimWorld.mk results (before ++ after) (returned ++ call.handed)).handed.Perm
      (call.handed ++ (ClaimWorld.mk results (before ++ after) returned).handed) := by
    simp only [ClaimWorld.handed]
    rw [← List.append_assoc]
    exact List.perm_append_comm
  exact h.release (hmoved.trans handed_perm.symm)

theorem undo_spec {row : ResultRow} (hkeyed : results.Keyed) (hfind : results.rows.find? hold.cell = some row)
    (hid : row.id = hold.id) (hbefore : ∀ row, hold.before = some row → row.id = hold.id) :
    (undo results hold).Keyed ∧ (undo results hold).nextId = results.nextId ∧
      (undo results hold).rows.find? hold.cell = hold.before ∧
      ∀ cell, cell ≠ hold.cell → (undo results hold).rows.find? cell = results.rows.find? cell := by
  unfold undo
  cases hold_before : hold.before with
  | none =>
    refine ⟨hkeyed.erase hold.cell, rfl, ?_, fun cell hcell => ?_⟩
    · rw [Table.find?_erase, if_pos rfl]
    · rw [Table.find?_erase, if_neg hcell]
  | some old =>
    refine ⟨hkeyed.modify fun found hfound => ?_, rfl, ?_, fun cell hcell => ?_⟩
    · rw [hfind] at hfound
      cases hfound
      exact (hbefore old hold_before).trans hid.symm
    · rw [Table.find?_modify_self, hfind]
      rfl
    · exact Table.find?_modify_ne _ _ hcell

theorem Exclusive.undo (call : OpenCall)
    (h : Exclusive ⟨results, before ++ { call with held := hold :: held } :: after, returned⟩) :
    Exclusive ⟨Gaps.undo results hold, before ++ { call with held } :: after, returned⟩ := by
  let c₀ : OpenCall := { call with held := hold :: held }
  let c₁ : OpenCall := { call with held }
  have hc₀ : c₀ ∈ before ++ c₀ :: after := List.mem_append_right _ List.mem_cons_self
  obtain ⟨⟨row, hfind, hid⟩, hbefore⟩ := h.stands c₀ hc₀ hold List.mem_cons_self
  obtain ⟨hkeyed, hnextId, hundone, hothers⟩ := undo_spec h.keyed hfind hid hbefore
  have hhanded : (ClaimWorld.mk results (before ++ c₀ :: after) returned).handed.Perm
      ((call.scope.simJobId, hold.id) :: (ClaimWorld.mk (Gaps.undo results hold) (before ++ c₁ :: after) returned).handed) := by
    have hall : (ClaimWorld.mk (Gaps.undo results hold) (before ++ c₁ :: after) returned).handed.Perm
        (c₁.handed ++ (ClaimWorld.mk (Gaps.undo results hold) (before ++ after) returned).handed) := handed_perm
    exact handed_perm.trans (hall.symm.cons (call.scope.simJobId, hold.id))
  have honce := h.once
  rw [(hhanded.map Prod.snd).nodup_iff, List.map_cons, List.nodup_cons] at honce
  have hfresh : ∀ r ∈ (ClaimWorld.mk (Gaps.undo results hold) (before ++ c₁ :: after) returned).handed, r.2 ≠ hold.id :=
    fun r hr heq => honce.1 (List.mem_map.mpr ⟨r, hr, heq⟩)
  have hold_of : ∀ r ∈ (ClaimWorld.mk (Gaps.undo results hold) (before ++ c₁ :: after) returned).handed,
      r ∈ (ClaimWorld.mk results (before ++ c₀ :: after) returned).handed :=
    fun r hr => hhanded.mem_iff.mpr (List.mem_cons_of_mem _ hr)
  -- the rows still held stand under other cells
  have hkept : ∀ c ∈ before ++ c₁ :: after, ∀ hold' ∈ c.held,
      ((∃ row, results.rows.find? hold'.cell = some row ∧ row.id = hold'.id) ∧
        ∀ row, hold'.before = some row → row.id = hold'.id) → hold'.cell ≠ hold.cell := by
    rintro c hc hold' hhold' ⟨⟨row', hfind', hid'⟩, -⟩ heq
    rw [heq, hfind] at hfind'
    cases hfind'
    exact hfresh (c.scope.simJobId, hold'.id) (mem_handed.mpr (.inl ⟨c, hc, List.mem_map_of_mem hhold'⟩))
      (hid'.symm.trans hid)
  have hstood : ∀ c ∈ before ++ c₁ :: after, ∀ hold' ∈ c.held,
      (∃ row, results.rows.find? hold'.cell = some row ∧ row.id = hold'.id) ∧
        ∀ row, hold'.before = some row → row.id = hold'.id := by
    intro c hc hold' hhold'
    rcases List.mem_append.mp hc with hc | hc
    · exact h.stands c (List.mem_append_left _ hc) hold' hhold'
    · rcases List.mem_cons.mp hc with rfl | hc
      · exact h.stands c₀ hc₀ hold' (List.mem_cons_of_mem _ hhold')
      · exact h.stands c (List.mem_append_right _ (List.mem_cons_of_mem _ hc)) hold' hhold'
  exact
    { keyed := hkeyed
      once := honce.2
      drawn := fun r hr => hnextId ▸ h.drawn r (hold_of r hr)
      taken := by
        intro r hr
        rw [Bool.eq_false_iff]
        intro hback
        obtain ⟨cell, row', hfind', hid', hawaits⟩ := Results.setBack_iff.mp hback
        by_cases hcell : cell = hold.cell
        · rw [hcell, hundone] at hfind'
          exact hfresh r hr (hid'.symm.trans (hbefore row' hfind'))
        · rw [hothers cell hcell] at hfind'
          have hwas : results.setBack r.2 = true := Results.setBack_iff.mpr ⟨cell, row', hfind', hid', hawaits⟩
          rw [h.taken r (hold_of r hr)] at hwas
          cases hwas
      stands := by
        intro c hc hold' hhold'
        have hthere := hstood c hc hold' hhold'
        rw [hothers _ (hkept c hc hold' hhold' hthere)]
        exact hthere }

theorem Exclusive.rollback (h : Exclusive ⟨results, before ++ call :: after, returned⟩) :
    Exclusive ⟨call.held.foldl Gaps.undo results, before ++ after, returned⟩ := by
  obtain ⟨scope, keys, rest, held⟩ := call
  dsimp only
  induction held generalizing results with
  | nil =>
    have hall : (ClaimWorld.mk results (before ++ ⟨scope, keys, rest, []⟩ :: after) returned).handed.Perm
        (ClaimWorld.mk results (before ++ after) returned).handed := handed_perm
    exact h.release hall.symm
  | cons hold held ih => exact ih (Exclusive.undo ⟨scope, keys, rest, held⟩ h)

theorem Exclusive.other (h : Exclusive ⟨results, calls, returned⟩) {results' : Results} (hkeyed : results'.Keyed)
    (hnext : results.nextId ≤ results'.nextId)
    (hlocked : ∀ cell, locked calls cell → results'.rows.find? cell = results.rows.find? cell) :
    Exclusive ⟨results', calls, returned.filter fun r => !results'.setBack r.2⟩ := by
  have hsub : (ClaimWorld.mk results' calls (returned.filter fun r => !results'.setBack r.2)).handed.Sublist
      (ClaimWorld.mk results calls returned).handed := List.Sublist.append_left List.filter_sublist _
  have hstands : ∀ call ∈ calls, ∀ hold ∈ call.held,
      (∃ row, results'.rows.find? hold.cell = some row ∧ row.id = hold.id) ∧
        ∀ row, hold.before = some row → row.id = hold.id := by
    intro call hcall hold hhold
    rw [hlocked hold.cell ⟨call, hcall, hold, hhold, rfl⟩]
    exact h.stands call hcall hold hhold
  exact
    { keyed := hkeyed
      once := h.once.sublist (hsub.map _)
      drawn := fun r hr => (h.drawn r (hsub.subset hr)).trans_le hnext
      taken := by
        intro r hr
        rcases mem_handed.mp hr with ⟨call, hcall, hin⟩ | hin
        · obtain ⟨hold, hhold, rfl⟩ := List.mem_map.mp hin
          obtain ⟨⟨row, hfind, hid⟩, -⟩ := hstands call hcall hold hhold
          rw [Bool.eq_false_iff]
          intro hback
          obtain ⟨cell, row', hfind', hid', hawaits⟩ := Results.setBack_iff.mp hback
          obtain ⟨rfl, rfl⟩ := hkeyed.unique hfind' hfind (hid'.trans hid.symm)
          -- the locked row is the one that stood before
          have hsame := hlocked hold.cell ⟨call, hcall, hold, hhold, rfl⟩
          have hwas : results.setBack hold.id = true :=
            Results.setBack_iff.mpr ⟨hold.cell, row', hsame ▸ hfind', hid', hawaits⟩
          have hnot := h.taken (call.scope.simJobId, hold.id) (mem_handed.mpr (.inl ⟨call, hcall, hin⟩))
          rw [hwas] at hnot
          cases hnot
        · simpa using (List.mem_filter.mp hin).2
      stands := hstands }

theorem Exclusive.step {w w' : ClaimWorld} (h : Exclusive w) (hs : ClaimStep w w') : Exclusive w' := by
  obtain ⟨results, calls, returned⟩ := w
  cases hs with
  | start scope aoas keys hkeys hfree =>
    exact
      { keyed := h.keyed
        once := h.once
        drawn := h.drawn
        taken := h.taken
        stands := fun c hc => by
          rcases List.mem_cons.mp hc with rfl | hc
          · exact fun hold hhold => nomatch hhold
          · exact h.stands c hc }
  | @claim before after call aoa rest ledger now id results' hcalls hrest hfree hclaim =>
    dsimp only at hcalls hclaim
    subst hcalls
    cases id with
    | none =>
      rw [claimAoa_none hclaim]
      have hhanded : (ClaimWorld.mk results (before ++ call.answered results aoa none rest :: after) returned).handed.Perm
          (ClaimWorld.mk results (before ++ call :: after) returned).handed := by
        have hall : (ClaimWorld.mk results (before ++ call :: after) returned).handed.Perm
            (call.handed ++ (ClaimWorld.mk results (before ++ after) returned).handed) := handed_perm
        exact handed_perm.trans hall.symm
      exact
        { keyed := h.keyed
          once := ((hhanded.map Prod.snd).nodup_iff).mpr h.once
          drawn := fun r hr => h.drawn r (hhanded.mem_iff.mp hr)
          taken := fun r hr => h.taken r (hhanded.mem_iff.mp hr)
          stands := fun c hc => by
            rcases List.mem_append.mp hc with hc | hc
            · exact h.stands c (List.mem_append_left _ hc)
            · rcases List.mem_cons.mp hc with rfl | hc
              · exact h.stands call (List.mem_append_right _ List.mem_cons_self)
              · exact h.stands c (List.mem_append_right _ (List.mem_cons_of_mem _ hc)) }
    | some id => exact h.grant (granted_of_claimAoa hclaim h.keyed)
  | commit hcalls hrest =>
    dsimp only at hcalls
    subst hcalls
    exact h.commit
  | rollback hcalls =>
    dsimp only at hcalls
    subst hcalls
    exact h.rollback
  | other results' hkeyed hnext hlocked => exact h.other hkeyed hnext hlocked

end Steps

theorem Exclusive.start {w : ClaimWorld} (h : w.Fresh) : Exclusive w := by
  obtain ⟨results, calls, returned⟩ := w
  obtain ⟨hkeyed, rfl, rfl⟩ := h
  exact
    { keyed := hkeyed
      once := List.nodup_nil
      drawn := fun r hr => nomatch hr
      taken := fun r hr => nomatch hr
      stands := fun c hc => nomatch hc }

/-! ## Runs -/

theorem exclusive_of_reachable {w : ClaimWorld} (h : Reachable ClaimWorld.Fresh ClaimStep w) : Exclusive w :=
  h.invariant (fun _ => Exclusive.start) fun _ _ => Exclusive.step

theorem Exclusive.holders_le_one {w : ClaimWorld} (h : Exclusive w) (id : ℕ) : (w.holders id).length ≤ 1 := by
  have hcount : (w.handed.map Prod.snd).count id ≤ 1 := List.nodup_iff_count_le_one.mp h.once id
  rw [List.count, List.countP_map, List.countP_eq_length_filter] at hcount
  rw [ClaimWorld.holders, List.length_map]
  exact hcount

theorem claimEach_steps {ledger : Ledger} {now : ℤ} {scope : ClaimScope} {aoas claimed : List Double}
    {results results' : Results} (h : claimEach ledger now scope (fun _ => none) aoas results = some (claimed, results'))
    (keys : List String) (held : List Hold) : ∃ held', Relation.ReflTransGen ClaimStep ⟨results, [⟨scope, keys, aoas, held⟩], []⟩
      ⟨results', [⟨scope, keys, [], held'⟩], []⟩ ∧
        held'.map (fun hold => hold.cell.aoaDeg) = claimed.reverse ++ held.map fun hold => hold.cell.aoaDeg := by
  induction aoas generalizing results claimed held with
  | nil =>
    cases h
    exact ⟨held, .refl, rfl⟩
  | cons aoa rest ih =>
    obtain ⟨⟨id, results₁⟩, hone, h⟩ := Option.bind_eq_some_iff.mp h
    obtain ⟨⟨later, results₂⟩, hrest, h⟩ := Option.bind_eq_some_iff.mp h
    cases h
    have hfree : ¬ locked ([] ++ []) (scope.cell aoa) := fun ⟨_, hcall, _⟩ => nomatch hcall
    have hstep := @ClaimStep.claim ⟨results, [⟨scope, keys, aoa :: rest, held⟩], []⟩ [] [] ⟨scope, keys, aoa :: rest, held⟩
      aoa rest ledger now id results₁ rfl rfl hfree hone
    cases id with
    | none =>
      obtain ⟨held', hsteps, hheld⟩ := ih hrest held
      exact ⟨held', hsteps.head hstep, hheld⟩
    | some id =>
      obtain ⟨held', hsteps, hheld⟩ := ih hrest (⟨scope.cell aoa, id, results.rows.find? (scope.cell aoa)⟩ :: held)
      refine ⟨held', hsteps.head hstep, ?_⟩
      rw [hheld, Option.isSome_some, if_pos rfl, List.reverse_cons, List.append_assoc]
      rfl

/-- Every gap found is claimed by any registered job, a batch is of one airfoil, one revision and one priority class, and
of the calls that run at once at most one is returned a row that was not set back. -/
theorem gaps_claimed_once {α : Type} [LinearOrder α] (collate : String → α) :
    (∀ (expiredAt now : ℤ) (limit : ℕ) (db db' : Database) (gaps : List Gap),
      findGaps collate expiredAt now limit db = some (gaps, db') → ∀ gap ∈ gaps, ∀ simJobId : String,
        (db'.ledger.jobs.find? simJobId).isSome = true → ∀ aoas : List Double,
          (∀ aoa ∈ aoas, Binary64.isFinite aoa = true) → gap.aoaDeg ∈ aoas → ∀ units : ProgressiveUnits,
            ∃ claimed db'',
              claimAoas db' now ⟨gap.airfoilId, gap.bcId, gap.presetRevisionId, simJobId⟩ aoas units =
                some (claimed, db'') ∧ gap.aoaDeg ∈ claimed) ∧
    (∀ (gaps : List Gap) (batch : ContinuousBatch), firstBatch gaps = some batch →
      ∃ head rest, gaps = head :: rest ∧ ∀ aoa ∈ batch.aoas, ∃ gap ∈ gaps, gap.aoaDeg = aoa ∧
        gap.airfoilId = head.airfoilId ∧ gap.presetRevisionId = head.presetRevisionId ∧
          (10 ≤ gap.priority ↔ 10 ≤ head.priority)) ∧
    ∀ w : ClaimWorld, Reachable ClaimWorld.Fresh ClaimStep w → ∀ id : ℕ, (w.holders id).length ≤ 1 := by
  refine ⟨?_, ?_, ?_⟩
  · intro expiredAt now limit db db' gaps hfound gap hgap simJobId hjob aoas haoas hmem units
    exact claimAoas_of_gap hfound hgap hjob haoas hmem units
  · intro gaps batch hbatch
    cases gaps with
    | nil => cases hbatch
    | cons head rest =>
      refine ⟨head, rest, rfl, fun aoa haoa => ?_⟩
      obtain ⟨head', rest', heq, gap, hgap, hbeside, haoa⟩ := (mem_firstBatch hbatch).mp haoa
      cases heq
      exact ⟨gap, hgap, haoa, besideHead_iff.mp hbeside⟩
  · intro w hreach
    exact (exclusive_of_reachable hreach).holders_le_one

def newAirfoil : Database where
  ledger :=
    { airfoils := [⟨"airfoil", "naca0012", none, none⟩]
      presets := [⟨"preset", true, .all, "sweep", some "bc"⟩]
      revisions := [⟨"revision", "preset", 1, 200000⟩]
      boundaryConditions := ["bc"]
      sweeps := [⟨"sweep", Binary64.lit 0, Binary64.lit 0, Binary64.lit 1, some [2]⟩]
      targets := []
      retries := .empty
      obligations := []
      promises := .empty
      points := []
      jobs := ⟨[("job", none)], by decide⟩ }
  results := { rows := .empty, nextId := 0 }

theorem new_airfoil_claimed : ∃ gaps db', findGaps id 0 0 500 newAirfoil = some (gaps, db') ∧ ∃ gap ∈ gaps,
    ∃ claimed db'', claimAoas db' 0 ⟨gap.airfoilId, gap.bcId, gap.presetRevisionId, "job"⟩ [gap.aoaDeg] (fun _ => none) =
      some (claimed, db'') ∧ gap.aoaDeg ∈ claimed := by
  let gap : Gap := ⟨"airfoil", "bc", "preset", "revision", Binary64.lit 2, 0, 200000, "naca0012"⟩
  have hgaps : (findGaps id 0 0 500 newAirfoil).map Prod.fst = some [gap] := by decide +kernel
  have hjob : (findGaps id 0 0 500 newAirfoil).map (fun r => (r.2.ledger.jobs.find? "job").isSome) = some true := by
    decide +kernel
  cases hfound : findGaps id 0 0 500 newAirfoil with
  | none =>
    rw [hfound] at hgaps
    cases hgaps
  | some found =>
    obtain ⟨gaps, db'⟩ := found
    rw [hfound, Option.map_some, Option.some.injEq] at hgaps hjob
    dsimp only at hgaps hjob
    subst hgaps
    have hfinite : ∀ aoa ∈ [gap.aoaDeg], Binary64.isFinite aoa = true := by decide +kernel
    exact ⟨_, db', rfl, gap, List.mem_cons_self, (gaps_claimed_once id).1 0 0 500 newAirfoil db' _ hfound gap
      List.mem_cons_self "job" hjob [gap.aoaDeg] hfinite List.mem_cons_self fun _ => none⟩

end XFoilFoam.Sweeper.Gaps
