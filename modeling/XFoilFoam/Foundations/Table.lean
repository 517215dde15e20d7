import Mathlib.Algebra.Order.BigOperators.Group.List
import Mathlib.Data.List.Nodup
import Mathlib.Tactic.Abel
import Mathlib.Algebra.Ring.Int.Defs

/-! Tables with a primary key: lookups, row updates and bulk updates that keep the keys. -/
namespace XFoilFoam
set_option autoImplicit false

variable {κ ρ : Type}

/-- Rows in insertion order; no key stands twice. -/
structure Table (κ ρ : Type) where
  rows : List (κ × ρ)
  nodup : (rows.map Prod.fst).Nodup
deriving DecidableEq

namespace Table

def empty : Table κ ρ := ⟨[], List.nodup_nil⟩

theorem keys_map (rows : List (κ × ρ)) (f : κ → ρ → ρ) :
    (rows.map fun r => (r.1, f r.1 r.2)).map Prod.fst = rows.map Prod.fst := by
  rw [List.map_map]
  rfl

/-- A bulk update: every row is rewritten, no key changes. -/
def map (t : Table κ ρ) (f : κ → ρ → ρ) : Table κ ρ :=
  ⟨t.rows.map fun r => (r.1, f r.1 r.2), by rw [keys_map]; exact t.nodup⟩

theorem map_map (t : Table κ ρ) (f g : κ → ρ → ρ) : (t.map f).map g = t.map fun k r => g k (f k r) := by
  simp only [map, List.map_map, Function.comp_def]

def retype {ρ' : Type} (t : Table κ ρ) (f : ρ → ρ') : Table κ ρ' :=
  ⟨t.rows.map fun r => (r.1, f r.2), by rw [List.map_map]; exact t.nodup⟩

section Keys
variable [DecidableEq κ]

def find? (t : Table κ ρ) (k : κ) : Option ρ :=
  (t.rows.find? fun r => r.1 = k).map Prod.snd

/-- The update of the one row under a key; a missing key changes nothing. -/
def modify (t : Table κ ρ) (k : κ) (f : ρ → ρ) : Table κ ρ :=
  t.map fun k' r => if k' = k then f r else r

/-- An insertion; a key already present is refused. -/
def insert? (t : Table κ ρ) (k : κ) (r : ρ) : Option (Table κ ρ) :=
  if h : k ∈ t.rows.map Prod.fst then none
  else some ⟨t.rows ++ [(k, r)], by
    rw [List.map_append, List.map_singleton]
    exact List.nodup_append.2 ⟨t.nodup, List.nodup_singleton k, by
      intro a ha b hb hab
      rw [List.mem_singleton] at hb
      rw [hab, hb] at ha
      exact h ha⟩⟩

def set (t : Table κ ρ) (k : κ) (r : ρ) : Table κ ρ :=
  (t.insert? k r).getD (t.modify k fun _ => r)

def erase (t : Table κ ρ) (k : κ) : Table κ ρ :=
  ⟨t.rows.filter fun r => r.1 ≠ k, t.nodup.sublist (List.filter_sublist.map Prod.fst)⟩

/-! ## Lookups -/

omit [DecidableEq κ] in
theorem key_mem {rows : List (κ × ρ)} {k : κ} {r : ρ} (h : (k, r) ∈ rows) :
    k ∈ rows.map Prod.fst := List.mem_map.2 ⟨(k, r), h, rfl⟩

theorem find?_some_iff {t : Table κ ρ} {k : κ} {r : ρ} :
    t.find? k = some r ↔ (k, r) ∈ t.rows := by
  obtain ⟨rows, hrows⟩ := t
  simp only [find?]
  induction rows with
  | nil => simp
  | cons row rows ih =>
    obtain ⟨k', r'⟩ := row
    rw [List.map_cons, List.nodup_cons] at hrows
    by_cases hk : k' = k
    · subst hk
      have hnot : (k', r) ∉ rows := fun hmem => hrows.1 (key_mem hmem)
      simp [hnot, eq_comm]
    · have hk' : ¬ k = k' := fun h => hk h.symm
      rw [List.find?_cons_of_neg (by simpa using hk), ih hrows.2]
      simp [hk']

theorem mem_of_find? {t : Table κ ρ} {k : κ} {r : ρ} (h : t.find? k = some r) :
    (k, r) ∈ t.rows := find?_some_iff.1 h

theorem find?_of_mem {t : Table κ ρ} {k : κ} {r : ρ} (h : (k, r) ∈ t.rows) :
    t.find? k = some r := find?_some_iff.2 h

theorem map_eq_map_iff {t : Table κ ρ} {f g : κ → ρ → ρ} :
    t.map f = t.map g ↔ ∀ k r, t.find? k = some r → f k r = g k r := by
  constructor
  · intro h k r hfind
    have hrows := List.map_inj_left.mp (congrArg rows h) (k, r) (mem_of_find? hfind)
    exact congrArg Prod.snd hrows
  · intro h
    simp only [map, mk.injEq]
    refine List.map_congr_left fun row hrow => ?_
    rw [h row.1 row.2 (find?_of_mem hrow)]

@[simp] theorem find?_map (t : Table κ ρ) (f : κ → ρ → ρ) (k : κ) :
    (t.map f).find? k = (t.find? k).map (f k) := by
  simp only [find?, map, List.find?_map, Option.map_map]
  cases h : t.rows.find? ((fun r => decide (r.1 = k)) ∘ fun r => (r.1, f r.1 r.2)) with
  | none =>
    rw [show t.rows.find? (fun r => decide (r.1 = k)) = none from h]
    rfl
  | some row =>
    rw [show t.rows.find? (fun r => decide (r.1 = k)) = some row from h]
    have hk : row.1 = k := by simpa using List.find?_some h
    simp [hk]

theorem find?_retype {ρ' : Type} (t : Table κ ρ) (f : ρ → ρ') (k : κ) :
    (t.retype f).find? k = (t.find? k).map f := by
  rw [Option.ext_iff]
  intro r'
  rw [find?_some_iff, Option.map_eq_some_iff, retype, List.mem_map]
  constructor
  · rintro ⟨⟨k₀, r⟩, hrow, hkey⟩
    cases hkey
    exact ⟨r, find?_of_mem hrow, rfl⟩
  · rintro ⟨r, hr, rfl⟩
    exact ⟨(k, r), mem_of_find? hr, rfl⟩

theorem find?_modify (t : Table κ ρ) (k k' : κ) (f : ρ → ρ) :
    (t.modify k f).find? k' = if k' = k then (t.find? k').map f else t.find? k' := by
  rw [modify, find?_map]
  split <;> simp

@[simp] theorem find?_modify_self (t : Table κ ρ) (k : κ) (f : ρ → ρ) :
    (t.modify k f).find? k = (t.find? k).map f := by
  simp [find?_modify]

theorem find?_modify_ne (t : Table κ ρ) {k k' : κ} (f : ρ → ρ) (h : k' ≠ k) :
    (t.modify k f).find? k' = t.find? k' := by
  simp [find?_modify, h]

@[simp] theorem find?_empty (k : κ) : (empty : Table κ ρ).find? k = none := rfl

theorem insert?_rows {t t' : Table κ ρ} {k : κ} {r : ρ} (h : t.insert? k r = some t') :
    k ∉ t.rows.map Prod.fst ∧ t'.rows = t.rows ++ [(k, r)] := by
  unfold insert? at h
  split at h
  · cases h
  · cases h
    exact ⟨‹_›, rfl⟩

theorem find?_insert {t t' : Table κ ρ} {k k' : κ} {r r' : ρ} (h : t.insert? k r = some t') :
    t'.find? k' = some r' ↔ t.find? k' = some r' ∨ k' = k ∧ r' = r := by
  obtain ⟨-, hrows⟩ := insert?_rows h
  rw [find?_some_iff, find?_some_iff, hrows]
  simp

theorem exists_insert {t : Table κ ρ} {k : κ} (h : t.find? k = none) (r : ρ) :
    ∃ t', t.insert? k r = some t' := by
  have hk : k ∉ t.rows.map Prod.fst := by
    intro hmem
    obtain ⟨⟨k', r'⟩, hrow, rfl⟩ := List.mem_map.1 hmem
    rw [find?_of_mem hrow] at h
    cases h
  exact ⟨_, dif_neg hk⟩

theorem find?_eq_none {t : Table κ ρ} {k : κ} (h : k ∉ t.rows.map Prod.fst) : t.find? k = none := by
  cases hfind : t.find? k with
  | none => rfl
  | some r => exact absurd (key_mem (mem_of_find? hfind)) h

theorem find?_set (t : Table κ ρ) (k k' : κ) (r : ρ) :
    (t.set k r).find? k' = if k' = k then some r else t.find? k' := by
  rw [set]
  cases hins : t.insert? k r with
  | some t' =>
    have hfind (r' : ρ) : t'.find? k' = some r' ↔ t.find? k' = some r' ∨ k' = k ∧ r' = r := find?_insert hins
    have hnone : t.find? k = none := find?_eq_none (insert?_rows hins).1
    rw [Option.getD_some, Option.ext_iff]
    intro r'
    rw [hfind]
    by_cases hk : k' = k
    · subst hk
      simp [hnone, eq_comm]
    · simp [hk]
  | none =>
    rw [Option.getD_none, find?_modify]
    by_cases hk : k' = k
    · subst hk
      cases hfind : t.find? k' with
      | none =>
        obtain ⟨t', hsome⟩ := exists_insert hfind r
        rw [hins] at hsome
        cases hsome
      | some r' => rfl
    · simp [hk]

@[simp] theorem find?_set_self (t : Table κ ρ) (k : κ) (r : ρ) : (t.set k r).find? k = some r := by
  simp [find?_set]

theorem find?_erase (t : Table κ ρ) (k k' : κ) :
    (t.erase k).find? k' = if k' = k then none else t.find? k' := by
  rw [Option.ext_iff]
  intro r
  rw [find?_some_iff, erase, List.mem_filter]
  by_cases hk : k' = k
  · simp [hk]
  · simp [hk, find?_some_iff]

theorem set_ne_empty (t : Table κ ρ) (k : κ) (r : ρ) : (t.set k r).rows ≠ [] := by
  intro hnil
  have hmem := mem_of_find? (find?_set_self t k r)
  rw [hnil] at hmem
  cases hmem

theorem mem_erase {t : Table κ ρ} {k : κ} {row : κ × ρ} : row ∈ (t.erase k).rows ↔ row ∈ t.rows ∧ row.1 ≠ k := by
  rw [erase, List.mem_filter, decide_eq_true_iff]

omit [DecidableEq κ] in
theorem length_le_one {t : Table κ ρ} {k : κ} (h : ∀ row ∈ t.rows, row.1 = k) : t.rows.length ≤ 1 := by
  have hkeys : t.rows.map Prod.fst = List.replicate t.rows.length k :=
    List.eq_replicate_iff.mpr ⟨List.length_map _, fun k' hk' => by
      obtain ⟨row, hrow, rfl⟩ := List.mem_map.mp hk'
      exact h row hrow⟩
  have hnodup := t.nodup
  rw [hkeys, List.nodup_replicate] at hnodup
  exact hnodup

theorem length_erase {t : Table κ ρ} {k : κ} {r : ρ} (h : t.find? k = some r) :
    (t.erase k).rows.length + 1 = t.rows.length := by
  have hsplit := List.length_eq_countP_add_countP (fun row : κ × ρ => decide (row.1 ≠ k)) (l := t.rows)
  have hone : t.rows.countP (fun row => decide (¬ decide (row.1 ≠ k) = true)) = 1 := by
    have hkeys : t.rows.countP (fun row => decide (¬ decide (row.1 ≠ k) = true)) = (t.rows.map Prod.fst).count k := by
      rw [List.count, List.countP_map]
      refine List.countP_congr fun row _ => ?_
      simp
    rw [hkeys, List.count_eq_one_of_mem t.nodup (key_mem (mem_of_find? h))]
  rw [hone, List.countP_eq_length_filter] at hsplit
  exact hsplit.symm

theorem rows_of_erase_empty {t : Table κ ρ} {k : κ} {r : ρ} (h : t.find? k = some r) (hempty : (t.erase k).rows = []) :
    t.rows = [(k, r)] := by
  have hone := length_erase h
  rw [hempty, List.length_nil, Nat.zero_add] at hone
  obtain ⟨row, hrow⟩ := List.length_eq_one_iff.mp hone.symm
  have hmem := mem_of_find? h
  rw [hrow, List.mem_singleton] at hmem
  rw [hrow, hmem]

/-! ## Totals over the rows -/

def total (t : Table κ ρ) {M : Type} [AddCommMonoid M] (g : ρ → M) : M :=
  (t.rows.map fun r => g r.2).sum

omit [DecidableEq κ] in
theorem total_map {M : Type} [AddCommMonoid M] (t : Table κ ρ) (f : κ → ρ → ρ) (g : ρ → M)
    (h : ∀ k r, g (f k r) = g r) : (t.map f).total g = t.total g := by
  simp [total, map, Function.comp_def, h]

theorem total_insert {M : Type} [AddCommMonoid M] {t t' : Table κ ρ} {k : κ} {r : ρ} (g : ρ → M)
    (h : t.insert? k r = some t') : t'.total g = t.total g + g r := by
  simp [total, (insert?_rows h).2]

theorem total_modify {M : Type} [AddCommGroup M] {t : Table κ ρ} {k : κ} {r : ρ} (f : ρ → ρ)
    (g : ρ → M) (h : t.find? k = some r) :
    (t.modify k f).total g = t.total g + (g (f r) - g r) := by
  obtain ⟨rows, hrows⟩ := t
  have hmem : (k, r) ∈ rows := mem_of_find? h
  clear h
  simp only [total, modify, map, List.map_map]
  induction rows with
  | nil => cases hmem
  | cons row rows ih =>
    obtain ⟨k', r'⟩ := row
    rw [List.map_cons, List.nodup_cons] at hrows
    rw [List.map_cons, List.map_cons, List.sum_cons, List.sum_cons]
    rcases List.mem_cons.1 hmem with heq | hin
    · cases heq
      -- the key stands only here, so the rest of the table is left as it is
      have hrest : rows.map ((fun r => g r.2) ∘ fun r => (r.1, if r.1 = k then f r.2 else r.2)) =
          rows.map fun r => g r.2 := by
        apply List.map_congr_left
        intro row hrow
        have hne : row.1 ≠ k := fun he => hrows.1 (he ▸ key_mem hrow)
        simp [hne]
      rw [hrest]
      simp
      abel
    · have hne : k' ≠ k := fun he => hrows.1 (he ▸ key_mem hin)
      rw [ih hrows.2 hin]
      simp [hne]
      abel

/-! ## Counting rows -/

def count (t : Table κ ρ) (p : ρ → Bool) : ℕ := t.rows.countP fun r => p r.2

omit [DecidableEq κ] in
theorem count_eq_total (t : Table κ ρ) (p : ρ → Bool) :
    (t.count p : ℤ) = t.total fun r => if p r then (1 : ℤ) else 0 := by
  obtain ⟨rows, hrows⟩ := t
  simp only [count, total]
  clear hrows
  induction rows with
  | nil => rfl
  | cons row rows ih =>
    rw [List.countP_cons, Nat.cast_add, ih, List.map_cons, List.sum_cons, add_comm]
    split <;> simp

theorem count_modify {t : Table κ ρ} {k : κ} {r : ρ} (f : ρ → ρ) (p : ρ → Bool)
    (h : t.find? k = some r) :
    ((t.modify k f).count p : ℤ) =
      t.count p + ((if p (f r) then 1 else 0) - if p r then 1 else 0) := by
  rw [count_eq_total, count_eq_total, total_modify f _ h]

end Keys

end Table

end XFoilFoam
