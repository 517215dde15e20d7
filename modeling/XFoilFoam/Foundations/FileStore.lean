import Mathlib.Data.List.Infix
import Mathlib.Data.List.Basic
import Mathlib.Logic.Function.Basic

/-! A tree of files as a map from paths, and the runs that put directories and new files into it. -/
namespace XFoilFoam
set_option autoImplicit false

namespace FileStore
variable {α β : Type}

inductive Entry (β : Type) where
  | directory
  | file (content : β)
  deriving DecidableEq

abbrev Store (α β : Type) := List α → Option (Entry β)

def isFile : Option (Entry β) → Bool
  | some (.file _) => true
  | _ => false

structure Placement (α β : Type) where
  path : List α
  content : Option β
  deriving DecidableEq

/-! ## Operations -/

def root : Store α β := fun path => if path.isEmpty then some .directory else none

section Operations
variable [DecidableEq α]

/-- Makes a directory and its parents; those that stand already are left. -/
def makeDirs (store : Store α β) (path : List α) : Option (Store α β) :=
  if path.inits.any (fun above => isFile (store above)) then none
  else some fun q => if q.isPrefixOf path then some .directory else store q

def createNew (store : Store α β) (path : List α) (content : β) : Option (Store α β) :=
  match store path, store path.dropLast with
  | none, some .directory => some (Function.update store path (some (.file content)))
  | _, _ => none

/-- A directory with its parents, or a new file in a directory made for it. -/
def place (store : Store α β) (p : Placement α β) : Option (Store α β) :=
  match p.content with
  | none => makeDirs store p.path
  | some content => (makeDirs store p.path.dropLast).bind fun made => createNew made p.path content

def placeAll (store : Store α β) (ps : List (Placement α β)) : Option (Store α β) :=
  ps.foldlM place store

end Operations

/-! ## What a store holds -/

/-- The files placed, and as directories the root, what lies above them and what was placed so. -/
structure Holds (store : Store α β) (placed : List (Placement α β)) : Prop where
  file : ∀ path content, store path = some (.file content) ↔ ⟨path, some content⟩ ∈ placed
  directory : ∀ path, store path = some .directory ↔
    path = [] ∨ ∃ p ∈ placed, path <+: p.path ∧ (p.content.isSome → path ≠ p.path)

/-- No file of the two lies above the other. -/
def Apart (p q : Placement α β) : Prop :=
  (p.content.isSome → ¬ p.path <+: q.path) ∧ (q.content.isSome → ¬ q.path <+: p.path)

instance : Std.Symm (Apart : Placement α β → Placement α β → Prop) := ⟨fun _ _ h => ⟨h.2, h.1⟩⟩

def Named (p : Placement α β) : Prop := p.content.isSome → p.path ≠ []

theorem prefix_dropLast_iff {q path : List α} (hne : q ≠ path) : q <+: path.dropLast ↔ q <+: path := by
  constructor
  · intro h
    exact h.trans (List.dropLast_prefix path)
  · rintro ⟨rest, rfl⟩
    have hrest : rest ≠ [] := by
      intro h
      rw [h, List.append_nil] at hne
      exact hne rfl
    rw [List.dropLast_append_of_ne_nil hrest]
    exact List.prefix_append q _

theorem holds_root : Holds (root : Store α β) [] where
  file := by
    intro path content
    cases path <;> simp [root]
  directory := by
    intro path
    cases path <;> simp [root]

section Steps
variable [DecidableEq α] {store store' : Store α β} {placed : List (Placement α β)}

theorem makeDirs_eq_some (path : List α) :
    makeDirs store path = some store' ↔ (∀ above, above <+: path → isFile (store above) = false) ∧
      (fun q => if q.isPrefixOf path then some Entry.directory else store q) = store' := by
  have hcheck : path.inits.any (fun above => isFile (store above)) = false ↔
      ∀ above, above <+: path → isFile (store above) = false := by
    simp [List.any_eq_false, List.mem_inits]
  rw [makeDirs]
  split
  · next h =>
    constructor
    · exact fun hnone => nomatch hnone
    · intro hclear
      rw [hcheck.mpr hclear.1] at h
      cases h
  · next h =>
    rw [Bool.not_eq_true] at h
    rw [Option.some.injEq]
    exact (and_iff_right (hcheck.mp h)).symm

theorem createNew_eq_some {path : List α} {content : β} :
    createNew store path content = some store' ↔ store path = none ∧
      store path.dropLast = some .directory ∧
      Function.update store path (some (.file content)) = store' := by
  rw [createNew]
  split
  · next hnone hparent => simp [hnone, hparent]
  · next hother =>
    constructor
    · exact fun h => nomatch h
    · rintro ⟨hnone, hparent, -⟩
      exact (hother hnone hparent).elim

omit [DecidableEq α] in
theorem Holds.isFile_iff (h : Holds store placed) (path : List α) :
    isFile (store path) = true ↔ ∃ p ∈ placed, p.path = path ∧ p.content.isSome := by
  constructor
  · intro hfile
    cases hentry : store path with
    | none =>
      rw [hentry] at hfile
      cases hfile
    | some entry =>
      cases entry with
      | directory =>
        rw [hentry] at hfile
        cases hfile
      | file content => exact ⟨_, (h.file path content).mp hentry, rfl, rfl⟩
  · rintro ⟨⟨path, content⟩, hp, rfl, hsome⟩
    obtain ⟨content, rfl⟩ := Option.isSome_iff_exists.mp hsome
    rw [(h.file _ content).mpr hp]
    rfl

omit [DecidableEq α] in
theorem Holds.clear_iff (h : Holds store placed) (path : List α) :
    (∀ above, above <+: path → isFile (store above) = false) ↔
      ∀ p ∈ placed, p.content.isSome → ¬ p.path <+: path := by
  constructor
  · intro hclear p hp hsome habove
    have hfile := (h.isFile_iff p.path).mpr ⟨p, hp, rfl, hsome⟩
    rw [hclear p.path habove] at hfile
    cases hfile
  · intro hclear above habove
    rw [← Bool.not_eq_true, h.isFile_iff]
    rintro ⟨p, hp, rfl, hsome⟩
    exact hclear p hp hsome habove

theorem Holds.makeDirs (h : Holds store placed) {path : List α}
    (hclear : ∀ p ∈ placed, p.content.isSome → ¬ p.path <+: path) :
    Holds (fun q => if q.isPrefixOf path then some Entry.directory else store q)
      (placed ++ [⟨path, none⟩]) where
  file := by
    intro q content
    rw [List.mem_append, List.mem_singleton, ← h.file]
    split
    · next habove =>
      rw [List.isPrefixOf_iff_prefix] at habove
      have hnot : store q ≠ some (.file content) := by
        intro hfile
        exact hclear _ ((h.file q content).mp hfile) rfl habove
      simp [hnot]
    · simp
  directory := by
    intro q
    have hadd : (∃ p ∈ placed ++ [⟨path, none⟩], q <+: p.path ∧ (p.content.isSome → q ≠ p.path)) ↔
        (∃ p ∈ placed, q <+: p.path ∧ (p.content.isSome → q ≠ p.path)) ∨ q <+: path := by
      simp [or_and_right, exists_or]
    rw [hadd, ← or_assoc, ← h.directory]
    by_cases habove : q <+: path
    · simp [List.isPrefixOf_iff_prefix.mpr habove, habove]
    · have hfalse : q.isPrefixOf path = false := by
        rw [← Bool.not_eq_true, List.isPrefixOf_iff_prefix]
        exact habove
      simp [hfalse, habove]

theorem Holds.place_iff (h : Holds store placed) (p : Placement α β)
    (hfresh : p.path ∉ placed.map Placement.path) :
    (∃ store', place store p = some store') ↔ Named p ∧ ∀ q ∈ placed, Apart q p := by
  have hdistinct : ∀ q ∈ placed, q.path ≠ p.path := by
    intro q hq heq
    exact hfresh (heq ▸ List.mem_map_of_mem hq)
  obtain ⟨path, content⟩ := p
  cases content with
  | none =>
    simp only [place, makeDirs_eq_some, h.clear_iff, Named, Apart]
    simp
  | some content =>
    have habove : (∀ q ∈ placed, q.content.isSome → ¬ q.path <+: path.dropLast) ↔
        ∀ q ∈ placed, q.content.isSome → ¬ q.path <+: path := by
      refine forall₂_congr fun q hq => ?_
      rw [prefix_dropLast_iff (hdistinct q hq)]
    simp only [place, Option.bind_eq_some_iff, makeDirs_eq_some, h.clear_iff, habove,
      createNew_eq_some, Named, Apart]
    constructor
    · rintro ⟨_, _, ⟨hclear, rfl⟩, hnone, -, -⟩
      have hdown : ¬ path.isPrefixOf path.dropLast := by
        intro hpre
        simp [hpre] at hnone
      have hstore : store path = none := by simpa [hdown] using hnone
      refine ⟨fun _ hnil => ?_, fun q hq => ⟨hclear q hq, fun _ hbelow => ?_⟩⟩
      · rw [hnil, (h.directory []).mpr (.inl rfl)] at hstore
        cases hstore
      · rw [(h.directory path).mpr (.inr ⟨q, hq, hbelow, fun _ => (hdistinct q hq).symm⟩)] at hstore
        cases hstore
    · rintro ⟨hnamed, hapart⟩
      have hne : path ≠ [] := hnamed rfl
      have hdown : path.isPrefixOf path.dropLast = false := by
        rw [← Bool.not_eq_true, List.isPrefixOf_iff_prefix]
        intro hpre
        have hlength := hpre.length_le
        rw [List.length_dropLast] at hlength
        have := List.length_pos_iff.mpr hne
        omega
      have hstore : store path = none := by
        cases hentry : store path with
        | none => rfl
        | some entry =>
          cases entry with
          | directory =>
            obtain hnil | ⟨q, hq, hbelow, -⟩ := (h.directory path).mp hentry
            · exact (hne hnil).elim
            · exact ((hapart q hq).2 rfl hbelow).elim
          | file other => exact (hdistinct _ ((h.file path other).mp hentry) rfl).elim
      refine ⟨_, _, ⟨fun q hq => (hapart q hq).1, rfl⟩, ?_, ?_, rfl⟩
      · simpa [hdown] using hstore
      · simp [List.isPrefixOf_iff_prefix.mpr (List.prefix_refl _)]

theorem Holds.createNew {path : List α} {content : β}
    (h : Holds store (placed ++ [⟨path.dropLast, none⟩])) (hnamed : path ≠ [])
    (hbelow : ∀ q ∈ placed, ¬ path <+: q.path) :
    Holds (Function.update store path (some (.file content))) (placed ++ [⟨path, some content⟩]) where
  file := by
    intro q other
    by_cases hq : q = path
    · subst hq
      have hnot : ⟨q, some other⟩ ∉ placed := fun hmem => hbelow _ hmem List.prefix_rfl
      simp [hnot, eq_comm]
    · rw [Function.update_of_ne hq, h.file]
      simp [hq]
  directory := by
    intro q
    have hadd (last : Placement α β) :
        (∃ p ∈ placed ++ [last], q <+: p.path ∧ (p.content.isSome → q ≠ p.path)) ↔
          (∃ p ∈ placed, q <+: p.path ∧ (p.content.isSome → q ≠ p.path)) ∨
            (q <+: last.path ∧ (last.content.isSome → q ≠ last.path)) := by
      simp [or_and_right, exists_or]
    rw [hadd]
    by_cases hq : q = path
    · subst hq
      have hnot : ¬ ∃ p ∈ placed, q <+: p.path ∧ (p.content.isSome → q ≠ p.path) := by
        rintro ⟨p, hp, hpre, -⟩
        exact hbelow p hp hpre
      simp [hnot, hnamed]
    · rw [Function.update_of_ne hq, h.directory, hadd, prefix_dropLast_iff hq]
      simp [hq]

theorem Holds.place (h : Holds store placed) {p : Placement α β}
    (hfresh : p.path ∉ placed.map Placement.path) (hplace : place store p = some store') :
    Holds store' (placed ++ [p]) := by
  obtain ⟨hnamed, hapart⟩ := (h.place_iff p hfresh).mp ⟨store', hplace⟩
  obtain ⟨path, content⟩ := p
  cases content with
  | none =>
    simp only [FileStore.place, makeDirs_eq_some, h.clear_iff] at hplace
    obtain ⟨hclear, rfl⟩ := hplace
    exact h.makeDirs hclear
  | some content =>
    simp only [FileStore.place, Option.bind_eq_some_iff, makeDirs_eq_some, h.clear_iff,
      createNew_eq_some] at hplace
    obtain ⟨made, ⟨hclear, rfl⟩, -, -, rfl⟩ := hplace
    exact (h.makeDirs hclear).createNew (hnamed rfl) fun q hq => (hapart q hq).2 rfl

/-! ## Runs -/

/-- Placements at distinct paths are all made exactly when the files among them have a name and no
file lies above another placement. -/
theorem Holds.placeAll_iff (h : Holds store placed) (ps : List (Placement α β))
    (hdistinct : ((placed ++ ps).map Placement.path).Nodup) :
    (∃ store', placeAll store ps = some store') ↔
      (∀ p ∈ ps, Named p) ∧ ps.Pairwise Apart ∧ ∀ q ∈ placed, ∀ p ∈ ps, Apart q p := by
  induction ps generalizing store placed with
  | nil => simp [placeAll]
  | cons p ps ih =>
    have hfresh : p.path ∉ placed.map Placement.path := by
      rw [List.map_append, List.map_cons] at hdistinct
      intro hmem
      exact (List.nodup_append.mp hdistinct).2.2 _ hmem _ List.mem_cons_self rfl
    have hdistinct' : (((placed ++ [p]) ++ ps).map Placement.path).Nodup := by simpa using hdistinct
    have hsplit : (∃ store', placeAll store (p :: ps) = some store') ↔
        ∃ made, FileStore.place store p = some made ∧ ∃ store', placeAll made ps = some store' := by
      simp only [placeAll, List.foldlM_cons, Option.bind_eq_bind, Option.bind_eq_some_iff]
      constructor
      · rintro ⟨store', made, hmade, hrest⟩
        exact ⟨made, hmade, store', hrest⟩
      · rintro ⟨made, hmade, store', hrest⟩
        exact ⟨store', made, hmade, hrest⟩
    rw [hsplit, List.forall_mem_cons, List.pairwise_cons]
    constructor
    · rintro ⟨made, hmade, hrest⟩
      obtain ⟨hnamed, hbefore⟩ := (h.place_iff p hfresh).mp ⟨made, hmade⟩
      obtain ⟨hnames, hpairs, hacross⟩ := (ih (h.place hfresh hmade) hdistinct').mp hrest
      refine ⟨⟨hnamed, hnames⟩, ⟨fun q hq => ?_, hpairs⟩, fun q hq => ?_⟩
      · exact hacross p (by simp) q hq
      · rw [List.forall_mem_cons]
        exact ⟨hbefore q hq, hacross q (List.mem_append_left _ hq)⟩
    · rintro ⟨⟨hnamed, hnames⟩, ⟨hhead, hpairs⟩, hacross⟩
      obtain ⟨made, hmade⟩ := (h.place_iff p hfresh).mpr
        ⟨hnamed, fun q hq => hacross q hq p List.mem_cons_self⟩
      refine ⟨made, hmade, (ih (h.place hfresh hmade) hdistinct').mpr ⟨hnames, hpairs, ?_⟩⟩
      intro q hq r hr
      obtain hq | hq := List.mem_append.mp hq
      · exact hacross q hq r (List.mem_cons_of_mem _ hr)
      · rw [List.mem_singleton] at hq
        subst hq
        exact hhead r hr

theorem Holds.placeAll (h : Holds store placed) {ps : List (Placement α β)}
    (hdistinct : ((placed ++ ps).map Placement.path).Nodup) (hall : placeAll store ps = some store') :
    Holds store' (placed ++ ps) := by
  induction ps generalizing store placed with
  | nil =>
    cases hall
    rwa [List.append_nil]
  | cons p ps ih =>
    have hfresh : p.path ∉ placed.map Placement.path := by
      rw [List.map_append, List.map_cons] at hdistinct
      intro hmem
      exact (List.nodup_append.mp hdistinct).2.2 _ hmem _ List.mem_cons_self rfl
    simp only [FileStore.placeAll, List.foldlM_cons, Option.bind_eq_bind,
      Option.bind_eq_some_iff] at hall
    obtain ⟨made, hmade, hrest⟩ := hall
    have hholds := ih (h.place hfresh hmade) (by simpa using hdistinct) hrest
    rwa [List.append_assoc] at hholds

end Steps

end FileStore

end XFoilFoam
