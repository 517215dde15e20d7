import XFoilFoam.Caches.Eviction

/-! What a pass of eviction leaves, with no other worker in between. -/
namespace XFoilFoam.Caches
open KeyOrder
set_option autoImplicit false

variable {F : Type} {host : Host F} {cache : EngineCache} {d d' : Disk} {e e' : EntryPath}

/-! ## Removal -/

theorem mem_foldl_erase {t : Table String File} {row : String × File} (names : List String) :
    row ∈ (names.foldl (fun t name => t.erase name) t).rows ↔ row ∈ t.rows ∧ row.1 ∉ names := by
  induction names generalizing t with
  | nil => simp
  | cons name names ih =>
    rw [List.foldl_cons, ih, Table.mem_erase, List.mem_cons, not_or, and_assoc]

theorem unlink_other (path : String) (h : e' ≠ e) : (unlink e path d).entries.find? e' = d.entries.find? e' :=
  Table.find?_modify_ne _ _ h

theorem foldl_unlink (e : EntryPath) (names : List String) (d : Disk) :
    (names.foldl (fun d path => unlink e path d) d).engines = d.engines ∧
      (∀ e' ≠ e, (names.foldl (fun d path => unlink e path d) d).entries.find? e' = d.entries.find? e') ∧
      (names.foldl (fun d path => unlink e path d) d).entries.find? e =
        (d.entries.find? e).map fun dir =>
          { dir with files := names.foldl (fun t name => t.erase name) dir.files } := by
  induction names generalizing d with
  | nil =>
    refine ⟨rfl, fun _ _ => rfl, ?_⟩
    cases hfind : d.entries.find? e <;> simp [hfind]
  | cons name names ih =>
    obtain ⟨hengines, hothers, hown⟩ := ih (unlink e name d)
    refine ⟨hengines, fun e' hne => (hothers e' hne).trans (unlink_other name hne), ?_⟩
    rw [List.foldl_cons, hown, unlink, Table.find?_modify_self, Option.map_map]
    rfl

def Gone (e : EntryPath) (d d' : Disk) : Prop :=
  d'.engines = d.engines ∧ ∀ e', d'.entries.find? e' = if e' = e then none else d.entries.find? e'

theorem rmtree_run (e : EntryPath) (d : Disk) : ∃ d', (rmtree e).run d = (.ok (), d') ∧ Gone e d d' := by
  simp only [rmtree, Task.bind_eq, Task.run_bind, Task.run_read, Task.run_each_modify, Task.run_modify]
  refine ⟨_, rfl, ?_⟩
  cases hfind : d.entries.find? e with
  | none =>
    refine ⟨?_, fun e' => ?_⟩
    · simp [rmdir, hfind]
    · simp only [Option.map_none, Option.getD_none, List.foldl_nil, rmdir, hfind]
      split
      · next heq => rw [heq, hfind]
      · rfl
  | some dir =>
    rw [Option.map_some, Option.getD_some]
    obtain ⟨hengines, hothers, hown⟩ := foldl_unlink e (dir.files.rows.map Prod.fst) d
    rw [hfind, Option.map_some] at hown
    have hempty : ((dir.files.rows.map Prod.fst).foldl (fun t name => t.erase name) dir.files).rows = [] := by
      refine List.eq_nil_iff_forall_not_mem.mpr fun row hrow => ?_
      rw [mem_foldl_erase] at hrow
      exact hrow.2 (List.mem_map_of_mem hrow.1)
    simp only [rmdir, hown]
    rw [if_pos hempty]
    refine ⟨hengines, fun e' => ?_⟩
    change (Table.erase _ e).find? e' = _
    rw [Table.find?_erase]
    split
    · rfl
    · next hne => exact hothers e' hne

theorem not_live_trash (host : Host F) (e : EntryPath) (uuid : ℕ) : live (host.trash e uuid).name = false := by
  simp [live, Host.trash]

def LiveGone (e : EntryPath) (d d' : Disk) : Prop :=
  d'.engines = d.engines ∧
    ∀ e', live e'.name → d'.entries.find? e' = if e' = e then none else d.entries.find? e'

theorem rename_true {src dst : EntryPath} (h : (rename src dst d).1 = true) :
    ∃ dir, (rename src dst d).2 = { d with entries := (d.entries.erase src).set dst dir } := by
  cases hsrc : d.entries.find? src with
  | none => simp [rename, hsrc] at h
  | some dir =>
    refine ⟨dir, ?_⟩
    cases hdst : d.entries.find? dst with
    | none => simp only [rename, hsrc, hdst]
    | some other =>
      by_cases hempty : other.files.rows = []
      · simp only [rename, hsrc, hdst, if_pos hempty]
      · simp [rename, hsrc, hdst, hempty] at h

theorem rename_false {src dst : EntryPath} (h : (rename src dst d).1 = false) : (rename src dst d).2 = d := by
  cases hsrc : d.entries.find? src with
  | none => simp only [rename, hsrc]
  | some dir =>
    cases hdst : d.entries.find? dst with
    | none => simp [rename, hsrc, hdst] at h
    | some other =>
      by_cases hempty : other.files.rows = []
      · simp [rename, hsrc, hdst, hempty] at h
      · simp only [rename, hsrc, hdst, if_neg hempty]

theorem removeEntry_run (host : Host F) (e : EntryPath) (d : Disk) :
    ∃ d', (host.removeEntry e).run d = (.ok (), d') ∧ LiveGone (host.real e) d d' := by
  have hne {e' : EntryPath} (h : live e'.name = true) (uuid : ℕ) : e' ≠ host.real (host.trash e uuid) := by
    rintro rfl
    rw [show (host.real (host.trash e uuid)).name = (host.trash e uuid).name from rfl, not_live_trash] at h
    cases h
  simp only [Host.removeEntry, newUuid, Task.bind_eq, Task.run_bind, Task.run_update]
  cases hrename : (rename (host.real e) (host.real (host.trash e d.uuids)) { d with uuids := d.uuids + 1 }).1 with
  | true =>
    obtain ⟨dir, hmoved⟩ := rename_true hrename
    obtain ⟨d', hrun, hengines, hgone⟩ := rmtree_run (host.real (host.trash e d.uuids))
      (rename (host.real e) (host.real (host.trash e d.uuids)) { d with uuids := d.uuids + 1 }).2
    refine ⟨d', by simpa using hrun, by rw [hengines, hmoved], fun e' hlive' => ?_⟩
    rw [hgone, if_neg (hne hlive' _), hmoved]
    change (Table.set _ _ _).find? e' = _
    rw [Table.find?_set, if_neg (hne hlive' _), Table.find?_erase]
  | false =>
    obtain ⟨d', hrun, hengines, hgone⟩ := rmtree_run (host.real e)
      (rename (host.real e) (host.real (host.trash e d.uuids)) { d with uuids := d.uuids + 1 }).2
    rw [rename_false hrename] at hengines hgone
    exact ⟨d', by simpa using hrun, hengines, fun e' _ => hgone e'⟩

/-! ## Listings -/

/-- The live entries stay as they are. -/
def SameLive (d d' : Disk) : Prop :=
  d'.engines = d.engines ∧ ∀ e, live e.name → d'.entries.find? e = d.entries.find? e

theorem SameLive.trans {d₁ d₂ d₃ : Disk} (h : SameLive d₁ d₂) (h' : SameLive d₂ d₃) : SameLive d₁ d₃ :=
  ⟨h'.1.trans h.1, fun e he => (h'.2 e he).trans (h.2 e he)⟩

theorem sweepDir_run (hdot : live e.name = false) (d : Disk) :
    ∃ d', (Host.sweepDir e).run d = (.ok (), d') ∧ SameLive d d' := by
  simp only [Host.sweepDir, Task.bind_eq, Task.run_bind, Task.run_read]
  split
  · obtain ⟨d', hrun, hengines, hgone⟩ := rmtree_run e d
    refine ⟨d', hrun, hengines, fun e' hlive => ?_⟩
    rw [hgone, if_neg]
    rintro rfl
    rw [hdot] at hlive
    cases hlive
  · exact ⟨d, rfl, rfl, fun _ _ => rfl⟩

theorem each_sameLive {β : Type} {f : β → Act Unit} {bs : List β} (d : Disk)
    (h : ∀ b ∈ bs, ∀ d, ∃ d', (f b).run d = (.ok (), d') ∧ SameLive d d') :
    ∃ d', (Task.each f bs).run d = (.ok (), d') ∧ SameLive d d' := by
  refine Task.run_each (P := SameLive d) ⟨rfl, fun _ _ => rfl⟩ fun b hb d₁ hd₁ => ?_
  obtain ⟨d₂, hrun, hsame⟩ := h b hb d₁
  exact ⟨d₂, hrun, hd₁.trans hsame⟩

theorem sweepNamespace_run (host : Host F) (root : Path) (d : Disk) :
    ∃ d', (host.sweepNamespace root).run d = (.ok (), d') ∧ SameLive d d' := by
  simp only [Host.sweepNamespace, Task.bind_eq, Task.run_bind, Task.run_read]
  obtain ⟨d₁, hstages, hsame₁⟩ := @each_sameLive _ Host.sweepStage
    ((d.stages.rows.map Prod.fst).filter fun stage => stage.1 = host.resolve root) d fun stage _ d => by
      refine ⟨_, rfl, ?_⟩
      cases hfind : d.stages.find? stage with
      | none => exact ⟨by simp only [hfind], fun e _ => by simp only [hfind]⟩
      | some dir =>
        simp only [hfind]
        split <;> exact ⟨rfl, fun _ _ => rfl⟩
  rw [hstages]
  dsimp only
  obtain ⟨d₂, hshelves, hsame₂⟩ := @each_sameLive _ (Host.sweepShelf (host.resolve root))
    (.mesh :: (d₁.groups (host.resolve root)).map .seed) d₁ fun shelf _ d => by
      simp only [Host.sweepShelf, Task.bind_eq, Task.run_bind, Task.run_read]
      refine each_sameLive d fun e he d => sweepDir_run ?_ d
      have hdot := (of_decide_eq_true (List.mem_filter.mp he).2).2.2
      exact Bool.eq_false_iff.mpr hdot
  exact ⟨d₂, hshelves, hsame₁.trans hsame₂⟩

theorem sweepStaleTmp_run (host : Host F) (cache : EngineCache) (d : Disk) :
    ∃ d', (host.sweepStaleTmp cache).run d = (.ok (), d') ∧ SameLive d d' := by
  simp only [Host.sweepStaleTmp, EngineCache.namespaceRoots, Task.bind_eq, Task.run_bind, Task.run_read]
  exact each_sameLive d fun root _ d => sweepNamespace_run host root d

namespace Host

def shelfEntries (host : Host F) (d : Disk) (root : Path) (shelf : Shelf) : List EntryPath :=
  (d.names (host.resolve root) shelf).map fun name => ⟨root, shelf, name⟩

def namespaceEntries (host : Host F) (d : Disk) (root : Path) : List EntryPath :=
  host.shelfEntries d root .mesh ++
    ((d.groups (host.resolve root)).map fun group => host.shelfEntries d root (.seed group)).flatten

/-- What `_entry_dirs` lists. -/
def entries (host : Host F) (cache : EngineCache) (d : Disk) : List EntryPath :=
  ((cache.rootsOf host d.engines).map (host.namespaceEntries d)).flatten

end Host

theorem entryDirs_run (host : Host F) (cache : EngineCache) (d : Disk) :
    (host.entryDirs cache).run d = (.ok (host.entries cache d), d) := by
  have hnamespace (root : Path) : (host.namespaceEntryDirs root).run d = (.ok (host.namespaceEntries d root), d) := by
    simp only [Host.namespaceEntryDirs, Host.liveDirs, Task.bind_eq, Task.run_bind, Task.run_read]
    rw [Task.run_collect fun group _ => Task.run_read _ _]
    rfl
  simp only [Host.entryDirs, EngineCache.namespaceRoots, Task.bind_eq, Task.run_bind, Task.run_read]
  rw [Task.run_collect fun root _ => hnamespace root]
  rfl

theorem mem_names {root : Path} {shelf : Shelf} {name : String} :
    name ∈ d.names root shelf ↔ live name = true ∧ d.entries.find? ⟨root, shelf, name⟩ ≠ none := by
  rw [Disk.names, List.mem_filter, List.mem_filterMap, and_comm, Option.ne_none_iff_exists']
  refine and_congr_right fun _ => ⟨?_, ?_⟩
  · rintro ⟨⟨⟨root', shelf', name'⟩, dir⟩, hrow, hname⟩
    split at hname
    · next hplace =>
      obtain ⟨rfl, rfl⟩ := hplace
      cases hname
      exact ⟨dir, Table.find?_of_mem hrow⟩
    · cases hname
  · rintro ⟨dir, hfind⟩
    exact ⟨(⟨root, shelf, name⟩, dir), Table.mem_of_find? hfind, if_pos ⟨rfl, rfl⟩⟩

theorem mem_groups_of_find? {root : Path} {group name : String} {dir : Directory} (hgroup : live group = true)
    (h : d.entries.find? ⟨root, .seed group, name⟩ = some dir) : group ∈ d.groups root := by
  rw [Disk.groups, List.mem_filter, List.mem_dedup, List.mem_filterMap]
  exact ⟨⟨_, Table.mem_of_find? h, if_pos rfl⟩, hgroup⟩

/-- A shelf that `_namespace_entry_dirs` looks into. -/
def Shelf.listed : Shelf → Bool
  | .mesh => true
  | .seed group => live group

theorem mem_entries : e ∈ host.entries cache d ↔
    e.root ∈ cache.rootsOf host d.engines ∧ e.shelf.listed ∧ live e.name = true ∧
      d.entries.find? (host.real e) ≠ none := by
  obtain ⟨root, shelf, name⟩ := e
  simp only [Host.entries, Host.namespaceEntries, Host.shelfEntries, List.mem_flatten, List.mem_map]
  constructor
  · rintro ⟨_, ⟨root', hroot, rfl⟩, hmem⟩
    rw [List.mem_append, List.mem_map, List.mem_flatten] at hmem
    obtain ⟨name', hname, heq⟩ | ⟨_, hlist, hmem⟩ := hmem
    · cases heq
      exact ⟨hroot, rfl, mem_names.mp hname⟩
    · obtain ⟨group, hgroup, rfl⟩ := List.mem_map.mp hlist
      obtain ⟨name', hname, heq⟩ := List.mem_map.mp hmem
      have hlive : live group = true := (List.mem_filter.mp hgroup).2
      cases heq
      exact ⟨hroot, hlive, mem_names.mp hname⟩
  · rintro ⟨hroot, hlisted, hname⟩
    refine ⟨_, ⟨root, hroot, rfl⟩, ?_⟩
    rw [List.mem_append, List.mem_map, List.mem_flatten]
    cases shelf with
    | mesh => exact .inl ⟨name, mem_names.mpr hname, rfl⟩
    | seed group =>
      obtain ⟨dir, hfind⟩ := Option.ne_none_iff_exists'.mp hname.2
      exact .inr ⟨_, List.mem_map.mpr ⟨group, mem_groups_of_find? hlisted hfind, rfl⟩,
        List.mem_map.mpr ⟨name, mem_names.mpr hname, rfl⟩⟩

theorem uniqueRoots_spec (resolve : Path → Path) (roots seen : List Path) :
    (∀ root ∈ uniqueRoots resolve roots seen, resolve root ∉ seen) ∧
      ((uniqueRoots resolve roots seen).map resolve).Nodup := by
  induction roots generalizing seen with
  | nil => exact ⟨fun _ h => absurd h List.not_mem_nil, List.nodup_nil⟩
  | cons root roots ih =>
    rw [uniqueRoots]
    split
    · exact ih seen
    · next hnew =>
      obtain ⟨hfresh, hnodup⟩ := ih (resolve root :: seen)
      refine ⟨fun r hr => ?_, ?_⟩
      · obtain rfl | hr := List.mem_cons.mp hr
        · exact hnew
        · exact fun hmem => hfresh r hr (List.mem_cons_of_mem _ hmem)
      · rw [List.map_cons, List.nodup_cons]
        refine ⟨fun hmem => ?_, hnodup⟩
        obtain ⟨r, hr, heq⟩ := List.mem_map.mp hmem
        exact hfresh r hr (heq ▸ List.mem_cons_self)

theorem rootsOf_nodup (host : Host F) (cache : EngineCache) (engines : List String) :
    ((cache.rootsOf host engines).map host.resolve).Nodup := (uniqueRoots_spec host.resolve _ []).2

theorem names_nodup (d : Disk) (root : Path) (shelf : Shelf) : (d.names root shelf).Nodup := by
  refine List.Nodup.filter _ ?_
  rw [show (fun r : EntryPath × Directory => if r.1.root = root ∧ r.1.shelf = shelf then some r.1.name else none) =
      (fun e : EntryPath => if e.root = root ∧ e.shelf = shelf then some e.name else none) ∘ Prod.fst from rfl,
    ← List.filterMap_map]
  refine List.Nodup.filterMap (fun e e' name hname hname' => ?_) d.entries.nodup
  obtain ⟨_, _, _⟩ := e
  obtain ⟨_, _, _⟩ := e'
  simp only [Option.mem_def, Option.ite_none_right_eq_some, Option.some.injEq] at hname hname'
  obtain ⟨⟨rfl, rfl⟩, rfl⟩ := hname
  obtain ⟨⟨rfl, rfl⟩, rfl⟩ := hname'
  rfl

theorem shelfEntries_nodup (host : Host F) (d : Disk) (root : Path) (shelf : Shelf) :
    (host.shelfEntries d root shelf).Nodup :=
  (names_nodup d _ _).map fun _ _ h => by cases h; rfl

theorem mem_shelfEntries {root : Path} {shelf : Shelf} (h : e ∈ host.shelfEntries d root shelf) :
    e.root = root ∧ e.shelf = shelf := by
  obtain ⟨name, -, rfl⟩ := List.mem_map.mp h
  exact ⟨rfl, rfl⟩

theorem namespaceEntries_nodup (host : Host F) (d : Disk) (root : Path) : (host.namespaceEntries d root).Nodup := by
  refine List.Nodup.append (shelfEntries_nodup host d root .mesh) ?_ ?_
  · refine List.nodup_flatten.mpr ⟨fun l hl => ?_, ?_⟩
    · obtain ⟨group, -, rfl⟩ := List.mem_map.mp hl
      exact shelfEntries_nodup host d root _
    · rw [List.pairwise_map]
      refine List.Pairwise.imp (fun {group group'} hne e he he' => ?_) (List.Nodup.filter _ (List.nodup_dedup _))
      have hshelf := (mem_shelfEntries he).2.symm.trans (mem_shelfEntries he').2
      cases hshelf
      exact hne rfl
  · intro e he he'
    obtain ⟨l, hl, hmem⟩ := List.mem_flatten.mp he'
    obtain ⟨group, -, rfl⟩ := List.mem_map.mp hl
    have hshelf := (mem_shelfEntries he).2.symm.trans (mem_shelfEntries hmem).2
    cases hshelf

theorem mem_namespaceEntries {root : Path} (h : e ∈ host.namespaceEntries d root) : e.root = root := by
  obtain h | h := List.mem_append.mp h
  · exact (mem_shelfEntries h).1
  · obtain ⟨l, hl, hmem⟩ := List.mem_flatten.mp h
    obtain ⟨group, -, rfl⟩ := List.mem_map.mp hl
    exact (mem_shelfEntries hmem).1

theorem entries_nodup (host : Host F) (cache : EngineCache) (d : Disk) :
    ((host.entries cache d).map host.real).Nodup := by
  have hroots := rootsOf_nodup host cache d.engines
  have hlisted : (host.entries cache d).Nodup := by
    refine List.nodup_flatten.mpr ⟨fun l hl => ?_, ?_⟩
    · obtain ⟨root, -, rfl⟩ := List.mem_map.mp hl
      exact namespaceEntries_nodup host d root
    · rw [List.pairwise_map]
      refine List.Pairwise.imp (fun {root root'} hne e he he' => ?_) hroots.of_map
      exact hne ((mem_namespaceEntries he).symm.trans (mem_namespaceEntries he'))
  refine hlisted.map_on fun e he e' he' heq => ?_
  obtain ⟨root, shelf, name⟩ := e
  obtain ⟨root', shelf', name'⟩ := e'
  simp only [Host.real, EntryPath.mk.injEq] at heq
  obtain ⟨hroot, rfl, rfl⟩ := heq
  have hsame : root = root' :=
    List.inj_on_of_nodup_map hroots (mem_entries.mp he).1 (mem_entries.mp he').1 hroot
  rw [hsame]

/-! ## Recorded sizes -/

def Host.recorded (host : Host F) (e : EntryPath) (d : Disk) : Option Host.Scanned := do
  let file ← host.file? e manifestName d
  let manifest ← host.loads file.bytes
  match manifest.byteSize with
  | .given size => some ⟨file.mtime, size, e⟩
  | _ => none

theorem recorded_entryDir {s : Host.Scanned} (h : host.recorded e d = some s) : s.entryDir = e := by
  simp only [Host.recorded, Option.bind_eq_bind, Option.bind_eq_some_iff] at h
  obtain ⟨file, -, manifest, -, h⟩ := h
  split at h
  · cases h
    rfl
  · cases h

theorem need_run {α : Type} {f : Disk → Option α} {a : α} (error : String) (h : f d = some a) :
    (need f error).run d = (.ok a, d) := by
  simp only [need, Task.run, h]
  rfl

theorem recorded_eq_some {s : Host.Scanned} (h : host.recorded e d = some s) :
    ∃ file manifest, host.file? e manifestName d = some file ∧ host.loads file.bytes = some manifest ∧
      manifest.byteSize = .given s.size ∧ file.mtime = s.lastUsed := by
  simp only [Host.recorded, Option.bind_eq_bind, Option.bind_eq_some_iff] at h
  obtain ⟨file, hfile, manifest, hloads, h⟩ := h
  split at h
  · next size hsize =>
    cases h
    exact ⟨file, manifest, hfile, hloads, hsize, rfl⟩
  · cases h

theorem readManifest_run {file : File} {manifest : Manifest F} (hfile : host.file? e manifestName d = some file)
    (hloads : host.loads file.bytes = some manifest) : (host.readManifest e).run d = (.ok manifest, d) :=
  need_run _ (by rw [hfile]; exact hloads)

theorem scanEntry_run {s : Host.Scanned} (h : host.recorded e d = some s) :
    (host.scanEntry e).run d = (.ok (some s), d) := by
  obtain ⟨file, manifest, hfile, hloads, hsize, hused⟩ := recorded_eq_some h
  refine Task.run_handle_ok ?_ _
  have hstat : (need (fun d => (host.file? e manifestName d).map File.mtime) "stat").run d = (.ok s.lastUsed, d) :=
    need_run _ (by rw [hfile, Option.map_some, hused])
  rw [Task.bind_eq, Task.run_bind_ok (readManifest_run hfile hloads), hsize]
  simp only [Field.get, Task.bind_eq, Task.run_bind, Task.run_done, hstat]
  rw [← recorded_entryDir h]

theorem totalBytes_run (hvalid : ∀ e ∈ host.entries cache d, (host.recorded e d).isSome) :
    (host.totalBytes cache).run d = (.ok (Host.total ((host.entries cache d).filterMap (host.recorded · d))), d) := by
  simp only [Host.totalBytes, Task.bind_eq, Task.run_bind, entryDirs_run]
  rw [Task.run_collect (g := fun e => ((host.recorded e d).map Host.Scanned.size).getD 0)]
  · have hsum : ∀ es : List EntryPath, (∀ e ∈ es, (host.recorded e d).isSome) →
        (es.map fun e => ((host.recorded e d).map Host.Scanned.size).getD 0).sum =
          Host.total (es.filterMap (host.recorded · d)) := by
      intro es hes
      induction es with
      | nil => rfl
      | cons e es ih =>
        obtain ⟨s, hs⟩ := Option.isSome_iff_exists.mp (hes e List.mem_cons_self)
        rw [List.map_cons, List.sum_cons, ih fun e' he' => hes e' (List.mem_cons_of_mem e he'), List.filterMap_cons, hs]
        rfl
    simp only [Task.run_done, hsum _ hvalid]
  · intro e he
    obtain ⟨s, hs⟩ := Option.isSome_iff_exists.mp (hvalid e he)
    obtain ⟨file, manifest, hfile, hloads, hsize, -⟩ := recorded_eq_some hs
    refine Task.run_handle_ok ?_ _
    rw [Task.run_bind_ok (readManifest_run hfile hloads), hsize, hs]
    rfl

/-! ## The pass -/

theorem evictLoop_run (host : Host F) (maxBytes : ℤ) (entries : List Host.Scanned) (total : ℤ) (d : Disk) :
    ∃ removed kept, entries = removed ++ kept ∧
      (host.evictLoop maxBytes total entries).run d =
        (Task.each host.removeEntry (removed.map Host.Scanned.entryDir)).run d ∧
      (total - Host.total removed ≤ maxBytes ∨ kept = []) ∧ (total ≤ maxBytes → removed = []) := by
  induction entries generalizing total d with
  | nil => exact ⟨[], [], rfl, rfl, .inr rfl, fun _ => rfl⟩
  | cons entry entries ih =>
    by_cases hfits : total ≤ maxBytes
    · refine ⟨[], entry :: entries, rfl, ?_, .inl ?_, fun _ => rfl⟩
      · rw [Host.evictLoop, if_pos hfits]
        rfl
      · rw [Host.total, List.map_nil, List.sum_nil, sub_zero]
        exact hfits
    · obtain ⟨d', hremove, -⟩ := removeEntry_run host entry.entryDir d
      obtain ⟨removed, kept, rfl, hrun, hrest, -⟩ := ih (total - entry.size) d'
      refine ⟨entry :: removed, kept, rfl, ?_, hrest.imp_left fun hle => ?_, fun h => absurd h hfits⟩
      · rw [Host.evictLoop, if_neg hfits, Task.run_bind_ok hremove, hrun, List.map_cons, Task.each,
          Task.run_bind_ok hremove]
      · rw [Host.total, List.map_cons, List.sum_cons]
        rw [Host.total] at hle
        omega

theorem each_removeEntry_run (host : Host F) (es : List EntryPath) (d : Disk) :
    ∃ d', (Task.each host.removeEntry es).run d = (.ok (), d') ∧ d'.engines = d.engines ∧
      ∀ e, live e.name → d'.entries.find? e = if e ∈ es.map host.real then none else d.entries.find? e := by
  induction es generalizing d with
  | nil => exact ⟨d, rfl, rfl, fun _ _ => rfl⟩
  | cons e es ih =>
    obtain ⟨d₁, hremove, hengines₁, hgone₁⟩ := removeEntry_run host e d
    obtain ⟨d₂, hrest, hengines₂, hgone₂⟩ := ih d₁
    refine ⟨d₂, by rw [Task.each, Task.run_bind_ok hremove, hrest], hengines₂.trans hengines₁, fun e' hlive => ?_⟩
    rw [hgone₂ e' hlive, hgone₁ e' hlive, List.map_cons]
    by_cases hown : e' = host.real e
    · simp [hown]
    · simp [hown]

/-- The pass takes the least recently used entries, each once, and no more than it must. -/
structure EvictsOldest (host : Host F) (cache : EngineCache) (d : Disk) (removed kept : List Host.Scanned) : Prop where
  sorted : (removed ++ kept).Pairwise fun s t => s.lastUsed ≤ t.lastUsed
  all : ∀ s, s ∈ removed ++ kept ↔ s.entryDir ∈ host.entries cache d ∧ host.recorded s.entryDir d = some s
  once : ((removed ++ kept).map fun s => host.real s.entryDir).Nodup
  removes : ∃ swept, (host.sweepStaleTmp cache).run d = (.ok (), swept) ∧
    (host.evictLocked cache).run d = (Task.each host.removeEntry (removed.map Host.Scanned.entryDir)).run swept
  leaves : ∀ e, e ∈ host.entries cache ((host.evictLocked cache).run d).2 ↔ ∃ s ∈ kept, s.entryDir = e
  untouched : ∀ s ∈ kept, host.dir? s.entryDir ((host.evictLocked cache).run d).2 = host.dir? s.entryDir d
  fits : ((host.totalBytes cache).run ((host.evictLocked cache).run d).2).1 = .ok (Host.total kept) ∧
    (Host.total kept ≤ cache.maxBytes ∨ kept = [])
  spares : ∀ total, ((host.totalBytes cache).run d).1 = .ok total → total ≤ cache.maxBytes → removed = []

theorem SameLive.entries_iff (h : SameLive d d') : e ∈ host.entries cache d' ↔ e ∈ host.entries cache d := by
  rw [mem_entries, mem_entries, h.1]
  refine and_congr_right fun _ => and_congr_right fun _ => and_congr_right fun hlive => ?_
  rw [h.2 (host.real e) hlive]

theorem recorded_congr (h : host.dir? e d' = host.dir? e d) : host.recorded e d' = host.recorded e d := by
  simp only [Host.recorded, Host.file?, h]

theorem live_of_mem (h : e ∈ host.entries cache d) : live e.name = true := (mem_entries.mp h).2.2.1

theorem evictLocked_run (hvalid : ∀ e ∈ host.entries cache d, (host.recorded e d).isSome) :
    ∃ swept removed kept, (host.sweepStaleTmp cache).run d = (.ok (), swept) ∧ SameLive d swept ∧
      sortBy Host.Scanned.lastUsed ((host.entries cache swept).filterMap (host.recorded · d)) = removed ++ kept ∧
      (host.evictLocked cache).run d =
        (Task.each host.removeEntry (removed.map Host.Scanned.entryDir)).run swept ∧
      (Host.total kept ≤ cache.maxBytes ∨ kept = []) ∧
      (Host.total (removed ++ kept) ≤ cache.maxBytes → removed = []) := by
  obtain ⟨swept, hsweep, hsame⟩ := sweepStaleTmp_run host cache d
  have hrecorded : ∀ e ∈ host.entries cache swept, host.recorded e swept = host.recorded e d := fun e he =>
    recorded_congr (hsame.2 (host.real e) (show live e.name = true from live_of_mem he))
  have hscan : (Task.collect host.scanEntry (host.entries cache swept)).run swept =
      (.ok ((host.entries cache swept).map (host.recorded · d)), swept) := by
    refine Task.run_collect fun e he => ?_
    obtain ⟨s, hs⟩ := Option.isSome_iff_exists.mp (hvalid e (hsame.entries_iff.mp he))
    rw [hs]
    exact scanEntry_run ((hrecorded e he).trans hs)
  have hrun : (host.evictLocked cache).run d =
      (if Host.total ((host.entries cache swept).filterMap (host.recorded · d)) ≤ cache.maxBytes then
        (.done () : Act Unit)
      else host.evictLoop cache.maxBytes (Host.total ((host.entries cache swept).filterMap (host.recorded · d)))
        (sortBy Host.Scanned.lastUsed ((host.entries cache swept).filterMap (host.recorded · d)))).run swept := by
    simp only [Host.evictLocked, Task.bind_eq, Task.run_bind, hsweep, entryDirs_run, hscan]
    rw [List.filterMap_map]
    rfl
  have htotal : Host.total (sortBy Host.Scanned.lastUsed ((host.entries cache swept).filterMap (host.recorded · d))) =
      Host.total ((host.entries cache swept).filterMap (host.recorded · d)) :=
    ((sortBy_perm _ _).map Host.Scanned.size).sum_eq
  obtain ⟨removed, kept, hsorted, hloop, hrest, hspares⟩ := evictLoop_run host cache.maxBytes
    (sortBy Host.Scanned.lastUsed ((host.entries cache swept).filterMap (host.recorded · d)))
    (Host.total ((host.entries cache swept).filterMap (host.recorded · d))) swept
  have hsplit : Host.total ((host.entries cache swept).filterMap (host.recorded · d)) =
      Host.total removed + Host.total kept := by
    rw [← htotal, hsorted, Host.total, List.map_append, List.sum_append]
    rfl
  refine ⟨swept, removed, kept, hsweep, hsame, hsorted, ?_, ?_, fun hfits => hspares ?_⟩
  · rw [hrun]
    split
    · next hfits =>
      rw [hspares hfits]
      rfl
    · exact hloop
  · refine hrest.imp_left fun hle => ?_
    omega
  · rw [← htotal, hsorted]
    exact hfits

structure Split (host : Host F) (cache : EngineCache) (d : Disk) (removed kept : List Host.Scanned) : Prop where
  all : ∀ s, s ∈ removed ++ kept ↔ s.entryDir ∈ host.entries cache d ∧ host.recorded s.entryDir d = some s
  once : ((removed ++ kept).map fun s => host.real s.entryDir).Nodup

def Removes (host : Host F) (removed : List Host.Scanned) (d d' : Disk) : Prop :=
  d'.engines = d.engines ∧ ∀ e, live e.name →
    d'.entries.find? e = if e ∈ removed.map (fun s => host.real s.entryDir) then none else d.entries.find? e

section Split
variable {removed kept : List Host.Scanned} {s : Host.Scanned}

theorem map_filterMap_recorded (host : Host F) (d : Disk) (es : List EntryPath)
    (h : ∀ e ∈ es, (host.recorded e d).isSome) :
    ((es.filterMap (host.recorded · d)).map fun s => host.real s.entryDir) = es.map host.real := by
  induction es with
  | nil => rfl
  | cons e es ih =>
    obtain ⟨s, hs⟩ := Option.isSome_iff_exists.mp (h e List.mem_cons_self)
    rw [List.filterMap_cons, hs, List.map_cons, List.map_cons, recorded_entryDir hs,
      ih fun e' he' => h e' (List.mem_cons_of_mem e he')]

theorem split_of_sorted {swept : Disk} (hvalid : ∀ e ∈ host.entries cache d, (host.recorded e d).isSome)
    (hsame : SameLive d swept)
    (hsorted : sortBy Host.Scanned.lastUsed ((host.entries cache swept).filterMap (host.recorded · d)) = removed ++ kept) :
    Split host cache d removed kept := by
  refine ⟨fun s => ?_, ?_⟩
  · rw [← hsorted, mem_sortBy, List.mem_filterMap]
    constructor
    · rintro ⟨e, he, hs⟩
      rw [recorded_entryDir hs]
      exact ⟨hsame.entries_iff.mp he, hs⟩
    · rintro ⟨he, hs⟩
      exact ⟨s.entryDir, hsame.entries_iff.mpr he, hs⟩
  · rw [← hsorted]
    refine ((sortBy_perm _ _).map _).nodup_iff.mpr ?_
    rw [map_filterMap_recorded host d _ fun e he => hvalid e (hsame.entries_iff.mp he)]
    exact entries_nodup host cache swept

theorem Split.mem (h : Split host cache d removed kept) (hs : s ∈ removed ++ kept) :
    s.entryDir ∈ host.entries cache d := ((h.all s).mp hs).1

theorem Split.dir?_removed (h : Split host cache d removed kept) (hd : Removes host removed d d') (hs : s ∈ removed) :
    host.dir? s.entryDir d' = none := by
  have hlive : live s.entryDir.name = true := live_of_mem (h.mem (List.mem_append_left _ hs))
  rw [Host.dir?, hd.2 (host.real s.entryDir) hlive]
  exact if_pos (List.mem_map_of_mem hs)

theorem Split.dir?_kept (h : Split host cache d removed kept) (hd : Removes host removed d d') (hs : s ∈ kept) :
    host.dir? s.entryDir d' = host.dir? s.entryDir d := by
  have hlive : live s.entryDir.name = true := live_of_mem (h.mem (List.mem_append_right _ hs))
  rw [Host.dir?, hd.2 (host.real s.entryDir) hlive]
  refine if_neg fun hmap => ?_
  -- the same directory would stand on both sides
  have honce := h.once
  rw [List.map_append] at honce
  exact List.disjoint_of_nodup_append honce hmap (List.mem_map_of_mem hs)

theorem Removes.mem_iff (hd : Removes host removed d d') :
    e ∈ host.entries cache d' ↔ e ∈ host.entries cache d ∧ host.dir? e d' ≠ none := by
  rw [mem_entries, mem_entries, hd.1]
  constructor
  · rintro ⟨hroot, hshelf, hlive, hdir⟩
    refine ⟨⟨hroot, hshelf, hlive, ?_⟩, hdir⟩
    rw [hd.2 (host.real e) hlive] at hdir
    split at hdir
    · exact absurd rfl hdir
    · exact hdir
  · rintro ⟨⟨hroot, hshelf, hlive, -⟩, hdir⟩
    exact ⟨hroot, hshelf, hlive, hdir⟩

theorem Split.leaves (h : Split host cache d removed kept) (hd : Removes host removed d d')
    (hvalid : ∀ e ∈ host.entries cache d, (host.recorded e d).isSome) :
    e ∈ host.entries cache d' ↔ ∃ s ∈ kept, s.entryDir = e := by
  rw [hd.mem_iff]
  constructor
  · rintro ⟨he, hdir⟩
    obtain ⟨s, hs⟩ := Option.isSome_iff_exists.mp (hvalid e he)
    have hentry := recorded_entryDir hs
    obtain hr | hk := List.mem_append.mp ((h.all s).mpr (by rw [hentry]; exact ⟨he, hs⟩))
    · rw [← hentry] at hdir
      exact absurd (h.dir?_removed hd hr) hdir
    · exact ⟨s, hk, hentry⟩
  · rintro ⟨s, hs, rfl⟩
    have hentry := h.mem (List.mem_append_right _ hs)
    refine ⟨hentry, ?_⟩
    rw [h.dir?_kept hd hs]
    exact (mem_entries.mp hentry).2.2.2

theorem Split.entries_perm (h : Split host cache d removed kept) (hd : Removes host removed d d')
    (hvalid : ∀ e ∈ host.entries cache d, (host.recorded e d).isSome) :
    (host.entries cache d').Perm (kept.map Host.Scanned.entryDir) := by
  have honce := h.once
  rw [List.map_append] at honce
  have hkept := (List.nodup_append.mp honce).2.1
  rw [show (fun s : Host.Scanned => host.real s.entryDir) = host.real ∘ Host.Scanned.entryDir from rfl,
    ← List.map_map] at hkept
  refine (List.perm_ext_iff_of_nodup (entries_nodup host cache d').of_map hkept.of_map).mpr fun e => ?_
  rw [h.leaves hd hvalid, List.mem_map]

theorem Split.totalBytes_run (h : Split host cache d removed kept) (hd : Removes host removed d d')
    (hvalid : ∀ e ∈ host.entries cache d, (host.recorded e d).isSome) :
    (host.totalBytes cache).run d' = (.ok (Host.total kept), d') := by
  have hrecorded : ∀ s ∈ kept, host.recorded s.entryDir d' = some s := fun s hs =>
    (recorded_congr (h.dir?_kept hd hs)).trans ((h.all s).mp (List.mem_append_right _ hs)).2
  have hfilter : (kept.map Host.Scanned.entryDir).filterMap (host.recorded · d') = kept := by
    rw [List.filterMap_map]
    exact (List.filterMap_congr hrecorded).trans List.filterMap_some
  have htotal := (((h.entries_perm hd hvalid).filterMap (host.recorded · d')).map Host.Scanned.size).sum_eq
  rw [hfilter] at htotal
  rw [Caches.totalBytes_run]
  · rw [Host.total, htotal]
    rfl
  · intro e he
    obtain ⟨s, hs, rfl⟩ := (h.leaves hd hvalid).mp he
    rw [hrecorded s hs]
    rfl

end Split

theorem evicts_oldest (hvalid : ∀ e ∈ host.entries cache d, (host.recorded e d).isSome) :
    ∃ removed kept, EvictsOldest host cache d removed kept := by
  obtain ⟨swept, removed, kept, hsweep, hsame, hsorted, hrun, hfits, hspares⟩ := evictLocked_run hvalid
  have hsplit := split_of_sorted hvalid hsame hsorted
  obtain ⟨d', heach, hengines, hgone⟩ := each_removeEntry_run host (removed.map Host.Scanned.entryDir) swept
  have hafter : (host.evictLocked cache).run d = (.ok (), d') := hrun.trans heach
  have hremoves : Removes host removed d d' := by
    refine ⟨hengines.trans hsame.1, fun e hlive => ?_⟩
    rw [hgone e hlive, hsame.2 e hlive, List.map_map]
    rfl
  refine ⟨removed, kept, ?_, hsplit.all, hsplit.once, ⟨swept, hsweep, hrun⟩, ?_, ?_, ?_, fun total htotal hle => hspares ?_⟩
  · rw [← hsorted]
    exact sortBy_sorted _ _
  · rw [hafter]
    exact fun e => hsplit.leaves hremoves hvalid
  · rw [hafter]
    exact fun s => hsplit.dir?_kept hremoves
  · rw [hafter, hsplit.totalBytes_run hremoves hvalid]
    exact ⟨rfl, hfits⟩
  · rw [totalBytes_run hvalid] at htotal
    cases htotal
    have hperm : (host.entries cache swept).Perm (host.entries cache d) :=
      (List.perm_ext_iff_of_nodup (entries_nodup host cache swept).of_map (entries_nodup host cache d).of_map).mpr
        fun e => hsame.entries_iff
    rw [← hsorted, Host.total, ((sortBy_perm _ _).map Host.Scanned.size).sum_eq,
      ((hperm.filterMap (host.recorded · d)).map Host.Scanned.size).sum_eq]
    exact hle

end XFoilFoam.Caches
