import XFoilFoam.Evidence.Archive
import XFoilFoam.Foundations.FileStore
import Mathlib.Data.List.DropRight
import Mathlib.Data.List.Pairwise

/-! `extract_verified_evidence_archive`: the same checks while the members are written below a fresh
destination, and where the two readers part. -/
namespace XFoilFoam.Evidence
set_option autoImplicit false

open FileStore (Store Entry Placement makeDirs createNew place placeAll Holds Named Apart)

/-! ## The destination -/

abbrev Destination := Store PyStr (List UInt8)

/-- The destination and `selected_declared_bytes`. -/
structure Extraction where
  store : Destination
  declared : ℕ

def HasNul (parts : List PyStr) : Prop := ∃ part ∈ parts, 0 ∈ part

instance (parts : List PyStr) : Decidable (HasNul parts) :=
  inferInstanceAs (Decidable (∃ part ∈ parts, 0 ∈ part))

def onPath (parts : List PyStr) (result : Option Destination) : Except Raised Destination :=
  if HasNul parts then .error ⟨.valueError, pyText "embedded null byte"⟩
  else match result with
    | some store => .ok store
    | none => .error ⟨.osError, pyText "File exists"⟩

/-- `path.mkdir(parents=True, exist_ok=True)`. -/
def mkdir (store : Destination) (parts : List PyStr) : Except Raised Destination :=
  onPath parts (makeDirs store parts)

/-- `path.open("xb")`. -/
def openNew (store : Destination) (parts : List PyStr) : Except Raised Destination :=
  onPath parts (createNew store parts [])

/-- `output.write(chunk)`. -/
def append (store : Destination) (parts : List PyStr) (chunk : List UInt8) : Destination :=
  match store parts with
  | some (.file content) => Function.update store parts (some (.file (content ++ chunk)))
  | _ => store

def selected (includePrefixes : List PyStr) (relative : PyStr) : Bool :=
  relative == manifestName || includePrefixes.isEmpty ||
    includePrefixes.any (fun root => relative == root || (root ++ [slash]).isPrefixOf relative)

def extractor (capacity : ℕ) (includePrefixes : List PyStr) : Sink Extraction where
  directory path s :=
    if selected includePrefixes path.asPosix then
      (mkdir s.store path.parts).map fun store => { s with store := store }
    else .ok s
  openFile path size s :=
    if selected includePrefixes path.asPosix then
      if capacity < s.declared + size then
        .error ⟨.capacity, pyText "selected evidence members exceed safe local restore capacity"⟩
      else do
        let made ← mkdir s.store path.parts.dropLast
        let opened ← openNew made path.parts
        return ⟨opened, s.declared + size⟩
    else .ok s
  write path chunk s :=
    if selected includePrefixes path.asPosix then { s with store := append s.store path.parts chunk }
    else s

/-! ## The extraction -/

def Compression.name : Compression → PyStr
  | .zstd => pyText "zstd"
  | .gzip => pyText "gzip"
  | .unsupported name => name

/-- The `except` clauses around the reading. -/
def rewordUnextracted {α : Type} (compression : Compression) (archivePath : PyStr)
    (result : Except Raised α) : Except Raised α :=
  match result with
  | .ok a => .ok a
  | .error raised =>
    if raised.kind.isHydration = true then .error raised
    else match raised.kind with
      | .noSpace =>
        .error ⟨.capacity, pyText "evidence extraction exhausted safe local storage: " ++ raised.message⟩
      | .osError =>
        .error ⟨.unavailable, pyText "cannot access " ++ compression.name ++ pyText " evidence archive " ++
          archivePath ++ pyText ": " ++ raised.message⟩
      | _ =>
        .error ⟨.integrity, pyText "cannot extract " ++ compression.name ++ pyText " evidence archive " ++
          archivePath ++ pyText ": " ++ raised.message⟩

/-- `prefix.rstrip("/")`. -/
def rstripSlash (name : PyStr) : PyStr := name.rdropWhile (fun c => c == slash)

def preflight (platform : Platform) (archive : Archive) (destination : Option Destination)
    (includePrefixes : List PyStr) (pointer : Option Pointer) (verifyStoredPointer : Bool) (capacity : ℕ) :
    Except Raised (List PyStr) := do
  let _ ← (match pointer with
    | some pointer => requireRemotePointerBounds pointer
    | none => .ok () : Except Raised Unit)
  let _ ← (match pointer with
    | some pointer =>
      if verifyStoredPointer = true ∧
          (archive.storedSize ≠ pointer.storedSize ∨ archive.storedSha256 ≠ pointer.storedSha256) then
        .error ⟨.integrity, pyText "stored archive size or SHA-256 does not match pointer"⟩
      else .ok ()
    | none => .ok () : Except Raised Unit)
  if destination.isSome then
    .error ⟨.integrity, pyText "evidence extraction destination already exists"⟩
  else do
    let normalized ← includePrefixes.mapM fun name =>
      (safeTarPath platform (rstripSlash name)).map SafePath.asPosix
    if capacity = 0 then
      .error ⟨.capacity, pyText "insufficient safe free space to restore evidence"⟩
    else return normalized

def extractionReader (pointer : Option Pointer) : Reader where
  maxTarSize := pointer.elim maxLocalEvidenceTarBytes Pointer.tarSize
  tooLarge := "archive member exceeds the permitted tar size: "
  manifestLimit := .hydration

def restore (platform : Platform) (archive : Archive) (compression : Compression)
    (includePrefixes : List PyStr) (pointer : Option Pointer) (expectedManifest : Option (List UInt8))
    (capacity : ℕ) : Except Raised (ℕ × Destination) := do
  let reader := extractionReader pointer
  let stream ← (match compression with
    | .unsupported name =>
      .error ⟨.hydration, pyText "unsupported evidence archive compression: " ++ name⟩
    | supported => .ok (archive.read supported reader.maxTarSize) : Except Raised TarStream)
  let (seen, written, tar) ← rewordUnextracted compression archive.path
    (readTar platform reader (extractor capacity includePrefixes) stream ⟨FileStore.root, 0⟩)
  let _ ← (match pointer with
    | some pointer => checkTar .integrity pointer tar
    | none => .ok () : Except Raised Unit)
  let count ← authenticate platform .integrity expectedManifest seen
  return (count, written.store)

/-- `extract_verified_evidence_archive`: the result, and what stands at the destination afterwards. -/
def extractVerifiedEvidenceArchive (platform : Platform) (archive : Archive)
    (destination : Option Destination) (compression : Compression) (includePrefixes : List PyStr)
    (pointer : Option Pointer) (expectedManifest : Option (List UInt8)) (verifyStoredPointer : Bool)
    (capacity : ℕ) : Except Raised ℕ × Option Destination :=
  match preflight platform archive destination includePrefixes pointer verifyStoredPointer capacity with
  | .error raised => (.error raised, destination)
  | .ok normalized =>
    match restore platform archive compression normalized pointer expectedManifest capacity with
    | .ok (count, store) => (.ok count, some store)
    | .error raised => (.error raised, none)

/-! ## What the extraction writes -/

def placementOf (entry : Member × SafePath) : Placement PyStr (List UInt8) where
  path := entry.2.parts
  content := match entry.1.kind with
    | .directory => none
    | _ => some entry.1.content

def declaredOf (entry : Member × SafePath) : ℕ :=
  match entry.1.kind with
  | .directory => 0
  | _ => entry.1.size

theorem onPath_eq_ok {parts : List PyStr} {result : Option Destination} {store : Destination} :
    onPath parts result = .ok store ↔ ¬ HasNul parts ∧ result = some store := by
  by_cases hnul : HasNul parts
  · simp [onPath, hnul]
  · cases result <;> simp [onPath, hnul]

theorem foldl_append {store opened : Destination} {parts : List PyStr} {content : List UInt8}
    (hopened : opened = Function.update store parts (some (.file content))) (chunks : List (List UInt8)) :
    chunks.foldl (fun made chunk => append made parts chunk) opened =
      Function.update store parts (some (.file (content ++ chunks.flatten))) := by
  induction chunks generalizing opened content with
  | nil => rw [List.foldl_nil, List.flatten_nil, List.append_nil, hopened]
  | cons chunk chunks ih =>
    have happend : append opened parts chunk =
        Function.update store parts (some (.file (content ++ chunk))) := by
      rw [append, hopened, Function.update_self]
      exact Function.update_idem _ _ _
    rw [List.foldl_cons, ih happend, List.flatten_cons, List.append_assoc]

theorem createNew_appended {store opened : Destination} {parts : List PyStr}
    (h : createNew store parts [] = some opened) (chunks : List (List UInt8)) :
    createNew store parts chunks.flatten =
      some (chunks.foldl (fun made chunk => append made parts chunk) opened) := by
  obtain ⟨hnone, hparent, hopened⟩ := FileStore.createNew_eq_some.mp h
  rw [foldl_append hopened.symm, List.nil_append]
  exact FileStore.createNew_eq_some.mpr ⟨hnone, hparent, rfl⟩

theorem foldl_write (capacity : ℕ) (path : SafePath) (chunks : List (List UInt8)) (s : Extraction) :
    chunks.foldl (fun s chunk => (extractor capacity []).write path chunk s) s =
      { s with store := chunks.foldl (fun made chunk => append made path.parts chunk) s.store } := by
  induction chunks generalizing s with
  | nil => rfl
  | cons chunk chunks ih =>
    rw [List.foldl_cons, List.foldl_cons, ih]
    have hselected : selected [] path.asPosix = true := by simp [selected]
    simp only [extractor, hselected, if_true]

theorem hasNul_dropLast {parts : List PyStr} (h : ¬ HasNul parts) : ¬ HasNul parts.dropLast := by
  rintro ⟨part, hpart, hnul⟩
  exact h ⟨part, List.mem_of_mem_dropLast hpart, hnul⟩

/-- Without include prefixes every member is placed, as long as the capacity lasts and its path can be
given to the operating system. -/
theorem take_extractor {capacity : ℕ} {entry : Member × SafePath} {s s' : Extraction}
    (hcapacity : s.declared + declaredOf entry ≤ capacity) :
    (extractor capacity []).take entry s = .ok s' ↔
      ¬ HasNul entry.2.parts ∧ place s.store (placementOf entry) = some s'.store ∧
        s'.declared = s.declared + declaredOf entry := by
  obtain ⟨member, path⟩ := entry
  obtain ⟨store, declared⟩ := s
  obtain ⟨store', declared'⟩ := s'
  have hselected : selected [] path.asPosix = true := by simp [selected]
  have hdirectory : member.kind = .directory →
      ((extractor capacity []).take (member, path) ⟨store, declared⟩ = .ok ⟨store', declared'⟩ ↔
        ¬ HasNul path.parts ∧ place store (placementOf (member, path)) = some store' ∧
          declared' = declared + declaredOf (member, path)) := by
    intro hkind
    simp only [Sink.take, hkind, extractor, hselected, if_true, map_eq_ok, mkdir, onPath_eq_ok, placementOf,
      place, declaredOf, Extraction.mk.injEq, Nat.add_zero]
    constructor
    · rintro ⟨made, ⟨hnul, hmade⟩, rfl, rfl⟩
      exact ⟨hnul, hmade, rfl⟩
    · rintro ⟨hnul, hmade, rfl⟩
      exact ⟨store', ⟨hnul, hmade⟩, rfl, rfl⟩
  have hfile : member.kind ≠ .directory →
      ((extractor capacity []).take (member, path) ⟨store, declared⟩ = .ok ⟨store', declared'⟩ ↔
        ¬ HasNul path.parts ∧ place store (placementOf (member, path)) = some store' ∧
          declared' = declared + declaredOf (member, path)) := by
    intro hkind
    have hdeclared : declaredOf (member, path) = member.size := by
      rw [declaredOf]
      split
      · next h => exact (hkind h).elim
      · rfl
    have hplacement : placementOf (member, path) = ⟨path.parts, some member.content⟩ := by
      rw [placementOf]
      split
      · next h => exact (hkind h).elim
      · rfl
    have htake : (extractor capacity []).take (member, path) ⟨store, declared⟩ =
        ((extractor capacity []).openFile path member.size ⟨store, declared⟩).map fun opened =>
          member.chunks.foldl (fun s chunk => (extractor capacity []).write path chunk s) opened := by
      rw [Sink.take]
      split
      · next h => exact (hkind h).elim
      · rfl
    rw [hdeclared] at hcapacity ⊢
    rw [htake, hplacement, map_eq_ok]
    simp only [foldl_write]
    simp only [extractor, hselected, if_true, if_neg (not_lt.mpr hcapacity), place, Option.bind_eq_some_iff]
    constructor
    · rintro ⟨opened, hopened, hstore⟩
      obtain ⟨made, hmade, hopened⟩ := bind_eq_ok.mp hopened
      obtain ⟨created, hcreated, hopened⟩ := bind_eq_ok.mp hopened
      cases hopened
      cases hstore
      obtain ⟨-, hmade⟩ := onPath_eq_ok.mp hmade
      obtain ⟨hnul, hcreated⟩ := onPath_eq_ok.mp hcreated
      exact ⟨hnul, ⟨made, hmade, createNew_appended hcreated member.chunks⟩, rfl⟩
    · rintro ⟨hnul, ⟨made, hmade, hcreated⟩, rfl⟩
      obtain ⟨hnone, hparent, -⟩ := FileStore.createNew_eq_some.mp hcreated
      have hopened : createNew made path.parts ([] : List UInt8) =
          some (Function.update made path.parts (some (.file []))) :=
        FileStore.createNew_eq_some.mpr ⟨hnone, hparent, rfl⟩
      have happended := createNew_appended hopened member.chunks
      refine ⟨_, bind_eq_ok.mpr ⟨made, onPath_eq_ok.mpr ⟨hasNul_dropLast hnul, hmade⟩,
        bind_eq_ok.mpr ⟨_, onPath_eq_ok.mpr ⟨hnul, hopened⟩, rfl⟩⟩, ?_⟩
      rw [Member.content, happended, Option.some.injEq] at hcreated
      rw [← hcreated]
  by_cases hkind : member.kind = .directory
  · exact hdirectory hkind
  · exact hfile hkind

theorem takeAll_extractor {capacity : ℕ} {entries : List (Member × SafePath)} {s : Extraction}
    {store : Destination} (hcapacity : s.declared + (entries.map declaredOf).sum ≤ capacity) :
    (∃ s', (extractor capacity []).takeAll entries s = .ok s' ∧ s'.store = store) ↔
      (∀ entry ∈ entries, ¬ HasNul entry.2.parts) ∧
        placeAll s.store (entries.map placementOf) = some store := by
  induction entries generalizing s with
  | nil => simp [Sink.takeAll, placeAll]
  | cons entry entries ih =>
    rw [List.map_cons, List.sum_cons] at hcapacity
    have hsplit : (∃ s', (extractor capacity []).takeAll (entry :: entries) s = .ok s' ∧ s'.store = store) ↔
        ∃ taken, (extractor capacity []).take entry s = .ok taken ∧
          ∃ s', (extractor capacity []).takeAll entries taken = .ok s' ∧ s'.store = store := by
      constructor
      · rintro ⟨s', htaken, hstore⟩
        obtain ⟨taken, htake, hrest⟩ := bind_eq_ok.mp htaken
        exact ⟨taken, htake, s', hrest, hstore⟩
      · rintro ⟨taken, htake, s', hrest, hstore⟩
        exact ⟨s', bind_eq_ok.mpr ⟨taken, htake, hrest⟩, hstore⟩
    rw [hsplit, List.forall_mem_cons, List.map_cons, placeAll, List.foldlM_cons, Option.bind_eq_bind,
      Option.bind_eq_some_iff]
    constructor
    · rintro ⟨taken, htake, hrest⟩
      obtain ⟨hnul, hplace, hdeclared⟩ := (take_extractor (by omega)).mp htake
      obtain ⟨hnuls, hall⟩ := (ih (by omega)).mp hrest
      exact ⟨⟨hnul, hnuls⟩, _, hplace, hall⟩
    · rintro ⟨⟨hnul, hnuls⟩, made, hplace, hall⟩
      refine ⟨⟨made, s.declared + declaredOf entry⟩, (take_extractor (by omega)).mpr ⟨hnul, hplace, rfl⟩, ?_⟩
      exact (ih (s := ⟨made, s.declared + declaredOf entry⟩) (by simp only; omega)).mpr ⟨hnuls, hall⟩

theorem rewordUnextracted_eq_ok {α : Type} {compression : Compression} {archivePath : PyStr}
    {result : Except Raised α} {a : α} :
    rewordUnextracted compression archivePath result = .ok a ↔ result = .ok a := by
  cases result with
  | ok b => simp [rewordUnextracted]
  | error raised =>
    simp only [rewordUnextracted, reduceCtorEq, iff_false]
    split
    · exact fun h => nomatch h
    · split <;> exact fun h => nomatch h

/-! ## Where the two readers part -/

/-- The members can stand in one tree: no file is the destination itself or lies above another member, and
every path can be given to the operating system. -/
def Restorable (platform : Platform) (members : List Member) : Prop :=
  ∀ member ∈ members, ∀ path, safeTarPath platform member.name = .ok path →
    ¬ HasNul path.parts ∧ (member.kind = .regular → path.parts ≠ [] ∧
      ∀ other ∈ members, ∀ below, safeTarPath platform other.name = .ok below →
        path.parts <+: below.parts → path.parts = below.parts)

def partsOf (platform : Platform) (member : Member) : Option (List PyStr) :=
  (safeTarPath platform member.name).toOption.map SafePath.parts

theorem mem_partsOf {platform : Platform} {member : Member} {parts : List PyStr} :
    parts ∈ partsOf platform member ↔ ∃ path, safeTarPath platform member.name = .ok path ∧ path.parts = parts := by
  rw [partsOf, Option.mem_def, Option.map_eq_some_iff]
  simp only [toOption_eq_some]

instance (platform : Platform) (members : List Member) : Decidable (Restorable platform members) :=
  decidable_of_iff (∀ member ∈ members, ∀ parts ∈ partsOf platform member, ¬ HasNul parts ∧
      (member.kind = .regular → parts ≠ [] ∧ ∀ other ∈ members, ∀ below ∈ partsOf platform other,
        parts <+: below → parts = below)) <| by
    simp only [mem_partsOf, Restorable, forall_exists_index, and_imp, forall_apply_eq_imp_iff₂]

/-- The destination holds the regular members and no other file, and every one of them but the manifest
has the size and the digest that the restored manifest lists. -/
structure Restored (platform : Platform) (members : List Member) (store : Destination) : Prop where
  files : ∀ parts content, store parts = some (.file content) ↔ ∃ member ∈ members,
    member.kind = .regular ∧ ∃ path, safeTarPath platform member.name = .ok path ∧ path.parts = parts ∧
      member.content = content
  listed : ∃ manifest expected, store [manifestName] = some (.file manifest) ∧
    manifestExpectedFilesPayload platform manifest = .ok expected ∧
    ∀ member ∈ members, member.kind = .regular → ∀ path, safeTarPath platform member.name = .ok path →
      path.asPosix ≠ manifestName →
        (path.asPosix, ⟨member.content.length, platform.sha256Hex member.content⟩) ∈ expected

section Agreement
variable {platform : Platform} {archive : Archive} {pointer : Pointer}
  {expectedManifest : Option (List UInt8)} {capacity : ℕ}

theorem ReadAs.of_bound {reader reader' : Reader} {members : List Member} {entries : List (Member × SafePath)}
    (hbound : reader.maxTarSize = reader'.maxTarSize) (h : ReadAs platform reader members entries) :
    ReadAs platform reader' members entries where
  members_eq := h.members_eq
  readable entry hentry :=
    { named := (h.readable entry hentry).named
      kind := (h.readable entry hentry).kind
      bounded := by
        rw [← hbound]
        exact (h.readable entry hentry).bounded
      whole := (h.readable entry hentry).whole
      manifest := (h.readable entry hentry).manifest }
  distinct := h.distinct

theorem ReadAs.declared {reader : Reader} {members : List Member} {entries : List (Member × SafePath)}
    (h : ReadAs platform reader members entries) :
    (entries.map declaredOf).sum =
      ((members.filter fun member => member.kind == .regular).map Member.size).sum := by
  rw [← h.members_eq]
  have hkinds : ∀ entry ∈ entries, entry.1.kind = .directory ∨ entry.1.kind = .regular :=
    fun entry hentry => (h.readable entry hentry).kind
  clear h
  induction entries with
  | nil => rfl
  | cons entry entries ih =>
    obtain ⟨hkind, hkinds⟩ := List.forall_mem_cons.mp hkinds
    rw [List.map_cons, List.sum_cons, ih hkinds, List.map_cons, List.filter_cons]
    obtain hkind | hkind := hkind
    · simp [declaredOf, hkind]
    · simp [declaredOf, hkind]

theorem ReadAs.placements_distinct {reader : Reader} {members : List Member}
    {entries : List (Member × SafePath)} (h : ReadAs platform reader members entries) :
    ((entries.map placementOf).map Placement.path).Nodup := by
  rw [List.map_map]
  refine List.Nodup.of_map (fun parts => if parts = [] then dot else [slash].intercalate parts) ?_
  rw [List.map_map]
  exact h.distinct

theorem placementOf_content {entry : Member × SafePath}
    (hkind : entry.1.kind = .directory ∨ entry.1.kind = .regular) :
    (placementOf entry).content = if entry.1.kind = .regular then some entry.1.content else none := by
  obtain hkind | hkind := hkind
  · simp [placementOf, hkind]
  · simp [placementOf, hkind]

theorem restorable_iff {reader : Reader} {members : List Member} {entries : List (Member × SafePath)}
    (h : ReadAs platform reader members entries) :
    Restorable platform members ↔ (∀ entry ∈ entries, ¬ HasNul entry.2.parts) ∧
      ∃ store, placeAll (FileStore.root : Destination) (entries.map placementOf) = some store := by
  have hcontent : ∀ entry ∈ entries, ((placementOf entry).content.isSome ↔ entry.1.kind = .regular) := by
    intro entry hentry
    rw [placementOf_content (h.readable entry hentry).kind]
    split
    · next hkind => simp [hkind]
    · next hkind => simp [hkind]
  have hmember : ∀ entry ∈ entries, entry.1 ∈ members := by
    intro entry hentry
    rw [← h.members_eq]
    exact List.mem_map_of_mem hentry
  rw [FileStore.holds_root.placeAll_iff _ (by simpa using h.placements_distinct)]
  constructor
  · intro hrestorable
    have hentries : ∀ entry ∈ entries, ¬ HasNul entry.2.parts ∧ (entry.1.kind = .regular →
        entry.2.parts ≠ [] ∧ ∀ other ∈ entries, entry.2.parts <+: other.2.parts →
          entry.2.parts = other.2.parts) := by
      intro entry hentry
      obtain ⟨hnul, hfile⟩ := hrestorable entry.1 (hmember entry hentry) entry.2 (h.readable entry hentry).named
      refine ⟨hnul, fun hkind => ⟨(hfile hkind).1, fun other hother => ?_⟩⟩
      exact (hfile hkind).2 other.1 (hmember other hother) other.2 (h.readable other hother).named
    refine ⟨fun entry hentry => (hentries entry hentry).1, ?_, ?_, by simp⟩
    · rw [List.forall_mem_map]
      intro entry hentry hsome
      exact ((hentries entry hentry).2 ((hcontent entry hentry).mp hsome)).1
    · have hpaths := h.placements_distinct
      rw [List.map_map, List.Nodup, List.pairwise_map] at hpaths
      rw [List.pairwise_map]
      refine hpaths.imp_of_mem fun {p q} hp hq hne => ⟨fun hsome hbelow => hne ?_, fun hsome hbelow => hne ?_⟩
      · exact ((hentries p hp).2 ((hcontent p hp).mp hsome)).2 q hq hbelow
      · exact (((hentries q hq).2 ((hcontent q hq).mp hsome)).2 p hp hbelow).symm
  · rintro ⟨hnuls, hnamed, hapart, -⟩ member hmem path hpath
    have hentry : ∀ m ∈ members, ∀ p, safeTarPath platform m.name = .ok p → (m, p) ∈ entries := by
      intro m hm p hp
      rw [← h.members_eq] at hm
      obtain ⟨⟨m, q⟩, hmq, rfl⟩ := List.mem_map.mp hm
      have hq := (h.readable _ hmq).named
      rw [hp] at hq
      cases hq
      exact hmq
    have hmine := hentry member hmem path hpath
    refine ⟨hnuls _ hmine, fun hkind => ⟨?_, fun other hother below hbelow hpre => ?_⟩⟩
    · exact hnamed _ (List.mem_map_of_mem hmine) ((hcontent _ hmine).mpr hkind)
    · have hother := hentry other hother below hbelow
      by_contra hne
      have hdifferent : placementOf (member, path) ≠ placementOf (other, below) := by
        intro heq
        exact hne (congrArg Placement.path heq)
      have hpair := hapart.forall (List.mem_map_of_mem hmine) (List.mem_map_of_mem hother) hdifferent
      exact hpair.1 ((hcontent _ hmine).mpr hkind) hpre

theorem Authentic.restored {stream : TarStream} {entries : List (Member × SafePath)} {manifest : List UInt8}
    {files : List (PyStr × Expected)} {roots : List PyStr} {store : Destination}
    (h : Authentic platform pointer expectedManifest stream entries manifest files roots)
    (hplaced : placeAll (FileStore.root : Destination) (entries.map placementOf) = some store) :
    Restored platform stream.members store := by
  have hholds : Holds store (entries.map placementOf) :=
    FileStore.holds_root.placeAll (by simpa using h.read.placements_distinct) hplaced
  have hfile : ∀ parts content, store parts = some (.file content) ↔
      ∃ entry ∈ entries, entry.1.kind = .regular ∧ entry.2.parts = parts ∧ entry.1.content = content := by
    intro parts content
    rw [hholds.file, List.mem_map]
    refine exists_congr fun entry => and_congr_right fun hentry => ?_
    rw [show placementOf entry = ⟨entry.2.parts, (placementOf entry).content⟩ from rfl,
      placementOf_content (h.read.readable entry hentry).kind, Placement.mk.injEq]
    split
    · next hkind => simp [hkind]
    · next hkind => simp [hkind]
  have hentry : ∀ member ∈ stream.members, ∀ path, safeTarPath platform member.name = .ok path →
      (member, path) ∈ entries := by
    intro member hmem path hpath
    rw [← h.read.members_eq] at hmem
    obtain ⟨⟨member, other⟩, hother, rfl⟩ := List.mem_map.mp hmem
    have hnamed := (h.read.readable _ hother).named
    rw [hpath] at hnamed
    cases hnamed
    exact hother
  constructor
  · intro parts content
    rw [hfile]
    constructor
    · rintro ⟨entry, hmem, hkind, hparts, hcontent⟩
      refine ⟨entry.1, ?_, hkind, entry.2, (h.read.readable entry hmem).named, hparts, hcontent⟩
      rw [← h.read.members_eq]
      exact List.mem_map_of_mem hmem
    · rintro ⟨member, hmem, hkind, path, hpath, hparts, hcontent⟩
      exact ⟨(member, path), hentry member hmem path hpath, hkind, hparts, hcontent⟩
  · refine ⟨manifest, files, ?_, h.bundle.files_eq, ?_⟩
    · obtain ⟨entry, hmem, ⟨hkind, hname⟩, hcontent⟩ := h.bundle.found
      refine (hfile _ _).mpr ⟨entry, hmem, hkind, ?_, hcontent⟩
      have hsingle : ∀ part ∈ [manifestName], IsPart part := by
        intro part hpart
        rw [List.mem_singleton.mp hpart]
        unfold IsPart
        decide
      have hposix : manifestName = SafePath.asPosix ⟨[manifestName], hsingle⟩ := by
        rw [SafePath.asPosix, if_neg (List.cons_ne_nil _ _), List.intercalate_singleton]
      exact SafePath.asPosix_inj (hname.trans hposix)
    · intro member hmem hkind path hpath hne
      have hmine := hentry member hmem path hpath
      obtain hlisted | hmanifest := h.bundle.listed _ hmine hkind
      · obtain ⟨⟨relative, expected⟩, hlisted, hrelative⟩ := List.mem_map.mp hlisted
        have hbundled : (relative, expected) ∈ bundledExpectedFiles files roots := by
          refine List.mem_filter.mpr ⟨hlisted, ?_⟩
          have hkept := h.bundle.kept _ hmine
          rw [← hrelative] at hkept
          simpa using hkept
        obtain ⟨entry, hentryMem, -, hsame, hfound⟩ := h.bundle.present _ hbundled
        -- the paths are distinct, so the member found is this one
        have hequal : entry = (member, path) :=
          List.inj_on_of_nodup_map h.read.distinct hentryMem hmine (hsame.trans hrelative)
        rw [hequal] at hfound
        rw [← hrelative, hfound]
        exact hlisted
      · exact (hne hmanifest).elim

/-- With the stored digest of the pointer and room for all members, an extraction of everything to a
fresh destination succeeds with what is authentic and can be placed. -/
theorem restore_eq_ok {count : ℕ} {store : Destination}
    (hcapacity : (((archive.read .zstd pointer.tarSize).members.filter
      fun member => member.kind == .regular).map Member.size).sum ≤ capacity) :
    (requireRemotePointerBounds pointer = .ok () ∧
        restore platform archive .zstd [] (some pointer) expectedManifest capacity = .ok (count, store)) ↔
      ∃ entries manifest files roots, Authentic platform pointer expectedManifest
        (archive.read .zstd pointer.tarSize) entries manifest files roots ∧
        (bundledExpectedFiles files roots).length = count ∧ (∀ entry ∈ entries, ¬ HasNul entry.2.parts) ∧
        placeAll (FileStore.root : Destination) (entries.map placementOf) = some store := by
  have htake : ∀ {reader : Reader} {entries : List (Member × SafePath)},
      ReadAs platform reader (archive.read .zstd pointer.tarSize).members entries →
      ((∃ s', (extractor capacity []).takeAll entries ⟨FileStore.root, 0⟩ = .ok s' ∧ s'.store = store) ↔
        (∀ entry ∈ entries, ¬ HasNul entry.2.parts) ∧
          placeAll (FileStore.root : Destination) (entries.map placementOf) = some store) := by
    intro reader entries hread
    refine takeAll_extractor ?_
    rw [hread.declared, Nat.zero_add]
    exact hcapacity
  unfold restore
  constructor
  · rintro ⟨hbounds, h⟩
    obtain ⟨stream, hstream, h⟩ := bind_eq_ok.mp h
    cases hstream
    obtain ⟨⟨seen, written, tar⟩, hread, h⟩ := bind_eq_ok.mp h
    obtain ⟨_, htar, h⟩ := bind_eq_ok.mp h
    obtain ⟨count, hcount, h⟩ := bind_eq_ok.mp h
    cases h
    rw [rewordUnextracted_eq_ok] at hread
    obtain ⟨entries, hentries, taken, htaken, tar', hending, heq⟩ := readTar_eq_ok.mp hread
    cases heq
    rw [checkTar_eq_ok.mp htar] at hending
    obtain ⟨manifest, files, roots, hbundle, hlength⟩ := (authenticate_eq_ok hentries.distinct).mp hcount
    obtain ⟨hnul, hplaced⟩ := (htake hentries).mp ⟨_, htaken, rfl⟩
    have hread : ReadAs platform (verifier pointer) (archive.read .zstd pointer.tarSize).members entries :=
      @ReadAs.of_bound _ (extractionReader (some pointer)) _ _ _ rfl hentries
    exact ⟨entries, manifest, files, roots, ⟨requireRemotePointerBounds_eq_ok.mp hbounds, hread, hending,
      hbundle⟩, hlength, hnul, hplaced⟩
  · rintro ⟨entries, manifest, files, roots, authentic, hlength, hnul, hplaced⟩
    have hread : ReadAs platform (extractionReader (some pointer))
        (archive.read .zstd pointer.tarSize).members entries :=
      @ReadAs.of_bound _ (verifier pointer) _ _ _ rfl authentic.read
    obtain ⟨s', htaken, hstore⟩ := (htake hread).mpr ⟨hnul, hplaced⟩
    refine ⟨requireRemotePointerBounds_eq_ok.mpr authentic.bounds, bind_eq_ok.mpr ⟨_, rfl, bind_eq_ok.mpr
      ⟨_, rewordUnextracted_eq_ok.mpr (readTar_eq_ok.mpr
        ⟨entries, hread, s', htaken, _, authentic.ending, rfl⟩), bind_eq_ok.mpr
        ⟨(), checkTar_eq_ok.mpr rfl, bind_eq_ok.mpr ⟨count, ?_, ?_⟩⟩⟩⟩⟩
    · exact (authenticate_eq_ok hread.distinct).mpr ⟨manifest, files, roots, authentic.bundle, hlength⟩
    · rw [← hstore]
      rfl

theorem preflight_eq (hstored : archive.storedSize = pointer.storedSize ∧
    archive.storedSha256 = pointer.storedSha256) (hcapacity : 0 < capacity) :
    preflight platform archive none [] (some pointer) true capacity =
      (requireRemotePointerBounds pointer).map fun _ => [] := by
  cases hbounds : requireRemotePointerBounds pointer with
  | error raised => simp [preflight, hbounds, Except.map, bind, Except.bind]
  | ok u =>
    simp [preflight, hbounds, hstored, hcapacity.ne', Except.map, bind, Except.bind, pure, Except.pure]

theorem extract_cases (platform : Platform) (archive : Archive) (expectedManifest : Option (List UInt8))
    (capacity : ℕ) (compression : Compression) (includePrefixes : List PyStr) (pointer : Option Pointer)
    (verifyStoredPointer : Bool) :
    (∃ count store, extractVerifiedEvidenceArchive platform archive none compression includePrefixes pointer
        expectedManifest verifyStoredPointer capacity = (.ok count, some store)) ∨
      ∃ raised, extractVerifiedEvidenceArchive platform archive none compression includePrefixes pointer
        expectedManifest verifyStoredPointer capacity = (.error raised, none) := by
  rw [extractVerifiedEvidenceArchive]
  split
  · exact .inr ⟨_, rfl⟩
  · split
    · exact .inl ⟨_, _, rfl⟩
    · exact .inr ⟨_, rfl⟩

theorem extract_eq_ok {count : ℕ} {store : Destination}
    (hstored : archive.storedSize = pointer.storedSize ∧ archive.storedSha256 = pointer.storedSha256)
    (hcapacity : 0 < capacity ∧ (((archive.read .zstd pointer.tarSize).members.filter
      fun member => member.kind == .regular).map Member.size).sum ≤ capacity) :
    extractVerifiedEvidenceArchive platform archive none .zstd [] (some pointer) expectedManifest true
        capacity = (.ok count, some store) ↔
      ∃ entries manifest files roots, Authentic platform pointer expectedManifest
        (archive.read .zstd pointer.tarSize) entries manifest files roots ∧
        (bundledExpectedFiles files roots).length = count ∧ (∀ entry ∈ entries, ¬ HasNul entry.2.parts) ∧
        placeAll (FileStore.root : Destination) (entries.map placementOf) = some store := by
  rw [← restore_eq_ok hcapacity.2, extractVerifiedEvidenceArchive, preflight_eq hstored hcapacity.1]
  cases hbounds : requireRemotePointerBounds pointer with
  | error raised => simp [Except.map]
  | ok u =>
    simp only [Except.map, true_and]
    cases hrestore : restore platform archive .zstd [] (some pointer) expectedManifest capacity with
    | error raised => simp
    | ok result => simp [Prod.ext_iff]

/-- The verifier and the extraction agree on an archive exactly when its members can stand in one tree,
or when it is not authentic and both refuse it. -/
theorem readers_agree_iff (platform : Platform) (archive : Archive) (pointer : Pointer)
    (expectedManifest : Option (List UInt8)) (capacity : ℕ)
    (hstored : archive.storedSize = pointer.storedSize ∧ archive.storedSha256 = pointer.storedSha256)
    (hcapacity : 0 < capacity ∧ (((archive.read .zstd pointer.tarSize).members.filter
      fun member => member.kind == .regular).map Member.size).sum ≤ capacity) :
    ((∀ count, verifyArchiveManifestMembers platform archive pointer expectedManifest = .ok count ↔
        (extractVerifiedEvidenceArchive platform archive none .zstd [] (some pointer) expectedManifest true
          capacity).1 = .ok count) ∧
      (∀ count, (extractVerifiedEvidenceArchive platform archive none .zstd [] (some pointer)
          expectedManifest true capacity).1 = .ok count →
        ∃ store, (extractVerifiedEvidenceArchive platform archive none .zstd [] (some pointer)
          expectedManifest true capacity).2 = some store ∧
          Restored platform (archive.read .zstd pointer.tarSize).members store) ∧
      ∀ raised, (extractVerifiedEvidenceArchive platform archive none .zstd [] (some pointer)
          expectedManifest true capacity).1 = .error raised →
        (extractVerifiedEvidenceArchive platform archive none .zstd [] (some pointer)
          expectedManifest true capacity).2 = none) ↔
    (Restorable platform (archive.read .zstd pointer.tarSize).members ∨
      ¬ ∃ entries manifest files roots, Authentic platform pointer expectedManifest
        (archive.read .zstd pointer.tarSize) entries manifest files roots) := by
  have hcount : ∀ count, (extractVerifiedEvidenceArchive platform archive none .zstd [] (some pointer)
      expectedManifest true capacity).1 = .ok count ↔ ∃ entries manifest files roots,
        Authentic platform pointer expectedManifest (archive.read .zstd pointer.tarSize) entries manifest files
          roots ∧ (bundledExpectedFiles files roots).length = count ∧
        Restorable platform (archive.read .zstd pointer.tarSize).members := by
    intro count
    constructor
    · intro hok
      obtain ⟨count', store, hextract⟩ | ⟨raised, hextract⟩ := extract_cases platform archive
        expectedManifest capacity .zstd [] (some pointer) true
      · rw [hextract] at hok
        cases hok
        obtain ⟨entries, manifest, files, roots, authentic, hlength, hnul, hplaced⟩ :=
          (extract_eq_ok hstored hcapacity).mp hextract
        exact ⟨entries, manifest, files, roots, authentic, hlength,
          (restorable_iff authentic.read).mpr ⟨hnul, store, hplaced⟩⟩
      · rw [hextract] at hok
        cases hok
    · rintro ⟨entries, manifest, files, roots, authentic, hlength, hrestorable⟩
      obtain ⟨hnul, store, hplaced⟩ := (restorable_iff authentic.read).mp hrestorable
      rw [(extract_eq_ok hstored hcapacity).mpr
        ⟨entries, manifest, files, roots, authentic, hlength, hnul, hplaced⟩]
  constructor
  · rintro ⟨hagree, -, -⟩
    by_contra hneither
    rw [not_or, not_not] at hneither
    obtain ⟨hnot, entries, manifest, files, roots, authentic⟩ := hneither
    have hverify := verify_eq_ok.mpr ⟨entries, manifest, files, roots, authentic, rfl⟩
    obtain ⟨_, _, _, _, -, -, hrestorable⟩ := (hcount _).mp ((hagree _).mp hverify)
    exact hnot hrestorable
  · intro hcondition
    refine ⟨fun count => ?_, fun count hok => ?_, fun raised herror => ?_⟩
    · rw [verify_eq_ok, hcount]
      constructor
      · rintro ⟨entries, manifest, files, roots, authentic, hlength⟩
        obtain hrestorable | hnone := hcondition
        · exact ⟨entries, manifest, files, roots, authentic, hlength, hrestorable⟩
        · exact (hnone ⟨entries, manifest, files, roots, authentic⟩).elim
      · rintro ⟨entries, manifest, files, roots, authentic, hlength, -⟩
        exact ⟨entries, manifest, files, roots, authentic, hlength⟩
    · obtain ⟨count', store, hextract⟩ | ⟨raised, hextract⟩ := extract_cases platform archive
        expectedManifest capacity .zstd [] (some pointer) true
      · obtain ⟨entries, manifest, files, roots, authentic, -, -, hplaced⟩ :=
          (extract_eq_ok hstored hcapacity).mp hextract
        rw [hextract]
        exact ⟨store, rfl, authentic.restored hplaced⟩
      · rw [hextract] at hok
        cases hok
    · obtain ⟨count', store, hextract⟩ | ⟨raised', hextract⟩ := extract_cases platform archive
        expectedManifest capacity .zstd [] (some pointer) true
      · rw [hextract] at herror
        cases herror
      · rw [hextract]

end Agreement

/-! ## Two archives -/

def hexText (digest : ℕ) : PyStr := (Nat.toDigits 16 digest).map Char.toNat

def zeroDigest : PyStr := hexText 0x9a271f2a916b0b6ee6cecb2426f0b3206ef074578be55d9bc94f6f3fe3ab86aa
def oneDigest : PyStr := hexText 0x4355a46b19d348dc2f57c046f8ef63d4538ebb936000f3c9ee954a27460dd865

def twoFilesText (first second : String) : List UInt8 :=
  (pyText "\x7b\"files\":[\x7b\"path\":\"" ++ pyText first ++ pyText "\",\"sha256\":\"" ++ zeroDigest ++
    pyText "\",\"byteSize\":2\x7d,\x7b\"path\":\"" ++ pyText second ++ pyText "\",\"sha256\":\"" ++ oneDigest ++
    pyText "\",\"byteSize\":2\x7d]\x7d").map UInt8.ofNat

def twoFiles (first second : String) : PyValue :=
  .dict [(pyText "files", .list [
    .dict [(pyText "path", .str (pyText first)), (pyText "sha256", .str zeroDigest), (pyText "byteSize", .int 2)],
    .dict [(pyText "path", .str (pyText second)), (pyText "sha256", .str oneDigest), (pyText "byteSize", .int 2)]])]

def twoFilesPlatform (first second : String) (manifestDigest : ℕ) : Platform where
  loads bytes :=
    if bytes = twoFilesText first second then .ok (twoFiles first second) else .error (pyText "Expecting value")
  strOf _ := pyText "None"
  intOf _ := none
  repr _ := pyText "''"
  sha256Hex bytes :=
    if bytes = [0x30, 0x0a] then zeroDigest else if bytes = [0x31, 0x0a] then oneDigest
    else hexText manifestDigest

def twoFilesMembers (first second : String) : List Member :=
  [⟨manifestName, .regular, (twoFilesText first second).length, [twoFilesText first second]⟩,
    ⟨pyText first, .regular, 2, [[0x30, 0x0a]]⟩, ⟨pyText second, .regular, 2, [[0x31, 0x0a]]⟩]

def twoFilesArchive (first second : String) (tarDigest : ℕ) : Archive where
  path := pyText "engine_evidence.tar.zst"
  storedSize := 512
  storedSha256 := List.replicate 64 0x30
  read _ _ := ⟨twoFilesMembers first second, .ok (10240, hexText tarDigest)⟩

def twoFilesPointer (tarDigest : ℕ) : Pointer := ⟨512, List.replicate 64 0x30, 10240, hexText tarDigest⟩

/-- Two files of one directory are verified, and extracted with the same count. -/
theorem siblings_extracted :
    (extractVerifiedEvidenceArchive
      (twoFilesPlatform "0/U" "0/p" 0x9e095d6a41f1d50f1d5a9090109c2403f8edd2795ffda5a40cbcc4e7fc689d78)
      (twoFilesArchive "0/U" "0/p" 0x249dbab9e818c1ea1463937561fb18f0890fd2c8f0ead5ab37b072f205090371) none
      .zstd [] (some (twoFilesPointer 0x249dbab9e818c1ea1463937561fb18f0890fd2c8f0ead5ab37b072f205090371))
      (some (twoFilesText "0/U" "0/p")) true 4096).1 = .ok 2 := by
  have hagree := (readers_agree_iff
    (twoFilesPlatform "0/U" "0/p" 0x9e095d6a41f1d50f1d5a9090109c2403f8edd2795ffda5a40cbcc4e7fc689d78)
    (twoFilesArchive "0/U" "0/p" 0x249dbab9e818c1ea1463937561fb18f0890fd2c8f0ead5ab37b072f205090371)
    (twoFilesPointer 0x249dbab9e818c1ea1463937561fb18f0890fd2c8f0ead5ab37b072f205090371)
    (some (twoFilesText "0/U" "0/p")) 4096 ⟨rfl, rfl⟩ (by decide +kernel)).mpr
    (.inl (by decide +kernel))
  exact (hagree.1 2).mp (by decide +kernel)

/-- A file `case` next to `case/U`: the verifier counts both, and the extraction refuses the archive. -/
theorem file_above_file_verified :
    verifyArchiveManifestMembers
      (twoFilesPlatform "case" "case/U" 0xd54aab9443560016ecc6728e7519b210c1ef35d301f6c7619cf75b41e157c0b5)
      (twoFilesArchive "case" "case/U" 0x3e4446e19188d07c5e36dbb5a977faf538f57590ad5f442701e8d05c2ca12223)
      (twoFilesPointer 0x3e4446e19188d07c5e36dbb5a977faf538f57590ad5f442701e8d05c2ca12223)
      (some (twoFilesText "case" "case/U")) = .ok 2 ∧
    (extractVerifiedEvidenceArchive
      (twoFilesPlatform "case" "case/U" 0xd54aab9443560016ecc6728e7519b210c1ef35d301f6c7619cf75b41e157c0b5)
      (twoFilesArchive "case" "case/U" 0x3e4446e19188d07c5e36dbb5a977faf538f57590ad5f442701e8d05c2ca12223) none
      .zstd [] (some (twoFilesPointer 0x3e4446e19188d07c5e36dbb5a977faf538f57590ad5f442701e8d05c2ca12223))
      (some (twoFilesText "case" "case/U")) true 4096).1 = .error ⟨.unavailable, pyText
        "cannot access zstd evidence archive engine_evidence.tar.zst: File exists"⟩ :=
  ⟨by decide +kernel, by decide +kernel⟩

end XFoilFoam.Evidence
