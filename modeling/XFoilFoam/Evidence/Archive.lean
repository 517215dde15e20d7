import XFoilFoam.Evidence.TarStream

/-! `_verify_archive_manifest_members`: one archive read through and held against its own manifest. -/
namespace XFoilFoam.Evidence
set_option autoImplicit false

/-! ## Archives and pointers -/

/-- The fields of `RemoteEvidencePointer` that a reader compares. -/
structure Pointer where
  storedSize : ℕ
  storedSha256 : PyStr
  tarSize : ℕ
  tarSha256 : PyStr

inductive Compression where
  | zstd
  | gzip
  | unsupported (name : PyStr)

/-- A stored archive, and its tar read through `_DigestReader` with a bound. -/
structure Archive where
  path : PyStr
  storedSize : ℕ
  storedSha256 : PyStr
  read : Compression → ℕ → TarStream

def maxLocalEvidenceTarBytes : ℕ := 256 * 1024 ^ 3
def maxRemoteEvidenceStoredBytes : ℕ := 256 * 1024 ^ 3

def requireRemotePointerBounds (pointer : Pointer) : Except Raised Unit :=
  if maxLocalEvidenceTarBytes < pointer.tarSize then
    .error ⟨.integrity, pyText "remote evidence pointer declares an uncompressed tar larger than the 274877906944-byte safety limit"⟩
  else if maxRemoteEvidenceStoredBytes < pointer.storedSize then
    .error ⟨.integrity, pyText "remote evidence pointer declares a stored archive larger than the 274877906944-byte safety limit"⟩
  else .ok ()

/-! ## The checks after the tar has been read -/

def checkTar (kind : ErrorKind) (pointer : Pointer) (tar : ℕ × PyStr) : Except Raised Unit :=
  if tar.1 ≠ pointer.tarSize ∨ tar.2 ≠ pointer.tarSha256 then
    .error ⟨kind, pyText "uncompressed tar size or SHA-256 does not match pointer"⟩
  else .ok ()

/-- `actual_files.get(relative)`. -/
def actualFile (files : List (PyStr × Expected)) (relative : PyStr) : Option Expected :=
  (files.find? (fun file => file.1 == relative)).map Prod.snd

def checkBundled (kind : ErrorKind) (actual : List (PyStr × Expected)) :
    List (PyStr × Expected) → Except Raised Unit
  | [] => .ok ()
  | (relative, expected) :: rest =>
    match actualFile actual relative with
    | none => .error ⟨kind, pyText "manifest member missing from archive: " ++ relative⟩
    | some found =>
      if found ≠ expected then
        .error ⟨kind, pyText "archive member failed manifest verification: " ++ relative⟩
      else checkBundled kind actual rest

/-- `sorted(set(actual_files) - set(expected_files) - {"evidence_manifest.json"})`. -/
def unmanifested (actual expected : List (PyStr × Expected)) : List PyStr :=
  KeyOrder.sortBy id ((actual.map Prod.fst).filter (fun relative =>
    !(expected.map Prod.fst).contains relative && !(relative == manifestName)))

/-- Everything the two readers check once the tar is read; they raise errors of different kinds. -/
def authenticate (platform : Platform) (kind : ErrorKind) (expectedManifest : Option (List UInt8))
    (seen : Seen) : Except Raised ℕ :=
  match seen.manifest with
  | none => .error ⟨kind, pyText "archive has no evidence_manifest.json"⟩
  | some manifest =>
    if expectedManifest ≠ none ∧ expectedManifest ≠ some manifest then
      .error ⟨kind, pyText "restored evidence manifest does not match local manifest"⟩
    else do
      let expectedFiles ← manifestExpectedFilesPayload platform manifest
      let excludedRoots ← manifestBundleExcludesPayload platform manifest
      match manifestExcludedArchiveMembers seen.paths excludedRoots with
      | first :: _ =>
        .error ⟨.integrity, pyText "archive contains a member under manifest bundleExcludes: " ++ first⟩
      | [] => do
        let bundled := bundledExpectedFiles expectedFiles excludedRoots
        let _ ← checkBundled kind seen.files bundled
        match unmanifested seen.files expectedFiles with
        | first :: _ => .error ⟨.integrity, pyText "archive member is missing from manifest: " ++ first⟩
        | [] => return bundled.length

def readTar {σ : Type} (platform : Platform) (reader : Reader) (sink : Sink σ) (stream : TarStream) (s : σ) :
    Except Raised (Seen × σ × ℕ × PyStr) := do
  let (seen, written) ← readMembers platform reader sink stream.members .none s
  let tar ← stream.ending
  return (seen, written, tar)

/-! ## The verifier -/

/-- The `except` clauses of the verifier. -/
def rewordUnreadable {α : Type} (result : Except Raised α) : Except Raised α :=
  match result with
  | .ok a => .ok a
  | .error raised =>
    if raised.kind.isHydration = true then .error raised
    else .error ⟨.hydration, pyText "cannot read Zstandard evidence archive: " ++ raised.message⟩

def verifier (pointer : Pointer) : Reader where
  maxTarSize := pointer.tarSize
  tooLarge := "archive member exceeds the recorded tar size: "
  manifestLimit := .integrity

def verifyArchiveManifestMembers (platform : Platform) (archive : Archive) (pointer : Pointer)
    (expectedManifest : Option (List UInt8)) : Except Raised ℕ := do
  requireRemotePointerBounds pointer
  let (seen, _, tar) ← rewordUnreadable
    (readTar platform (verifier pointer) noSink (archive.read .zstd pointer.tarSize) ())
  checkTar .hydration pointer tar
  authenticate platform .hydration expectedManifest seen

/-! ## What has been seen -/

/-- The entry of `actual_files` that a member makes. -/
def fileOf (platform : Platform) (entry : Member × SafePath) : Option (PyStr × Expected) :=
  match entry.1.kind with
  | .regular => some (entry.2.asPosix, ⟨entry.1.content.length, platform.sha256Hex entry.1.content⟩)
  | _ => none

def IsManifest (entry : Member × SafePath) : Prop :=
  entry.1.kind = .regular ∧ entry.2.asPosix = manifestName

section Seen
variable (platform : Platform)

theorem seen_paths (entries : List (Member × SafePath)) (seen : Seen) :
    (entries.foldl (Seen.add platform) seen).paths =
      seen.paths ++ entries.map fun entry => entry.2.asPosix := by
  induction entries generalizing seen with
  | nil => simp
  | cons entry entries ih =>
    have hadd : (seen.add platform entry).paths = seen.paths ++ [entry.2.asPosix] := by
      rw [Seen.add]
      split <;> rfl
    rw [List.foldl_cons, ih, hadd, List.map_cons, List.append_assoc, List.singleton_append]

theorem seen_files (entries : List (Member × SafePath)) (seen : Seen) :
    (entries.foldl (Seen.add platform) seen).files = seen.files ++ entries.filterMap (fileOf platform) := by
  induction entries generalizing seen with
  | nil => simp
  | cons entry entries ih =>
    rw [List.foldl_cons, ih, Seen.add]
    split
    · next hkind => simp [fileOf, hkind]
    · next hkind =>
      have hnone : fileOf platform entry = none := by
        rw [fileOf]
        split
        · next hregular => exact (hkind hregular).elim
        · rfl
      rw [List.filterMap_cons_none hnone]

theorem seen_manifest (entries : List (Member × SafePath)) (seen : Seen)
    (hdistinct : (entries.map fun entry => entry.2.asPosix).Nodup) (content : List UInt8) :
    (entries.foldl (Seen.add platform) seen).manifest = some content ↔
      (∃ entry ∈ entries, IsManifest entry ∧ entry.1.content = content) ∨
        ((∀ entry ∈ entries, ¬ IsManifest entry) ∧ seen.manifest = some content) := by
  induction entries generalizing seen with
  | nil => simp
  | cons entry entries ih =>
    rw [List.map_cons, List.nodup_cons] at hdistinct
    rw [List.foldl_cons, ih _ hdistinct.2]
    by_cases hmanifest : IsManifest entry
    · -- no later member has the manifest's path
      have hlater : ∀ other ∈ entries, ¬ IsManifest other := by
        intro other hother hsame
        refine hdistinct.1 ?_
        rw [hmanifest.2, ← hsame.2]
        exact List.mem_map_of_mem (f := fun entry : Member × SafePath => entry.2.asPosix) hother
      have hadd : (seen.add platform entry).manifest = some entry.1.content := by
        rw [Seen.add, hmanifest.1]
        exact if_pos hmanifest.2
      have hnone : ¬ ∃ other ∈ entries, IsManifest other ∧ other.1.content = content := by
        rintro ⟨other, hother, hsame, -⟩
        exact hlater other hother hsame
      rw [hadd, Option.some.injEq, or_iff_right hnone, and_iff_right hlater, List.exists_mem_cons_iff,
        or_iff_left hnone, and_iff_right hmanifest]
      simp [hmanifest]
    · have hadd : (seen.add platform entry).manifest = seen.manifest := by
        rw [Seen.add]
        split
        · next hkind => exact if_neg fun hname => hmanifest ⟨hkind, hname⟩
        · rfl
      rw [hadd]
      simp [hmanifest]

end Seen

/-! ## What the checks accept -/

theorem checkBundled_eq_ok {kind : ErrorKind} {actual bundled : List (PyStr × Expected)} :
    checkBundled kind actual bundled = .ok () ↔
      ∀ file ∈ bundled, actualFile actual file.1 = some file.2 := by
  induction bundled with
  | nil => simp [checkBundled]
  | cons file bundled ih =>
    obtain ⟨relative, expected⟩ := file
    rw [checkBundled, List.forall_mem_cons]
    split
    · next hnone => simp [hnone]
    · next found hfound =>
      rw [hfound, Option.some.injEq]
      split
      · next hne => simp [hne]
      · next heq =>
        rw [not_not] at heq
        rw [ih]
        exact (and_iff_right heq).symm

theorem sorted_eq_nil {l : List PyStr} : KeyOrder.sortBy id l = [] ↔ l = [] := by
  constructor
  · intro h
    have hperm := KeyOrder.sortBy_perm id l
    rw [h] at hperm
    exact hperm.symm.eq_nil
  · intro h
    rw [h]
    rfl

theorem mem_files {platform : Platform} {entries : List (Member × SafePath)} {relative : PyStr} :
    relative ∈ (entries.filterMap (fileOf platform)).map Prod.fst ↔
      ∃ entry ∈ entries, entry.1.kind = .regular ∧ entry.2.asPosix = relative := by
  rw [List.mem_map]
  constructor
  · rintro ⟨file, hfile, rfl⟩
    obtain ⟨entry, hentry, hof⟩ := List.mem_filterMap.mp hfile
    rw [fileOf] at hof
    split at hof
    · next hkind =>
      cases hof
      exact ⟨entry, hentry, hkind, rfl⟩
    · cases hof
  · rintro ⟨entry, hentry, hkind, rfl⟩
    refine ⟨(entry.2.asPosix, ⟨entry.1.content.length, platform.sha256Hex entry.1.content⟩),
      List.mem_filterMap.mpr ⟨entry, hentry, ?_⟩, rfl⟩
    rw [fileOf, hkind]

theorem actualFile_eq_some {platform : Platform} {entries : List (Member × SafePath)}
    (hdistinct : (entries.map fun entry => entry.2.asPosix).Nodup) {relative : PyStr} {found : Expected} :
    actualFile (entries.filterMap (fileOf platform)) relative = some found ↔
      ∃ entry ∈ entries, entry.1.kind = .regular ∧ entry.2.asPosix = relative ∧
        Expected.mk entry.1.content.length (platform.sha256Hex entry.1.content) = found := by
  induction entries with
  | nil => simp [actualFile]
  | cons entry entries ih =>
    rw [List.map_cons, List.nodup_cons] at hdistinct
    by_cases hkind : entry.1.kind = .regular
    · have hof : fileOf platform entry = some (entry.2.asPosix,
          ⟨entry.1.content.length, platform.sha256Hex entry.1.content⟩) := by
        rw [fileOf, hkind]
      rw [List.filterMap_cons_some hof, actualFile, List.find?_cons]
      by_cases hpath : entry.2.asPosix = relative
      · have hlater : ¬ ∃ other ∈ entries, other.1.kind = .regular ∧ other.2.asPosix = relative ∧
            Expected.mk other.1.content.length (platform.sha256Hex other.1.content) = found := by
          rintro ⟨other, hother, -, hsame, -⟩
          refine hdistinct.1 ?_
          rw [hpath, ← hsame]
          exact List.mem_map_of_mem (f := fun entry : Member × SafePath => entry.2.asPosix) hother
        simp [hpath, hkind, hlater]
      · have hne : (entry.2.asPosix == relative) = false := by simpa using hpath
        have ih' := ih hdistinct.2
        rw [actualFile] at ih'
        simp only [hne, ih', List.exists_mem_cons_iff, hpath, false_and, and_false, false_or]
    · have hof : fileOf platform entry = none := by
        rw [fileOf]
        split
        · next hregular => exact (hkind hregular).elim
        · rfl
      rw [List.filterMap_cons_none hof, ih hdistinct.2]
      simp [hkind]

/-- The members are those that the manifest among them lists: all that it bundles, none under an
excluded root, and no file besides but the manifest itself. -/
structure Bundle (platform : Platform) (expectedManifest : Option (List UInt8))
    (entries : List (Member × SafePath)) (manifest : List UInt8) (files : List (PyStr × Expected))
    (roots : List PyStr) : Prop where
  found : ∃ entry ∈ entries, IsManifest entry ∧ entry.1.content = manifest
  expected : expectedManifest = none ∨ expectedManifest = some manifest
  files_eq : manifestExpectedFilesPayload platform manifest = .ok files
  roots_eq : manifestBundleExcludesPayload platform manifest = .ok roots
  kept : ∀ entry ∈ entries, topLevel entry.2.asPosix ∉ roots
  present : ∀ file ∈ bundledExpectedFiles files roots, ∃ entry ∈ entries, entry.1.kind = .regular ∧
    entry.2.asPosix = file.1 ∧
    Expected.mk entry.1.content.length (platform.sha256Hex entry.1.content) = file.2
  listed : ∀ entry ∈ entries, entry.1.kind = .regular →
    entry.2.asPosix ∈ files.map Prod.fst ∨ entry.2.asPosix = manifestName

theorem authenticate_eq_ok {platform : Platform} {kind : ErrorKind} {expectedManifest : Option (List UInt8)}
    {entries : List (Member × SafePath)} {count : ℕ}
    (hdistinct : (entries.map fun entry => entry.2.asPosix).Nodup) :
    authenticate platform kind expectedManifest (entries.foldl (Seen.add platform) .none) = .ok count ↔
      ∃ manifest files roots, Bundle platform expectedManifest entries manifest files roots ∧
        (bundledExpectedFiles files roots).length = count := by
  have hpaths : (entries.foldl (Seen.add platform) .none).paths = entries.map fun entry => entry.2.asPosix :=
    (seen_paths platform entries .none).trans (List.nil_append _)
  have hfiles : (entries.foldl (Seen.add platform) .none).files = entries.filterMap (fileOf platform) :=
    (seen_files platform entries .none).trans (List.nil_append _)
  have hmanifest : ∀ content, (entries.foldl (Seen.add platform) .none).manifest = some content ↔
      ∃ entry ∈ entries, IsManifest entry ∧ entry.1.content = content := by
    intro content
    rw [seen_manifest platform entries .none hdistinct]
    simp [Seen.none]
  have hexcluded : ∀ roots, manifestExcludedArchiveMembers
      (entries.foldl (Seen.add platform) .none).paths roots = [] ↔
        ∀ entry ∈ entries, topLevel entry.2.asPosix ∉ roots := by
    intro roots
    rw [manifestExcludedArchiveMembers, sorted_eq_nil, hpaths, List.filter_eq_nil_iff, List.forall_mem_map]
    simp
  have hunlisted : ∀ files, unmanifested (entries.foldl (Seen.add platform) .none).files files = [] ↔
      ∀ entry ∈ entries, entry.1.kind = .regular →
        entry.2.asPosix ∈ files.map Prod.fst ∨ entry.2.asPosix = manifestName := by
    intro files
    rw [unmanifested, sorted_eq_nil, hfiles, List.filter_eq_nil_iff]
    simp only [mem_files, Bool.and_eq_true, Bool.not_eq_true', List.contains_eq_mem, decide_eq_false_iff_not,
      beq_eq_false_iff_ne, not_and_or, not_not, forall_exists_index, and_imp]
    constructor
    · intro h entry hentry hkind
      exact h _ entry hentry hkind rfl
    · rintro h relative entry hentry hkind rfl
      exact h entry hentry hkind
  have hpresent : ∀ bundled, checkBundled kind (entries.foldl (Seen.add platform) .none).files bundled =
      .ok () ↔ ∀ file ∈ bundled, ∃ entry ∈ entries, entry.1.kind = .regular ∧ entry.2.asPosix = file.1 ∧
        Expected.mk entry.1.content.length (platform.sha256Hex entry.1.content) = file.2 := by
    intro bundled
    rw [checkBundled_eq_ok, hfiles]
    exact forall₂_congr fun file _ => actualFile_eq_some hdistinct
  rw [authenticate]
  constructor
  · intro h
    split at h
    · cases h
    · next manifest hfound =>
      split at h
      · cases h
      · next hexpected =>
        obtain ⟨files, hfilesOk, h⟩ := bind_eq_ok.mp h
        obtain ⟨roots, hrootsOk, h⟩ := bind_eq_ok.mp h
        split at h
        · cases h
        · next hnone =>
          obtain ⟨_, hbundled, h⟩ := bind_eq_ok.mp h
          split at h
          · cases h
          · next hall =>
            cases h
            refine ⟨manifest, files, roots, ⟨(hmanifest _).mp hfound, ?_, hfilesOk, hrootsOk,
              (hexcluded _).mp hnone, (hpresent _).mp hbundled, (hunlisted _).mp hall⟩, rfl⟩
            rw [not_and_or, not_not, not_not] at hexpected
            exact hexpected
  · rintro ⟨manifest, files, roots, bundle, rfl⟩
    rw [(hmanifest manifest).mpr bundle.found]
    have hexpected : ¬ (expectedManifest ≠ none ∧ expectedManifest ≠ some manifest) := by
      rw [not_and_or, not_not, not_not]
      exact bundle.expected
    simp only
    rw [if_neg hexpected]
    refine bind_eq_ok.mpr ⟨files, bundle.files_eq, bind_eq_ok.mpr ⟨roots, bundle.roots_eq, ?_⟩⟩
    rw [(hexcluded roots).mpr bundle.kept]
    refine bind_eq_ok.mpr ⟨(), (hpresent _).mpr bundle.present, ?_⟩
    rw [(hunlisted files).mpr bundle.listed]
    rfl

theorem checkTar_eq_ok {kind : ErrorKind} {pointer : Pointer} {tar : ℕ × PyStr} :
    checkTar kind pointer tar = .ok () ↔ tar = (pointer.tarSize, pointer.tarSha256) := by
  rw [checkTar, Prod.ext_iff]
  split
  · next h =>
    constructor
    · exact fun hok => nomatch hok
    · intro heq
      exact absurd h (not_or.mpr ⟨not_not.mpr heq.1, not_not.mpr heq.2⟩)
  · next h =>
    rw [not_or, not_not, not_not] at h
    exact ⟨fun _ => h, fun _ => rfl⟩

theorem readTar_eq_ok {σ : Type} {platform : Platform} {reader : Reader} {sink : Sink σ} {stream : TarStream}
    {s : σ} {result : Seen × σ × ℕ × PyStr} :
    readTar platform reader sink stream s = .ok result ↔
      ∃ entries, ReadAs platform reader stream.members entries ∧
        ∃ taken, sink.takeAll entries s = .ok taken ∧
        ∃ tar, stream.ending = .ok tar ∧ (entries.foldl (Seen.add platform) .none, taken, tar) = result := by
  rw [readTar]
  constructor
  · intro h
    obtain ⟨⟨seen, written⟩, hmembers, h⟩ := bind_eq_ok.mp h
    obtain ⟨tar, htar, h⟩ := bind_eq_ok.mp h
    cases h
    obtain ⟨entries, hread, taken, htaken, heq⟩ := readMembers_none_eq_ok.mp hmembers
    cases heq
    exact ⟨entries, hread, _, htaken, tar, htar, rfl⟩
  · rintro ⟨entries, hread, taken, htaken, tar, htar, rfl⟩
    exact bind_eq_ok.mpr ⟨_, readMembers_none_eq_ok.mpr ⟨entries, hread, taken, htaken, rfl⟩,
      bind_eq_ok.mpr ⟨tar, htar, rfl⟩⟩

theorem rewordUnreadable_eq_ok {α : Type} {result : Except Raised α} {a : α} :
    rewordUnreadable result = .ok a ↔ result = .ok a := by
  cases result with
  | ok b => simp [rewordUnreadable]
  | error raised =>
    simp only [rewordUnreadable, reduceCtorEq, iff_false]
    split
    · exact fun h => nomatch h
    · exact fun h => nomatch h

/-- A tar within the bounds of its pointer, of which every member can be read, with the pointer's size
and digest, and whose members are those of its manifest. -/
structure Authentic (platform : Platform) (pointer : Pointer) (expectedManifest : Option (List UInt8))
    (stream : TarStream) (entries : List (Member × SafePath)) (manifest : List UInt8)
    (files : List (PyStr × Expected)) (roots : List PyStr) : Prop where
  bounds : pointer.tarSize ≤ maxLocalEvidenceTarBytes ∧ pointer.storedSize ≤ maxRemoteEvidenceStoredBytes
  read : ReadAs platform (verifier pointer) stream.members entries
  ending : stream.ending = .ok (pointer.tarSize, pointer.tarSha256)
  bundle : Bundle platform expectedManifest entries manifest files roots

theorem requireRemotePointerBounds_eq_ok {pointer : Pointer} :
    requireRemotePointerBounds pointer = .ok () ↔
      pointer.tarSize ≤ maxLocalEvidenceTarBytes ∧ pointer.storedSize ≤ maxRemoteEvidenceStoredBytes := by
  rw [requireRemotePointerBounds]
  split
  · next h => simp [Nat.not_le_of_lt h]
  · next h =>
    rw [not_lt] at h
    split
    · next h' => simp [Nat.not_le_of_lt h']
    · next h' => simp [h, not_lt.mp h']

theorem verify_eq_ok {platform : Platform} {archive : Archive} {pointer : Pointer}
    {expectedManifest : Option (List UInt8)} {count : ℕ} :
    verifyArchiveManifestMembers platform archive pointer expectedManifest = .ok count ↔
      ∃ entries manifest files roots, Authentic platform pointer expectedManifest
        (archive.read .zstd pointer.tarSize) entries manifest files roots ∧
        (bundledExpectedFiles files roots).length = count := by
  rw [verifyArchiveManifestMembers]
  constructor
  · intro h
    obtain ⟨_, hbounds, h⟩ := bind_eq_ok.mp h
    obtain ⟨⟨seen, written, tar⟩, hread, h⟩ := bind_eq_ok.mp h
    obtain ⟨_, htar, h⟩ := bind_eq_ok.mp h
    obtain ⟨entries, hentries, taken, htaken, tar', hending, heq⟩ :=
      readTar_eq_ok.mp (rewordUnreadable_eq_ok.mp hread)
    cases heq
    rw [checkTar_eq_ok.mp htar] at hending
    obtain ⟨manifest, files, roots, hbundle, hcount⟩ := (authenticate_eq_ok hentries.distinct).mp h
    exact ⟨entries, manifest, files, roots,
      ⟨requireRemotePointerBounds_eq_ok.mp hbounds, hentries, hending, hbundle⟩, hcount⟩
  · rintro ⟨entries, manifest, files, roots, authentic, hcount⟩
    refine bind_eq_ok.mpr ⟨(), requireRemotePointerBounds_eq_ok.mpr authentic.bounds,
      bind_eq_ok.mpr ⟨_, rewordUnreadable_eq_ok.mpr (readTar_eq_ok.mpr
        ⟨entries, authentic.read, (), takeAll_noSink entries, _, authentic.ending, rfl⟩),
        bind_eq_ok.mpr ⟨(), checkTar_eq_ok.mpr rfl, ?_⟩⟩⟩
    exact (authenticate_eq_ok authentic.read.distinct).mpr ⟨manifest, files, roots, authentic.bundle, hcount⟩

end XFoilFoam.Evidence
