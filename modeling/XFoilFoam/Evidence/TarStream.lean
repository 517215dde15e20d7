import XFoilFoam.Evidence.ManifestPayload

/-! The loop over the members of a streamed evidence tar, once for each of its two copies: the one that
only verifies, and the one that also writes what it reads. -/
namespace XFoilFoam.Evidence
set_option autoImplicit false

inductive MemberKind where
  | regular
  | directory
  | symlink
  | hardlink
  | device
  | fifo
  | other
  deriving DecidableEq

/-- A member as `tarfile` delivers it; `chunks` is what the successive reads of it return. -/
structure Member where
  name : PyStr
  kind : MemberKind
  size : ℕ
  chunks : List (List UInt8)

def Member.content (member : Member) : List UInt8 := member.chunks.flatten

/-- The members of a tar in their order, then its size and digest, or the exception that ends it. -/
structure TarStream where
  members : List Member
  ending : Except Raised (ℕ × PyStr)

def maxEvidenceManifestBytes : ℕ := 64 * 1024 ^ 2

/-- `seen_archive_paths`, `actual_files` and `restored_manifest`. -/
structure Seen where
  paths : List PyStr
  files : List (PyStr × Expected)
  manifest : Option (List UInt8)

def Seen.none : Seen := ⟨[], [], Option.none⟩

/-- What a copy of the loop does with directories, with files it opens and with the bytes it reads. -/
structure Sink (σ : Type) where
  directory : SafePath → σ → Except Raised σ
  openFile : SafePath → ℕ → σ → Except Raised σ
  write : SafePath → List UInt8 → σ → σ

/-- Where the checks of the two copies differ. -/
structure Reader where
  maxTarSize : ℕ
  tooLarge : String
  manifestLimit : ErrorKind

def noSink : Sink Unit where
  directory _ _ := .ok ()
  openFile _ _ _ := .ok ()
  write _ _ _ := ()

section Loop
variable {σ : Type} (platform : Platform) (reader : Reader) (sink : Sink σ)

def readChunks (path : SafePath) (size : ℕ) :
    List (List UInt8) → List UInt8 → σ → Except Raised (List UInt8 × σ)
  | [], content, s => .ok (content, s)
  | chunk :: rest, content, s =>
    if size < (content ++ chunk).length then
      .error ⟨.hydration, pyText "archive member exceeds its header size: " ++ path.asPosix⟩
    else if path.asPosix = manifestName ∧ maxEvidenceManifestBytes < (content ++ chunk).length then
      .error ⟨reader.manifestLimit, pyText "evidence manifest exceeds the 67108864-byte limit"⟩
    else readChunks path size rest (content ++ chunk) (sink.write path chunk s)

def readMember (member : Member) (seen : Seen) (s : σ) : Except Raised (Seen × σ) := do
  let path ← safeTarPath platform member.name
  let normalized := path.asPosix
  if seen.paths.contains normalized then
    .error ⟨.hydration, pyText "duplicate archive member: " ++ normalized⟩
  else
    let paths := seen.paths ++ [normalized]
    match member.kind with
    | .symlink | .hardlink | .device | .fifo =>
      .error ⟨.hydration, pyText "unsafe archive member type: " ++ normalized⟩
    | .directory => do
      let made ← sink.directory path s
      return ({ seen with paths := paths }, made)
    | .other => .error ⟨.hydration, pyText "unsupported archive member type: " ++ normalized⟩
    | .regular =>
      if reader.maxTarSize < member.size then
        .error ⟨.hydration, pyText reader.tooLarge ++ normalized⟩
      else do
        let opened ← sink.openFile path member.size s
        let (content, written) ← readChunks reader sink path member.size member.chunks [] opened
        if content.length ≠ member.size then
          .error ⟨.hydration,
            pyText "archive member size does not match its header: " ++ normalized⟩
        else
          return ({ paths := paths
                    files := seen.files ++ [(normalized, ⟨content.length, platform.sha256Hex content⟩)]
                    manifest := if normalized = manifestName then some content else seen.manifest }, written)

def readMembers : List Member → Seen → σ → Except Raised (Seen × σ)
  | [], seen, s => .ok (seen, s)
  | member :: rest, seen, s => do
    let (seen, s) ← readMember platform reader sink member seen s
    readMembers rest seen s

end Loop

/-! ## What the loop accepts -/

structure ReadableAs (platform : Platform) (reader : Reader) (member : Member) (path : SafePath) : Prop where
  named : safeTarPath platform member.name = .ok path
  kind : member.kind = .directory ∨ member.kind = .regular
  bounded : member.kind = .regular → member.size ≤ reader.maxTarSize
  whole : member.kind = .regular → member.content.length = member.size
  manifest : member.kind = .regular → path.asPosix = manifestName →
    member.content.length ≤ maxEvidenceManifestBytes

def Seen.add (platform : Platform) (seen : Seen) (entry : Member × SafePath) : Seen :=
  match entry.1.kind with
  | .regular =>
    { paths := seen.paths ++ [entry.2.asPosix]
      files := seen.files ++
        [(entry.2.asPosix, ⟨entry.1.content.length, platform.sha256Hex entry.1.content⟩)]
      manifest := if entry.2.asPosix = manifestName then some entry.1.content else seen.manifest }
  | _ => { seen with paths := seen.paths ++ [entry.2.asPosix] }

section Spec
variable {σ : Type} {platform : Platform} {reader : Reader} {sink : Sink σ}

def Sink.take (sink : Sink σ) (entry : Member × SafePath) (s : σ) : Except Raised σ :=
  match entry.1.kind with
  | .directory => sink.directory entry.2 s
  | _ => (sink.openFile entry.2 entry.1.size s).map fun opened =>
      entry.1.chunks.foldl (fun s chunk => sink.write entry.2 chunk s) opened

def Sink.takeAll (sink : Sink σ) : List (Member × SafePath) → σ → Except Raised σ
  | [], s => .ok s
  | entry :: rest, s => do
    let taken ← sink.take entry s
    takeAll sink rest taken

theorem readChunks_eq_ok {path : SafePath} {size : ℕ} {chunks : List (List UInt8)} {content : List UInt8}
    {s : σ} {result : List UInt8 × σ} (hcontent : content.length ≤ size)
    (hlimit : path.asPosix = manifestName → content.length ≤ maxEvidenceManifestBytes) :
    readChunks reader sink path size chunks content s = .ok result ↔
      (content ++ chunks.flatten).length ≤ size ∧
      (path.asPosix = manifestName → (content ++ chunks.flatten).length ≤ maxEvidenceManifestBytes) ∧
      (content ++ chunks.flatten, chunks.foldl (fun s chunk => sink.write path chunk s) s) = result := by
  induction chunks generalizing content s with
  | nil =>
    simp only [readChunks, Except.ok.injEq, List.flatten_nil, List.append_nil, List.foldl_nil]
    exact (and_iff_right hcontent).trans (and_iff_right hlimit) |>.symm
  | cons chunk rest ih =>
    have hlength : (content ++ chunk).length ≤ (content ++ (chunk :: rest).flatten).length := by
      simp only [List.flatten_cons, List.length_append]
      omega
    rw [readChunks]
    split
    · next hsize =>
      constructor
      · exact fun h => nomatch h
      · intro h
        have := h.1
        omega
    · next hsize =>
      split
      · next hmanifest =>
        constructor
        · exact fun h => nomatch h
        · intro h
          have := h.2.1 hmanifest.1
          omega
      · next hmanifest =>
        rw [not_and, not_lt] at hmanifest
        rw [ih (by omega) hmanifest, List.flatten_cons, List.append_assoc, List.foldl_cons]

theorem readMember_eq_ok {member : Member} {seen : Seen} {s : σ} {result : Seen × σ} :
    readMember platform reader sink member seen s = .ok result ↔
      ∃ path, ReadableAs platform reader member path ∧ path.asPosix ∉ seen.paths ∧
        ∃ taken, sink.take (member, path) s = .ok taken ∧
          (seen.add platform (member, path), taken) = result := by
  rw [readMember]
  constructor
  · intro h
    obtain ⟨path, hpath, h⟩ := bind_eq_ok.mp h
    dsimp only at h
    split at h
    · cases h
    · next hfresh =>
      rw [List.contains_iff_mem] at hfresh
      cases hkind : member.kind with
      | directory =>
        rw [hkind] at h
        obtain ⟨made, hmade, h⟩ := bind_eq_ok.mp h
        cases h
        refine ⟨path, ⟨hpath, .inl hkind, ?_, ?_, ?_⟩, hfresh, made, ?_, ?_⟩
        · exact fun hregular => nomatch hkind.symm.trans hregular
        · exact fun hregular => nomatch hkind.symm.trans hregular
        · exact fun hregular => nomatch hkind.symm.trans hregular
        · rw [Sink.take, hkind]
          exact hmade
        · rw [Seen.add, hkind]
      | regular =>
        rw [hkind] at h
        dsimp only at h
        split at h
        · cases h
        · next hbounded =>
          obtain ⟨opened, hopened, h⟩ := bind_eq_ok.mp h
          obtain ⟨⟨content, written⟩, hchunks, h⟩ := bind_eq_ok.mp h
          obtain ⟨-, hlimit, hread⟩ := (readChunks_eq_ok (by simp) (by simp)).mp hchunks
          cases hread
          split at h
          · cases h
          · next hwhole =>
            rw [not_not] at hwhole
            cases h
            refine ⟨path, ⟨hpath, .inr hkind, fun _ => not_lt.mp hbounded, fun _ => hwhole,
              fun _ => hlimit⟩, hfresh, member.chunks.foldl (fun s chunk => sink.write path chunk s) opened,
              ?_, ?_⟩
            · rw [Sink.take, hkind]
              exact map_eq_ok.mpr ⟨opened, hopened, rfl⟩
            · rw [Seen.add, hkind]
              rfl
      | _ =>
        rw [hkind] at h
        cases h
  · rintro ⟨path, hreadable, hfresh, taken, htaken, rfl⟩
    refine bind_eq_ok.mpr ⟨path, hreadable.named, ?_⟩
    dsimp only
    rw [if_neg (by rwa [List.contains_iff_mem])]
    obtain hkind | hkind := hreadable.kind
    · simp only [Sink.take, hkind] at htaken
      simp only [hkind, Seen.add]
      exact bind_eq_ok.mpr ⟨taken, htaken, rfl⟩
    · simp only [Sink.take, hkind] at htaken
      obtain ⟨opened, hopened, rfl⟩ := map_eq_ok.mp htaken
      simp only [hkind, Seen.add]
      rw [if_neg (not_lt.mpr (hreadable.bounded hkind))]
      refine bind_eq_ok.mpr ⟨opened, hopened, bind_eq_ok.mpr ⟨_,
        (readChunks_eq_ok (by simp) (by simp)).mpr ⟨?_, ?_, rfl⟩, ?_⟩⟩
      · exact (hreadable.whole hkind).le
      · exact hreadable.manifest hkind
      · have hwhole : ([] ++ member.chunks.flatten).length = member.size := hreadable.whole hkind
        dsimp only
        rw [if_neg (not_not.mpr hwhole)]
        rfl

structure ReadAs (platform : Platform) (reader : Reader) (members : List Member)
    (entries : List (Member × SafePath)) : Prop where
  members_eq : entries.map Prod.fst = members
  readable : ∀ entry ∈ entries, ReadableAs platform reader entry.1 entry.2
  distinct : (entries.map fun entry => entry.2.asPosix).Nodup

theorem readMembers_eq_ok {members : List Member} {seen : Seen} {s : σ} {result : Seen × σ}
    (hseen : seen.paths.Nodup) :
    readMembers platform reader sink members seen s = .ok result ↔
      ∃ entries, entries.map Prod.fst = members ∧
        (∀ entry ∈ entries, ReadableAs platform reader entry.1 entry.2) ∧
        (seen.paths ++ entries.map fun entry => entry.2.asPosix).Nodup ∧
        ∃ taken, sink.takeAll entries s = .ok taken ∧
          (entries.foldl (Seen.add platform) seen, taken) = result := by
  induction members generalizing seen s with
  | nil =>
    rw [readMembers]
    constructor
    · intro h
      cases h
      exact ⟨[], rfl, by simp, by simpa using hseen, s, rfl, rfl⟩
    · rintro ⟨entries, hentries, -, -, taken, htaken, rfl⟩
      rw [List.map_eq_nil_iff] at hentries
      subst hentries
      cases htaken
      rfl
  | cons member rest ih =>
    have hadd : ∀ path, (seen.add platform (member, path)).paths = seen.paths ++ [path.asPosix] := by
      intro path
      rw [Seen.add]
      split <;> rfl
    have hnodup : ∀ path : SafePath, path.asPosix ∉ seen.paths →
        (seen.add platform (member, path)).paths.Nodup := by
      intro path hfresh
      rw [hadd, List.nodup_append]
      refine ⟨hseen, List.nodup_singleton _, fun a ha b hb hab => hfresh ?_⟩
      rwa [← List.mem_singleton.mp hb, ← hab]
    rw [readMembers]
    constructor
    · intro h
      obtain ⟨⟨seen₁, s₁⟩, hmember, h⟩ := bind_eq_ok.mp h
      obtain ⟨path, hreadable, hfresh, taken₁, htaken₁, heq⟩ := readMember_eq_ok.mp hmember
      cases heq
      obtain ⟨entries, rfl, hall, hdistinct, taken, htaken, hresult⟩ := (ih (hnodup path hfresh)).mp h
      rw [hadd, List.append_assoc, List.singleton_append] at hdistinct
      refine ⟨(member, path) :: entries, rfl, ?_, hdistinct, taken, ?_, hresult⟩
      · exact List.forall_mem_cons.mpr ⟨hreadable, hall⟩
      · exact bind_eq_ok.mpr ⟨_, htaken₁, htaken⟩
    · rintro ⟨entries, hentries, hall, hdistinct, taken, htaken, hresult⟩
      cases entries with
      | nil => cases hentries
      | cons entry entries =>
        obtain ⟨member', path⟩ := entry
        rw [List.map_cons, List.cons.injEq] at hentries
        obtain ⟨rfl, rfl⟩ := hentries
        obtain ⟨hreadable, hall⟩ := List.forall_mem_cons.mp hall
        obtain ⟨taken₁, htaken₁, htaken⟩ := bind_eq_ok.mp htaken
        have hfresh : path.asPosix ∉ seen.paths := by
          intro hmem
          exact (List.nodup_append.mp hdistinct).2.2 _ hmem _ List.mem_cons_self rfl
        refine bind_eq_ok.mpr ⟨_, readMember_eq_ok.mpr ⟨path, hreadable, hfresh, taken₁, htaken₁, rfl⟩, ?_⟩
        refine (ih (hnodup path hfresh)).mpr ⟨entries, rfl, hall, ?_, taken, htaken, hresult⟩
        rw [hadd, List.append_assoc]
        exact hdistinct

/-- From nothing seen, the loop reads a stream through when it can read each member, the paths are
distinct and the sink takes them all. -/
theorem readMembers_none_eq_ok {members : List Member} {s : σ} {result : Seen × σ} :
    readMembers platform reader sink members .none s = .ok result ↔
      ∃ entries, ReadAs platform reader members entries ∧ ∃ taken, sink.takeAll entries s = .ok taken ∧
        (entries.foldl (Seen.add platform) .none, taken) = result := by
  rw [readMembers_eq_ok (show Seen.none.paths.Nodup from List.nodup_nil)]
  constructor
  · rintro ⟨entries, hmembers, hall, hdistinct, hrest⟩
    exact ⟨entries, ⟨hmembers, hall, hdistinct⟩, hrest⟩
  · rintro ⟨entries, ⟨hmembers, hall, hdistinct⟩, hrest⟩
    exact ⟨entries, hmembers, hall, hdistinct, hrest⟩

theorem takeAll_noSink (entries : List (Member × SafePath)) : noSink.takeAll entries () = .ok () := by
  induction entries with
  | nil => rfl
  | cons entry entries ih =>
    refine bind_eq_ok.mpr ⟨(), ?_, ih⟩
    rw [Sink.take]
    split <;> rfl

end Spec

end XFoilFoam.Evidence
