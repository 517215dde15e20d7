import XFoilFoam.Foundations.Bytes
import XFoilFoam.Foundations.JsValue
import XFoilFoam.Foundations.KeyOrder
import XFoilFoam.Foundations.ExceptLists

/-! `parseEvidenceManifest` and `manifestMemberSetSha256` of
`packages/db/src/evidence-archive-manifest.ts`.  Strings are sequences of code units, because a manifest
may spell a path with any of them and a path is hashed as UTF-8. -/
namespace XFoilFoam.Manifest
set_option autoImplicit false

/-! ## Decoded JSON -/

/-- What `JSON.parse` returns, with strings as code units. -/
inductive Json where
  | undefined
  | null
  | bool (b : Bool)
  | num (x : ExactNum)
  | str (s : JsString)
  | arr (xs : List Json)
  | obj (fields : List (JsString × Json))

/-- `value.key`, and `undefined` where there is none. -/
def Json.get (v : Json) (key : String) : Json :=
  match v with
  | .obj fields => (fields.find? (fun field => field.1 == unitsOf key)).elim .undefined Prod.snd
  | _ => .undefined

/-- The platform: decoding of the bytes, the digest in hexadecimal, and `localeCompare`. -/
structure Runtime where
  decode : List UInt8 → Except JsString Json
  sha256Hex : List UInt8 → JsString
  localeLe : JsString → JsString → Bool

/-! ## Checks on strings -/

def isSpaceUnit (u : UInt16) : Bool := jsWhitespace (unitScalar u)

def trim (s : JsString) : JsString :=
  (s.dropWhile isSpaceUnit).reverse.dropWhile isSpaceUnit |>.reverse

/-- `/`. -/
def slash : UInt16 := 0x2f

def isHexUnit (u : UInt16) : Bool :=
  (decide (0x30 ≤ u.toNat) && decide (u.toNat ≤ 0x39)) ||
    (decide (0x61 ≤ u.toNat) && decide (u.toNat ≤ 0x66))

/-- `/^[0-9a-f]{64}$/`. -/
def isSha256 (s : JsString) : Bool := s.length == 64 && s.all isHexUnit

def isLowerUnit (u : UInt16) : Bool := decide (0x61 ≤ u.toNat) && decide (u.toNat ≤ 0x7a)

/-- `/^[a-z][a-z0-9_]{0,63}$/`. -/
def isRole : JsString → Bool
  | [] => false
  | first :: rest =>
    isLowerUnit first && decide (rest.length ≤ 63) &&
      rest.all (fun u => isLowerUnit u || (decide (0x30 ≤ u.toNat) && decide (u.toNat ≤ 0x39)) ||
        decide (u.toNat = 0x5f))

/-- The conditions of `exactSafeRelative` on a string. -/
def isSafeRelative (s : JsString) : Bool :=
  !s.isEmpty && trim s == s && !(s.head? == some slash) && !s.contains 0x5c && !s.contains 0 &&
    (s.splitOn slash).all (fun part =>
      !part.isEmpty && !(part == unitsOf ".") && !(part == unitsOf ".."))

def exactSafeRelative (value : Json) (label : JsString) : Except JsString JsString :=
  match value with
  | .str s =>
    if isSafeRelative s then .ok s
    else .error (label ++ unitsOf " must be a safe exact relative path")
  | _ => .error (label ++ unitsOf " must be a safe exact relative path")

/-- `object`: the value itself when it is an object. -/
def object (value : Json) (label : JsString) : Except JsString Json :=
  match value with
  | .obj fields => .ok (.obj fields)
  | _ => .error (label ++ unitsOf " must be an object")

def optionalRole (value : Json) (label : JsString) : Except JsString (Option JsString) :=
  match value with
  | .undefined => .ok none
  | .str s =>
    if isRole s then .ok (some s)
    else .error (label ++ unitsOf " must be a lower-snake-case evidence role")
  | _ => .error (label ++ unitsOf " must be a lower-snake-case evidence role")

/-! ## Manifest -/

structure EvidenceManifestEntry where
  path : JsString
  sha256 : JsString
  byteSize : ℕ
  role : Option JsString
  deriving DecidableEq

structure ParsedEvidenceManifest where
  bundled : List EvidenceManifestEntry
  excluded : List EvidenceManifestEntry
  bundleExcludes : List JsString
  memberSet : List EvidenceManifestEntry
  deriving DecidableEq

def indexText (i : ℕ) : JsString := (Nat.toDigits 10 i).map (fun c => UInt16.ofNat c.toNat)

/-- The loop over `bundleExcludes`. -/
def readExcludes : ℕ → List JsString → List Json → Except JsString (List JsString)
  | _, roots, [] => .ok roots
  | i, roots, raw :: rest => do
    let root ← exactSafeRelative raw (unitsOf "evidence manifest bundleExcludes " ++ indexText i)
    if root.contains slash then .error (unitsOf "bundleExcludes entries must be top-level names")
    else if roots.contains root then
      .error (unitsOf "duplicate evidence bundle exclusion " ++ root)
    else readExcludes (i + 1) (roots ++ [root]) rest

/-- One element of `files` without the check for duplicates. -/
def readSha256 (value : Json) (label : JsString) : Except JsString JsString :=
  match value with
  | .str s => if isSha256 s then .ok s else .error (label ++ unitsOf " sha256 is malformed")
  | _ => .error (label ++ unitsOf " sha256 is malformed")

def readByteSize (value : Json) (label : JsString) : Except JsString ℕ :=
  match value with
  | .num x =>
    match x.safeInteger with
    | some size =>
      if size < 0 then .error (label ++ unitsOf " byteSize must be a non-negative safe integer")
      else .ok size.toNat
    | none => .error (label ++ unitsOf " byteSize must be a non-negative safe integer")
  | _ => .error (label ++ unitsOf " byteSize must be a non-negative safe integer")

/-- The loop over `files`; `entries` is the map so far, in insertion order. -/
def readFiles : ℕ → List EvidenceManifestEntry → List Json →
    Except JsString (List EvidenceManifestEntry)
  | _, entries, [] => .ok entries
  | i, entries, raw :: rest => do
    let label := unitsOf "evidence manifest file " ++ indexText i
    let entry ← object raw label
    let path ← exactSafeRelative (entry.get "path") (label ++ unitsOf " path")
    if (entries.map EvidenceManifestEntry.path).contains path then
      .error (unitsOf "evidence manifest contains duplicate member path " ++ path)
    else do
      let sha256 ← readSha256 (entry.get "sha256") label
      let byteSize ← readByteSize (entry.get "byteSize") label
      let role ← optionalRole (entry.get "role") (label ++ unitsOf " role")
      readFiles (i + 1) (entries ++ [⟨path, sha256, byteSize, role⟩]) rest

/-- `path.split("/", 1)[0]`. -/
def topLevel (path : JsString) : JsString := path.takeWhile (fun u => u != slash)

def sortByLocale (runtime : Runtime) (entries : List EvidenceManifestEntry) :
    List EvidenceManifestEntry :=
  entries.insertionSort (fun a b => runtime.localeLe a.path b.path = true)

def manifestPath : JsString := unitsOf "evidence_manifest.json"

/-- `manifest.bundleExcludes ?? []`. -/
def rawExcludes (manifest : Json) : Json :=
  match manifest.get "bundleExcludes" with
  | .undefined => .arr []
  | .null => .arr []
  | value => value

/-- `JSON.parse` of the bytes, its exception reworded. -/
def decodeManifest (runtime : Runtime) (manifestBytes : List UInt8) : Except JsString Json :=
  match runtime.decode manifestBytes with
  | .ok decoded => .ok decoded
  | .error error => .error (unitsOf "evidence manifest is invalid JSON: " ++ error)

/-- `Array.isArray`, or an error with this text. -/
def array (value : Json) (message : String) : Except JsString (List Json) :=
  match value with
  | .arr values => .ok values
  | _ => .error (unitsOf message)

def parseEvidenceManifest (runtime : Runtime) (manifestBytes : List UInt8) :
    Except JsString ParsedEvidenceManifest := do
  let decoded ← decodeManifest runtime manifestBytes
  let manifest ← object decoded (unitsOf "evidence manifest")
  let files ← array (manifest.get "files") "evidence manifest files must be an array"
  let excludes ← array (rawExcludes manifest) "evidence manifest bundleExcludes must be an array"
  let excludedRoots ← readExcludes 0 [] excludes
  let entries ← readFiles 0 [] files
  let ordered := sortByLocale runtime entries
  let bundled := ordered.filter (fun entry => !excludedRoots.contains (topLevel entry.path))
  let excluded := ordered.filter (fun entry => excludedRoots.contains (topLevel entry.path))
  let manifestEntry : EvidenceManifestEntry :=
    ⟨manifestPath, runtime.sha256Hex manifestBytes, manifestBytes.length, none⟩
  return {
    bundled := bundled
    excluded := excluded
    bundleExcludes := KeyOrder.sortBy (fun root => root.map UInt16.toNat) excludedRoots
    memberSet := sortByLocale runtime (manifestEntry :: bundled) }

/-! ## Member sets -/

/-- Sorted with `compareUtf8Paths`. -/
def byPath (entries : List EvidenceManifestEntry) : List EvidenceManifestEntry :=
  KeyOrder.sortBy (fun entry => (utf8 entry.path).map UInt8.toNat) entries

def entryFields (entry : EvidenceManifestEntry) : List UInt8 × List UInt8 × List UInt8 :=
  (utf8 entry.path, utf8 entry.sha256, charBytes (Nat.toDigits 10 entry.byteSize))

/-- The bytes hashed by `manifestMemberSetSha256`. -/
def memberSetBytes (entries : List EvidenceManifestEntry) : List UInt8 :=
  (byPath entries).flatMap (fun entry => record 0 10 (entryFields entry))

def manifestMemberSetSha256 (runtime : Runtime) (entries : List EvidenceManifestEntry) : JsString :=
  runtime.sha256Hex (memberSetBytes entries)

/-! ## What the loops accept -/

theorem exactSafeRelative_eq_ok {value : Json} {label s : JsString}
    (h : exactSafeRelative value label = .ok s) : value = .str s ∧ isSafeRelative s = true := by
  cases value with
  | str t =>
    simp only [exactSafeRelative] at h
    split at h
    · next hsafe =>
      cases h
      exact ⟨rfl, hsafe⟩
    · cases h
  | _ => cases h

theorem object_eq_ok {value result : Json} {label : JsString} (h : object value label = .ok result) :
    result = value := by
  cases value with
  | obj fields =>
    cases h
    rfl
  | _ => cases h

theorem decodeManifest_eq_ok {runtime : Runtime} {bytes : List UInt8} {manifest : Json}
    (h : decodeManifest runtime bytes = .ok manifest) : runtime.decode bytes = .ok manifest := by
  rw [decodeManifest] at h
  split at h
  · next hdecode =>
    cases h
    exact hdecode
  · cases h

theorem array_eq_ok {value : Json} {message : String} {values : List Json}
    (h : array value message = .ok values) : value = .arr values := by
  cases value with
  | arr xs =>
    cases h
    rfl
  | _ => cases h

theorem readSha256_eq_ok {value : Json} {label s : JsString} (h : readSha256 value label = .ok s) :
    value = .str s ∧ isSha256 s = true := by
  cases value with
  | str t =>
    simp only [readSha256] at h
    split at h
    · next hsha =>
      cases h
      exact ⟨rfl, hsha⟩
    · cases h
  | _ => cases h

theorem optionalRole_eq_ok {value : Json} {label : JsString} {role : Option JsString}
    (h : optionalRole value label = .ok role) : value = role.elim .undefined .str := by
  cases value with
  | undefined =>
    cases h
    rfl
  | str t =>
    simp only [optionalRole] at h
    split at h
    · cases h
      rfl
    · cases h
  | _ => cases h

theorem readByteSize_eq_ok {value : Json} {label : JsString} {size : ℕ}
    (h : readByteSize value label = .ok size) :
    ∃ x, value = .num x ∧ x.safeInteger = some (size : ℤ) := by
  cases value with
  | num x =>
    simp only [readByteSize] at h
    split at h
    · next z hz =>
      split at h
      · cases h
      · next hnonneg =>
        cases h
        refine ⟨x, rfl, ?_⟩
        rw [hz, Option.some.injEq, Int.toNat_of_nonneg (not_lt.mp hnonneg)]
    · cases h
  | _ => cases h

structure ListedAs (raw : Json) (entry : EvidenceManifestEntry) : Prop where
  path : raw.get "path" = .str entry.path
  safe : isSafeRelative entry.path = true
  sha256 : raw.get "sha256" = .str entry.sha256
  hex : isSha256 entry.sha256 = true
  byteSize : ∃ x, raw.get "byteSize" = .num x ∧ x.safeInteger = some (entry.byteSize : ℤ)
  role : raw.get "role" = entry.role.elim .undefined .str

theorem readFiles_spec (raws : List Json) (i : ℕ) (entries result : List EvidenceManifestEntry)
    (h : readFiles i entries raws = .ok result)
    (hdistinct : (entries.map EvidenceManifestEntry.path).Nodup) :
    (result.map EvidenceManifestEntry.path).Nodup ∧
      ∃ listed, result = entries ++ listed ∧ List.Forall₂ ListedAs raws listed := by
  induction raws generalizing i entries with
  | nil =>
    cases h
    exact ⟨hdistinct, [], by simp, .nil⟩
  | cons raw raws ih =>
    rw [readFiles] at h
    obtain ⟨value, hobject, h₁⟩ := bind_eq_ok.mp h
    obtain ⟨path, hpath, h₂⟩ := bind_eq_ok.mp h₁
    split at h₂
    · cases h₂
    · next hnew =>
      obtain ⟨sha256, hsha256, h₃⟩ := bind_eq_ok.mp h₂
      obtain ⟨byteSize, hbyteSize, h₄⟩ := bind_eq_ok.mp h₃
      obtain ⟨role, hrole, h₅⟩ := bind_eq_ok.mp h₄
      rw [object_eq_ok hobject] at hpath hsha256 hbyteSize hrole
      have hlisted : ListedAs raw ⟨path, sha256, byteSize, role⟩ :=
        { path := (exactSafeRelative_eq_ok hpath).1
          safe := (exactSafeRelative_eq_ok hpath).2
          sha256 := (readSha256_eq_ok hsha256).1
          hex := (readSha256_eq_ok hsha256).2
          byteSize := readByteSize_eq_ok hbyteSize
          role := optionalRole_eq_ok hrole }
      have hdistinct' : ((entries ++ ([⟨path, sha256, byteSize, role⟩] :
          List EvidenceManifestEntry)).map EvidenceManifestEntry.path).Nodup := by
        rw [List.map_append, List.map_singleton]
        refine List.nodup_append.mpr ⟨hdistinct, List.nodup_singleton _, ?_⟩
        intro a ha b hb hab
        rw [List.mem_singleton] at hb
        rw [List.contains_iff_mem] at hnew
        rw [hab, hb] at ha
        exact hnew ha
      obtain ⟨hnodup, listed, hresult, hall⟩ := ih _ _ h₅ hdistinct'
      exact ⟨hnodup, ⟨path, sha256, byteSize, role⟩ :: listed, by rw [hresult]; simp,
        .cons hlisted hall⟩

theorem readExcludes_spec (raws : List Json) (i : ℕ) (roots result : List JsString)
    (h : readExcludes i roots raws = .ok result) :
    ∃ listed, result = roots ++ listed ∧ raws = listed.map .str ∧ ∀ root ∈ listed, slash ∉ root := by
  induction raws generalizing i roots with
  | nil =>
    cases h
    exact ⟨[], by simp, rfl, by simp⟩
  | cons raw raws ih =>
    rw [readExcludes] at h
    obtain ⟨root, hroot, h⟩ := bind_eq_ok.mp h
    split at h
    · cases h
    · next hslash =>
      split at h
      · cases h
      · obtain ⟨listed, hresult, hraws, hall⟩ := ih _ _ h
        refine ⟨root :: listed, by rw [hresult]; simp, ?_, ?_⟩
        · rw [(exactSafeRelative_eq_ok hroot).1, hraws, List.map_cons]
        · rw [List.forall_mem_cons]
          exact ⟨by simpa using hslash, hall⟩

theorem parse_eq_ok {runtime : Runtime} {bytes : List UInt8} {parsed : ParsedEvidenceManifest}
    (h : parseEvidenceManifest runtime bytes = .ok parsed) :
    ∃ manifest files roots entries,
      runtime.decode bytes = .ok manifest ∧ manifest.get "files" = .arr files ∧
      rawExcludes manifest = .arr (roots.map .str) ∧ (∀ root ∈ roots, slash ∉ root) ∧
      List.Forall₂ ListedAs files entries ∧ (entries.map EvidenceManifestEntry.path).Nodup ∧
      parsed.bundled = (sortByLocale runtime entries).filter
        (fun entry => !roots.contains (topLevel entry.path)) ∧
      parsed.excluded = (sortByLocale runtime entries).filter
        (fun entry => roots.contains (topLevel entry.path)) ∧
      parsed.bundleExcludes = KeyOrder.sortBy (fun root => root.map UInt16.toNat) roots ∧
      parsed.memberSet = sortByLocale runtime
        (⟨manifestPath, runtime.sha256Hex bytes, bytes.length, none⟩ :: parsed.bundled) := by
  rw [parseEvidenceManifest] at h
  obtain ⟨decoded, hdecoded, h₁⟩ := bind_eq_ok.mp h
  obtain ⟨manifest, hmanifest, h₂⟩ := bind_eq_ok.mp h₁
  obtain ⟨files, hfiles, h₃⟩ := bind_eq_ok.mp h₂
  obtain ⟨excludes, hexcludes, h₄⟩ := bind_eq_ok.mp h₃
  obtain ⟨roots, hroots, h₅⟩ := bind_eq_ok.mp h₄
  obtain ⟨entries, hentries, h₆⟩ := bind_eq_ok.mp h₅
  cases h₆
  rw [object_eq_ok hmanifest] at hfiles hexcludes
  obtain ⟨listedRoots, hlistedRoots, hraws, hslash⟩ := readExcludes_spec excludes 0 [] roots hroots
  obtain ⟨hnodup, listed, hlisted, hall⟩ := readFiles_spec files 0 [] entries hentries List.nodup_nil
  rw [List.nil_append] at hlistedRoots hlisted
  subst hlistedRoots
  subst hlisted
  refine ⟨decoded, files, roots, entries, decodeManifest_eq_ok hdecoded, array_eq_ok hfiles, ?_,
    hslash, hall, hnodup, rfl, rfl, rfl, rfl⟩
  rw [array_eq_ok hexcludes, hraws]

/-! ## Member sets as byte streams -/

/-- Entries that may be hashed as one member set: distinct paths without NUL, all of them in
`paths`, and digests in hexadecimal. -/
structure IsMemberSet (paths : Set JsString) (entries : List EvidenceManifestEntry) : Prop where
  distinct : (entries.map EvidenceManifestEntry.path).Nodup
  among : ∀ entry ∈ entries, entry.path ∈ paths
  noNul : ∀ entry ∈ entries, (0 : UInt16) ∉ entry.path
  hex : ∀ entry ∈ entries, isSha256 entry.sha256 = true

def memberRow (entry : EvidenceManifestEntry) : JsString × JsString × ℕ :=
  (entry.path, entry.sha256, entry.byteSize)

def SameMembers (entries entries' : List EvidenceManifestEntry) : Prop :=
  ∀ row, row ∈ entries.map memberRow ↔ row ∈ entries'.map memberRow

/-- Paths whose scalar values differ; a lone surrogate is read as U+FFFD. -/
def SeparatedPaths (paths : Set JsString) : Prop :=
  ∀ s ∈ paths, ∀ t ∈ paths, (0 : UInt16) ∉ s → (0 : UInt16) ∉ t → scalars s = scalars t → s = t

theorem hex_units {s : JsString} (h : isSha256 s = true) {u : UInt16} (hu : u ∈ s) :
    0x30 ≤ u.toNat ∧ u.toNat ≤ 0x66 := by
  rw [isSha256, Bool.and_eq_true] at h
  have hunit := List.all_eq_true.mp h.2 u hu
  simp only [isHexUnit, Bool.or_eq_true, Bool.and_eq_true, decide_eq_true_eq] at hunit
  omega

theorem hex_noSurrogates {s : JsString} (h : isSha256 s = true) :
    ∀ u ∈ s, isHighSurrogate u = false ∧ isLowSurrogate u = false := by
  intro u hu
  have hunit := hex_units h hu
  simp only [isHighSurrogate, isLowSurrogate, Bool.and_eq_false_iff, decide_eq_false_iff_not]
  omega

theorem hex_noNul {s : JsString} (h : isSha256 s = true) : (0 : UInt16) ∉ s := by
  intro hmem
  have hunit := hex_units h hmem
  rw [UInt16.toNat_zero] at hunit
  omega

theorem newline_notMem_digits (n : ℕ) : (10 : UInt8) ∉ charBytes (Nat.toDigits 10 n) := by
  apply notMem_charBytes_ascii
  intro c hc
  have hdigit := Char.isDigit_iff_toNat.mp (Nat.isDigit_of_mem_toDigits (by omega) le_rfl hc)
  have hzero : '0'.toNat = 48 := rfl
  have hnine : '9'.toNat = 57 := rfl
  have hten : (10 : UInt8).toNat = 10 := rfl
  omega

theorem digits_inj {n n' : ℕ} (h : Nat.toDigits 10 n = Nat.toDigits 10 n') : n = n' := by
  rw [← Nat.ofDigitChars_ten_toDigits (n := n), h, Nat.ofDigitChars_ten_toDigits]

theorem mem_byPath (entries : List EvidenceManifestEntry) {entry : EvidenceManifestEntry} :
    entry ∈ byPath entries ↔ entry ∈ entries := KeyOrder.mem_sortBy _

theorem memberSetBytes_eq (entries : List EvidenceManifestEntry) :
    memberSetBytes entries = ((byPath entries).map entryFields).flatMap (record 0 10) := by
  rw [List.flatMap_map]
  rfl

def rowFields (row : JsString × JsString × ℕ) : List UInt8 × List UInt8 × List UInt8 :=
  (utf8 row.1, utf8 row.2.1, charBytes (Nat.toDigits 10 row.2.2))

theorem map_entryFields (entries : List EvidenceManifestEntry) :
    entries.map entryFields = (entries.map memberRow).map rowFields := by
  rw [List.map_map]
  rfl

namespace IsMemberSet
variable {paths : Set JsString} {entries entries' : List EvidenceManifestEntry}

theorem ends (h : IsMemberSet paths entries) {entry : EvidenceManifestEntry} (hentry : entry ∈ entries) :
    (0 : UInt8) ∉ (entryFields entry).1 ∧ (0 : UInt8) ∉ (entryFields entry).2.1 ∧
      (10 : UInt8) ∉ (entryFields entry).2.2 :=
  ⟨zero_notMem_utf8 _ (h.noNul entry hentry), zero_notMem_utf8 _ (hex_noNul (h.hex entry hentry)),
    newline_notMem_digits _⟩

theorem ends_sorted (h : IsMemberSet paths entries) :
    ∀ f ∈ (byPath entries).map entryFields, (0 : UInt8) ∉ f.1 ∧ (0 : UInt8) ∉ f.2.1 ∧ (10 : UInt8) ∉ f.2.2 := by
  rw [List.forall_mem_map]
  exact fun entry hentry => h.ends ((mem_byPath entries).mp hentry)

theorem fields_inj (h : IsMemberSet paths entries) (h' : IsMemberSet paths entries')
    (hseparated : SeparatedPaths paths) {entry entry' : EvidenceManifestEntry}
    (hentry : entry ∈ entries) (hentry' : entry' ∈ entries')
    (hfields : entryFields entry = entryFields entry') : memberRow entry = memberRow entry' := by
  obtain ⟨hpath, hrest⟩ := Prod.mk.inj hfields
  obtain ⟨hsha, hsize⟩ := Prod.mk.inj hrest
  have hpaths : entry.path = entry'.path :=
    hseparated _ (h.among entry hentry) _ (h'.among entry' hentry') (h.noNul entry hentry)
      (h'.noNul entry' hentry') (charBytes_inj hpath)
  have hshas : entry.sha256 = entry'.sha256 :=
    utf8_inj (hex_noSurrogates (h.hex entry hentry)) (hex_noSurrogates (h'.hex entry' hentry')) hsha
  have hsizes : entry.byteSize = entry'.byteSize := digits_inj (charBytes_inj hsize)
  rw [memberRow, memberRow, hpaths, hshas, hsizes]

theorem members_of_stream (h : IsMemberSet paths entries) (h' : IsMemberSet paths entries')
    (hseparated : SeparatedPaths paths) (hbytes : memberSetBytes entries = memberSetBytes entries') :
    SameMembers entries entries' := by
  rw [memberSetBytes_eq, memberSetBytes_eq] at hbytes
  have hrows := records_inj _ _ (h.ends_sorted) (h'.ends_sorted) hbytes
  intro row
  constructor
  · intro hrow
    obtain ⟨entry, hentry, rfl⟩ := List.mem_map.mp hrow
    have hsorted := List.mem_map_of_mem (f := entryFields) ((mem_byPath entries).mpr hentry)
    rw [hrows] at hsorted
    obtain ⟨entry', hentry', hfields⟩ := List.mem_map.mp hsorted
    rw [mem_byPath] at hentry'
    rw [h.fields_inj h' hseparated hentry hentry' hfields.symm]
    exact List.mem_map_of_mem hentry'
  · intro hrow
    obtain ⟨entry', hentry', rfl⟩ := List.mem_map.mp hrow
    have hsorted := List.mem_map_of_mem (f := entryFields) ((mem_byPath entries').mpr hentry')
    rw [← hrows] at hsorted
    obtain ⟨entry, hentry, hfields⟩ := List.mem_map.mp hsorted
    rw [mem_byPath] at hentry
    rw [h'.fields_inj h hseparated hentry' hentry hfields.symm]
    exact List.mem_map_of_mem hentry

theorem rows_nodup (h : IsMemberSet paths entries) : (entries.map memberRow).Nodup := by
  apply List.Nodup.of_map Prod.fst
  rw [List.map_map]
  exact h.distinct

theorem rows_sorted (entries : List EvidenceManifestEntry) :
    ((byPath entries).map memberRow).Pairwise
      (fun r s => (utf8 r.1).map UInt8.toNat ≤ (utf8 s.1).map UInt8.toNat) := by
  rw [List.pairwise_map]
  exact KeyOrder.sortBy_sorted _ entries

theorem rows_eq_of_members (h : IsMemberSet paths entries) (h' : IsMemberSet paths entries')
    (hseparated : SeparatedPaths paths) (hmembers : SameMembers entries entries') :
    (byPath entries).map memberRow = (byPath entries').map memberRow := by
  have hperm : (entries.map memberRow).Perm (entries'.map memberRow) :=
    (List.perm_ext_iff_of_nodup h.rows_nodup h'.rows_nodup).mpr hmembers
  apply List.Perm.eq_of_pairwise _ (rows_sorted entries) (rows_sorted entries')
  · exact ((KeyOrder.sortBy_perm _ entries).map memberRow).trans
      (hperm.trans ((KeyOrder.sortBy_perm _ entries').map memberRow).symm)
  · intro r s hr hs hrs hsr
    obtain ⟨entry, hentry, rfl⟩ := List.mem_map.mp hr
    obtain ⟨entry', hentry', rfl⟩ := List.mem_map.mp hs
    rw [mem_byPath] at hentry hentry'
    have hbytes : utf8 entry.path = utf8 entry'.path :=
      List.map_injective_iff.mpr (fun _ _ => UInt8.toNat_inj.mp) (le_antisymm hrs hsr)
    have hpath : entry.path = entry'.path :=
      hseparated _ (h.among entry hentry) _ (h'.among entry' hentry') (h.noNul entry hentry)
        (h'.noNul entry' hentry') (charBytes_inj hbytes)
    -- both stand in the first set, whose paths are distinct
    obtain ⟨twin, htwin, hsame⟩ := List.mem_map.mp ((hmembers _).mpr (List.mem_map_of_mem hentry'))
    have htwinPath : entry.path = twin.path := hpath.trans (congrArg Prod.fst hsame).symm
    rw [List.inj_on_of_nodup_map h.distinct hentry htwin htwinPath, hsame]

theorem stream_iff (h : IsMemberSet paths entries) (h' : IsMemberSet paths entries')
    (hseparated : SeparatedPaths paths) :
    memberSetBytes entries = memberSetBytes entries' ↔ SameMembers entries entries' := by
  constructor
  · exact h.members_of_stream h' hseparated
  · intro hmembers
    rw [memberSetBytes_eq, memberSetBytes_eq, map_entryFields, map_entryFields,
      h.rows_eq_of_members h' hseparated hmembers]

end IsMemberSet

theorem separated_of_stream {paths : Set JsString}
    (h : ∀ entries entries', IsMemberSet paths entries → IsMemberSet paths entries' →
      (memberSetBytes entries = memberSetBytes entries' ↔ SameMembers entries entries')) :
    SeparatedPaths paths := by
  intro s hs t ht hsNul htNul hscalars
  have hsingle : ∀ path ∈ paths, (0 : UInt16) ∉ path →
      IsMemberSet paths [⟨path, List.replicate 64 0x30, 0, none⟩] := by
    intro path hpath hnul
    refine ⟨List.nodup_singleton _, ?_, ?_, ?_⟩
    · simpa using hpath
    · simpa using hnul
    · simp only [List.mem_singleton, forall_eq]
      decide
  have hbytes : memberSetBytes [⟨s, List.replicate 64 0x30, 0, none⟩] =
      memberSetBytes [⟨t, List.replicate 64 0x30, 0, none⟩] := by
    have hutf8 : utf8 s = utf8 t := congrArg charBytes hscalars
    rw [memberSetBytes_eq, memberSetBytes_eq]
    show [entryFields _].flatMap (record 0 10) = [entryFields _].flatMap (record 0 10)
    simp only [entryFields, hutf8]
  have hmembers := (h _ _ (hsingle s hs hsNul) (hsingle t ht htNul)).mp hbytes
  have hrow := (hmembers (s, List.replicate 64 0x30, 0)).mp (List.mem_singleton.mpr rfl)
  exact congrArg Prod.fst (List.mem_singleton.mp hrow)

/-! ## Accepted manifests -/

/-- Every listed file is in one of the two parts, by its top-level name. -/
def SplitByTopLevel (runtime : Runtime) (bytes : List UInt8) (parsed : ParsedEvidenceManifest) : Prop :=
  ∃ manifest files, ∃ roots : List JsString, ∃ listed,
    runtime.decode bytes = .ok manifest ∧ manifest.get "files" = .arr files ∧
    rawExcludes manifest = .arr (roots.map .str) ∧ List.Forall₂ ListedAs files listed ∧
    (parsed.bundled ++ parsed.excluded).Perm listed ∧
    ∀ entry ∈ listed, (entry ∈ parsed.excluded ↔ topLevel entry.path ∈ roots) ∧
      (entry ∈ parsed.bundled ↔ topLevel entry.path ∉ roots)

/-- The manifest names its own file among `files` and does not exclude it. -/
def ListsItself (manifest : Json) : Prop :=
  (∃ files, manifest.get "files" = .arr files ∧ ∃ raw ∈ files, raw.get "path" = .str manifestPath) ∧
    ∀ roots, rawExcludes manifest = .arr roots → .str manifestPath ∉ roots

theorem sortByLocale_perm (runtime : Runtime) (entries : List EvidenceManifestEntry) :
    (sortByLocale runtime entries).Perm entries := List.perm_insertionSort _ entries

theorem parse_split {runtime : Runtime} {bytes : List UInt8} {parsed : ParsedEvidenceManifest}
    (h : parseEvidenceManifest runtime bytes = .ok parsed) : SplitByTopLevel runtime bytes parsed := by
  obtain ⟨manifest, files, roots, entries, hdecode, hfiles, hroots, -, hall, -, hbundled, hexcluded,
    -, -⟩ := parse_eq_ok h
  refine ⟨manifest, files, roots, entries, hdecode, hfiles, hroots, hall, ?_, ?_⟩
  · rw [hbundled, hexcluded]
    have hparts := List.filter_append_perm (fun entry : EvidenceManifestEntry =>
      roots.contains (topLevel entry.path)) (sortByLocale runtime entries)
    exact (List.perm_append_comm.trans hparts).trans (sortByLocale_perm runtime entries)
  · intro entry hentry
    have hsorted := (sortByLocale_perm runtime entries).mem_iff.mpr hentry
    rw [hbundled, hexcluded, List.mem_filter, List.mem_filter]
    simp [hsorted]

theorem listed_path_iff {files : List Json} {entries : List EvidenceManifestEntry}
    (h : List.Forall₂ ListedAs files entries) (path : JsString) :
    path ∈ entries.map EvidenceManifestEntry.path ↔ ∃ raw ∈ files, raw.get "path" = .str path := by
  induction h with
  | nil => simp
  | @cons raw entry files entries hlisted _ ih =>
    rw [List.map_cons, List.mem_cons, ih]
    simp only [List.exists_mem_cons_iff, hlisted.path, Json.str.injEq]
    rw [eq_comm]

theorem topLevel_manifestPath : topLevel manifestPath = manifestPath := by decide

theorem memberSet_distinct_iff {runtime : Runtime} {bytes : List UInt8}
    {parsed : ParsedEvidenceManifest} (h : parseEvidenceManifest runtime bytes = .ok parsed) :
    (parsed.memberSet.map EvidenceManifestEntry.path).Nodup ↔
      ∀ manifest, runtime.decode bytes = .ok manifest → ¬ ListsItself manifest := by
  obtain ⟨manifest, files, roots, entries, hdecode, hfiles, hroots, -, hall, hdistinct, hbundled, -, -,
    hmemberSet⟩ := parse_eq_ok h
  have hbundledDistinct : (parsed.bundled.map EvidenceManifestEntry.path).Nodup := by
    rw [hbundled]
    have hsorted := ((sortByLocale_perm runtime entries).map EvidenceManifestEntry.path).nodup_iff.mpr
      hdistinct
    exact List.Nodup.sublist (List.Sublist.map _ List.filter_sublist) hsorted
  have hown : manifestPath ∈ parsed.bundled.map EvidenceManifestEntry.path ↔ ListsItself manifest := by
    have hlists : ListsItself manifest ↔
        manifestPath ∈ entries.map EvidenceManifestEntry.path ∧ manifestPath ∉ roots := by
      rw [listed_path_iff hall, ListsItself, hfiles, hroots]
      simp
    rw [hlists, hbundled]
    constructor
    · intro hmem
      obtain ⟨entry, hentry, hpath⟩ := List.mem_map.mp hmem
      obtain ⟨hsorted, hkept⟩ := List.mem_filter.mp hentry
      rw [hpath, topLevel_manifestPath] at hkept
      refine ⟨?_, by simpa using hkept⟩
      rw [← hpath]
      exact List.mem_map_of_mem ((sortByLocale_perm runtime entries).mem_iff.mp hsorted)
    · rintro ⟨hmem, hkept⟩
      obtain ⟨entry, hentry, hpath⟩ := List.mem_map.mp hmem
      rw [← hpath]
      refine List.mem_map_of_mem (List.mem_filter.mpr
        ⟨(sortByLocale_perm runtime entries).mem_iff.mpr hentry, ?_⟩)
      rw [hpath, topLevel_manifestPath]
      simpa using hkept
  rw [hmemberSet, ((sortByLocale_perm runtime _).map EvidenceManifestEntry.path).nodup_iff, List.map_cons,
    List.nodup_cons, hown]
  constructor
  · rintro ⟨hnot, -⟩ other hother
    rw [hdecode] at hother
    cases hother
    exact hnot
  · intro hnot
    exact ⟨hnot manifest hdecode, hbundledDistinct⟩

/-- An accepted manifest splits its files and has distinct members, and member sets over `paths` are
told apart by their hashed bytes, exactly when the manifest does not list itself and no two of the paths
have the same scalar values. -/
theorem member_sets_exact_iff (runtime : Runtime) (bytes : List UInt8) (parsed : ParsedEvidenceManifest)
    (paths : Set JsString) (h : parseEvidenceManifest runtime bytes = .ok parsed) :
    (SplitByTopLevel runtime bytes parsed ∧ (parsed.memberSet.map EvidenceManifestEntry.path).Nodup ∧
      ∀ entries entries', IsMemberSet paths entries → IsMemberSet paths entries' →
        (memberSetBytes entries = memberSetBytes entries' ↔ SameMembers entries entries')) ↔
    (∀ manifest, runtime.decode bytes = .ok manifest → ¬ ListsItself manifest) ∧
      SeparatedPaths paths := by
  rw [memberSet_distinct_iff h]
  constructor
  · rintro ⟨-, hown, hstreams⟩
    exact ⟨hown, separated_of_stream hstreams⟩
  · rintro ⟨hown, hseparated⟩
    exact ⟨parse_split h, hown, fun _ _ hset hset' => hset.stream_iff hset' hseparated⟩

def oneFileBytes (path : String) : List UInt8 :=
  ("\x7b\"files\":[\x7b\"path\":\"" ++ path ++ "\",\"sha256\":\"" ++
    String.ofList (List.replicate 64 '0') ++ "\",\"byteSize\":12\x7d]\x7d").toList.map
      (fun c => UInt8.ofNat c.toNat)

def oneFile (path : String) : Json :=
  .obj [(unitsOf "files", .arr [.obj [(unitsOf "path", .str (unitsOf path)),
    (unitsOf "sha256", .str (List.replicate 64 0x30)), (unitsOf "byteSize", .num (.fin 12))]])]

def oneFileRuntime (path digest : String) : Runtime where
  decode bytes := if bytes = oneFileBytes path then .ok (oneFile path) else .error (unitsOf "SyntaxError")
  sha256Hex _ := unitsOf digest
  localeLe s t := decide (s.map UInt16.toNat ≤ t.map UInt16.toNat)

theorem oneFile_decode (path digest : String) :
    (oneFileRuntime path digest).decode (oneFileBytes path) = .ok (oneFile path) := if_pos rfl

theorem oneFileBytes_length (path : String) : (oneFileBytes path).length = path.toList.length + 113 := by
  have hlength : ∀ start middle ending : String, start.toList.length = 19 → middle.toList.length = 12 →
      ending.toList.length = 18 →
      (start ++ path ++ middle ++ String.ofList (List.replicate 64 '0') ++ ending).toList.length =
        path.toList.length + 113 := by
    intro start middle ending hstart hmiddle hending
    rw [String.toList_append, String.toList_append, String.toList_append, String.toList_append, String.toList_ofList,
      List.length_append, List.length_append, List.length_append, List.length_append, List.length_replicate, hstart,
      hmiddle, hending]
    omega
  rw [oneFileBytes, List.length_map]
  exact hlength _ _ _ (by decide) (by decide) (by decide)

def oneFileEntry (path : String) : EvidenceManifestEntry := ⟨unitsOf path, List.replicate 64 0x30, 12, none⟩

theorem parse_oneFile (path digest : String) (hpath : isSafeRelative (unitsOf path) = true)
    (hordered : manifestPath.map UInt16.toNat ≤ (unitsOf path).map UInt16.toNat) :
    parseEvidenceManifest (oneFileRuntime path digest) (oneFileBytes path) =
      .ok ⟨[oneFileEntry path], [], [],
        [⟨manifestPath, unitsOf digest, path.toList.length + 113, none⟩, oneFileEntry path]⟩ := by
  have hfiles : (oneFile path).get "files" = .arr [.obj [(unitsOf "path", .str (unitsOf path)),
      (unitsOf "sha256", .str (List.replicate 64 0x30)), (unitsOf "byteSize", .num (.fin 12))]] := by
    simp [oneFile, Json.get]
  have hexcludes : rawExcludes (oneFile path) = .arr [] := by
    have hnone : (oneFile path).get "bundleExcludes" = .undefined := by
      have hother : unitsOf "files" ≠ unitsOf "bundleExcludes" := by decide
      simp [oneFile, Json.get, hother]
    rw [rawExcludes, hnone]
  have hread : readFiles 0 [] [.obj [(unitsOf "path", .str (unitsOf path)),
      (unitsOf "sha256", .str (List.replicate 64 0x30)), (unitsOf "byteSize", .num (.fin 12))]] =
        .ok [oneFileEntry path] := by
    have hdistinct : unitsOf "path" ≠ unitsOf "sha256" ∧ unitsOf "path" ≠ unitsOf "byteSize" ∧
        unitsOf "sha256" ≠ unitsOf "byteSize" ∧ unitsOf "path" ≠ unitsOf "role" ∧
        unitsOf "sha256" ≠ unitsOf "role" ∧ unitsOf "byteSize" ≠ unitsOf "role" := by decide
    have hsafe (label : JsString) : exactSafeRelative (.str (unitsOf path)) label = .ok (unitsOf path) := if_pos hpath
    have hhex (label : JsString) : readSha256 (.str (List.replicate 64 0x30)) label = .ok (List.replicate 64 0x30) := by
      rw [readSha256, if_pos (by decide)]
    have hsize (label : JsString) : readByteSize (.num (.fin 12)) label = .ok 12 := rfl
    rw [readFiles]
    simp only [object]
    refine bind_eq_ok.mpr ⟨_, rfl, bind_eq_ok.mpr ⟨unitsOf path, ?_, ?_⟩⟩
    · simp [Json.get, hsafe]
    · rw [if_neg (by simp)]
      refine bind_eq_ok.mpr ⟨List.replicate 64 0x30, ?_, bind_eq_ok.mpr ⟨12, ?_, bind_eq_ok.mpr ⟨none, ?_, rfl⟩⟩⟩
      · simp [Json.get, hdistinct, hhex, -List.reduceReplicate]
      · simp [Json.get, hdistinct, hsize]
      · simp [Json.get, hdistinct, optionalRole]
  have hdecode : decodeManifest (oneFileRuntime path digest) (oneFileBytes path) = .ok (oneFile path) := by
    rw [decodeManifest, oneFile_decode]
  have hmembers : sortByLocale (oneFileRuntime path digest)
      [⟨manifestPath, unitsOf digest, path.toList.length + 113, none⟩, oneFileEntry path] =
        [⟨manifestPath, unitsOf digest, path.toList.length + 113, none⟩, oneFileEntry path] := by
    rw [sortByLocale, List.insertionSort_cons, List.insertionSort_cons, List.insertionSort_nil, List.orderedInsert_nil,
      List.orderedInsert_cons]
    exact if_pos (decide_eq_true hordered)
  refine bind_eq_ok.mpr ⟨_, hdecode, bind_eq_ok.mpr ⟨_, rfl, bind_eq_ok.mpr ⟨_, congrArg (array · _) hfiles,
    bind_eq_ok.mpr ⟨_, congrArg (array · _) hexcludes, bind_eq_ok.mpr ⟨_, rfl, bind_eq_ok.mpr ⟨_, hread, ?_⟩⟩⟩⟩⟩⟩
  rw [← hmembers, ← oneFileBytes_length]
  rfl

theorem member_sets_exact_one_file :
    ∃ parsed, parseEvidenceManifest (oneFileRuntime "forces.dat"
        "91249cc8779d5a8b0610cafd401196c7fc84b4ed7da125e18ff9a95626677044")
        (oneFileBytes "forces.dat") = .ok parsed ∧
      (parsed.memberSet.map EvidenceManifestEntry.path).Nodup ∧
      ∀ entries entries',
        IsMemberSet {s | ∀ u ∈ s, isHighSurrogate u = false ∧ isLowSurrogate u = false} entries →
        IsMemberSet {s | ∀ u ∈ s, isHighSurrogate u = false ∧ isLowSurrogate u = false} entries' →
        (memberSetBytes entries = memberSetBytes entries' ↔ SameMembers entries entries') := by
  have hparse : parseEvidenceManifest (oneFileRuntime "forces.dat"
      "91249cc8779d5a8b0610cafd401196c7fc84b4ed7da125e18ff9a95626677044") (oneFileBytes "forces.dat") =
      .ok ⟨[⟨unitsOf "forces.dat", List.replicate 64 0x30, 12, none⟩], [], [],
        [⟨manifestPath, unitsOf "91249cc8779d5a8b0610cafd401196c7fc84b4ed7da125e18ff9a95626677044", 123, none⟩,
          ⟨unitsOf "forces.dat", List.replicate 64 0x30, 12, none⟩]⟩ :=
    parse_oneFile _ _ (by decide +kernel) (by decide)
  refine ⟨_, hparse, ((member_sets_exact_iff _ _ _
    {s | ∀ u ∈ s, isHighSurrogate u = false ∧ isLowSurrogate u = false} hparse).mpr ⟨?_, ?_⟩).2⟩
  · rintro manifest hmanifest ⟨⟨files, hfiles, raw, hraw, hpath⟩, -⟩
    rw [oneFile_decode] at hmanifest
    cases hmanifest
    cases hfiles
    cases List.mem_singleton.mp hraw
    exact absurd (Json.str.inj hpath) (by decide)
  · intro s hs t ht _ _ hscalars
    exact utf8_inj hs ht (congrArg charBytes hscalars)

/-- A manifest that lists its own file is accepted and comes twice in its member set, and two paths of
one lone surrogate are hashed alike. -/
theorem self_listed_manifest_twice :
    (∃ parsed, parseEvidenceManifest (oneFileRuntime "evidence_manifest.json"
        "f6513e4d8e4ffeb721bb40a3d9494372b9eccf2e28442940c1085f997a9347a5")
        (oneFileBytes "evidence_manifest.json") = .ok parsed ∧
      parsed.memberSet.map EvidenceManifestEntry.path = [manifestPath, manifestPath]) ∧
    ¬ ∀ entries entries', IsMemberSet Set.univ entries → IsMemberSet Set.univ entries' →
      memberSetBytes entries = memberSetBytes entries' → SameMembers entries entries' := by
  constructor
  · refine ⟨⟨[⟨manifestPath, List.replicate 64 0x30, 12, none⟩], [], [],
      [⟨manifestPath, unitsOf "f6513e4d8e4ffeb721bb40a3d9494372b9eccf2e28442940c1085f997a9347a5", 135, none⟩,
        ⟨manifestPath, List.replicate 64 0x30, 12, none⟩]⟩, ?_, rfl⟩
    exact parse_oneFile _ _ (by decide +kernel) le_rfl
  · intro hall
    have hset : ∀ u : UInt16, u ≠ 0 → IsMemberSet Set.univ [⟨[u], List.replicate 64 0x30, 12, none⟩] := by
      intro u hu
      refine ⟨List.nodup_singleton _, by simp, by simpa using hu.symm, ?_⟩
      simp only [List.mem_singleton, forall_eq]
      decide
    have hmembers := hall _ _ (hset 0xd800 (by decide)) (hset 0xd801 (by decide)) (by decide +kernel)
    have hrow := (hmembers ([0xd800], List.replicate 64 0x30, 12)).mp (List.mem_singleton.mpr rfl)
    exact absurd (congrArg Prod.fst (List.mem_singleton.mp hrow)) (by decide)

end XFoilFoam.Manifest
