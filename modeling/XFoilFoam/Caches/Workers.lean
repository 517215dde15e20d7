import XFoilFoam.Caches.EvictionOrder
import XFoilFoam.Foundations.Double
import Mathlib.Data.String.Basic

/-! The calls of the cache and what a hit rests on when several workers publish, fetch and evict in any order. -/
namespace XFoilFoam.Caches
open Engine KeyOrder
set_option autoImplicit false

/-! ## Calls -/

structure SeedHit (F : Type) where
  entryDir : EntryPath
  aoaDeg : F
  solver : String
  byteSize : ℤ

inductive Call (F : Type) where
  | fetchMesh (cache : EngineCache) (key : String) (evidence : Bool)
  | publishMesh (cache : EngineCache) (key : String) (polymesh : Option (List (String × Bytes)))
    (evidence : List (String × Bytes))
  | invalidateMesh (cache : EngineCache) (key : String)
  | findSeed (cache : EngineCache) (seedKey : String) (aoaDeg : F) (solverSignature : String) (maxDeltaDeg : F)
  | materializeSeed (hit : SeedHit F)
  | publishSeed (cache : EngineCache) (seedKey : String) (aoaDeg : F) (solverSignature solver : String)
    (files : List (String × Bytes))
  | evictToCap (cache : EngineCache)

inductive Outcome (F : Type) where
  | mesh (manifest : Option (Manifest F))
  | seed (hit : Option (SeedHit F))
  | published (ok : Bool)
  | copied (names : List String)
  | nothing

namespace Host
variable {F : Type} (host : Host F)

/-- `shutil.copytree` of a payload: every file listed is read, and a missing one raises. -/
def copyTree (e : EntryPath) (payload : String) : Act Unit := do
  let names ← need (fun d => (host.dir? e d).map fun dir =>
    (dir.files.rows.map Prod.fst).filter fun path => (payload ++ "/").toList.isPrefixOf path.toList) "copytree"
  .each (fun path => need (fun d => (host.file? e path d).map fun _ => ()) "copytree") names

/-- `fetch_mesh`: the manifest of a hit, or a miss. -/
def fetchMesh (cache : EngineCache) (key : String) (evidence : Bool) : Act (Option (Manifest F)) :=
  let e : EntryPath := ⟨cache.root, .mesh, key⟩
  let fetch : Act (Option (Manifest F)) := do
    let found ← host.verifiedManifest e
    match found with
    | none => .done none
    | some manifest =>
      host.copyTree e meshPayloadDir
      let _ ← (if evidence then host.copyTree e meshEvidencePayloadDir else .done () : Act Unit)
      host.touch e
      .done (some manifest)
  fetch.handle fun _ => .done none

def publishMesh (cache : EngineCache) (key : String) (polymesh : Option (List (String × Bytes)))
    (evidence : List (String × Bytes)) : Act Bool :=
  let e : EntryPath := ⟨cache.root, .mesh, key⟩
  let extra : Manifest F :=
    { byteSize := .missing
      files := .missing
      aoaDeg := .missing
      solver := ""
      solverSignature := none }
  let publish : Act Bool := do
    match polymesh with
    | none => .done false
    | some files =>
      let present ← .read fun d => (host.file? e manifestName d).isSome
      if present then .done false
      else
        let ok ← host.publishEntry cache e (files.map fun f => (meshPayloadDir ++ "/" ++ f.1, f.2))
          (evidence.map fun f => (meshEvidencePayloadDir ++ "/" ++ f.1, f.2)) extra false
        let _ ← (if ok then host.evictToCap cache else .done () : Act Unit)
        .done ok
  publish.handle fun _ => .done false

def invalidateMesh (cache : EngineCache) (key : String) : Act Unit := do
  let present ← .read fun d => (host.dir? ⟨cache.root, .mesh, key⟩ d).isSome
  if present then host.removeEntry ⟨cache.root, .mesh, key⟩ else .done ()

variable [Binary64 F]

/-- One turn of the loop of `find_seed`: the nearest donor so far and its distance. -/
def considerSeed (aoaDeg : F) (solverSignature : String) (maxDeltaDeg : F) (best : Option (SeedHit F) × F)
    (e : EntryPath) : Act (Option (SeedHit F) × F) := do
  let found ← host.verifiedManifest e
  match found with
  | none => .done best
  | some manifest =>
    if manifest.solverSignature ≠ some solverSignature then .done best
    else
      let angle ← manifest.aoaDeg.getD host.nan "aoaDeg"
      let delta := Binary64.abs (Binary64.sub angle aoaDeg)
      if Binary64.lt (Binary64.add maxDeltaDeg (Binary64.lit (1 / 10 ^ 9))) delta then .done best
      else if Binary64.lt delta best.2 then
        let byteSize ← manifest.byteSize.getD 0 "byteSize"
        .done (some ⟨e, angle, manifest.solver, byteSize⟩, delta)
      else .done best

def considerSeeds (aoaDeg : F) (solverSignature : String) (maxDeltaDeg : F) :
    Option (SeedHit F) × F → List EntryPath → Act (Option (SeedHit F))
  | best, [] => .done best.1
  | best, e :: es => do
    let best ← host.considerSeed aoaDeg solverSignature maxDeltaDeg best e
    considerSeeds aoaDeg solverSignature maxDeltaDeg best es

/-- `find_seed`; trash is never a candidate. -/
def findSeed (cache : EngineCache) (seedKey : String) (aoaDeg : F) (solverSignature : String) (maxDeltaDeg : F) :
    Act (Option (SeedHit F)) :=
  let find : Act (Option (SeedHit F)) := do
    let es ← host.liveDirs cache.root (.seed seedKey)
    host.considerSeeds aoaDeg solverSignature maxDeltaDeg (none, Binary64.posInf) (sortBy EntryPath.name es)
  find.handle fun _ => .done none

omit [Binary64 F] in
def materializeSeed (hit : SeedHit F) : Act (List String) := do
  let names ← need (fun d => (host.dir? hit.entryDir d).map fun dir =>
    (dir.files.rows.map Prod.fst).filter fun path => (seedPayloadDir ++ "/").toList.isPrefixOf path.toList) "iterdir"
  let sorted := sortBy id names
  .each (fun path => need (fun d => (host.file? hit.entryDir path d).map fun _ => ()) "copy2") sorted
  host.touch hit.entryDir
  .done sorted

def angleSlug (aoaDeg : F) : String :=
  String.ofList (replaceChar '-' 'm' (replaceChar '.' 'p' ('a' :: host.formatG aoaDeg)))

def publishSeed (cache : EngineCache) (seedKey : String) (aoaDeg : F) (solverSignature solver : String)
    (files : List (String × Bytes)) : Act Bool :=
  let e : EntryPath := ⟨cache.root, .seed seedKey, host.angleSlug aoaDeg ++ "_" ++ solverSignature⟩
  let extra : Manifest F :=
    { byteSize := .missing
      files := .missing
      aoaDeg := .given aoaDeg
      solver := solver
      solverSignature := some solverSignature }
  let publish : Act Bool := do
    if files.isEmpty then .done false
    else
      let ok ← host.publishEntry cache e (files.map fun f => (seedPayloadDir ++ "/" ++ f.1, f.2)) [] extra true
      let _ ← (if ok then host.evictToCap cache else .done () : Act Unit)
      .done ok
  publish.handle fun _ => .done false

def perform : Call F → Act (Outcome F)
  | .fetchMesh cache key evidence => (host.fetchMesh cache key evidence).bind fun m => .done (.mesh m)
  | .publishMesh cache key polymesh evidence =>
    (host.publishMesh cache key polymesh evidence).bind fun ok => .done (.published ok)
  | .invalidateMesh cache key => (host.invalidateMesh cache key).bind fun _ => .done .nothing
  | .findSeed cache seedKey aoaDeg signature maxDelta =>
    (host.findSeed cache seedKey aoaDeg signature maxDelta).bind fun hit => .done (.seed hit)
  | .materializeSeed hit => (host.materializeSeed hit).bind fun names => .done (.copied names)
  | .publishSeed cache seedKey aoaDeg signature solver files =>
    (host.publishSeed cache seedKey aoaDeg signature solver files).bind fun ok => .done (.published ok)
  | .evictToCap cache => (host.evictToCap cache).bind fun _ => .done .nothing

end Host

/-! ## Verification -/

section Verification
variable {F : Type} {host : Host F} {e : EntryPath} {seen : List Disk}

/-- The file stood there with this size and with this hash when they were read. -/
def ItemVerified (host : Host F) (e : EntryPath) (item : ManifestItem) (seen : List Disk) : Prop :=
  ∃ path, item.path = .given path ∧
    (∃ d ∈ seen, ∃ file, host.file? e path d = some file ∧ item.byteSize = .given file.bytes.length) ∧
    ∃ d ∈ seen, ∃ file, host.file? e path d = some file ∧ item.sha256 = .given (host.sha256 file.bytes)

/-- The manifest was read, and after it every file it lists was found as recorded. -/
def Verified (host : Host F) (e : EntryPath) (manifest : Manifest F) (seen : List Disk) : Prop :=
  ∃ d after, (d :: after).Sublist seen ∧
    (∃ file, host.file? e manifestName d = some file ∧ host.loads file.bytes = some manifest) ∧
    ∃ items, manifest.files = .given items ∧ items ≠ [] ∧ ∀ item ∈ items, ItemVerified host e item after

theorem ItemVerified.mono {item : ManifestItem} {more : List Disk} (h : ItemVerified host e item seen)
    (hsub : seen.Sublist more) : ItemVerified host e item more := by
  obtain ⟨path, hpath, ⟨d, hd, hsize⟩, d', hd', hhash⟩ := h
  exact ⟨path, hpath, ⟨d, hsub.subset hd, hsize⟩, d', hsub.subset hd', hhash⟩

theorem Verified.mono {manifest : Manifest F} {more : List Disk} (h : Verified host e manifest seen)
    (hsub : seen.Sublist more) : Verified host e manifest more := by
  obtain ⟨d, after, hafter, hrest⟩ := h
  exact ⟨d, after, hafter.trans hsub, hrest⟩

theorem sees_need {α : Type} {f : Disk → Option α} {error : String} {a : α}
    (h : Task.Sees (need f error) seen (.ok a)) : ∃ d, seen = [d] ∧ f d = some a := by
  cases h with
  | act d rest =>
    dsimp only at rest
    cases hf : f d with
    | none =>
      rw [hf] at rest
      cases rest
    | some b =>
      rw [hf] at rest
      cases rest
      exact ⟨d, rfl, hf⟩

theorem sees_get {α : Type} {field : Field α} {error : String} {a : α}
    (h : Task.Sees (field.get error) seen (.ok a)) : seen = [] ∧ field = .given a := by
  cases field <;> cases h
  exact ⟨rfl, rfl⟩

theorem verifyItem_sees {item : ManifestItem} (h : Task.Sees (host.verifyItem e item) seen (.ok ())) :
    ItemVerified host e item seen := by
  simp only [Host.verifyItem, Task.bind_eq] at h
  obtain ⟨path, _, s₁, rfl, hget, h₁⟩ := Task.sees_bind_ok h
  obtain ⟨rfl, hpath⟩ := sees_get hget
  obtain ⟨present, _, s₂, rfl, hread, h₂⟩ := Task.sees_bind_ok h₁
  obtain ⟨d₁, rfl, -⟩ := Task.sees_read hread
  split at h₂
  · obtain ⟨size, _, s₃, rfl, hneed, h₃⟩ := Task.sees_bind_ok h₂
    obtain ⟨d₂, rfl, hsize⟩ := sees_need hneed
    obtain ⟨byteSize, _, s₄, rfl, hget, h₄⟩ := Task.sees_bind_ok h₃
    obtain ⟨rfl, hbyteSize⟩ := sees_get hget
    obtain ⟨file₂, hfile₂, rfl⟩ := Option.map_eq_some_iff.mp hsize
    split at h₄
    · next heq =>
      subst heq
      obtain ⟨digest, _, s₅, rfl, hneed, h₅⟩ := Task.sees_bind_ok h₄
      obtain ⟨d₃, rfl, hdigest⟩ := sees_need hneed
      obtain ⟨sha256, _, s₆, rfl, hget, h₆⟩ := Task.sees_bind_ok h₅
      obtain ⟨rfl, hsha256⟩ := sees_get hget
      obtain ⟨file₃, hfile₃, rfl⟩ := Option.map_eq_some_iff.mp hdigest
      split at h₆
      · next heq =>
        subst heq
        exact ⟨path, hpath, ⟨d₂, by simp, file₂, hfile₂, hbyteSize⟩, d₃, by simp, file₃, hfile₃, hsha256⟩
      · cases h₆
    · cases h₄
  · cases h₂

theorem verifyFiles_sees {found : Option (Manifest F)} (h : Task.Sees (host.verifyFiles e) seen (.ok found)) :
    ∃ manifest, found = some manifest ∧ Verified host e manifest seen := by
  simp only [Host.verifyFiles, Host.readManifest, Task.bind_eq] at h
  obtain ⟨manifest, _, s₁, rfl, hneed, h₁⟩ := Task.sees_bind_ok h
  obtain ⟨d, rfl, hread⟩ := sees_need hneed
  obtain ⟨file, hfile, hloads⟩ := Option.bind_eq_some_iff.mp hread
  obtain ⟨items, _, s₂, rfl, hget, h₂⟩ := Task.sees_bind_ok h₁
  obtain ⟨rfl, hitems⟩ := sees_get hget
  split at h₂
  · cases h₂
  · next hne =>
    obtain ⟨_, s₃, s₄, rfl, heach, h₃⟩ := Task.sees_bind_ok h₂
    obtain ⟨rfl, rfl⟩ := Task.sees_done h₃
    refine ⟨manifest, rfl, d, s₃, by simp, ⟨file, hfile, hloads⟩, items, hitems, ?_, fun item hitem => ?_⟩
    · rintro rfl
      exact hne rfl
    · obtain ⟨part, hpart, hsees⟩ := Task.sees_each heach item hitem
      exact (verifyItem_sees hsees).mono hpart

theorem verifiedManifest_sees {manifest : Manifest F}
    (h : Task.Sees (host.verifiedManifest e) seen (.ok (some manifest))) : Verified host e manifest seen := by
  simp only [Host.verifiedManifest, Task.bind_eq] at h
  obtain ⟨present, _, s₁, rfl, hread, h₁⟩ := Task.sees_bind_ok h
  split at h₁
  · obtain ⟨found, hfound, hfiles⟩ | ⟨error, s₂, s₃, rfl, -, h₂⟩ := Task.sees_handle h₁
    · cases hfound
      obtain ⟨m, hm, hverified⟩ := verifyFiles_sees hfiles
      cases hm
      exact hverified.mono (List.sublist_append_right _ _)
    · obtain ⟨_, s₄, s₅, rfl, -, h₃⟩ := Task.sees_bind_ok h₂
      cases h₃
  · obtain ⟨stands, _, s₂, rfl, -, h₂⟩ := Task.sees_bind_ok h₁
    split at h₂
    · obtain ⟨_, s₃, s₄, rfl, -, h₃⟩ := Task.sees_bind_ok h₂
      cases h₃
    · cases h₂

theorem fetchMesh_sees {cache : EngineCache} {key : String} {evidence : Bool} {manifest : Manifest F}
    (h : Task.Sees (host.fetchMesh cache key evidence) seen (.ok (some manifest))) :
    Verified host ⟨cache.root, .mesh, key⟩ manifest seen := by
  simp only [Host.fetchMesh, Task.bind_eq] at h
  obtain ⟨found, hfound, h₁⟩ | ⟨error, s₁, s₂, rfl, -, h₁⟩ := Task.sees_handle h
  · cases hfound
    obtain ⟨found, s₁, s₂, rfl, hverified, h₂⟩ := Task.sees_bind_ok h₁
    cases found with
    | none => cases h₂
    | some m =>
      obtain ⟨_, s₃, s₄, rfl, -, h₃⟩ := Task.sees_bind_ok h₂
      obtain ⟨_, s₅, s₆, rfl, -, h₄⟩ := Task.sees_bind_ok h₃
      obtain ⟨_, s₇, s₈, rfl, -, h₅⟩ := Task.sees_bind_ok h₄
      cases h₅
      exact (verifiedManifest_sees hverified).mono (List.sublist_append_left _ _)
  · cases h₁

/-- A donor stands in its shelf, was verified in the call, and says what its manifest says. -/
def HitVerified (host : Host F) (cache : EngineCache) (seedKey solverSignature : String) (hit : SeedHit F)
    (seen : List Disk) : Prop :=
  hit.entryDir.root = cache.root ∧ hit.entryDir.shelf = .seed seedKey ∧
    ∃ manifest, Verified host hit.entryDir manifest seen ∧ manifest.solverSignature = some solverSignature ∧
      hit.solver = manifest.solver ∧
      (manifest.aoaDeg = .given hit.aoaDeg ∨ manifest.aoaDeg = .missing ∧ hit.aoaDeg = host.nan)

theorem HitVerified.mono {cache : EngineCache} {seedKey solverSignature : String} {hit : SeedHit F} {more : List Disk}
    (h : HitVerified host cache seedKey solverSignature hit seen) (hsub : seen.Sublist more) :
    HitVerified host cache seedKey solverSignature hit more := by
  obtain ⟨hroot, hshelf, manifest, hverified, hrest⟩ := h
  exact ⟨hroot, hshelf, manifest, hverified.mono hsub, hrest⟩

variable [Binary64 F]

theorem considerSeed_sees {cache : EngineCache} {seedKey solverSignature : String} {aoaDeg maxDeltaDeg : F}
    {best best' : Option (SeedHit F) × F} (hroot : e.root = cache.root) (hshelf : e.shelf = .seed seedKey)
    (h : Task.Sees (host.considerSeed aoaDeg solverSignature maxDeltaDeg best e) seen (.ok best')) :
    best' = best ∨ ∃ hit, best'.1 = some hit ∧ HitVerified host cache seedKey solverSignature hit seen := by
  simp only [Host.considerSeed, Task.bind_eq] at h
  obtain ⟨found, s₁, s₂, rfl, hverified, h₁⟩ := Task.sees_bind_ok h
  cases found with
  | none =>
    cases h₁
    exact .inl rfl
  | some manifest =>
    dsimp only at h₁
    split at h₁
    · cases h₁
      exact .inl rfl
    · next hsignature =>
      obtain ⟨angle, s₃, s₄, rfl, hangle, h₂⟩ := Task.sees_bind_ok h₁
      split at h₂
      · cases h₂
        exact .inl rfl
      · split at h₂
        · obtain ⟨byteSize, s₅, s₆, rfl, -, h₃⟩ := Task.sees_bind_ok h₂
          cases h₃
          refine .inr ⟨_, rfl, hroot, hshelf, manifest, (verifiedManifest_sees hverified).mono ?_,
            not_not.mp hsignature, rfl, ?_⟩
          · exact List.sublist_append_left _ _
          · cases hfield : manifest.aoaDeg <;> rw [hfield] at hangle <;> cases hangle
            · exact .inr ⟨rfl, rfl⟩
            · exact .inl rfl
        · cases h₂
          exact .inl rfl

theorem considerSeeds_sees {cache : EngineCache} {seedKey solverSignature : String} {aoaDeg maxDeltaDeg : F}
    {best : Option (SeedHit F) × F} {es : List EntryPath} {hit : SeedHit F}
    (hes : ∀ e ∈ es, e.root = cache.root ∧ e.shelf = .seed seedKey)
    (h : Task.Sees (host.considerSeeds aoaDeg solverSignature maxDeltaDeg best es) seen (.ok (some hit))) :
    best.1 = some hit ∨ HitVerified host cache seedKey solverSignature hit seen := by
  induction es generalizing best seen with
  | nil => exact .inl (Task.sees_done h).2
  | cons e es ih =>
    obtain ⟨best', s₁, s₂, rfl, hturn, h⟩ := Task.sees_bind_ok h
    obtain hbest' | hlater := ih (fun e' he' => hes e' (List.mem_cons_of_mem e he')) h
    · obtain ⟨hroot, hshelf⟩ := hes e List.mem_cons_self
      obtain rfl | ⟨hit', hhit', hverified⟩ := considerSeed_sees hroot hshelf hturn
      · exact .inl hbest'
      · rw [hhit'] at hbest'
        cases hbest'
        exact .inr (hverified.mono (List.sublist_append_left _ _))
    · exact .inr (hlater.mono (List.sublist_append_right _ _))

theorem findSeed_sees {cache : EngineCache} {seedKey solverSignature : String} {aoaDeg maxDeltaDeg : F}
    {hit : SeedHit F} (h : Task.Sees (host.findSeed cache seedKey aoaDeg solverSignature maxDeltaDeg) seen
      (.ok (some hit))) : HitVerified host cache seedKey solverSignature hit seen := by
  simp only [Host.findSeed, Task.bind_eq] at h
  obtain ⟨found, hfound, h⟩ | ⟨error, s₁, s₂, rfl, -, h⟩ := Task.sees_handle h
  · cases hfound
    obtain ⟨es, s₁, s₂, rfl, hlist, h⟩ := Task.sees_bind_ok h
    obtain ⟨d, rfl, rfl⟩ := Task.sees_read hlist
    obtain hnone | hverified := @considerSeeds_sees _ _ _ _ cache seedKey _ _ _ _ _ _ (fun e he => by
      obtain ⟨name, -, rfl⟩ := List.mem_map.mp ((mem_sortBy _).mp he)
      exact ⟨rfl, rfl⟩) h
    · cases hnone
    · exact hverified.mono (List.sublist_append_right _ _)
  · cases h

/-- A hit among the answers was verified against its manifest in the very call. -/
def HitsVerified (host : Host F) (r : Returned (Call F) Disk String (Outcome F)) : Prop :=
  (∀ cache key evidence manifest, r.call = .fetchMesh cache key evidence → r.result = .ok (.mesh (some manifest)) →
    Verified host ⟨cache.root, .mesh, key⟩ manifest r.seen) ∧
  ∀ cache seedKey aoaDeg solverSignature maxDeltaDeg hit,
    r.call = .findSeed cache seedKey aoaDeg solverSignature maxDeltaDeg → r.result = .ok (.seed (some hit)) →
    HitVerified host cache seedKey solverSignature hit r.seen

theorem hitsVerified_of_sees {r : Returned (Call F) Disk String (Outcome F)}
    (h : Task.Sees (host.perform r.call) r.seen r.result) : HitsVerified host r := by
  obtain ⟨call, seen, result⟩ := r
  constructor
  · rintro cache key evidence manifest rfl rfl
    obtain ⟨found, s₁, s₂, rfl, hfetch, h⟩ := Task.sees_bind_ok h
    cases h
    exact (fetchMesh_sees hfetch).mono (List.sublist_append_left _ _)
  · rintro cache seedKey aoaDeg solverSignature maxDeltaDeg hit rfl rfl
    obtain ⟨found, s₁, s₂, rfl, hfind, h⟩ := Task.sees_bind_ok h
    cases h
    exact (findSeed_sees hfind).mono (List.sublist_append_left _ _)

end Verification

/-- A pass of eviction takes the least recently used entries and no more than it must, and in any order of the calls of any
workers a hit rests on a manifest and files that its call found in place. -/
theorem eviction_and_hits {F : Type} [Binary64 F] (host : Host F) :
    (∀ cache d, (∀ e ∈ host.entries cache d, (host.recorded e d).isSome) →
      ∃ removed kept, EvictsOldest host cache d removed kept) ∧
    ∀ (ι : Type) [DecidableEq ι] (p : Pool ι (Call F) Disk String (Outcome F)),
      Reachable Pool.Quiet (Pool.Step host.perform) p → ∀ r ∈ p.returned, HitsVerified host r := by
  refine ⟨fun cache d hvalid => evicts_oldest hvalid, fun ι _ p hp r hr => ?_⟩
  exact hitsVerified_of_sees (Pool.returned_sees hp hr)

def byteHost : Host Double where
  resolve root := root
  loads bytes := bytes.head?.map fun byte =>
    { byteSize := .given byte.toNat
      files := .missing
      aoaDeg := .missing
      solver := ""
      solverSignature := none }
  dumps _ := []
  sha256 _ := ""
  formatG _ := []
  uuid _ := "0"
  nan := ⟨.nan, round64_nan⟩

def twoMeshes : Disk where
  engines := []
  entries := (Table.empty.set ⟨["cache"], .mesh, "old"⟩ ⟨Table.empty.set manifestName ⟨[60], 1⟩, 1⟩).set
    ⟨["cache"], .mesh, "new"⟩ ⟨Table.empty.set manifestName ⟨[50], 2⟩, 2⟩
  stages := .empty
  evictLock := false
  uuids := 0
  clock := 3

theorem evicts_old_mesh :
    ∃ removed kept, EvictsOldest byteHost ⟨["cache"], ["cache"], 100⟩ twoMeshes removed kept :=
  (eviction_and_hits byteHost).1 ⟨["cache"], ["cache"], 100⟩ twoMeshes (by decide +kernel)

end XFoilFoam.Caches
