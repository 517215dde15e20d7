import XFoilFoam.Caches.Entries
import XFoilFoam.Foundations.KeyOrder
import Mathlib.Data.List.Perm.Basic
import Mathlib.Algebra.BigOperators.Group.List.Basic

/-! Eviction: the entries of every namespace below one cap, the least recently used removed first. -/
namespace XFoilFoam.Caches
open KeyOrder
set_option autoImplicit false

/-! ## Namespaces -/

namespace Disk

/-- `_live_dirs` of a shelf, by name. -/
def names (d : Disk) (root : Path) (shelf : Shelf) : List String :=
  (d.entries.rows.filterMap fun r => if r.1.root = root ∧ r.1.shelf = shelf then some r.1.name else none).filter live

/-- `_live_dirs(namespace_root / "seed")`. -/
def groups (d : Disk) (root : Path) : List String :=
  (d.entries.rows.filterMap fun r => match r.1.shelf with
    | .seed group => if r.1.root = root then some group else none
    | .mesh => none).dedup.filter live

end Disk

def uniqueRoots (resolve : Path → Path) : List Path → List Path → List Path
  | [], _ => []
  | root :: roots, seen =>
    if resolve root ∈ seen then uniqueRoots resolve roots seen
    else root :: uniqueRoots resolve roots (resolve root :: seen)

namespace EngineCache
variable {F : Type} (cache : EngineCache) (host : Host F)

def rootsOf (engines : List String) : List Path :=
  let roots := cache.sharedRoot :: (engines.filter live).map fun name => cache.sharedRoot ++ ["engines", name]
  uniqueRoots host.resolve (if cache.root ∈ roots then roots else roots ++ [cache.root]) []

def namespaceRoots : Act (List Path) := .read fun d => cache.rootsOf host d.engines

end EngineCache

namespace Host
variable {F : Type} (host : Host F)

def liveDirs (root : Path) (shelf : Shelf) : Act (List EntryPath) :=
  .read fun d => (d.names (host.resolve root) shelf).map fun name => ⟨root, shelf, name⟩

def namespaceEntryDirs (root : Path) : Act (List EntryPath) := do
  let meshes ← host.liveDirs root .mesh
  let groups ← .read fun d => d.groups (host.resolve root)
  let seeds ← .collect (fun group => host.liveDirs root (.seed group)) groups
  .done (meshes ++ seeds.flatten)

def entryDirs (cache : EngineCache) : Act (List EntryPath) := do
  let roots ← cache.namespaceRoots host
  let dirs ← .collect host.namespaceEntryDirs roots
  .done dirs.flatten

/-! ## `_sweep_stale_tmp` -/

def staleTmpAge : ℚ := 24 * 3600

def sweepStage (stage : Path × String) : Act Unit :=
  .modify fun d =>
    match d.stages.find? stage with
    | some dir => if staleTmpAge < d.clock - dir.mtime then { d with stages := d.stages.erase stage } else d
    | none => d

def sweepDir (e : EntryPath) : Act Unit := do
  let stale ← .read fun d => ((d.entries.find? e).map fun dir => decide (staleTmpAge < d.clock - dir.mtime)).getD false
  if stale then rmtree e else .done ()

def sweepShelf (root : Path) (shelf : Shelf) : Act Unit := do
  let dots ← .read fun d => (d.entries.rows.map Prod.fst).filter fun e => e.root = root ∧ e.shelf = shelf ∧ ¬ live e.name
  .each sweepDir dots

def sweepNamespace (root : Path) : Act Unit := do
  let stages ← .read fun d => (d.stages.rows.map Prod.fst).filter fun stage => stage.1 = host.resolve root
  .each sweepStage stages
  let groups ← .read fun d => d.groups (host.resolve root)
  .each (sweepShelf (host.resolve root)) (.mesh :: groups.map .seed)

def sweepStaleTmp (cache : EngineCache) : Act Unit := do
  let roots ← cache.namespaceRoots host
  .each host.sweepNamespace roots

/-! ## `_evict_locked` -/

structure Scanned where
  lastUsed : ℚ
  size : ℤ
  entryDir : EntryPath

def scanEntry (e : EntryPath) : Act (Option Scanned) :=
  let scan : Act (Option Scanned) := do
    let manifest ← host.readManifest e
    let size ← manifest.byteSize.get "byteSize"
    let lastUsed ← need (fun d => (host.file? e manifestName d).map File.mtime) "stat"
    .done (some ⟨lastUsed, size, e⟩)
  scan.handle fun _ => (host.removeEntry e).bind fun _ => .done none

def total (entries : List Scanned) : ℤ := (entries.map Scanned.size).sum

def evictLoop (maxBytes : ℤ) : ℤ → List Scanned → Act Unit
  | _, [] => .done ()
  | total, entry :: entries =>
    if total ≤ maxBytes then .done ()
    else (host.removeEntry entry.entryDir).bind fun _ => evictLoop maxBytes (total - entry.size) entries

def evictLocked (cache : EngineCache) : Act Unit := do
  host.sweepStaleTmp cache
  let dirs ← host.entryDirs cache
  let scanned ← .collect host.scanEntry dirs
  let entries := scanned.filterMap id
  if total entries ≤ cache.maxBytes then .done ()
  else host.evictLoop cache.maxBytes (total entries) (sortBy Scanned.lastUsed entries)

/-- `evict_to_cap`: a pass is skipped while another worker evicts. -/
def evictToCap (cache : EngineCache) : Act Unit := do
  let taken ← .update fun d => (d.evictLock, { d with evictLock := true })
  if taken then .done ()
  else
    let release : Act Unit := .modify fun d => { d with evictLock := false }
    ((host.evictLocked cache).handle fun _ => .done ()).bind fun _ => release

/-- `total_bytes`: entries without a readable size do not count. -/
def totalBytes (cache : EngineCache) : Act ℤ := do
  let dirs ← host.entryDirs cache
  let sizes ← .collect (fun e =>
    let size : Act ℤ := do
      let manifest ← host.readManifest e
      manifest.byteSize.get "byteSize"
    size.handle fun _ => .done 0) dirs
  .done sizes.sum

end Host

end XFoilFoam.Caches
