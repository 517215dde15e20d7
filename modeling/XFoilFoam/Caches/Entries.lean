import XFoilFoam.Foundations.Table
import XFoilFoam.Foundations.Task
import XFoilFoam.Foundations.JsValue
import XFoilFoam.Engine.CaseSlug
import Mathlib.Data.List.Dedup

/-! `src/airfoilfoam/cache.py`: entry directories, their manifests, and the file operations that publish, verify and remove them.
Every file operation is one action, so other workers may come between any two of them. -/
namespace XFoilFoam.Caches
open Engine
set_option autoImplicit false

/-! ## Manifests -/

abbrev Bytes := List UInt8

/-- A value looked up in parsed JSON and converted; `unusable` raises on conversion. -/
inductive Field (α : Type) where
  | missing
  | unusable
  | given (a : α)

structure ManifestItem where
  path : Field String
  sha256 : Field String
  byteSize : Field ℤ

/-- The members of `manifest.json` that the cache reads back. -/
structure Manifest (F : Type) where
  byteSize : Field ℤ
  files : Field (List ManifestItem)
  aoaDeg : Field F
  solver : String
  solverSignature : Option String

/-- What the code takes from its platform. -/
structure Host (F : Type) where
  resolve : List String → List String
  loads : Bytes → Option (Manifest F)
  dumps : Manifest F → Bytes
  sha256 : Bytes → String
  formatG : F → List Char
  uuid : ℕ → String
  nan : F

/-! ## Directories -/

abbrev Path := List String

inductive Shelf where
  | mesh
  | seed (group : String)
  deriving DecidableEq

structure EntryPath where
  root : Path
  shelf : Shelf
  name : String
  deriving DecidableEq

structure File where
  bytes : Bytes
  mtime : ℚ

structure Directory where
  files : Table String File
  mtime : ℚ

/-- The volume below one shared root.  Entries stand under resolved roots; no root lies inside the trees of another. -/
structure Disk where
  engines : List String
  entries : Table EntryPath Directory
  stages : Table (Path × String) Directory
  evictLock : Bool
  uuids : ℕ
  clock : ℚ

structure EngineCache where
  root : Path
  sharedRoot : Path
  maxBytes : ℤ

def manifestName : String := "manifest.json"
def meshPayloadDir : String := "polyMesh"
def meshEvidencePayloadDir : String := "meshEvidence"
def seedPayloadDir : String := "fields"

/-- `not d.name.startswith(".")`. -/
def live (name : String) : Bool := name.toList.head? != some '.'

abbrev Act (α : Type) := Task Disk String α

namespace Host
variable {F : Type} (host : Host F)

def real (e : EntryPath) : EntryPath := { e with root := host.resolve e.root }

def dir? (e : EntryPath) (d : Disk) : Option Directory := d.entries.find? (host.real e)

def file? (e : EntryPath) (path : String) (d : Disk) : Option File := (host.dir? e d).bind fun dir => dir.files.find? path

end Host

/-! ## File operations -/

def need {α : Type} (f : Disk → Option α) (error : String) : Act α :=
  .act id fun d => match f d with
    | some a => .done a
    | none => .raised error

def Field.get {α : Type} (field : Field α) (error : String) : Act α :=
  match field with
  | given a => .done a
  | _ => .raised error

def Field.getD {α : Type} (field : Field α) (a : α) (error : String) : Act α :=
  match field with
  | missing => .done a
  | unusable => .raised error
  | given a' => .done a'

/-- `os.rename` of directories: an absent or empty target is replaced. -/
def rename (src dst : EntryPath) (d : Disk) : Bool × Disk :=
  match d.entries.find? src, d.entries.find? dst with
  | some dir, none => (true, { d with entries := (d.entries.erase src).set dst dir })
  | some dir, some other =>
    if other.files.rows = [] then (true, { d with entries := (d.entries.erase src).set dst dir }) else (false, d)
  | none, _ => (false, d)

def unlink (e : EntryPath) (path : String) (d : Disk) : Disk :=
  { d with entries := d.entries.modify e fun dir => { dir with files := dir.files.erase path } }

def rmdir (e : EntryPath) (d : Disk) : Disk :=
  match d.entries.find? e with
  | some dir => if dir.files.rows = [] then { d with entries := d.entries.erase e } else d
  | none => d

/-- `shutil.rmtree(.., ignore_errors=True)`. -/
def rmtree (e : EntryPath) : Act Unit := do
  let names ← .read fun d => ((d.entries.find? e).map fun dir => dir.files.rows.map Prod.fst).getD []
  .each (fun path => .modify (unlink e path)) names
  .modify (rmdir e)

def newUuid : Act ℕ := .update fun d => (d.uuids, { d with uuids := d.uuids + 1 })

namespace Host
variable {F : Type} (host : Host F)

def trash (e : EntryPath) (uuid : ℕ) : EntryPath :=
  { e with name := "." ++ e.name ++ "." ++ host.uuid uuid ++ ".trash" }

def removeEntry (e : EntryPath) : Act Unit := do
  let uuid ← newUuid
  let renamed ← .update (rename (host.real e) (host.real (host.trash e uuid)))
  rmtree (host.real (if renamed then host.trash e uuid else e))

def touch (e : EntryPath) : Act Unit :=
  .modify fun d => { d with entries := d.entries.modify (host.real e) fun dir =>
    { dir with files := dir.files.modify manifestName fun file => { file with mtime := d.clock } } }

/-! ## `_verified_manifest` -/

def verifyItem (e : EntryPath) (item : ManifestItem) : Act Unit := do
  let path ← item.path.get "path"
  let present ← .read fun d => (host.file? e path d).isSome
  if present then
    let size ← need (fun d => (host.file? e path d).map fun file => (file.bytes.length : ℤ)) "stat"
    let byteSize ← item.byteSize.get "byteSize"
    if size = byteSize then
      let digest ← need (fun d => (host.file? e path d).map fun file => host.sha256 file.bytes) "open"
      let sha256 ← item.sha256.get "sha256"
      if digest = sha256 then .done () else .raised ("sha256 mismatch for " ++ path)
    else .raised ("size mismatch for " ++ path)
  else .raised ("missing payload file " ++ path)

/-- `json.loads(manifest_path.read_text())`. -/
def readManifest (e : EntryPath) : Act (Manifest F) :=
  need (fun d => (host.file? e manifestName d).bind fun file => host.loads file.bytes) "manifest"

/-- The `try` block of `_verified_manifest`. -/
def verifyFiles (e : EntryPath) : Act (Option (Manifest F)) := do
  let manifest ← host.readManifest e
  let files ← manifest.files.get "manifest has no files"
  if files.isEmpty then .raised "manifest has no files"
  else
    .each (host.verifyItem e) files
    .done (some manifest)

def verifiedManifest (e : EntryPath) : Act (Option (Manifest F)) := do
  let present ← .read fun d => (host.file? e manifestName d).isSome
  if present then
    (host.verifyFiles e).handle fun _ => (host.removeEntry e).bind fun _ => .done none
  else
    let stands ← .read fun d => (host.dir? e d).isSome
    if stands then (host.removeEntry e).bind fun _ => .done none else .done none

/-! ## `_publish_entry` -/

/-- The stage of a publication and its parents are created when they are missing. -/
def stageFile (stage : Path × String) (path : String) (bytes : Bytes) : Act Unit :=
  .modify fun d =>
    let dir := (d.stages.find? stage).getD ⟨.empty, d.clock⟩
    { d with stages := d.stages.set stage { dir with files := dir.files.set path ⟨bytes, d.clock⟩ } }

def stagedFile (stage : Path × String) (path : String) : Act File :=
  need (fun d => (d.stages.find? stage).bind fun dir => dir.files.find? path) "stage"

def removeStage (stage : Path × String) : Act Unit :=
  .modify fun d => { d with stages := d.stages.erase stage }

def copyIn (stage : Path × String) (file : String × Bytes) : Act ManifestItem := do
  stageFile stage file.1 file.2
  let size ← stagedFile stage file.1
  let copy ← stagedFile stage file.1
  .done { path := .given file.1, sha256 := .given (host.sha256 copy.bytes), byteSize := .given size.bytes.length }

/-- `os.rename(stage, entry_dir)`. -/
def renameStage (stage : Path × String) (e : EntryPath) (d : Disk) : Bool × Disk :=
  let free := match d.entries.find? e with
    | none => true
    | some other => other.files.rows.isEmpty
  match d.stages.find? stage with
  | some dir =>
    if free then (true, { d with stages := d.stages.erase stage, entries := d.entries.set e dir }) else (false, d)
  | none => (false, d)

def itemSize (item : ManifestItem) : ℤ :=
  match item.byteSize with
  | .given size => size
  | _ => 0

def makeRoot (cache : EngineCache) (d : Disk) : Disk :=
  match cache.root.getLast? with
  | some name =>
    if cache.root = cache.sharedRoot ++ ["engines", name] ∧ name ∉ d.engines then
      { d with engines := d.engines ++ [name] }
    else d
  | none => d

/-- `_publish_entry`; `files` are the payload and its sidecars under their paths in the entry. -/
def publishEntry (cache : EngineCache) (e : EntryPath) (payload sidecar : List (String × Bytes)) (extra : Manifest F)
    (replace : Bool) : Act Bool :=
  if payload.isEmpty then .done false
  else do
    .modify (makeRoot cache)
    let uuid ← newUuid
    let stage := (host.resolve cache.root, host.uuid uuid)
    let publish : Act Bool := do
      let items ← .collect (host.copyIn stage) (payload ++ sidecar)
      let manifest := { extra with byteSize := .given (items.map itemSize).sum, files := .given items }
      stageFile stage manifestName (host.dumps manifest)
      let present ← .read fun d => (host.dir? e d).isSome
      let _ ← (if replace && present then host.removeEntry e else .done () : Act Unit)
      let renamed ← .update (renameStage stage (host.real e))
      if renamed then .done true
      else
        removeStage stage
        .read fun d => (host.file? e manifestName d).isSome
    publish.handle fun error => (removeStage stage).bind fun _ => .raised error

end Host

end XFoilFoam.Caches
