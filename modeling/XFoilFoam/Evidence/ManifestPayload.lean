import XFoilFoam.Foundations.ExceptLists
import XFoilFoam.Foundations.JsValue
import XFoilFoam.Foundations.KeyOrder
import XFoilFoam.Foundations.PosixPath
import Mathlib.Data.List.Lex
import Mathlib.Data.List.Infix
import Mathlib.Data.Prod.Lex

/-! The manifest readers of `src/airfoilfoam/evidence_store.py`: archive paths, expected files, bundle
exclusions and the member set.  A Python string is a sequence of code points, surrogates included. -/
namespace XFoilFoam.Evidence
set_option autoImplicit false

/-! ## Values and exceptions -/

abbrev PyStr := List ℕ

def pyText (s : String) : PyStr := s.toList.map Char.toNat

/-- What `json.loads` returns. -/
inductive PyValue where
  | none
  | bool (b : Bool)
  | int (z : ℤ)
  | float (x : ExactNum)
  | str (s : PyStr)
  | list (xs : List PyValue)
  | dict (fields : List (PyStr × PyValue))

/-- The exceptions told apart by the source. -/
inductive ErrorKind where
  | hydration
  | integrity
  | capacity
  | unavailable
  | keyError
  | typeError
  | valueError
  | overflowError
  | osError
  | noSpace
  | otherError
  deriving DecidableEq

/-- `EvidenceHydrationError` and its subclasses. -/
def ErrorKind.isHydration : ErrorKind → Bool
  | .hydration | .integrity | .capacity | .unavailable => true
  | _ => false

structure Raised where
  kind : ErrorKind
  message : PyStr
  deriving DecidableEq

/-- The interpreter: JSON, `str` of what is no string, `int` of a string, `repr` and the digest. -/
structure Platform where
  loads : List UInt8 → Except PyStr PyValue
  strOf : PyValue → PyStr
  intOf : PyStr → Option ℤ
  repr : PyValue → PyStr
  sha256Hex : List UInt8 → PyStr

/-- `value[key]`. -/
def item (fields : List (PyStr × PyValue)) (key : String) : Except Raised PyValue :=
  match fields.find? (fun field => field.1 == pyText key) with
  | some field => .ok field.2
  | none => .error ⟨.keyError, pyText ("'" ++ key ++ "'")⟩

/-- `value.get(key, default)`. -/
def getOr (fields : List (PyStr × PyValue)) (key : String) (default : PyValue) : PyValue :=
  (fields.find? (fun field => field.1 == pyText key)).elim default Prod.snd

def str (platform : Platform) : PyValue → PyStr
  | .str s => s
  | value => platform.strOf value

/-- `int(value)`: a float is cut off towards zero. -/
def int (platform : Platform) : PyValue → Except Raised ℤ
  | .int z => .ok z
  | .bool b => .ok (if b then 1 else 0)
  | .float (.fin q) => .ok (if q < 0 then ⌈q⌉ else ⌊q⌋)
  | .float .nan => .error ⟨.valueError, pyText "cannot convert float NaN to integer"⟩
  | .float _ => .error ⟨.overflowError, pyText "cannot convert float infinity to integer"⟩
  | .str s =>
    match platform.intOf s with
    | some z => .ok z
    | none => .error ⟨.valueError, pyText "invalid literal for int()"⟩
  | _ => .error ⟨.typeError, pyText "int() argument must be a string or a real number"⟩

/-! ## Archive paths -/

def slash : ℕ := 0x2f
def backslash : ℕ := 0x5c
def dot : PyStr := pyText "."
def dotDot : PyStr := pyText ".."

def IsPart (part : PyStr) : Prop := part ≠ [] ∧ part ≠ dot ∧ part ≠ dotDot ∧ slash ∉ part

structure SafePath where
  parts : List PyStr
  sound : ∀ part ∈ parts, IsPart part

/-- `path.as_posix()`. -/
def SafePath.asPosix (path : SafePath) : PyStr :=
  if path.parts = [] then dot else [slash].intercalate path.parts

/-- The parts that `PurePosixPath` keeps of a relative name. -/
def posixParts (name : PyStr) : List PyStr :=
  (name.splitOn slash).filter (fun part => !part.isEmpty && !(part == dot))

theorem isPart_of_mem_posixParts {name part : PyStr} (h : part ∈ posixParts name) (hdots : part ≠ dotDot) :
    IsPart part := by
  obtain ⟨hsplit, hkept⟩ := List.mem_filter.mp h
  rw [Bool.and_eq_true] at hkept
  refine ⟨?_, ?_, hdots, notMem_of_mem_splitOn hsplit⟩
  · simpa using hkept.1
  · simpa using hkept.2

def safeTarPath (platform : Platform) (name : PyStr) : Except Raised SafePath :=
  let unsafePath := Raised.mk .hydration (pyText "unsafe archive path: " ++ platform.repr (.str name))
  if name = [] ∨ backslash ∈ name then .error unsafePath
  else if name.head? = some slash then .error unsafePath
  else if h : ∀ part ∈ posixParts name, part ≠ dotDot then
    .ok ⟨posixParts name, fun part hpart => isPart_of_mem_posixParts hpart (h part hpart)⟩
  else .error unsafePath

theorem SafePath.asPosix_inj {p q : SafePath} (h : p.asPosix = q.asPosix) : p.parts = q.parts := by
  have hsplit : ∀ path : SafePath, path.parts ≠ [] → path.asPosix.splitOn slash = path.parts := by
    intro path hne
    rw [asPosix, if_neg hne, List.splitOn_intercalate slash (fun part hpart => (path.sound part hpart).2.2.2) hne]
  have hdot : ∀ path : SafePath, path.asPosix = dot → path.parts = [] := by
    intro path hpath
    by_contra hne
    have hparts := hsplit path hne
    rw [hpath, List.splitOn_eq_singleton (by decide)] at hparts
    exact (path.sound dot (by rw [← hparts]; exact List.mem_singleton_self _)).2.1 rfl
  by_cases hp : p.parts = []
  · rw [hp, hdot q (by rw [← h, asPosix, if_pos hp])]
  · by_cases hq : q.parts = []
    · exact absurd (hdot p (by rw [h, asPosix, if_pos hq])) hp
    · rw [← hsplit p hp, h, hsplit q hq]

/-- `relative.split("/", 1)[0]`. -/
def topLevel (relative : PyStr) : PyStr := relative.takeWhile (fun c => c != slash)

/-! ## Manifests -/

def manifestName : PyStr := pyText "evidence_manifest.json"

def requireSha256 (value name : PyStr) : Except Raised Unit :=
  if value.length = 64 ∧ ∀ c ∈ value, c ∈ pyText "0123456789abcdef" then .ok ()
  else .error ⟨.valueError, name ++ pyText " must be a lowercase hexadecimal SHA-256"⟩

def loadManifest (platform : Platform) (payload : List UInt8) : Except Raised PyValue :=
  match platform.loads payload with
  | .ok manifest => .ok manifest
  | .error text => .error ⟨.hydration, pyText "evidence manifest is invalid: " ++ text⟩

/-- The `except` clause around one entry. -/
def rewordEntry {α : Type} (result : Except Raised α) : Except Raised α :=
  match result with
  | .ok a => .ok a
  | .error raised =>
    match raised.kind with
    | .overflowError | .osError | .noSpace | .otherError => .error raised
    | _ => .error ⟨.hydration, pyText "invalid evidence manifest entry: " ++ raised.message⟩

structure Expected where
  size : ℕ
  sha256 : PyStr
  deriving DecidableEq

/-- One element of `files`: its path, size and digest. -/
def readEntry (platform : Platform) (fields : List (PyStr × PyValue)) :
    Except Raised (PyStr × ℤ × PyStr) := do
  let path ← item fields "path"
  let relative ← safeTarPath platform (str platform path)
  let byteSize ← item fields "byteSize"
  let size ← int platform byteSize
  let digest ← item fields "sha256"
  let sha256 := str platform digest
  requireSha256 sha256 (pyText "manifest SHA-256 for " ++ relative.asPosix)
  return (relative.asPosix, size, sha256)

/-- The loop over `files`; `expected` is the dictionary so far. -/
def readExpected (platform : Platform) :
    List (PyStr × Expected) → List PyValue → Except Raised (List (PyStr × Expected))
  | expected, [] => .ok expected
  | expected, .dict fields :: rest => do
    let (relative, size, sha256) ← rewordEntry (readEntry platform fields)
    if size < 0 then .error ⟨.hydration, pyText "invalid evidence size for " ++ relative⟩
    else if (expected.map Prod.fst).contains relative then
      .error ⟨.hydration, pyText "duplicate evidence manifest entry: " ++ relative⟩
    else readExpected platform (expected ++ [(relative, ⟨size.toNat, sha256⟩)]) rest
  | _, _ :: _ => .error ⟨.hydration, pyText "evidence manifest contains a non-object file entry"⟩

def manifestExpectedFilesPayload (platform : Platform) (payload : List UInt8) :
    Except Raised (List (PyStr × Expected)) := do
  let manifest ← loadManifest platform payload
  let files := match manifest with
    | .dict fields => getOr fields "files" .none
    | _ => .none
  match files with
  | .list items => readExpected platform [] items
  | _ => .error ⟨.hydration, pyText "evidence manifest has no files list"⟩

/-- The loop over `bundleExcludes`; `excluded` is the set so far. -/
def readExcluded (platform : Platform) : List PyStr → List PyValue → Except Raised (List PyStr)
  | excluded, [] => .ok excluded
  | excluded, value :: rest => do
    let unsafeItem := Raised.mk .hydration
      (pyText "unsafe evidence manifest bundle exclusion: " ++ platform.repr value)
    match value with
    | .str s =>
      if s = [] ∨ slash ∈ s ∨ backslash ∈ s then .error unsafeItem
      else do
        let path ← safeTarPath platform s
        if excluded.contains path.asPosix then
          .error ⟨.hydration, pyText "duplicate evidence manifest bundle exclusion: " ++ path.asPosix⟩
        else readExcluded platform (excluded ++ [path.asPosix]) rest
    | _ => .error unsafeItem

def manifestBundleExcludesPayload (platform : Platform) (payload : List UInt8) :
    Except Raised (List PyStr) := do
  let manifest ← loadManifest platform payload
  let raw := match manifest with
    | .dict fields => getOr fields "bundleExcludes" (.list [])
    | _ => .list []
  match raw with
  | .list items => readExcluded platform [] items
  | _ => .error ⟨.hydration, pyText "evidence manifest bundleExcludes is not a list"⟩

def manifestExcludedArchiveMembers (archivePaths excludedRoots : List PyStr) : List PyStr :=
  KeyOrder.sortBy id (archivePaths.filter (fun relative => excludedRoots.contains (topLevel relative)))

def bundledExpectedFiles (expected : List (PyStr × Expected)) (excludedRoots : List PyStr) :
    List (PyStr × Expected) :=
  expected.filter (fun file => !excludedRoots.contains (topLevel file.1))

end XFoilFoam.Evidence
