import XFoilFoam.Foundations.Bytes
import Mathlib.Data.List.Induction
import Mathlib.Data.List.TakeDrop

/-! Resolution of POSIX paths: empty, `.` and `..` segments are removed, and an absolute path is the text of the
segments that stay. -/
namespace XFoilFoam
set_option autoImplicit false

theorem notMem_of_mem_splitOn {α : Type} [DecidableEq α] {text part : List α} {separator : α}
    (h : part ∈ text.splitOn separator) : separator ∉ part := by
  induction text generalizing part with
  | nil =>
    rw [List.splitOn_nil, List.mem_singleton] at h
    rw [h]
    exact List.not_mem_nil
  | cons c text ih =>
    rw [List.splitOn_cons_eq_if_modifyHead] at h
    split at h
    · obtain rfl | h := List.mem_cons.mp h
      · exact List.not_mem_nil
      · exact ih h
    · next hc =>
      cases hsplit : text.splitOn separator with
      | nil => exact absurd hsplit (List.splitOn_ne_nil _ _)
      | cons first rest =>
        rw [hsplit, List.modifyHead_cons] at h
        rw [hsplit] at ih
        obtain rfl | h := List.mem_cons.mp h
        · rw [List.mem_cons, not_or]
          refine ⟨fun heq => hc ?_, ih List.mem_cons_self⟩
          rw [heq]
          exact beq_self_eq_true c
        · exact ih (List.mem_cons_of_mem _ h)

namespace PosixPath

/-! ## Segments -/

def sep : UInt16 := 0x2f

def IsName (segment : JsString) : Prop := segment ≠ [] ∧ segment ≠ unitsOf "." ∧ segment ≠ unitsOf ".." ∧ sep ∉ segment

def pushSegment (stack : List JsString) (segment : JsString) : List JsString :=
  if segment = [] ∨ segment = unitsOf "." then stack
  else if segment = unitsOf ".." then stack.dropLast
  else stack ++ [segment]

def normalSegments (path : JsString) : List JsString := (path.splitOn sep).foldl pushSegment []

def pathText (segments : List JsString) : JsString :=
  if segments = [] then [sep] else segments.flatMap fun segment => sep :: segment

/-- `resolve(path)` in a working directory, and `resolve(directory, path)`. -/
def resolveFrom (directory path : JsString) : JsString :=
  if path.head? = some sep then pathText (normalSegments path)
  else pathText (normalSegments (directory ++ sep :: path))

theorem pushSegment_names {stack : List JsString} {segment : JsString} (hstack : ∀ name ∈ stack, IsName name)
    (hsegment : sep ∉ segment) : ∀ name ∈ pushSegment stack segment, IsName name := by
  unfold pushSegment
  split
  · exact hstack
  · next hplain =>
    rw [not_or] at hplain
    split
    · exact fun name hname => hstack name ((List.dropLast_sublist _).subset hname)
    · next hup =>
      intro name hname
      obtain hname | hname := List.mem_append.mp hname
      · exact hstack name hname
      · rw [List.mem_singleton.mp hname]
        exact ⟨hplain.1, hplain.2, hup, hsegment⟩

theorem foldl_pushSegment_names {segments : List JsString} (hsegments : ∀ segment ∈ segments, sep ∉ segment) :
    ∀ {stack : List JsString}, (∀ name ∈ stack, IsName name) →
      ∀ name ∈ segments.foldl pushSegment stack, IsName name := by
  induction segments with
  | nil => exact fun hstack => hstack
  | cons segment segments ih =>
    intro stack hstack
    obtain ⟨hfirst, hrest⟩ := List.forall_mem_cons.mp hsegments
    exact ih hrest (pushSegment_names hstack hfirst)

theorem normalSegments_names (path : JsString) : ∀ name ∈ normalSegments path, IsName name :=
  foldl_pushSegment_names (fun _ h => notMem_of_mem_splitOn h) fun _ h => absurd h List.not_mem_nil

theorem foldl_pushSegment_of_names {segments : List JsString} (h : ∀ name ∈ segments, IsName name) :
    ∀ stack, segments.foldl pushSegment stack = stack ++ segments := by
  induction segments with
  | nil => simp
  | cons segment segments ih =>
    intro stack
    obtain ⟨hname, hrest⟩ := List.forall_mem_cons.mp h
    have hpush : pushSegment stack segment = stack ++ [segment] := by
      rw [pushSegment, if_neg (not_or.mpr ⟨hname.1, hname.2.1⟩), if_neg hname.2.2.1]
    rw [List.foldl_cons, hpush, ih hrest, List.append_assoc, List.singleton_append]

/-! ## Texts -/

theorem splitOn_flatMap {segments : List JsString} (h : ∀ name ∈ segments, sep ∉ name) :
    (segments.flatMap fun segment => sep :: segment).splitOn sep = [] :: segments := by
  induction segments using List.reverseRecOn with
  | nil => rfl
  | append_singleton segments segment ih =>
    have hlast : sep ∉ segment := h segment (by simp)
    rw [List.flatMap_append, List.flatMap_singleton, List.splitOn_append_cons_self,
      ih fun name hname => h name (List.mem_append_left _ hname), List.splitOn_eq_singleton hlast]
    rfl

theorem splitOn_pathText {segments : List JsString} (hne : segments ≠ []) (h : ∀ name ∈ segments, IsName name) :
    (pathText segments).splitOn sep = [] :: segments := by
  rw [pathText, if_neg hne]
  exact splitOn_flatMap fun name hname => (h name hname).2.2.2

/-- The text of a path starts with that of a directory and a separator exactly when its names start with those of
the directory. -/
theorem pathText_extends {directory path : List JsString} (hdirectory : directory ≠ [])
    (hnames : ∀ name ∈ directory, IsName name) (hpath : ∀ name ∈ path, IsName name) {rest : JsString}
    (h : pathText path = pathText directory ++ sep :: rest) : path = directory ++ rest.splitOn sep := by
  have hne : path ≠ [] := by
    rintro rfl
    have hlength := congrArg List.length h
    rw [pathText, pathText, if_pos rfl, if_neg hdirectory, List.length_append, List.length_cons] at hlength
    cases directory with
    | nil => exact hdirectory rfl
    | cons name names =>
      rw [List.flatMap_cons] at hlength
      simp only [List.length_append, List.length_cons, List.length_nil] at hlength
      omega
  have hsplit := splitOn_pathText hne hpath
  rw [h, List.splitOn_append_cons_self, splitOn_pathText hdirectory hnames, List.cons_append] at hsplit
  exact (List.cons.inj hsplit).2.symm

theorem pathText_append {directory rest : List JsString} (hdirectory : directory ≠ []) (hrest : rest ≠ []) :
    pathText (directory ++ rest) = pathText directory ++ pathText rest := by
  rw [pathText, pathText, pathText, if_neg (by simp [hdirectory]), if_neg hdirectory, if_neg hrest,
    List.flatMap_append]

/-! ## Relative paths -/

/-- Where a relative path goes: up some levels, then down through names. -/
structure Walk where
  ups : ℕ
  downs : List JsString
deriving DecidableEq

def Walk.step (walk : Walk) (segment : JsString) : Walk :=
  if segment = [] ∨ segment = unitsOf "." then walk
  else if segment = unitsOf ".." then
    if walk.downs = [] then { walk with ups := walk.ups + 1 } else { walk with downs := walk.downs.dropLast }
  else { walk with downs := walk.downs ++ [segment] }

def walkOf (path : JsString) : Walk := (path.splitOn sep).foldl Walk.step ⟨0, []⟩

theorem foldl_pushSegment_walk (stack segments : List JsString) :
    segments.foldl pushSegment stack =
      stack.take (stack.length - (segments.foldl Walk.step ⟨0, []⟩).ups) ++ (segments.foldl Walk.step ⟨0, []⟩).downs := by
  induction segments using List.reverseRecOn with
  | nil => simp
  | append_singleton segments segment ih =>
    rw [List.foldl_append, List.foldl_append, List.foldl_cons, List.foldl_cons, List.foldl_nil, List.foldl_nil, ih]
    generalize segments.foldl Walk.step ⟨0, []⟩ = walk
    unfold pushSegment Walk.step
    split
    · rfl
    · split
      · by_cases hdowns : walk.downs = []
        · rw [if_pos hdowns, hdowns, List.append_nil, List.append_nil, List.dropLast_eq_take, List.length_take,
            List.take_take]
          congr 1
          dsimp only
          omega
        · rw [if_neg hdowns, List.dropLast_append_of_ne_nil hdowns]
      · rw [List.append_assoc]

theorem normalSegments_relative (directory : List JsString) (hnames : ∀ name ∈ directory, IsName name)
    (path : JsString) :
    normalSegments (pathText directory ++ sep :: path) =
      directory.take (directory.length - (walkOf path).ups) ++ (walkOf path).downs := by
  have hbase : ((pathText directory).splitOn sep).foldl pushSegment [] = directory := by
    by_cases hne : directory = []
    · rw [hne]
      rfl
    · rw [splitOn_pathText hne hnames, List.foldl_cons, foldl_pushSegment_of_names hnames]
      rfl
  rw [normalSegments, List.splitOn_append_cons_self, List.foldl_append, hbase]
  exact foldl_pushSegment_walk _ _

end PosixPath

end XFoilFoam
