import XFoilFoam.Foundations.PosixPath

/-! The local file of a result medium, `apps/sweeper/src/media-object-store.ts`: the path the reclaimer unlinks. -/
namespace XFoilFoam.Sweeper
open PosixPath
set_option autoImplicit false

def managedDirectories : List JsString := [unitsOf "jobs", unitsOf "sync-imports"]

/-- `/^(?:jobs|sync-imports)\//`. -/
def hasManagedPrefix (storageKey : JsString) : Bool :=
  managedDirectories.any fun directory => (directory ++ [sep]).isPrefixOf storageKey

/-- `resultMediaLocalPath`; `cwd` is the working directory, which an absolute media root does not ask for. -/
def resultMediaLocalPath (cwd storageKey mediaRoot : JsString) : Except String JsString :=
  if !hasManagedPrefix storageKey then .error "result media local key is outside managed media storage"
  else
    let base := resolveFrom cwd mediaRoot
    let full := resolveFrom base storageKey
    if full = base ∨ ¬ (base ++ [sep]) <+: full then .error "result media local key escapes managed media storage"
    else .ok full

def InManagedMedia (base full : JsString) : Prop :=
  ∃ directory ∈ managedDirectories, ∃ rest, rest ≠ [] ∧ full = base ++ sep :: (directory ++ sep :: rest)

def Managed (segments : List JsString) : Prop :=
  ∃ directory ∈ managedDirectories, ∃ below, below ≠ [] ∧ segments = directory :: below

def rootSegments (cwd mediaRoot : JsString) : List JsString :=
  if mediaRoot.head? = some sep then normalSegments mediaRoot else normalSegments (cwd ++ sep :: mediaRoot)

/-- What the walk of a key leaves below the media root, when it climbs above the root, comes back down by the names
it left and goes on, is managed. -/
def StaysManaged (root : List JsString) (walk : Walk) : Prop :=
  ∀ rest, walk.downs = root.drop (root.length - walk.ups) ++ rest → rest = [] ∨ Managed rest

theorem rootSegments_names (cwd mediaRoot : JsString) : ∀ name ∈ rootSegments cwd mediaRoot, IsName name := by
  unfold rootSegments
  split
  · exact normalSegments_names _
  · exact normalSegments_names _

theorem resolveFrom_root (cwd mediaRoot : JsString) :
    resolveFrom cwd mediaRoot = pathText (rootSegments cwd mediaRoot) := by
  unfold resolveFrom rootSegments
  split <;> rfl

theorem resolveFrom_key {storageKey : JsString} (h : hasManagedPrefix storageKey = true) (base : JsString) :
    resolveFrom base storageKey = pathText (normalSegments (base ++ sep :: storageKey)) := by
  obtain ⟨directory, hdirectory, hmanaged⟩ := List.any_eq_true.mp h
  obtain ⟨rest, rfl⟩ := List.isPrefixOf_iff_prefix.mp hmanaged
  have hrelative : ∀ directory ∈ managedDirectories, directory ≠ [] ∧ directory.head? ≠ some sep := by decide
  obtain ⟨hne, hhead⟩ := hrelative directory hdirectory
  rw [resolveFrom, if_neg]
  rw [List.append_assoc, List.head?_append_of_ne_nil _ hne]
  exact hhead

/-- The names of an accepted path: those the climb leaves of the root, then those the key goes down. -/
def fullSegments (root : List JsString) (walk : Walk) : List JsString :=
  root.take (root.length - walk.ups) ++ walk.downs

theorem fullSegments_eq_append {root : List JsString} {walk : Walk} {rest : List JsString} :
    fullSegments root walk = root ++ rest ↔ walk.downs = root.drop (root.length - walk.ups) ++ rest := by
  have hsplit := List.take_append_drop (root.length - walk.ups) root
  rw [fullSegments]
  constructor
  · intro h
    rw [← List.append_cancel_left_eq (root.take (root.length - walk.ups)), h, ← List.append_assoc, hsplit]
  · intro h
    rw [h, ← List.append_assoc, hsplit]

theorem fullSegments_names {root : List JsString} (hroot : ∀ name ∈ root, IsName name) (storageKey : JsString) :
    ∀ name ∈ fullSegments root (walkOf storageKey), IsName name := by
  rw [fullSegments, ← normalSegments_relative root hroot]
  exact normalSegments_names _

theorem not_extends_slash {path : List JsString} (hpath : ∀ name ∈ path, IsName name) (rest : JsString) :
    pathText path ≠ sep :: sep :: rest := by
  intro h
  by_cases hne : path = []
  · rw [hne] at h
    cases h
  · have hsplit := splitOn_pathText hne hpath
    rw [h, ← List.nil_append (sep :: sep :: rest), List.splitOn_append_cons_self, ← List.nil_append (sep :: rest),
      List.splitOn_append_cons_self] at hsplit
    have hempty : ([] : JsString) ∈ path := by
      simp only [List.splitOn_nil, List.cons_append, List.nil_append, List.cons.injEq, true_and] at hsplit
      rw [← hsplit]
      exact List.mem_cons_self
    exact (hpath [] hempty).1 rfl

theorem managed_names : ∀ directory ∈ managedDirectories, IsName directory := by
  unfold IsName
  decide

theorem resultMediaLocalPath_ok {cwd storageKey mediaRoot full : JsString} :
    resultMediaLocalPath cwd storageKey mediaRoot = .ok full ↔
      hasManagedPrefix storageKey = true ∧ rootSegments cwd mediaRoot ≠ [] ∧ ∃ rest, rest ≠ [] ∧
        fullSegments (rootSegments cwd mediaRoot) (walkOf storageKey) = rootSegments cwd mediaRoot ++ rest ∧
        full = pathText (rootSegments cwd mediaRoot ++ rest) := by
  have hroot := rootSegments_names cwd mediaRoot
  have hfull := fullSegments_names hroot storageKey
  unfold resultMediaLocalPath
  cases hmanaged : hasManagedPrefix storageKey with
  | false => simp
  | true =>
    have hresolved : resolveFrom (resolveFrom cwd mediaRoot) storageKey =
        pathText (fullSegments (rootSegments cwd mediaRoot) (walkOf storageKey)) := by
      rw [resolveFrom_key hmanaged, resolveFrom_root, normalSegments_relative _ hroot, fullSegments]
    simp only [hresolved, Bool.not_true, Bool.false_eq_true, if_false]
    rw [resolveFrom_root]
    generalize rootSegments cwd mediaRoot = root at hroot hfull ⊢
    generalize fullSegments root (walkOf storageKey) = segments at hfull ⊢
    constructor
    · intro h
      split at h
      · cases h
      · next hkept =>
        rw [not_or, not_not] at hkept
        obtain ⟨-, tail, htail⟩ := hkept
        rw [List.append_assoc, List.singleton_append] at htail
        have hne : root ≠ [] := by
          rintro rfl
          exact not_extends_slash hfull tail htail.symm
        have hsegments := pathText_extends hne hroot hfull htail.symm
        refine ⟨trivial, hne, tail.splitOn sep, List.splitOn_ne_nil _ _, hsegments, ?_⟩
        rw [← hsegments]
        exact (Except.ok.inj h).symm
    · rintro ⟨-, hne, rest, hrest, hsegments, rfl⟩
      rw [hsegments]
      have htext : pathText rest = sep :: (pathText rest).tail := by
        cases rest with
        | nil => exact absurd rfl hrest
        | cons name names => rfl
      rw [if_neg]
      rw [not_or, not_not, pathText_append hne hrest, htext]
      refine ⟨fun heq => ?_, (pathText rest).tail, by simp⟩
      have hlength := congrArg List.length heq
      rw [List.length_append, List.length_cons] at hlength
      omega

theorem inManagedMedia_iff {root rest : List JsString} (hne : root ≠ []) (hrest : rest ≠ [])
    (hnames : ∀ name ∈ root ++ rest, IsName name) :
    InManagedMedia (pathText root) (pathText (root ++ rest)) ↔ Managed rest := by
  have hroot : ∀ name ∈ root, IsName name := fun name h => hnames name (List.mem_append_left _ h)
  constructor
  · rintro ⟨directory, hdirectory, below, hbelow, htext⟩
    have hsegments := pathText_extends hne hroot hnames htext
    rw [List.append_cancel_left_eq, List.splitOn_append_cons_self,
      List.splitOn_eq_singleton (managed_names directory hdirectory).2.2.2] at hsegments
    exact ⟨directory, hdirectory, below.splitOn sep, List.splitOn_ne_nil _ _, hsegments⟩
  · rintro ⟨directory, hdirectory, below, hbelow, rfl⟩
    have hbelowText : pathText below = sep :: (pathText below).tail := by
      cases below with
      | nil => exact absurd rfl hbelow
      | cons name names => rfl
    have hdirectoryText : pathText (directory :: below) = sep :: directory ++ pathText below := by
      rw [← List.singleton_append, pathText_append (List.cons_ne_nil _ _) hbelow]
      simp [pathText]
    refine ⟨directory, hdirectory, (pathText below).tail, ?_, ?_⟩
    · cases below with
      | nil => exact absurd rfl hbelow
      | cons name names =>
        have hname := (hnames name (by simp)).1
        simp [pathText, hname]
    · rw [pathText_append hne hrest, hdirectoryText, List.cons_append, ← hbelowText]

/-- Every path a key is given is strictly inside a directory of managed media exactly when the key is refused by
its prefix, the media root is `/`, or the walk of the key stays managed. -/
theorem resultMediaLocalPath_managed_iff (cwd storageKey mediaRoot : JsString) :
    (∀ full, resultMediaLocalPath cwd storageKey mediaRoot = .ok full →
        InManagedMedia (resolveFrom cwd mediaRoot) full) ↔
      hasManagedPrefix storageKey = false ∨ rootSegments cwd mediaRoot = [] ∨
        StaysManaged (rootSegments cwd mediaRoot) (walkOf storageKey) := by
  have hroot := rootSegments_names cwd mediaRoot
  have hfull := fullSegments_names hroot storageKey
  simp only [resultMediaLocalPath_ok, resolveFrom_root, fullSegments_eq_append]
  constructor
  · intro h
    by_cases hmanaged : hasManagedPrefix storageKey = true
    · by_cases hne : rootSegments cwd mediaRoot = []
      · exact .inr (.inl hne)
      · refine .inr (.inr fun rest hrest => ?_)
        by_cases hnil : rest = []
        · exact .inl hnil
        · have hsegments := fullSegments_eq_append.mpr hrest
          exact .inr ((inManagedMedia_iff hne hnil (hsegments ▸ hfull)).mp
            (h _ ⟨hmanaged, hne, rest, hnil, hrest, rfl⟩))
    · exact .inl (Bool.not_eq_true _ ▸ hmanaged)
  · rintro h full ⟨hmanaged, hne, rest, hnil, hrest, rfl⟩
    obtain hrefused | hslash | hstays := h
    · rw [hmanaged] at hrefused
      cases hrefused
    · exact absurd hslash hne
    · have hsegments := fullSegments_eq_append.mpr hrest
      exact (inManagedMedia_iff hne hnil (hsegments ▸ hfull)).mpr ((hstays rest hrest).resolve_left hnil)

/-- `jobs/../x` is accepted as a file of the media root itself. -/
theorem parent_segment_leaves_managed_media :
    ∃ full, resultMediaLocalPath [] (unitsOf "jobs/../x") (unitsOf "/data") = .ok full ∧
      full = unitsOf "/data/x" ∧ ¬ InManagedMedia (unitsOf "/data") full := by
  refine ⟨unitsOf "/data/x", by decide, rfl, ?_⟩
  have hnames : ∀ name ∈ [unitsOf "data"] ++ [unitsOf "x"], IsName name := by
    unfold IsName
    decide
  have hmanaged : ¬ Managed [unitsOf "x"] := by
    rintro ⟨directory, -, below, hbelow, heq⟩
    exact hbelow (List.cons.inj heq).2.symm
  exact fun h => hmanaged ((inManagedMedia_iff (List.cons_ne_nil _ _) (List.cons_ne_nil _ _) hnames).mp h)

end XFoilFoam.Sweeper
