import XFoilFoam.Unsteady.Series
import XFoilFoam.Engine.RansHold
import Mathlib.Data.List.Lex
import Mathlib.Data.Char

/-! The coefficient series of a run: `_data_rows` of `postprocess/forces.py`, `_coefficient_series_one` and
`_coefficient_series` of `postprocess/unsteady.py`.  A continuation writes its own file under a directory
named by its start time; the older file is cut where the newer one starts and the rows are merged. -/
namespace XFoilFoam.Unsteady
open Binary64
open Engine (PyRuntime splitLines strip tokensOf defaultHeader columnIndex cmIndex)
set_option autoImplicit false

/-! ## One file -/

/-- The loop of `_data_rows` over the lines: what is not numeric is skipped. -/
def dataRowsFrom (runtime : PyRuntime) (header : List (List Char)) (rows : List (List Double)) :
    List (List Char) → List (List Char) × List (List Double)
  | [] => (header, rows)
  | raw :: rest =>
    let line := strip raw
    if line.isEmpty then dataRowsFrom runtime header rows rest
    else if line.head? = some '#' then
      let tokens := tokensOf (strip (line.dropWhile (fun c => c == '#')))
      if tokens.contains "Cl".toList && tokens.contains "Cd".toList then
        dataRowsFrom runtime tokens rows rest
      else dataRowsFrom runtime header rows rest
    else
      match (tokensOf line).mapM runtime.float with
      | some row => dataRowsFrom runtime header (rows ++ [row]) rest
      | none => dataRowsFrom runtime header rows rest

abbrev Disk := List Char → Option ByteArray

def dataRows (runtime : PyRuntime) (disk : Disk) (path : List Char) :
    Except SeriesError (List (List Char) × List (List Double)) :=
  match disk path with
  | none => .error .osError
  | some file =>
    match file.utf8Decode? with
    | none => .error .unicodeDecodeError
    | some text => .ok (dataRowsFrom runtime [] [] (splitLines [] text.toList))

/-- `col(name)`: a row that is too short has no entry. -/
def column (rows : List (List Double)) (i : ℕ) : List Double := rows.filterMap fun row => row[i]?

/-- The places of the four columns; a missing time is counted and a missing moment is zero. -/
structure Columns where
  time : Option ℕ
  cl : ℕ
  cd : ℕ
  cm : Option ℕ
  deriving DecidableEq

/-- The columns of a header, the documented order standing in for a missing one. -/
def columnsOf (header : List (List Char)) : Option Columns :=
  let header := if header.isEmpty then defaultHeader else header
  match columnIndex header "Cl", columnIndex header "Cd" with
  | some cl, some cd => some ⟨columnIndex header "Time", cl, cd, cmIndex header⟩
  | _, _ => none

def Columns.times (columns : Columns) (rows : List (List Double)) : List Double :=
  match columns.time with
  | some i => column rows i
  | none => (List.range rows.length).map fun i => lit (i : ℚ)

def Columns.moments (columns : Columns) (rows : List (List Double)) : List Double :=
  match columns.cm with
  | some i => column rows i
  | none => List.replicate (column rows columns.cl).length (lit 0)

def coefficientSeriesOne (numpy : Argsort) (runtime : PyRuntime) (disk : Disk) (path : List Char) :
    Except SeriesError (List SeriesRow) :=
  match dataRows runtime disk path with
  | .error e => .error e
  | .ok (header, rows) =>
    if rows.isEmpty then .error (.valueError ("No coefficient data found in " ++ String.ofList path))
    else
      match columnsOf header with
      | some columns =>
        normaliseSeries numpy (columns.times rows) (column rows columns.cl) (column rows columns.cd)
          (columns.moments rows)
      | none => .error .keyError

/-! ## Restart segments -/

/-- `path.parent.name`. -/
def parentName (path : List Char) : List Char := ((path.splitOn '/').dropLast.getLast?).getD []

/-- `max(1e-12, abs(x) * 1e-12)`. -/
def tolerance (x : Double) : Double := (lit (1 / 10 ^ 12) : Double).pyMax (mul (abs x) (lit (1 / 10 ^ 12)))

structure Part where
  path : List Char
  start : Option Double
  values : List SeriesRow

/-- `sorted(set(numeric_boundaries))`. -/
def numericBoundaries (runtime : PyRuntime) (paths : List (List Char)) : List Double :=
  KeyOrder.sortBy Double.rank
    ((paths.filterMap fun path => runtime.float (parentName path)).filter fun x => isFinite x).dedup

/-- `except (OSError, ValueError)`. -/
def SeriesError.caught : SeriesError → Bool
  | .osError => true
  | .unicodeDecodeError => true
  | .valueError _ => true
  | _ => false

def readParts (numpy : Argsort) (runtime : PyRuntime) (disk : Disk) (lastExc : Option SeriesError) :
    List (List Char) → Except SeriesError (List Part × Option SeriesError)
  | [] => .ok ([], lastExc)
  | path :: rest =>
    match coefficientSeriesOne numpy runtime disk path with
    | .ok values =>
      match readParts numpy runtime disk lastExc rest with
      | .ok (parts, e) => .ok (⟨path, runtime.float (parentName path), values⟩ :: parts, e)
      | .error e => .error e
    | .error e => if e.caught then readParts numpy runtime disk (some e) rest else .error e

def Part.sortKey? (part : Part) : Option Double := part.start.or (part.values.head?.map SeriesRow.t)

/-- The sort key `(start, str(path))`. -/
def Part.sortKey (part : Part) : WithBot (WithTop ℚ) ×ₗ List Char :=
  toLex ((part.sortKey?.getD (lit 0)).rank, part.path)

def nextStart (boundaries : List Double) (start : Double) : Option Double :=
  boundaries.find? fun boundary => lt (add start (tolerance start)) boundary

def clipPart (boundaries : List Double) (part : Part) : Option (List SeriesRow) :=
  match part.start.bind (nextStart boundaries) with
  | none => some part.values
  | some next =>
    let kept := part.values.filter fun r => lt r.t (sub next (tolerance next))
    if kept.isEmpty then none else some kept

def mergeParts (numpy : Argsort) (boundaries : List Double) (parts : List Part) :
    Except SeriesError (List SeriesRow) :=
  if parts.any fun part => part.sortKey?.isNone then .error .indexError
  else
    match (KeyOrder.sortBy Part.sortKey parts).filterMap (clipPart boundaries) with
    | [] => .error (.valueError "need at least one array to concatenate")
    | clipped =>
      let merged := clipped.flatten
      normaliseSeries numpy (merged.map SeriesRow.t) (merged.map SeriesRow.cl) (merged.map SeriesRow.cd)
        (merged.map SeriesRow.cm)

/-- `_coefficient_series` of a list of paths. -/
def coefficientSeries (numpy : Argsort) (runtime : PyRuntime) (disk : Disk) (paths : List (List Char)) :
    Except SeriesError (List SeriesRow) :=
  match readParts numpy runtime disk none paths with
  | .error e => .error e
  | .ok ([], lastExc) => .error (lastExc.getD (.valueError "No coefficient data found (no segments)"))
  | .ok (parts, _) => mergeParts numpy (numericBoundaries runtime paths) parts

/-! ## Complete rows -/

namespace Columns
variable (columns : Columns) {rows : List (List Double)} {row : List Double}

def timeEnd : ℕ := columns.time.elim 0 (· + 1)

def momentEnd : ℕ := columns.cm.elim (columns.cl + 1) (· + 1)

/-- A row with all its columns; `k` is its place in the file. -/
def row? (k : ℕ) (row : List Double) : Option SeriesRow :=
  match columns.time.elim (some (lit (k : ℚ))) (row[·]?), row[columns.cl]?, row[columns.cd]?,
    columns.cm.elim (some (lit 0)) (row[·]?) with
  | some t, some cl, some cd, some cm => some ⟨t, cl, cd, cm⟩
  | _, _, _, _ => none

def complete (k : ℕ) : List (List Double) → List SeriesRow
  | [] => []
  | row :: rows => (columns.row? k row).toList ++ complete (k + 1) rows

def Uncut (rows : List (List Double)) : Prop :=
  ∀ row ∈ rows, (columns.cl + 1 ≤ row.length ↔ columns.timeEnd ≤ row.length) ∧
    (columns.cd + 1 ≤ row.length ↔ columns.timeEnd ≤ row.length) ∧
    (columns.momentEnd ≤ row.length ↔ columns.timeEnd ≤ row.length)

end Columns

section Complete
variable {columns : Columns} {rows : List (List Double)}

theorem length_column (rows : List (List Double)) (i : ℕ) :
    (column rows i).length = rows.countP fun row => decide (i + 1 ≤ row.length) := by
  rw [column, List.length_filterMap_eq_countP]
  refine List.countP_congr fun row _ => ?_
  simp [Nat.succ_le_iff]

theorem length_times : (columns.times rows).length = rows.countP fun row => decide (columns.timeEnd ≤ row.length) := by
  unfold Columns.times Columns.timeEnd
  cases columns.time with
  | some i => exact length_column rows i
  | none => simp

theorem length_moments :
    (columns.moments rows).length = rows.countP fun row => decide (columns.momentEnd ≤ row.length) := by
  unfold Columns.moments Columns.momentEnd
  cases columns.cm with
  | some i => exact length_column rows i
  | none =>
    rw [List.length_replicate]
    exact length_column rows columns.cl

theorem countP_length_le {m n : ℕ} (hmn : m ≤ n) (rows : List (List Double)) :
    (rows.countP fun row => decide (n ≤ row.length)) ≤ rows.countP fun row => decide (m ≤ row.length) :=
  List.countP_mono_left fun _ _ hrow => decide_eq_true (hmn.trans (of_decide_eq_true hrow))

theorem long_of_countP_eq {m n : ℕ} (hmn : m ≤ n) {rows : List (List Double)}
    (heq : (rows.countP fun row => decide (n ≤ row.length)) = rows.countP fun row => decide (m ≤ row.length)) :
    ∀ row ∈ rows, m ≤ row.length → n ≤ row.length := by
  induction rows with
  | nil => exact fun row hrow => absurd hrow List.not_mem_nil
  | cons row rows ih =>
    have hle := countP_length_le hmn rows
    rw [List.countP_cons, List.countP_cons] at heq
    have hhead : m ≤ row.length → n ≤ row.length := by
      intro hm
      by_contra hn
      simp only [hm, hn, decide_true, decide_false, if_true, Bool.false_eq_true, if_false] at heq
      omega
    have hsame : decide (n ≤ row.length) = decide (m ≤ row.length) :=
      decide_eq_decide.mpr ⟨fun hn => hmn.trans hn, hhead⟩
    rw [hsame] at heq
    intro r hr
    obtain rfl | hr := List.mem_cons.mp hr
    · exact hhead
    · exact ih (Nat.add_right_cancel heq) r hr

theorem countP_length_eq_iff (rows : List (List Double)) (m n : ℕ) :
    (rows.countP fun row => decide (m ≤ row.length)) = (rows.countP fun row => decide (n ≤ row.length)) ↔
      ∀ row ∈ rows, (m ≤ row.length ↔ n ≤ row.length) := by
  constructor
  · intro heq row hrow
    obtain hmn | hnm := le_total m n
    · exact ⟨long_of_countP_eq hmn heq.symm row hrow, hmn.trans⟩
    · exact ⟨hnm.trans, long_of_countP_eq hnm heq row hrow⟩
  · intro h
    exact List.countP_congr fun row hrow => by simp [h row hrow]

theorem lengths_eq_iff :
    ((column rows columns.cl).length = (columns.times rows).length ∧
      (column rows columns.cd).length = (columns.times rows).length ∧
      (columns.moments rows).length = (columns.times rows).length) ↔ columns.Uncut rows := by
  rw [length_column, length_column, length_times, length_moments, countP_length_eq_iff, countP_length_eq_iff,
    countP_length_eq_iff]
  constructor
  · rintro ⟨hcl, hcd, hcm⟩ row hrow
    exact ⟨hcl row hrow, hcd row hrow, hcm row hrow⟩
  · intro h
    exact ⟨fun row hrow => (h row hrow).1, fun row hrow => (h row hrow).2.1, fun row hrow => (h row hrow).2.2⟩

theorem column_cons_of_lt {row : List Double} {i : ℕ} (h : i < row.length) (rows : List (List Double)) :
    column (row :: rows) i = row[i] :: column rows i :=
  List.filterMap_cons_some (List.getElem?_eq_getElem h)

theorem column_cons_of_le {row : List Double} {i : ℕ} (h : row.length ≤ i) (rows : List (List Double)) :
    column (row :: rows) i = column rows i :=
  List.filterMap_cons_none (List.getElem?_eq_none h)

/-- The time column, a missing one being counted from `k`. -/
def Columns.timesFrom (columns : Columns) (k : ℕ) (rows : List (List Double)) : List Double :=
  match columns.time with
  | some i => column rows i
  | none => (List.range' k rows.length).map fun i => lit (i : ℚ)

theorem timesFrom_cons (rows : List (List Double)) {row : List Double} (k : ℕ) (h : columns.timeEnd ≤ row.length) :
    ∃ t, columns.time.elim (some (lit (k : ℚ))) (row[·]?) = some t ∧
      columns.timesFrom k (row :: rows) = t :: columns.timesFrom (k + 1) rows := by
  unfold Columns.timeEnd at h
  unfold Columns.timesFrom
  cases htime : columns.time with
  | none => exact ⟨_, rfl, rfl⟩
  | some i =>
    rw [htime] at h
    exact ⟨row[i], List.getElem?_eq_getElem h, column_cons_of_lt h rows⟩

theorem timesFrom_cons_short (rows : List (List Double)) {row : List Double} (k : ℕ) (h : ¬columns.timeEnd ≤ row.length) :
    columns.time.elim (some (lit (k : ℚ))) (row[·]?) = none ∧
      columns.timesFrom k (row :: rows) = columns.timesFrom (k + 1) rows := by
  unfold Columns.timeEnd at h
  unfold Columns.timesFrom
  cases htime : columns.time with
  | none =>
    rw [htime] at h
    exact absurd (Nat.zero_le _) h
  | some i =>
    rw [htime] at h
    have hi : row.length ≤ i := Nat.lt_succ_iff.mp (not_le.mp h)
    exact ⟨List.getElem?_eq_none hi, column_cons_of_le hi rows⟩

theorem moments_cons (rows : List (List Double)) {row : List Double} (hcl : columns.cl < row.length)
    (h : columns.momentEnd ≤ row.length) :
    ∃ m, columns.cm.elim (some (lit 0)) (row[·]?) = some m ∧
      columns.moments (row :: rows) = m :: columns.moments rows := by
  unfold Columns.momentEnd at h
  unfold Columns.moments
  cases hcm : columns.cm with
  | none =>
    refine ⟨lit 0, rfl, ?_⟩
    simp only [column_cons_of_lt hcl, List.length_cons, List.replicate_succ]
  | some i =>
    rw [hcm] at h
    exact ⟨row[i], List.getElem?_eq_getElem h, column_cons_of_lt h rows⟩

theorem moments_cons_short {row : List Double} (hcl : row.length ≤ columns.cl)
    (h : ¬columns.momentEnd ≤ row.length) : columns.moments (row :: rows) = columns.moments rows := by
  unfold Columns.momentEnd at h
  unfold Columns.moments
  cases hcm : columns.cm with
  | none => simp only [column_cons_of_le hcl]
  | some i =>
    rw [hcm] at h
    exact column_cons_of_le (Nat.lt_succ_iff.mp (not_le.mp h)) rows

theorem zipRows_complete (k : ℕ) (h : columns.Uncut rows) :
    zipRows (columns.timesFrom k rows) (column rows columns.cl) (column rows columns.cd)
      (columns.moments rows) = columns.complete k rows := by
  induction rows generalizing k with
  | nil =>
    unfold column
    cases htimes : columns.timesFrom k [] <;> rfl
  | cons row rows ih =>
    obtain ⟨hcl, hcd, hcm⟩ := h row List.mem_cons_self
    have ih' := ih (k + 1) fun r hr => h r (List.mem_cons_of_mem row hr)
    by_cases hlong : columns.timeEnd ≤ row.length
    · obtain ⟨t, ht, htimes⟩ := timesFrom_cons rows k hlong
      obtain ⟨m, hm, hmoments⟩ := moments_cons rows (hcl.mpr hlong) (hcm.mpr hlong)
      have hrow : columns.row? k row = some ⟨t, row.get ⟨columns.cl, hcl.mpr hlong⟩,
          row.get ⟨columns.cd, hcd.mpr hlong⟩, m⟩ := by
        unfold Columns.row?
        rw [ht, hm, List.getElem?_eq_getElem (hcl.mpr hlong), List.getElem?_eq_getElem (hcd.mpr hlong)]
        rfl
      rw [htimes, hmoments, column_cons_of_lt (hcl.mpr hlong), column_cons_of_lt (hcd.mpr hlong), zipRows, ih',
        Columns.complete, hrow]
      rfl
    · obtain ⟨ht, htimes⟩ := timesFrom_cons_short rows k hlong
      have hshort : ∀ {n : ℕ}, (n + 1 ≤ row.length ↔ columns.timeEnd ≤ row.length) → row.length ≤ n :=
        fun hn => Nat.lt_succ_iff.mp (not_le.mp fun hle => hlong (hn.mp hle))
      have hrow : columns.row? k row = none := by
        unfold Columns.row?
        rw [ht]
      rw [htimes, moments_cons_short (hshort hcl) (fun hle => hlong (hcm.mp hle)),
        column_cons_of_le (hshort hcl), column_cons_of_le (hshort hcd), ih', Columns.complete, hrow]
      rfl

theorem times_eq : columns.times rows = columns.timesFrom 0 rows := by
  unfold Columns.times Columns.timesFrom
  rw [List.range_eq_range']

end Complete

/-! ## What reading a file gives -/

section File
variable (numpy : Argsort) (runtime : PyRuntime) (disk : Disk) (path : List Char)

def NamesForces (header : List (List Char)) : Prop := header = [] ∨ "Cl".toList ∈ header ∧ "Cd".toList ∈ header

theorem dataRowsFrom_namesForces {header : List (List Char)} (rows : List (List Double)) (lines : List (List Char))
    (h : NamesForces header) : NamesForces (dataRowsFrom runtime header rows lines).1 := by
  induction lines generalizing header rows with
  | nil => exact h
  | cons raw rest ih =>
    simp only [dataRowsFrom]
    split
    · exact ih rows h
    · split
      · split
        · rename_i htokens
          rw [Bool.and_eq_true, List.contains_iff_mem, List.contains_iff_mem] at htokens
          exact ih rows (.inr htokens)
        · exact ih rows h
      · split
        · exact ih _ h
        · exact ih rows h

theorem columnIndex_of_mem {header : List (List Char)} {name : String} (h : name.toList ∈ header) :
    ∃ i, columnIndex header name = some i := by
  obtain ⟨i, hi, heq⟩ := List.getElem_of_mem h
  have hmem : (name.toList, i) ∈ header.zipIdx.filter fun entry => entry.1 == name.toList := by
    rw [List.mem_filter, List.mem_zipIdx_iff_getElem?, List.getElem?_eq_getElem hi, heq]
    exact ⟨rfl, beq_self_eq_true _⟩
  unfold columnIndex
  rw [List.getLast?_eq_some_getLast (List.ne_nil_of_mem hmem)]
  exact ⟨_, rfl⟩

theorem columnsOf_isSome {header : List (List Char)} (h : NamesForces header) :
    ∃ columns, columnsOf header = some columns := by
  have hnames : "Cl".toList ∈ (if header.isEmpty then defaultHeader else header) ∧
      "Cd".toList ∈ (if header.isEmpty then defaultHeader else header) := by
    obtain rfl | hnames := h
    · decide
    · rw [if_neg (by simpa using List.ne_nil_of_mem hnames.1)]
      exact hnames
  obtain ⟨cl, hcl⟩ := columnIndex_of_mem hnames.1
  obtain ⟨cd, hcd⟩ := columnIndex_of_mem hnames.2
  simp only [columnsOf, hcl, hcd]
  exact ⟨_, rfl⟩

variable {runtime disk path} in
theorem columnsOf_dataRows {header : List (List Char)} {rows : List (List Double)}
    (hdata : dataRows runtime disk path = .ok (header, rows)) : ∃ columns, columnsOf header = some columns := by
  apply columnsOf_isSome
  unfold dataRows at hdata
  split at hdata
  · cases hdata
  · split at hdata
    · cases hdata
    · rename_i text _
      have hheader := dataRowsFrom_namesForces runtime [] (splitLines [] text.toList) (.inl rfl)
      rwa [Except.ok.inj hdata] at hheader

def segment : Option (Columns × List (List Double)) :=
  match dataRows runtime disk path with
  | .ok (header, rows) => (columnsOf header).map fun columns => (columns, rows)
  | .error _ => none

def completeRows : List SeriesRow := (segment runtime disk path).elim [] fun file => file.1.complete 0 file.2

/-- A file with rows, none of which breaks off between the columns. -/
def Usable : Prop :=
  ∃ columns rows, segment runtime disk path = some (columns, rows) ∧ rows ≠ [] ∧ columns.Uncut rows

theorem one_of_usable (h : Usable runtime disk path) :
    coefficientSeriesOne numpy runtime disk path = .ok (normaliseRows numpy (completeRows runtime disk path)) := by
  obtain ⟨columns, rows, hsegment, hrows, huncut⟩ := h
  have hcomplete : completeRows runtime disk path = columns.complete 0 rows := by
    rw [completeRows, hsegment]
    rfl
  unfold segment at hsegment
  unfold coefficientSeriesOne
  rw [hcomplete]
  split at hsegment
  · rename_i header rows' hdata
    obtain ⟨columns', hcolumns, hpair⟩ := Option.map_eq_some_iff.mp hsegment
    obtain ⟨rfl, rfl⟩ := Prod.mk.inj hpair
    obtain ⟨hcl, hcd, hcm⟩ := lengths_eq_iff.mpr huncut
    rw [hdata]
    simp only [hcolumns, List.isEmpty_iff, hrows, if_false]
    rw [normaliseSeries, if_neg (by simp [hcl, hcd, hcm]), times_eq, zipRows_complete 0 huncut]
  · cases hsegment

theorem one_of_not_usable (h : ¬Usable runtime disk path) :
    ∃ e, coefficientSeriesOne numpy runtime disk path = .error e ∧ e.caught = true := by
  unfold coefficientSeriesOne
  cases hdata : dataRows runtime disk path with
  | error e =>
    refine ⟨e, rfl, ?_⟩
    unfold dataRows at hdata
    split at hdata
    · cases hdata
      rfl
    · split at hdata
      · cases hdata
        rfl
      · cases hdata
  | ok file =>
    obtain ⟨header, rows⟩ := file
    obtain ⟨columns, hcolumns⟩ := columnsOf_dataRows hdata
    have hsegment : segment runtime disk path = some (columns, rows) := by
      simp only [segment, hdata, hcolumns, Option.map_some]
    by_cases hrows : rows = []
    · simp only [hrows, List.isEmpty_nil, if_true]
      exact ⟨_, rfl, rfl⟩
    · have hcut : ¬columns.Uncut rows := fun huncut => h ⟨columns, rows, hsegment, hrows, huncut⟩
      simp only [hcolumns, List.isEmpty_iff, hrows, if_false]
      rw [normaliseSeries, if_pos]
      · exact ⟨_, rfl, rfl⟩
      · by_contra hlengths
        simp only [not_or, not_not] at hlengths
        exact hcut (lengths_eq_iff.mp hlengths)

end File

/-! ## What merging gives -/

section Merge
variable (numpy : Argsort) (runtime : PyRuntime) (disk : Disk) {paths paths' : List (List Char)}
  {path : List Char} {part : Part} {r : SeriesRow}

def partOf (path : List Char) : Option Part :=
  match coefficientSeriesOne numpy runtime disk path with
  | .ok values => some ⟨path, runtime.float (parentName path), values⟩
  | .error _ => none

def usablePart (path : List Char) : Part :=
  ⟨path, runtime.float (parentName path), normaliseRows numpy (completeRows runtime disk path)⟩

theorem partOf_of_usable (h : Usable runtime disk path) :
    partOf numpy runtime disk path = some (usablePart numpy runtime disk path) := by
  rw [partOf, one_of_usable numpy runtime disk path h]
  rfl

theorem partOf_eq_some (h : partOf numpy runtime disk path = some part) :
    Usable runtime disk path ∧ part = usablePart numpy runtime disk path := by
  by_cases husable : Usable runtime disk path
  · rw [partOf_of_usable numpy runtime disk husable] at h
    exact ⟨husable, (Option.some.inj h).symm⟩
  · obtain ⟨e, he, -⟩ := one_of_not_usable numpy runtime disk path husable
    rw [partOf, he] at h
    cases h

theorem readParts_eq (lastExc : Option SeriesError) (paths : List (List Char)) :
    ∃ e, readParts numpy runtime disk lastExc paths = .ok (paths.filterMap (partOf numpy runtime disk), e) := by
  induction paths generalizing lastExc with
  | nil => exact ⟨lastExc, rfl⟩
  | cons path paths ih =>
    by_cases husable : Usable runtime disk path
    · obtain ⟨e, he⟩ := ih lastExc
      refine ⟨e, ?_⟩
      rw [List.filterMap_cons_some (partOf_of_usable numpy runtime disk husable)]
      simp only [readParts, one_of_usable numpy runtime disk path husable, he, usablePart]
    · obtain ⟨raised, hraised, hcaught⟩ := one_of_not_usable numpy runtime disk path husable
      obtain ⟨e, he⟩ := ih (some raised)
      refine ⟨e, ?_⟩
      have hnone : partOf numpy runtime disk path = none := by rw [partOf, hraised]
      rw [List.filterMap_cons_none hnone]
      simp only [readParts, hraised, hcaught, if_true, he]

def NumericStarts (paths : List (List Char)) : Prop :=
  ∀ path ∈ paths, ∃ x, runtime.float (parentName path) = some x ∧ isFinite x = true

def clippedParts (paths : List (List Char)) : List (List SeriesRow) :=
  (KeyOrder.sortBy Part.sortKey (paths.filterMap (partOf numpy runtime disk))).filterMap
    (clipPart (numericBoundaries runtime paths))

theorem coefficientSeries_eq (h : NumericStarts runtime paths) :
    (clippedParts numpy runtime disk paths = [] ∧
        ∃ e, coefficientSeries numpy runtime disk paths = .error e) ∨
      clippedParts numpy runtime disk paths ≠ [] ∧ coefficientSeries numpy runtime disk paths =
        .ok (normaliseRows numpy (clippedParts numpy runtime disk paths).flatten) := by
  obtain ⟨e, he⟩ := readParts_eq numpy runtime disk none paths
  have hkeys : ∀ part ∈ paths.filterMap (partOf numpy runtime disk), part.sortKey?.isNone = false := by
    intro part hpart
    obtain ⟨path, hpath, hsome⟩ := List.mem_filterMap.mp hpart
    obtain ⟨x, hx, -⟩ := h path hpath
    rw [(partOf_eq_some numpy runtime disk hsome).2, Part.sortKey?, usablePart, hx]
    rfl
  unfold coefficientSeries clippedParts
  rw [he]
  cases hparts : paths.filterMap (partOf numpy runtime disk) with
  | nil => exact .inl ⟨rfl, _, rfl⟩
  | cons first rest =>
    have hany : (first :: rest).any (fun part => part.sortKey?.isNone) = false := by
      rw [List.any_eq_false]
      intro part hpart
      rw [hkeys part (hparts ▸ hpart)]
      exact Bool.false_ne_true
    simp only [mergeParts, hany, Bool.false_eq_true, if_false]
    split
    · rename_i hclipped
      exact .inl ⟨hclipped, _, rfl⟩
    · rename_i hclipped
      exact .inr ⟨hclipped, normaliseSeries_map numpy _⟩

theorem numericBoundaries_perm (h : paths.Perm paths') :
    numericBoundaries runtime paths = numericBoundaries runtime paths' := by
  refine KeyOrder.sortBy_eq_of_perm _ (((h.filterMap _).filter _).dedup) ?_
  intro x hx y hy hrank
  have hfinite : ∀ z ∈ ((paths.filterMap fun path => runtime.float (parentName path)).filter
      fun x => isFinite x).dedup, z.val ≠ .nan := by
    intro z hz
    have hz' := (List.mem_filter.mp (List.mem_dedup.mp hz)).2
    exact Double.ne_nan_of_fin (Double.val_of_finite hz')
  exact Double.rank_inj (hfinite x hx) (hfinite y hy) hrank

theorem clippedParts_perm (h : paths.Perm paths') :
    clippedParts numpy runtime disk paths = clippedParts numpy runtime disk paths' := by
  unfold clippedParts
  rw [numericBoundaries_perm runtime h]
  refine congrArg (List.filterMap _) (KeyOrder.sortBy_eq_of_perm _ (h.filterMap _) ?_)
  intro a ha b hb hkey
  obtain ⟨p, hp, ha⟩ := List.mem_filterMap.mp ha
  obtain ⟨q, hq, hb⟩ := List.mem_filterMap.mp hb
  have hpath : a.path = b.path := congrArg (fun key => (ofLex key).2) hkey
  rw [(partOf_eq_some numpy runtime disk ha).2, (partOf_eq_some numpy runtime disk hb).2] at hpath
  have hsame : p = q := hpath
  rw [hsame, hb] at ha
  exact (Option.some.inj ha).symm

end Merge

/-! ## Ownership of the rows -/

section Ownership
variable (numpy : Argsort) (runtime : PyRuntime) (disk : Disk) (paths : List (List Char))

def nextBoundary (path : List Char) : Option Double :=
  (runtime.float (parentName path)).bind (nextStart (numericBoundaries runtime paths))

def OwnedRow (r : SeriesRow) : Prop :=
  ∃ path ∈ paths, r ∈ completeRows runtime disk path ∧ r.finite = true ∧
    ∀ next, nextBoundary runtime paths path = some next → lt r.t next = true

/-- The row is before the next restart by more than the tolerance of the comparison. -/
def Clear (path : List Char) (r : SeriesRow) : Prop :=
  ∀ next, nextBoundary runtime paths path = some next → lt r.t (sub next (tolerance next)) = true

/-- The series is in time order, does not depend on the order of the paths and has the owned rows. -/
def SeriesContract : Prop :=
  ∃ series, coefficientSeries numpy runtime disk paths = .ok series ∧
    (series.Pairwise fun a b => lt a.t b.t = true) ∧
    (∀ paths', paths'.Perm paths → coefficientSeries numpy runtime disk paths' = .ok series) ∧
    ∀ r, r ∈ series ↔ OwnedRow runtime disk paths r

variable {paths} {path : List Char} {part : Part} {boundaries : List Double} {r : SeriesRow}

theorem mem_clipPart :
    (∃ values, clipPart boundaries part = some values ∧ r ∈ values) ↔
      r ∈ part.values ∧ ∀ next, part.start.bind (nextStart boundaries) = some next →
        lt r.t (sub next (tolerance next)) = true := by
  unfold clipPart
  cases part.start.bind (nextStart boundaries) with
  | none => simp
  | some next =>
    simp only [Option.some.injEq, forall_eq', ← List.mem_filter (p := fun r : SeriesRow =>
      lt r.t (sub next (tolerance next)))]
    constructor
    · rintro ⟨values, hvalues, hr⟩
      split at hvalues
      · cases hvalues
      · cases hvalues
        exact hr
    · intro hr
      rw [if_neg (by simpa using List.ne_nil_of_mem hr)]
      exact ⟨_, rfl, hr⟩

theorem clipPart_isSome :
    (∃ values, clipPart boundaries part = some values) ↔
      part.start.bind (nextStart boundaries) = none ∨
        ∃ r, ∃ values, clipPart boundaries part = some values ∧ r ∈ values := by
  constructor
  · rintro ⟨values, hvalues⟩
    cases hnext : part.start.bind (nextStart boundaries) with
    | none => exact .inl rfl
    | some next =>
      have hkept := hvalues
      simp only [clipPart, hnext] at hkept
      split at hkept
      · cases hkept
      · rename_i hne
        rw [List.isEmpty_iff] at hne
        obtain ⟨r, hr⟩ := List.exists_mem_of_ne_nil _ hne
        exact .inr ⟨r, values, hvalues, Option.some.inj hkept ▸ hr⟩
  · rintro (hnext | ⟨-, values, hvalues, -⟩)
    · exact ⟨part.values, by simp only [clipPart, hnext]⟩
    · exact ⟨values, hvalues⟩

theorem mem_clippedParts :
    r ∈ (clippedParts numpy runtime disk paths).flatten ↔ ∃ path ∈ paths, Usable runtime disk path ∧
      r ∈ normaliseRows numpy (completeRows runtime disk path) ∧ Clear runtime paths path r := by
  unfold clippedParts
  simp only [List.mem_flatten, List.mem_filterMap, KeyOrder.mem_sortBy]
  constructor
  · rintro ⟨values, ⟨part, ⟨path, hpath, hpart⟩, hclip⟩, hr⟩
    obtain ⟨husable, rfl⟩ := partOf_eq_some numpy runtime disk hpart
    obtain ⟨hr, hclear⟩ := mem_clipPart.mp ⟨values, hclip, hr⟩
    exact ⟨path, hpath, husable, hr, hclear⟩
  · rintro ⟨path, hpath, husable, hr, hclear⟩
    obtain ⟨values, hclip, hr⟩ : ∃ values, clipPart (numericBoundaries runtime paths)
        (usablePart numpy runtime disk path) = some values ∧ r ∈ values := mem_clipPart.mpr ⟨hr, hclear⟩
    exact ⟨values, ⟨_, ⟨path, hpath, partOf_of_usable numpy runtime disk husable⟩, hclip⟩, hr⟩

theorem clippedParts_ne_nil :
    clippedParts numpy runtime disk paths ≠ [] ↔ ∃ path ∈ paths, Usable runtime disk path ∧
      (nextBoundary runtime paths path = none ∨
        ∃ r ∈ normaliseRows numpy (completeRows runtime disk path), Clear runtime paths path r) := by
  unfold clippedParts
  constructor
  · intro hne
    obtain ⟨values, hvalues⟩ := List.exists_mem_of_ne_nil _ hne
    simp only [List.mem_filterMap, KeyOrder.mem_sortBy] at hvalues
    obtain ⟨part, ⟨path, hpath, hpart⟩, hclip⟩ := hvalues
    obtain ⟨husable, rfl⟩ := partOf_eq_some numpy runtime disk hpart
    refine ⟨path, hpath, husable, ?_⟩
    obtain hnext | ⟨r, hr⟩ := clipPart_isSome.mp ⟨values, hclip⟩
    · exact .inl hnext
    · exact .inr ⟨r, mem_clipPart.mp hr⟩
  · rintro ⟨path, hpath, husable, hkept⟩
    obtain ⟨values, hclip⟩ : ∃ values, clipPart (numericBoundaries runtime paths)
        (usablePart numpy runtime disk path) = some values :=
      clipPart_isSome.mpr (hkept.imp id fun ⟨r, hr⟩ => ⟨r, mem_clipPart.mpr hr⟩)
    refine List.ne_nil_of_mem (a := values) ?_
    simp only [List.mem_filterMap, KeyOrder.mem_sortBy]
    exact ⟨_, ⟨path, hpath, partOf_of_usable numpy runtime disk husable⟩, hclip⟩

theorem tolerance_nonneg {x : Double} {q : ℚ} (hx : x.val = .fin q) : Double.Nonneg (tolerance x) := by
  have hlit : Double.Nonneg (lit (1 / 10 ^ 12)) := Double.round64_nonneg (by norm_num)
  unfold tolerance Double.pyMax
  split
  · obtain hinf | ⟨q', hq', hnonneg⟩ := hlit
    · obtain ⟨-, -, -, -, -, -, -, -, hfinite, -⟩ := Engine.hold_constants
      exact absurd ((Double.val_of_finite hfinite).symm.trans hinf) (by simp)
    · exact Double.mul_nonneg_val (Double.abs_val hx) hq' (abs_nonneg q) hnonneg
  · exact hlit

theorem nextBoundary_finite {next : Double} (h : nextBoundary runtime paths path = some next) :
    isFinite next = true := by
  obtain ⟨start, -, hnext⟩ := Option.bind_eq_some_iff.mp h
  have hmem := List.mem_of_find?_eq_some hnext
  rw [numericBoundaries, KeyOrder.mem_sortBy, List.mem_dedup, List.mem_filter] at hmem
  exact hmem.2

theorem Clear.before (h : Clear runtime paths path r) (hfinite : r.finite = true) :
    ∀ next, nextBoundary runtime paths path = some next → lt r.t next = true := by
  intro next hnext
  have hval := Double.val_of_finite (nextBoundary_finite runtime hnext)
  obtain ⟨hnan, hle⟩ := Double.sub_rank_le hval (tolerance_nonneg hval)
  have htime := Double.ne_nan_of_fin (time_val hfinite)
  have hlt := (Double.lt_iff_rank htime hnan).mp (h next hnext)
  exact (Double.lt_iff_rank htime (Double.ne_nan_of_fin hval)).mpr (hlt.trans_le hle)

theorem Clear.of_le {a : SeriesRow} (h : Clear runtime paths path r) (ha : a.finite = true)
    (hr : r.finite = true) (hle : a.t.value ≤ r.t.value) : Clear runtime paths path a := by
  intro next hnext
  have hval := Double.val_of_finite (nextBoundary_finite runtime hnext)
  have hnan := (Double.sub_rank_le hval (tolerance_nonneg hval)).1
  have hlt := (Double.lt_iff_rank (Double.ne_nan_of_fin (time_val hr)) hnan).mp (h next hnext)
  refine (Double.lt_iff_rank (Double.ne_nan_of_fin (time_val ha)) hnan).mpr (lt_of_le_of_lt ?_ hlt)
  rw [Double.rank_of_fin (time_val ha), Double.rank_of_fin (time_val hr)]
  exact_mod_cast hle

theorem ownedRow_of_mem_clippedParts (h : r ∈ (clippedParts numpy runtime disk paths).flatten) :
    OwnedRow runtime disk paths r := by
  obtain ⟨path, hpath, -, hr, hclear⟩ := (mem_clippedParts numpy runtime disk).mp h
  obtain ⟨hmem, hfinite⟩ := mem_rows_of_mem_normalise hr
  exact ⟨path, hpath, hmem, hfinite, hclear.before runtime hfinite⟩

theorem mem_series_of_apart
    (hapart : ∀ a b, OwnedRow runtime disk paths a → OwnedRow runtime disk paths b → a ≠ b →
      apart a b = true ∨ apart b a = true)
    (hpath : path ∈ paths) (husable : Usable runtime disk path) (hr : r ∈ completeRows runtime disk path)
    (hfinite : r.finite = true) (hclear : Clear runtime paths path r) :
    r ∈ normaliseRows numpy (clippedParts numpy runtime disk paths).flatten := by
  have howned : OwnedRow runtime disk paths r := ⟨path, hpath, hr, hfinite, hclear.before runtime hfinite⟩
  have hread : r ∈ normaliseRows numpy (completeRows runtime disk path) := by
    refine mem_normaliseRows hr hfinite fun a ha hne hearlier => hearlier.apart (hapart a r ?_ howned hne)
    have hclear' := hclear.of_le runtime hearlier.1 hfinite hearlier.2.2
    exact ⟨path, hpath, ha, hearlier.1, hclear'.before runtime hearlier.1⟩
  have hmerged := (mem_clippedParts numpy runtime disk).mpr ⟨path, hpath, husable, hread, hclear⟩
  refine mem_normaliseRows hmerged hfinite fun a ha hne hearlier => hearlier.apart (hapart a r ?_ howned hne)
  exact ownedRow_of_mem_clippedParts numpy runtime disk ha

/-- The contract holds exactly when a usable segment has something to give, every owned row stands in a
usable segment clear of its next restart, and different owned rows are apart in time. -/
theorem series_contract_iff (numpy : Argsort) (runtime : PyRuntime) (disk : Disk) (paths : List (List Char))
    (h : NumericStarts runtime paths) :
    SeriesContract numpy runtime disk paths ↔
      (∃ path ∈ paths, Usable runtime disk path ∧ (nextBoundary runtime paths path = none ∨
        ∃ r ∈ completeRows runtime disk path, r.finite = true ∧ Clear runtime paths path r)) ∧
      (∀ r, OwnedRow runtime disk paths r → ∃ path ∈ paths, Usable runtime disk path ∧
        r ∈ completeRows runtime disk path ∧ Clear runtime paths path r) ∧
      ∀ a b, OwnedRow runtime disk paths a → OwnedRow runtime disk paths b → a ≠ b →
        apart a b = true ∨ apart b a = true := by
  constructor
  · rintro ⟨series, hseries, -, -, hrows⟩
    obtain ⟨-, e, herror⟩ | ⟨hne, hok⟩ := coefficientSeries_eq numpy runtime disk h
    · rw [herror] at hseries
      cases hseries
    · rw [hok] at hseries
      cases hseries
      refine ⟨?_, fun r howned => ?_, fun a b ha hb hab => ?_⟩
      · obtain ⟨path, hpath, husable, hkept⟩ := (clippedParts_ne_nil numpy runtime disk).mp hne
        refine ⟨path, hpath, husable, hkept.imp id fun ⟨r, hr, hclear⟩ => ?_⟩
        obtain ⟨hmem, hfinite⟩ := mem_rows_of_mem_normalise hr
        exact ⟨r, hmem, hfinite, hclear⟩
      · have hmem := (mem_rows_of_mem_normalise ((hrows r).mpr howned)).1
        obtain ⟨path, hpath, husable, hr, hclear⟩ := (mem_clippedParts numpy runtime disk).mp hmem
        exact ⟨path, hpath, husable, (mem_rows_of_mem_normalise hr).1, hclear⟩
      · exact apart_of_mem_normalise ((hrows a).mpr ha) ((hrows b).mpr hb) hab
  · rintro ⟨hsome, hkept, hapart⟩
    have hne : clippedParts numpy runtime disk paths ≠ [] := by
      obtain ⟨path, hpath, husable, hgives⟩ := hsome
      refine (clippedParts_ne_nil numpy runtime disk).mpr ⟨path, hpath, husable, hgives.imp id ?_⟩
      rintro ⟨r, hr, hfinite, hclear⟩
      obtain ⟨a, ha, hle⟩ : ∃ a ∈ normaliseRows numpy (completeRows runtime disk path), a.t.value ≤ r.t.value :=
        exists_earlier_normalise hr hfinite
      exact ⟨a, ha, hclear.of_le runtime (mem_rows_of_mem_normalise ha).2 hfinite hle⟩
    have hok : ∀ paths', paths'.Perm paths → coefficientSeries numpy runtime disk paths' =
        .ok (normaliseRows numpy (clippedParts numpy runtime disk paths).flatten) := by
      intro paths' hperm
      have h' : NumericStarts runtime paths' := fun path hpath => h path (hperm.mem_iff.mp hpath)
      rw [← clippedParts_perm numpy runtime disk hperm] at hne ⊢
      obtain ⟨hnil, -⟩ | ⟨-, hok⟩ := coefficientSeries_eq numpy runtime disk h'
      · exact absurd hnil hne
      · exact hok
    refine ⟨_, hok paths (List.Perm.refl _), normaliseRows_increasing numpy _, hok, fun r => ⟨fun hr => ?_, ?_⟩⟩
    · exact ownedRow_of_mem_clippedParts numpy runtime disk (mem_rows_of_mem_normalise hr).1
    · intro howned
      obtain ⟨path, hpath, husable, hr, hclear⟩ := hkept r howned
      have hfinite : r.finite = true := howned.elim fun _ hpath' => hpath'.2.2.1
      exact mem_series_of_apart numpy runtime disk hapart hpath husable hr hfinite hclear

end Ownership

/-! ## A restart -/

section Restart

def restartPaths : List (List Char) := ["run/0/coefficient.dat".toList, "run/5/coefficient.dat".toList]

def restartDisk (older newer : List Char) : Disk := fun path =>
  if path = "run/0/coefficient.dat".toList then some (String.ofList older).toUTF8
  else some (String.ofList newer).toUTF8

def cutText : List Char := "# Time Cd Cl Cm\n0 1 2 3\n1 1 2 3\n2 1".toList

def wholeText : List Char := "# Time Cd Cl Cm\n0 1 2 3\n1 1 2 3\n".toList

def newerText : List Char := "# Time Cd Cl Cm\n5 1 2 3\n".toList

def rowAt (n : ℕ) : SeriesRow :=
  ⟨Engine.wholeDouble n, Engine.wholeDouble 2, Engine.wholeDouble 1, Engine.wholeDouble 3⟩

variable {disk : Disk} {path text : List Char}

theorem segment_of_text (h : disk path = some (String.ofList text).toUTF8) :
    segment Engine.digitsRuntime disk path =
      (columnsOf (dataRowsFrom Engine.digitsRuntime [] [] (splitLines [] text)).1).map fun columns =>
        (columns, (dataRowsFrom Engine.digitsRuntime [] [] (splitLines [] text)).2) := by
  have hbytes : (String.ofList text).toUTF8 = text.utf8Encode := rfl
  rw [segment, dataRows, h, hbytes]
  simp only [List.utf8Decode?_utf8Encode]

theorem restart_read :
    (∀ older, segment Engine.digitsRuntime (restartDisk older newerText) "run/5/coefficient.dat".toList =
        some (⟨some 0, 2, 1, some 3⟩, [[5, 1, 2, 3].map Engine.wholeDouble])) ∧
      segment Engine.digitsRuntime (restartDisk wholeText newerText) "run/0/coefficient.dat".toList =
        some (⟨some 0, 2, 1, some 3⟩, [[0, 1, 2, 3], [1, 1, 2, 3]].map (List.map Engine.wholeDouble)) ∧
      segment Engine.digitsRuntime (restartDisk cutText newerText) "run/0/coefficient.dat".toList =
        some (⟨some 0, 2, 1, some 3⟩, [[0, 1, 2, 3], [1, 1, 2, 3], [2, 1]].map (List.map Engine.wholeDouble)) ∧
      (⟨some 0, 2, 1, some 3⟩ : Columns).complete 0 [[5, 1, 2, 3].map Engine.wholeDouble] = [rowAt 5] ∧
      (⟨some 0, 2, 1, some 3⟩ : Columns).complete 0
        ([[0, 1, 2, 3], [1, 1, 2, 3]].map (List.map Engine.wholeDouble)) = [rowAt 0, rowAt 1] ∧
      Engine.digitsRuntime.float (parentName "run/0/coefficient.dat".toList) = some (Engine.wholeDouble 0) ∧
      Engine.digitsRuntime.float (parentName "run/5/coefficient.dat".toList) = some (Engine.wholeDouble 5) := by
  refine ⟨fun older => ?_, ?_, ?_, by decide +kernel, by decide +kernel, by decide +kernel, by decide +kernel⟩
  · rw [segment_of_text (if_neg (by decide))]
    decide +kernel
  · rw [segment_of_text (if_pos rfl)]
    decide +kernel
  · rw [segment_of_text (if_pos rfl)]
    decide +kernel

theorem segment_newer (older : List Char) :
    segment Engine.digitsRuntime (restartDisk older newerText) "run/5/coefficient.dat".toList =
      some (⟨some 0, 2, 1, some 3⟩, [[5, 1, 2, 3].map Engine.wholeDouble]) := restart_read.1 older

theorem mem_restartPaths :
    path ∈ restartPaths ↔ path = "run/0/coefficient.dat".toList ∨ path = "run/5/coefficient.dat".toList := by
  rw [restartPaths, List.mem_cons, List.mem_singleton]

theorem restart_numeric : NumericStarts Engine.digitsRuntime restartPaths := by
  obtain ⟨-, -, -, -, -, hfirst, hsecond⟩ := restart_read
  intro path hpath
  obtain rfl | rfl := mem_restartPaths.mp hpath
  · exact ⟨_, hfirst, Engine.isFinite_wholeDouble (by norm_num)⟩
  · exact ⟨_, hsecond, Engine.isFinite_wholeDouble (by norm_num)⟩

theorem completeRows_newer (older : List Char) :
    completeRows Engine.digitsRuntime (restartDisk older newerText) "run/5/coefficient.dat".toList = [rowAt 5] := by
  rw [completeRows, segment_newer]
  exact restart_read.2.2.2.1

theorem completeRows_whole :
    completeRows Engine.digitsRuntime (restartDisk wholeText newerText) "run/0/coefficient.dat".toList =
      [rowAt 0, rowAt 1] := by
  rw [completeRows, restart_read.2.1]
  exact restart_read.2.2.2.2.1

theorem restart_usable (hpath : path ∈ restartPaths) :
    Usable Engine.digitsRuntime (restartDisk wholeText newerText) path := by
  obtain rfl | rfl := mem_restartPaths.mp hpath
  · refine ⟨_, _, restart_read.2.1, List.cons_ne_nil _ _, ?_⟩
    simp [Columns.Uncut, Columns.timeEnd, Columns.momentEnd]
  · refine ⟨_, _, segment_newer wholeText, List.cons_ne_nil _ _, ?_⟩
    simp [Columns.Uncut, Columns.timeEnd, Columns.momentEnd]

/-- Where all rows are whole the rows of both segments are returned. -/
theorem series_contract_whole :
    SeriesContract Argsort.stable Engine.digitsRuntime (restartDisk wholeText newerText) restartPaths := by
  have hrow : ∀ path ∈ restartPaths, ∀ r ∈ completeRows Engine.digitsRuntime (restartDisk wholeText newerText) path,
      Clear Engine.digitsRuntime restartPaths path r ∧ (r = rowAt 0 ∨ r = rowAt 1 ∨ r = rowAt 5) := by
    intro path hpath r hr
    obtain rfl | rfl := mem_restartPaths.mp hpath
    · rw [completeRows_whole, List.mem_cons, List.mem_singleton] at hr
      obtain rfl | rfl := hr
      · exact ⟨by unfold Clear; decide +kernel, .inl rfl⟩
      · exact ⟨by unfold Clear; decide +kernel, .inr (.inl rfl)⟩
    · rw [completeRows_newer, List.mem_singleton] at hr
      obtain rfl := hr
      exact ⟨by unfold Clear; decide +kernel, .inr (.inr rfl)⟩
  refine (series_contract_iff _ _ _ _ restart_numeric).mpr ⟨?_, ?_, ?_⟩
  · exact ⟨"run/5/coefficient.dat".toList, mem_restartPaths.mpr (.inr rfl),
      restart_usable (mem_restartPaths.mpr (.inr rfl)), .inl (by decide +kernel)⟩
  · rintro r ⟨path, hpath, hr, -, -⟩
    exact ⟨path, hpath, restart_usable hpath, hr, (hrow path hpath r hr).1⟩
  · rintro a b ⟨p, hp, ha, -, -⟩ ⟨q, hq, hb, -, -⟩ hab
    obtain rfl | rfl | rfl := (hrow p hp a ha).2 <;> obtain rfl | rfl | rfl := (hrow q hq b hb).2 <;>
      first | exact absurd rfl hab | decide +kernel

/-- A row that breaks off behind its second number costs the older segment all its rows. -/
theorem cut_row_discards_segment :
    NumericStarts Engine.digitsRuntime restartPaths ∧
      ¬SeriesContract Argsort.stable Engine.digitsRuntime (restartDisk cutText newerText) restartPaths := by
  have holder : segment Engine.digitsRuntime (restartDisk cutText newerText) "run/0/coefficient.dat".toList =
      some (⟨some 0, 2, 1, some 3⟩, [[0, 1, 2, 3], [1, 1, 2, 3], [2, 1]].map (List.map Engine.wholeDouble)) :=
    restart_read.2.2.1
  refine ⟨restart_numeric, ?_⟩
  rintro ⟨series, hseries, -, -, hrows⟩
  have howned : rowAt 0 ∈ series := by
    refine (hrows _).mpr ⟨"run/0/coefficient.dat".toList, List.mem_cons_self, ?_, by decide +kernel, ?_⟩
    · rw [completeRows, holder]
      decide +kernel
    · decide +kernel
  obtain ⟨-, e, herror⟩ | ⟨-, hok⟩ := coefficientSeries_eq Argsort.stable Engine.digitsRuntime _ restart_numeric
  · rw [herror] at hseries
    cases hseries
  · rw [hok] at hseries
    cases hseries
    obtain ⟨path, hpath, ⟨columns, rows, hsegment, -, huncut⟩, hr, -⟩ :=
      (mem_clippedParts _ _ _).mp (mem_rows_of_mem_normalise howned).1
    obtain rfl | rfl := mem_restartPaths.mp hpath
    · rw [holder] at hsegment
      obtain ⟨rfl, rfl⟩ := Prod.mk.inj (Option.some.inj hsegment)
      have hcut := huncut ([2, 1].map Engine.wholeDouble) (by simp)
      simp [Columns.timeEnd] at hcut
    · have hmem := (mem_rows_of_mem_normalise hr).1
      rw [completeRows_newer] at hmem
      exact absurd hmem (by decide +kernel)

end Restart

end XFoilFoam.Unsteady
