import XFoilFoam.Unsteady.CoefficientSeries

/-! The averaged coefficients of a steady run: `parse_force_coefficients` of `postprocess/forces.py`.  The rows are
doubles, as they are read; the averages over them are exact. -/
namespace XFoilFoam.Engine
open Unsteady (Disk SeriesError dataRows column Columns columnsOf columnsOf_dataRows)
set_option autoImplicit false

/-! ## The averages -/

structure ForceCoefficients where
  cl : ExactNum
  cd : ExactNum
  cm : ExactNum
  deriving DecidableEq

/-- The built-in `sum`. -/
def total (values : List Double) : ExactNum := values.foldl (fun sum x => sum.add x.val) (.fin 0)

/-- `rows[-average_last:] if average_last > 0 else rows`. -/
def lastRows (averageLast : ℤ) (rows : List (List Double)) : List (List Double) :=
  if 0 < averageLast then rows.drop (rows.length - averageLast.toNat) else rows

/-- `col(name)`, the divisor being the number of rows. -/
def col (sample : List (List Double)) (i : ℕ) : ExactNum := (total (column sample i)).div (.fin sample.length)

def parseForceCoefficients (runtime : PyRuntime) (disk : Disk) (path : List Char) (averageLast : ℤ) :
    Except SeriesError ForceCoefficients :=
  match dataRows runtime disk path with
  | .error e => .error e
  | .ok (header, rows) =>
    if rows.isEmpty then .error (.valueError ("No coefficient data found in " ++ String.ofList path))
    else
      match columnsOf header with
      | none => .error .keyError
      | some columns =>
        let sample := lastRows averageLast rows
        .ok ⟨col sample columns.cl, col sample columns.cd, columns.cm.elim (.fin 0) (col sample)⟩

section Parse
variable {runtime : PyRuntime} {disk : Disk} {path : List Char} {averageLast : ℤ} {header : List (List Char)}
  {rows : List (List Double)} {columns : Columns}

theorem lastRows_ne_nil (h : rows ≠ []) (averageLast : ℤ) : lastRows averageLast rows ≠ [] := by
  unfold lastRows
  split
  · have hpos := List.length_pos_of_ne_nil h
    rw [← List.length_pos_iff_ne_nil, List.length_drop]
    omega
  · exact h

theorem parseForceCoefficients_eq (hdata : dataRows runtime disk path = .ok (header, rows)) (hrows : rows ≠ [])
    (hcolumns : columnsOf header = some columns) :
    parseForceCoefficients runtime disk path averageLast =
      .ok ⟨col (lastRows averageLast rows) columns.cl, col (lastRows averageLast rows) columns.cd,
        columns.cm.elim (.fin 0) (col (lastRows averageLast rows))⟩ := by
  simp only [parseForceCoefficients, hdata, List.isEmpty_iff, hrows, if_false, hcolumns]

end Parse

/-! ## Sums -/

section Sums
variable {values : List Double}

theorem foldl_finite {rest : List Double} (h : ∀ x ∈ rest, Binary64.isFinite x = true) (s : ℚ) :
    rest.foldl (fun sum x => sum.add x.val) (.fin s) = ExactNum.fin (s + (rest.map Double.value).sum) := by
  induction rest generalizing s with
  | nil => simp
  | cons x rest ih =>
    obtain ⟨hx, htail⟩ := List.forall_mem_cons.mp h
    rw [List.foldl_cons, Double.val_of_finite hx, ExactNum.add, ih htail, List.map_cons, List.sum_cons, add_assoc]

theorem total_of_finite (h : ∀ x ∈ values, Binary64.isFinite x = true) :
    total values = .fin (values.map Double.value).sum := by
  rw [total, foldl_finite h, zero_add]

theorem add_finite_left {x y : ExactNum} (h : (x.add y).isFinite = true) : x.isFinite = true ∧ y.isFinite = true := by
  cases x <;> cases y <;> simp_all [ExactNum.add, ExactNum.isFinite]

theorem foldl_isFinite {rest : List Double} {s : ExactNum}
    (h : (rest.foldl (fun sum x => sum.add x.val) s).isFinite = true) :
    s.isFinite = true ∧ ∀ x ∈ rest, Binary64.isFinite x = true := by
  induction rest generalizing s with
  | nil => exact ⟨h, fun x hx => absurd hx List.not_mem_nil⟩
  | cons x rest ih =>
    obtain ⟨hs, hrest⟩ := ih h
    obtain ⟨hs, hx⟩ := add_finite_left hs
    exact ⟨hs, List.forall_mem_cons.mpr ⟨hx, hrest⟩⟩

theorem total_not_finite (h : ∃ x ∈ values, Binary64.isFinite x = false) : (total values).isFinite = false := by
  obtain ⟨x, hx, hnot⟩ := h
  rw [← Bool.not_eq_true]
  intro hfinite
  have := (foldl_isFinite hfinite).2 x hx
  rw [hnot] at this
  exact absurd this Bool.false_ne_true

theorem total_div_eq_iff {m n : ℕ} (hm : m ≠ 0) (hn : n ≠ 0) :
    (total values).div (.fin n) = (total values).div (.fin m) ↔
      m = n ∨ (∃ x ∈ values, Binary64.isFinite x = false) ∨ (values.map Double.value).sum = 0 := by
  have hm' : (m : ℚ) ≠ 0 := Nat.cast_ne_zero.mpr hm
  have hn' : (n : ℚ) ≠ 0 := Nat.cast_ne_zero.mpr hn
  have hpos : ∀ k : ℕ, ¬(k : ℚ) < 0 := fun k => not_lt.mpr (Nat.cast_nonneg k)
  by_cases hfinite : ∃ x ∈ values, Binary64.isFinite x = false
  · have hnot := total_not_finite hfinite
    have hsame : (total values).div (.fin n) = (total values).div (.fin m) := by
      cases htotal : total values with
      | fin q =>
        rw [htotal] at hnot
        exact absurd hnot Bool.true_eq_false_eq_False.elim
      | nan => rfl
      | posInf => rw [ExactNum.div, ExactNum.div, if_neg (hpos n), if_neg (hpos m)]
      | negInf => rw [ExactNum.div, ExactNum.div, if_neg (hpos n), if_neg (hpos m)]
    simp [hsame, hfinite]
  · have hall : ∀ x ∈ values, Binary64.isFinite x = true := by
      intro x hx
      by_contra hnot
      exact hfinite ⟨x, hx, Bool.not_eq_true _ ▸ hnot⟩
    rw [total_of_finite hall]
    generalize (values.map Double.value).sum = s
    simp only [ExactNum.div, if_neg hm', if_neg hn', ExactNum.fin.injEq, hfinite, false_or]
    rw [div_eq_div_iff hn' hm']
    constructor
    · intro h
      by_cases hs : s = 0
      · exact .inr hs
      · exact .inl (by exact_mod_cast mul_left_cancel₀ hs h)
    · rintro (rfl | rfl)
      · rfl
      · simp

end Sums

/-! ## Means -/

/-- The mean of the numbers; no numbers have none. -/
def mean? (values : List Double) : Option ExactNum :=
  if values.isEmpty then none else some ((total values).div (.fin values.length))

def coefficientColumns (columns : Columns) : List ℕ := columns.cl :: columns.cd :: columns.cm.toList

structure ColumnMeans (coefficients : ForceCoefficients) (columns : Columns) (sample : List (List Double)) : Prop where
  cl : mean? (column sample columns.cl) = some coefficients.cl
  cd : mean? (column sample columns.cd) = some coefficients.cd
  cm : ∀ i, columns.cm = some i → mean? (column sample i) = some coefficients.cm

def MeansReturned (runtime : PyRuntime) (disk : Disk) (path : List Char) (averageLast : ℤ) : Prop :=
  ∀ header rows, dataRows runtime disk path = .ok (header, rows) → rows ≠ [] →
    ∃ columns coefficients, columnsOf header = some columns ∧
      parseForceCoefficients runtime disk path averageLast = .ok coefficients ∧
      ColumnMeans coefficients columns (lastRows averageLast rows)

/-- All rows reach the column, or some do and their values sum to zero or are not all finite. -/
def Undivided (sample : List (List Double)) (i : ℕ) : Prop :=
  (∀ row ∈ sample, i < row.length) ∨
    (∃ row ∈ sample, i < row.length) ∧ ((∃ x ∈ column sample i, Binary64.isFinite x = false) ∨
      ((column sample i).map Double.value).sum = 0)

section Means
variable {sample : List (List Double)} {i : ℕ}

theorem column_eq_nil_iff : column sample i = [] ↔ ¬∃ row ∈ sample, i < row.length := by
  simp [column, List.filterMap_eq_nil_iff]

theorem length_column_eq_iff : (column sample i).length = sample.length ↔ ∀ row ∈ sample, i < row.length := by
  rw [Unsteady.length_column, List.countP_eq_length]
  exact forall₂_congr fun row _ => decide_eq_true_iff

theorem mean_col_iff (h : sample ≠ []) : mean? (column sample i) = some (col sample i) ↔ Undivided sample i := by
  have hlength : sample.length ≠ 0 := fun hzero => h (List.length_eq_zero_iff.mp hzero)
  unfold mean? Undivided
  by_cases hnil : column sample i = []
  · have hnone := column_eq_nil_iff.mp hnil
    have hsome : ¬∀ row ∈ sample, i < row.length := by
      obtain ⟨row, rest, rfl⟩ := List.exists_cons_of_ne_nil h
      exact fun hall => hnone ⟨row, List.mem_cons_self, hall row List.mem_cons_self⟩
    simp only [hnil, List.isEmpty_nil, if_true, reduceCtorEq, hnone, hsome, false_and, or_self]
  · have hsome : ∃ row ∈ sample, i < row.length := not_not.mp (mt column_eq_nil_iff.mpr hnil)
    have hcount : (column sample i).length ≠ 0 := fun hzero => hnil (List.length_eq_zero_iff.mp hzero)
    have hdiv : (total (column sample i)).div (.fin (column sample i).length) =
        (total (column sample i)).div (.fin sample.length) ↔ _ := total_div_eq_iff hlength hcount
    rw [if_neg (mt List.isEmpty_iff.mp hnil), Option.some.injEq, col, hdiv, ← length_column_eq_iff,
      eq_comm (a := sample.length)]
    simp only [hsome, true_and]

end Means

def cutFile : List Char := "# Time Cd Cl Cm\n0 1 2 3\n1 1".toList

end XFoilFoam.Engine
