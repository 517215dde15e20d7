import XFoilFoam.Foundations.Spaced

/-! Time series of `postprocess/unsteady.py`: rows of time and coefficients, and `_normalise_series`. -/
namespace XFoilFoam.Unsteady
open Binary64
set_option autoImplicit false

structure SeriesRow where
  t : Double
  cl : Double
  cd : Double
  cm : Double
  deriving DecidableEq

/-- `np.isfinite` in all four arrays. -/
def SeriesRow.finite (r : SeriesRow) : Bool := isFinite r.t && isFinite r.cl && isFinite r.cd && isFinite r.cm

inductive SeriesError where
  | osError
  | unicodeDecodeError
  | valueError (text : String)
  | keyError
  | indexError
  | overflowError
  deriving DecidableEq

/-- `np.diff(t) > 1e-12` between two rows. -/
def apart (a b : SeriesRow) : Bool := lt (lit (1 / 10 ^ 12)) (sub b.t a.t)

def zipRows : List Double → List Double → List Double → List Double → List SeriesRow
  | t :: ts, cl :: cls, cd :: cds, cm :: cms => ⟨t, cl, cd, cm⟩ :: zipRows ts cls cds cms
  | _, _, _, _ => []

def normaliseRows (numpy : Argsort) (rows : List SeriesRow) : List SeriesRow :=
  Spaced.thin apart ((Argsort.take rows (numpy.order (rows.map SeriesRow.t))).filter SeriesRow.finite)

/-- `_normalise_series` for a time and three coefficients. -/
def normaliseSeries (numpy : Argsort) (times cl cd cm : List Double) : Except SeriesError (List SeriesRow) :=
  if cl.length ≠ times.length ∨ cd.length ≠ times.length ∨ cm.length ≠ times.length then
    .error (.valueError "time/value arrays must have the same length")
  else .ok (normaliseRows numpy (zipRows times cl cd cm))

/-! ## Rows -/

theorem zipRows_map (rows : List SeriesRow) :
    zipRows (rows.map SeriesRow.t) (rows.map SeriesRow.cl) (rows.map SeriesRow.cd) (rows.map SeriesRow.cm) =
      rows := by
  induction rows with
  | nil => rfl
  | cons r rows ih => exact congrArg (r :: ·) ih

theorem normaliseSeries_map (numpy : Argsort) (rows : List SeriesRow) :
    normaliseSeries numpy (rows.map SeriesRow.t) (rows.map SeriesRow.cl) (rows.map SeriesRow.cd)
      (rows.map SeriesRow.cm) = .ok (normaliseRows numpy rows) := by
  rw [normaliseSeries, if_neg (by simp), zipRows_map]

theorem time_val {r : SeriesRow} (h : r.finite = true) : r.t.val = .fin r.t.value := by
  simp only [SeriesRow.finite, Bool.and_eq_true] at h
  exact Double.val_of_finite h.1.1.1

/-! ## The normal form -/

section Normal
variable {numpy : Argsort} {rows : List SeriesRow} {a b c r : SeriesRow}

def Earlier (a b : SeriesRow) : Prop := a.finite = true ∧ b.finite = true ∧ a.t.value ≤ b.t.value

theorem lit_ne_nan (q : ℚ) : (lit q : Double).val ≠ .nan := Double.ofExact_ne_nan q

theorem sub_ne_nan (ha : a.finite = true) (hb : b.finite = true) : (sub b.t a.t).val ≠ .nan := by
  have hsub : sub b.t a.t = Double.ofExact (.fin (b.t.value + -a.t.value)) := by
    show Double.ofExact (b.t.val.add a.t.val.neg) = _
    rw [time_val ha, time_val hb]
    rfl
  rw [hsub]
  exact Double.ofExact_ne_nan _

theorem apart_of_earlier (hab : Earlier a b) (hbc : Earlier b c) (h : apart b c = true) : apart a c = true := by
  obtain ⟨ha, hb, hle⟩ := hab
  have hc := hbc.2.1
  have hstep := (Double.lt_iff_rank (lit_ne_nan _) (sub_ne_nan hb hc)).mp h
  exact (Double.lt_iff_rank (lit_ne_nan _) (sub_ne_nan ha hc)).mpr
    (hstep.trans_le (Double.sub_rank_mono (time_val ha) (time_val hb) (time_val hc) hle))

theorem lt_of_apart (ha : a.finite = true) (hb : b.finite = true) (h : apart a b = true) :
    lt a.t b.t = true := by
  have hgap := (Double.lt_iff_rank (lit_ne_nan _) (sub_ne_nan ha hb)).mp h
  have hpositive : (sub b.t a.t).positive = true := by
    refine (Double.lt_iff_rank (lit_ne_nan 0) (sub_ne_nan ha hb)).mpr (lt_of_le_of_lt ?_ hgap)
    exact Double.rank_ofExact_mono (by norm_num)
  exact (Double.lt_iff (time_val ha) (time_val hb)).mpr
    ((Double.sub_fin_spec (time_val hb) (time_val ha)).1.mp hpositive)

theorem ordered_earlier (numpy : Argsort) (rows : List SeriesRow) :
    ((Argsort.take rows (numpy.order (rows.map SeriesRow.t))).filter SeriesRow.finite).Pairwise Earlier := by
  refine List.pairwise_filter.mpr ((numpy.take_sorted SeriesRow.t rows).imp ?_)
  intro a b hle ha hb
  refine ⟨ha, hb, not_lt.mp fun hlt => ?_⟩
  rw [(Double.lt_iff (time_val hb) (time_val ha)).mpr hlt] at hle
  cases hle

theorem mem_ordered :
    r ∈ (Argsort.take rows (numpy.order (rows.map SeriesRow.t))).filter SeriesRow.finite ↔
      r ∈ rows ∧ r.finite = true := by
  rw [List.mem_filter, (numpy.take_perm SeriesRow.t rows).mem_iff]

theorem mem_rows_of_mem_normalise (h : r ∈ normaliseRows numpy rows) : r ∈ rows ∧ r.finite = true :=
  mem_ordered.mp (Spaced.mem_of_mem_thin h)

theorem normaliseRows_apart (numpy : Argsort) (rows : List SeriesRow) :
    (normaliseRows numpy rows).Pairwise fun a b => apart a b = true :=
  Spaced.pairwise_thin (fun _ _ _ => apart_of_earlier) (ordered_earlier numpy rows)

theorem apart_of_mem_normalise (ha : a ∈ normaliseRows numpy rows) (hb : b ∈ normaliseRows numpy rows)
    (hab : a ≠ b) : apart a b = true ∨ apart b a = true := by
  have : Std.Symm fun x y : SeriesRow => apart x y = true ∨ apart y x = true := ⟨fun _ _ h => h.symm⟩
  have hpairwise : (normaliseRows numpy rows).Pairwise fun x y => apart x y = true ∨ apart y x = true :=
    (normaliseRows_apart numpy rows).imp Or.inl
  exact hpairwise.forall ha hb hab

theorem normaliseRows_increasing (numpy : Argsort) (rows : List SeriesRow) :
    (normaliseRows numpy rows).Pairwise fun a b => lt a.t b.t = true := by
  refine (normaliseRows_apart numpy rows).imp_of_mem ?_
  intro a b ha hb h
  exact lt_of_apart (mem_rows_of_mem_normalise ha).2 (mem_rows_of_mem_normalise hb).2 h

theorem mem_normaliseRows (hr : r ∈ rows) (hfinite : r.finite = true)
    (h : ∀ a ∈ rows, a ≠ r → Earlier a r → apart a r = true) : r ∈ normaliseRows numpy rows :=
  Spaced.mem_thin (ordered_earlier numpy rows) (fun a ha => h a (mem_ordered.mp ha).1)
    (mem_ordered.mpr ⟨hr, hfinite⟩)

theorem exists_earlier_normalise (hr : r ∈ rows) (hfinite : r.finite = true) :
    ∃ a ∈ normaliseRows numpy rows, a.t.value ≤ r.t.value := by
  have hmem : r ∈ (Argsort.take rows (numpy.order (rows.map SeriesRow.t))).filter SeriesRow.finite :=
    mem_ordered.mpr ⟨hr, hfinite⟩
  have hsorted := (ordered_earlier numpy rows).imp fun h => h.2.2
  exact Spaced.exists_mem_thin hsorted (fun a => le_refl a.t.value) hmem

theorem Earlier.apart (h : Earlier a b) (hapart : apart a b = true ∨ Unsteady.apart b a = true) :
    Unsteady.apart a b = true := by
  refine hapart.resolve_right fun hback => ?_
  have hlt := (Double.lt_iff (time_val h.2.1) (time_val h.1)).mp (lt_of_apart h.2.1 h.1 hback)
  exact absurd h.2.2 (not_le.mpr hlt)

end Normal

end XFoilFoam.Unsteady
