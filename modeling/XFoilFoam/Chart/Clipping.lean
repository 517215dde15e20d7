import XFoilFoam.Foundations.Literals
import Mathlib.Algebra.Order.Field.Basic
import Mathlib.Data.List.Forall2
import Mathlib.Tactic.FieldSimp
import Mathlib.Tactic.Linarith

/-! `clipCurveToDomain` of `packages/core/src/chart.ts` in exact arithmetic: a polyline cut by the box of the chart. -/
namespace XFoilFoam.Chart
set_option autoImplicit false

/-! ## The code -/

inductive ChartType where
  | cla
  | clcd
  | lda
  | cma
  deriving DecidableEq

/-- The coordinates of a chart point; none stands for what `Number.isFinite` refuses. -/
structure CurvePoint (K : Type) where
  a : Option K
  cl : Option K
  cd : Option K
  cm : Option K
  ld : Option K

structure ChartDomain (K : Type) where
  xMin : K
  xMax : K
  yMin : K
  yMax : K

/-- `xyOf`, for a point whose two coordinates are finite. -/
def finiteXY {K : Type} (p : CurvePoint K) : ChartType → Option (K × K)
  | .cla => Option.map₂ Prod.mk p.a p.cl
  | .clcd => Option.map₂ Prod.mk p.cd p.cl
  | .lda => Option.map₂ Prod.mk p.a p.ld
  | .cma => Option.map₂ Prod.mk p.a p.cm

section Code
variable {K : Type} [Field K] [LinearOrder K]

/-- One edge `[p, q]` of the box cuts the parameters `[t0, t1]`. -/
def clipEdge (range : K × K) (edge : K × K) : Option (K × K) :=
  let (p, q) := edge
  if p = 0 then
    if q < 0 then none else some range
  else
    let r := q / p
    if p < 0 then
      if range.2 < r then none else some (if range.1 < r then r else range.1, range.2)
    else
      if r < range.1 then none else some (range.1, if r < range.2 then r else range.2)

def boxEdges (dom : ChartDomain K) (start stop : K × K) : List (K × K) :=
  let dx := stop.1 - start.1
  let dy := stop.2 - start.2
  [(-dx, start.1 - dom.xMin), (dx, dom.xMax - start.1), (-dy, start.2 - dom.yMin), (dy, dom.yMax - start.2)]

def pointAt (start stop : K × K) (t : K) : K × K :=
  (start.1 + t * (stop.1 - start.1), start.2 + t * (stop.2 - start.2))

def clipSegment (dom : ChartDomain K) (start stop : K × K) : Option ((K × K) × (K × K)) :=
  ((boxEdges dom start stop).foldlM clipEdge (0, 1)).map fun range =>
    (pointAt start stop range.1, pointAt start stop range.2)

def ChartDomain.Inside (dom : ChartDomain K) (point : K × K) : Prop :=
  (dom.xMin ≤ point.1 ∧ point.1 ≤ dom.xMax) ∧ dom.yMin ≤ point.2 ∧ point.2 ≤ dom.yMax

instance (dom : ChartDomain K) (point : K × K) : Decidable (dom.Inside point) :=
  inferInstanceAs (Decidable ((_ ∧ _) ∧ _ ∧ _))

def ChartDomain.Near (dom : ChartDomain K) (u v : K × K) : Prop :=
  |u.1 - v.1| ≤ (dom.xMax - dom.xMin) * (1 / 10 ^ 9) ∧ |u.2 - v.2| ≤ (dom.yMax - dom.yMin) * (1 / 10 ^ 9)

instance (dom : ChartDomain K) (u v : K × K) : Decidable (dom.Near u v) := inferInstanceAs (Decidable (_ ∧ _))

/-- `segs`, `cur` and `prev`. -/
structure ClipState (K : Type) where
  segs : List (List (K × K))
  cur : List (K × K)
  prev : Option (K × K)

def ClipState.flush (s : ClipState K) : ClipState K :=
  { s with segs := if 2 ≤ s.cur.length then s.segs ++ [s.cur] else s.segs, cur := [] }

def ClipState.draw (dom : ChartDomain K) (s : ClipState K) (a b : K × K) : ClipState K :=
  match s.cur.getLast? with
  | some last => if dom.Near last a then { s with cur := s.cur ++ [b] } else { s.flush with cur := [a, b] }
  | none => { s.flush with cur := [a, b] }

def clipStep (dom : ChartDomain K) (s : ClipState K) : Option (K × K) → ClipState K
  | none => { s.flush with prev := none }
  | some point =>
    match s.prev with
    | none => { s with prev := some point, cur := if dom.Inside point then s.cur ++ [point] else s.cur }
    | some before =>
      match clipSegment dom before point with
      | none => { s with prev := some point }.flush
      | some (a, b) => { s with prev := some point }.draw dom a b

def clipCurveToDomain (data : List (CurvePoint K)) (type : ChartType) (dom : ChartDomain K) : List (List (K × K)) :=
  ((data.map fun p => finiteXY p type).foldl (clipStep dom) ⟨[], [], none⟩).flush.segs

end Code

/-! ## One data segment -/

section Segment
variable {K : Type} [Field K] [LinearOrder K] [IsStrictOrderedRing K] {range cut edge start stop a b : K × K}
  {dom : ChartDomain K}

omit [IsStrictOrderedRing K] in
theorem pos_of_edge {p : K} (hzero : ¬p = 0) (hneg : ¬p < 0) : 0 < p := lt_of_le_of_ne (not_lt.mp hneg) (Ne.symm hzero)

theorem clipEdge_some (hrange : range.1 ≤ range.2) (h : clipEdge range edge = some cut) :
    cut.1 ≤ cut.2 ∧ ∀ t, ((range.1 ≤ t ∧ t ≤ range.2) ∧ edge.1 * t ≤ edge.2) ↔ cut.1 ≤ t ∧ t ≤ cut.2 := by
  obtain ⟨p, q⟩ := edge
  unfold clipEdge at h
  dsimp only at h ⊢
  split_ifs at h with hzero hout hneg hlate hcut hearly hcut
  · rw [← Option.some.inj h, hzero]
    refine ⟨hrange, fun t => ?_⟩
    rw [zero_mul]
    exact and_iff_left (not_lt.mp hout)
  -- a falling edge keeps what is not before its root
  · rw [← Option.some.inj h]
    refine ⟨not_lt.mp hlate, fun t => ?_⟩
    rw [mul_comm, ← div_le_iff_of_neg hneg]
    exact ⟨fun ht => ⟨ht.2, ht.1.2⟩, fun ht => ⟨⟨hcut.le.trans ht.1, ht.2⟩, ht.1⟩⟩
  · rw [← Option.some.inj h]
    refine ⟨hrange, fun t => ?_⟩
    rw [mul_comm, ← div_le_iff_of_neg hneg]
    exact and_iff_left_of_imp fun ht => (not_lt.mp hcut).trans ht.1
  -- a rising edge keeps what is not after it
  · rw [← Option.some.inj h]
    refine ⟨not_lt.mp hearly, fun t => ?_⟩
    rw [mul_comm, ← le_div_iff₀ (pos_of_edge hzero hneg)]
    exact ⟨fun ht => ⟨ht.1.1, ht.2⟩, fun ht => ⟨⟨ht.1, ht.2.trans hcut.le⟩, ht.2⟩⟩
  · rw [← Option.some.inj h]
    refine ⟨hrange, fun t => ?_⟩
    rw [mul_comm, ← le_div_iff₀ (pos_of_edge hzero hneg)]
    exact and_iff_left_of_imp fun ht => ht.2.trans (not_lt.mp hcut)

theorem clipEdge_none (h : clipEdge range edge = none) {t : K} (hlow : range.1 ≤ t) (hhigh : t ≤ range.2) :
    ¬edge.1 * t ≤ edge.2 := by
  obtain ⟨p, q⟩ := edge
  unfold clipEdge at h
  dsimp only at h ⊢
  split_ifs at h with hzero hout hneg hlate hearly
  · rw [hzero, zero_mul, not_le]
    exact hout
  · rw [mul_comm, ← div_le_iff_of_neg hneg, not_le]
    exact hhigh.trans_lt hlate
  · rw [mul_comm, ← le_div_iff₀ (pos_of_edge hzero hneg), not_le]
    exact hearly.trans_le hlow

theorem clipEdges_some {edges : List (K × K)} (hrange : range.1 ≤ range.2) (h : edges.foldlM clipEdge range = some cut) :
    cut.1 ≤ cut.2 ∧
      ∀ t, ((range.1 ≤ t ∧ t ≤ range.2) ∧ ∀ edge ∈ edges, edge.1 * t ≤ edge.2) ↔ cut.1 ≤ t ∧ t ≤ cut.2 := by
  induction edges generalizing range with
  | nil =>
    rw [← Option.some.inj h]
    exact ⟨hrange, by simp⟩
  | cons edge edges ih =>
    rw [List.foldlM_cons, Option.bind_eq_bind, Option.bind_eq_some_iff] at h
    obtain ⟨next, hnext, hrest⟩ := h
    obtain ⟨horder, hedge⟩ := clipEdge_some hrange hnext
    obtain ⟨hcut, hedges⟩ := ih horder hrest
    refine ⟨hcut, fun t => ?_⟩
    rw [← hedges t, ← hedge t, List.forall_mem_cons, and_assoc, and_assoc, and_assoc]

theorem clipEdges_none {edges : List (K × K)} (hrange : range.1 ≤ range.2) (h : edges.foldlM clipEdge range = none)
    {t : K} (hlow : range.1 ≤ t) (hhigh : t ≤ range.2) : ¬∀ edge ∈ edges, edge.1 * t ≤ edge.2 := by
  induction edges generalizing range with
  | nil => cases h
  | cons edge edges ih =>
    rw [List.forall_mem_cons]
    rintro ⟨hedge, hedges⟩
    rw [List.foldlM_cons, Option.bind_eq_bind] at h
    cases hnext : clipEdge range edge with
    | none => exact clipEdge_none hnext hlow hhigh hedge
    | some next =>
      rw [hnext] at h
      obtain ⟨horder, hkept⟩ := clipEdge_some hrange hnext
      have ht := (hkept t).mp ⟨⟨hlow, hhigh⟩, hedge⟩
      exact ih horder h ht.1 ht.2 hedges

theorem inside_iff (t : K) :
    dom.Inside (pointAt start stop t) ↔ ∀ edge ∈ boxEdges dom start stop, edge.1 * t ≤ edge.2 := by
  simp only [boxEdges, List.forall_mem_cons, List.not_mem_nil, false_implies, implies_true, and_true,
    ChartDomain.Inside, pointAt]
  constructor
  · rintro ⟨⟨h₁, h₂⟩, h₃, h₄⟩
    refine ⟨?_, ?_, ?_, ?_⟩ <;> linarith
  · rintro ⟨h₁, h₂, h₃, h₄⟩
    refine ⟨⟨?_, ?_⟩, ?_, ?_⟩ <;> linarith

/-- `a` and `b` are the ends of what a segment has in the box. -/
def Intersection (dom : ChartDomain K) (start stop a b : K × K) : Prop :=
  ∃ t0 t1, 0 ≤ t0 ∧ t0 ≤ t1 ∧ t1 ≤ 1 ∧ a = pointAt start stop t0 ∧ b = pointAt start stop t1 ∧
    ∀ t, 0 ≤ t → t ≤ 1 → (dom.Inside (pointAt start stop t) ↔ t0 ≤ t ∧ t ≤ t1)

def Meets (dom : ChartDomain K) (line : (K × K) × (K × K)) : Prop :=
  ∃ t, 0 ≤ t ∧ t ≤ 1 ∧ dom.Inside (pointAt line.1 line.2 t)

theorem clipSegment_some (h : clipSegment dom start stop = some (a, b)) : Intersection dom start stop a b := by
  obtain ⟨cut, hcut, hends⟩ := Option.map_eq_some_iff.mp h
  obtain ⟨ha, hb⟩ := Prod.mk.inj hends
  obtain ⟨horder, hkept⟩ := clipEdges_some (zero_le_one) hcut
  have hlow := (hkept cut.1).mpr ⟨le_rfl, horder⟩
  have hhigh := (hkept cut.2).mpr ⟨horder, le_rfl⟩
  refine ⟨cut.1, cut.2, hlow.1.1, horder, hhigh.1.2, ha.symm, hb.symm, fun t hzero hone => ?_⟩
  rw [inside_iff, ← hkept t]
  exact (and_iff_right ⟨hzero, hone⟩).symm

theorem clipSegment_isSome : (clipSegment dom start stop).isSome ↔ Meets dom (start, stop) := by
  constructor
  · intro h
    obtain ⟨⟨a, b⟩, hclip⟩ := Option.isSome_iff_exists.mp h
    obtain ⟨t0, t1, hzero, horder, hone, _, _, hinside⟩ := clipSegment_some hclip
    exact ⟨t0, hzero, horder.trans hone, (hinside t0 hzero (horder.trans hone)).mpr ⟨le_rfl, horder⟩⟩
  · rintro ⟨t, hzero, hone, hinside⟩
    rw [← Option.not_isNone, Bool.not_eq_true', ← Bool.not_eq_true, Option.isNone_iff_eq_none]
    intro hnone
    exact clipEdges_none zero_le_one (Option.map_eq_none_iff.mp hnone) hzero hone ((inside_iff t).mp hinside)

instance (dom : ChartDomain K) (line : (K × K) × (K × K)) : Decidable (Meets dom line) :=
  decidable_of_iff _ clipSegment_isSome

omit [IsStrictOrderedRing K] in
theorem Intersection.inside (h : Intersection dom start stop a b) : dom.Inside a ∧ dom.Inside b := by
  obtain ⟨t0, t1, hzero, horder, hone, rfl, rfl, hinside⟩ := h
  exact ⟨(hinside t0 hzero (horder.trans hone)).mpr ⟨le_rfl, horder⟩,
    (hinside t1 (hzero.trans horder) hone).mpr ⟨horder, le_rfl⟩⟩

end Segment

/-! ## The polyline -/

section Polyline
variable {K : Type} [Field K] [LinearOrder K] {dom : ChartDomain K}

def pieces (points : List (K × K)) : List ((K × K) × (K × K)) := points.zip points.tail

def dataSegments : Option (K × K) → List (Option (K × K)) → List ((K × K) × (K × K))
  | _, [] => []
  | _, none :: points => dataSegments none points
  | none, some point :: points => dataSegments (some point) points
  | some before, some point :: points => (before, point) :: dataSegments (some point) points

/-- A piece drawn for a data segment: to the end of its intersection with the box, from its start or near it. -/
def DrawnFor (dom : ChartDomain K) (piece line : (K × K) × (K × K)) : Prop :=
  ∃ a b, Intersection dom line.1 line.2 a b ∧ piece.2 = b ∧ (piece.1 = a ∨ dom.Near piece.1 a)

/-- What has been drawn for the data segments so far. -/
structure Drawn (dom : ChartDomain K) (s : ClipState K) (lines : List ((K × K) × (K × K))) : Prop where
  drawn : List.Forall₂ (DrawnFor dom) ((s.segs ++ [s.cur]).flatMap pieces) lines
  inside : ∀ seg ∈ s.segs ++ [s.cur], ∀ point ∈ seg, dom.Inside point
  long : ∀ seg ∈ s.segs, 2 ≤ seg.length

omit [Field K] [LinearOrder K] in
theorem pieces_short {points : List (K × K)} (h : ¬2 ≤ points.length) : pieces points = [] := by
  match points with
  | [] => rfl
  | [_] => rfl
  | _ :: _ :: _ => exact absurd (by simp) h

omit [Field K] [LinearOrder K] in
theorem pieces_concat {points : List (K × K)} {last point : K × K} (h : points.getLast? = some last) :
    pieces (points ++ [point]) = pieces points ++ [(last, point)] := by
  induction points with
  | nil => cases h
  | cons first rest ih =>
    cases rest with
    | nil =>
      rw [List.getLast?_singleton] at h
      rw [Option.some.inj h]
      rfl
    | cons second rest =>
      rw [List.getLast?_cons_cons] at h
      exact congrArg ((first, second) :: ·) (ih h)

variable {s : ClipState K} {lines : List ((K × K) × (K × K))}

theorem Drawn.flush (h : Drawn dom s lines) : Drawn dom s.flush lines := by
  unfold ClipState.flush
  by_cases hlong : 2 ≤ s.cur.length
  · rw [if_pos hlong]
    refine ⟨?_, ?_, ?_⟩
    · simpa [pieces] using h.drawn
    · intro seg hseg
      rcases List.mem_append.mp hseg with hseg | hseg
      · exact h.inside seg hseg
      · rw [List.mem_singleton.mp hseg]
        exact fun _ hpoint => (List.not_mem_nil hpoint).elim
    · intro seg hseg
      rcases List.mem_append.mp hseg with hseg | hseg
      · exact h.long seg hseg
      · rw [List.mem_singleton.mp hseg]
        exact hlong
  · rw [if_neg hlong]
    refine ⟨?_, ?_, h.long⟩
    · have hdrawn := h.drawn
      simp only [List.flatMap_append, List.flatMap_singleton, pieces_short hlong] at hdrawn
      simpa [pieces] using hdrawn
    · intro seg hseg
      rcases List.mem_append.mp hseg with hseg | hseg
      · exact h.inside seg (List.mem_append_left _ hseg)
      · rw [List.mem_singleton.mp hseg]
        exact fun _ hpoint => (List.not_mem_nil hpoint).elim

theorem Drawn.withPrev (h : Drawn dom s lines) (prev : Option (K × K)) : Drawn dom { s with prev := prev } lines :=
  ⟨h.drawn, h.inside, h.long⟩

theorem Drawn.start (h : Drawn dom s lines) {line : (K × K) × (K × K)} {a b : K × K}
    (hclip : Intersection dom line.1 line.2 a b) : Drawn dom { s.flush with cur := [a, b] } (lines ++ [line]) := by
  have hflush := h.flush
  refine ⟨?_, ?_, hflush.long⟩
  · have hdrawn := hflush.drawn
    rw [List.flatMap_append] at hdrawn ⊢
    have hempty : List.flatMap pieces [s.flush.cur] = [] := rfl
    rw [hempty, List.append_nil] at hdrawn
    exact List.rel_append hdrawn (.cons ⟨a, b, hclip, rfl, .inl rfl⟩ .nil)
  · intro seg hseg
    rcases List.mem_append.mp hseg with hseg | hseg
    · exact hflush.inside seg (List.mem_append_left _ hseg)
    · rw [List.mem_singleton.mp hseg]
      simpa using hclip.inside

theorem Drawn.draw (h : Drawn dom s lines) {line : (K × K) × (K × K)} {a b : K × K}
    (hclip : Intersection dom line.1 line.2 a b) : Drawn dom (s.draw dom a b) (lines ++ [line]) := by
  unfold ClipState.draw
  cases hlast : s.cur.getLast? with
  | none => exact h.start hclip
  | some last =>
    dsimp only
    split_ifs with hnear
    · refine ⟨?_, ?_, h.long⟩
      · have hdrawn := h.drawn
        rw [List.flatMap_append, List.flatMap_singleton] at hdrawn ⊢
        rw [pieces_concat hlast, ← List.append_assoc]
        exact List.rel_append hdrawn (.cons ⟨a, b, hclip, rfl, .inr hnear⟩ .nil)
      · intro seg hseg
        rcases List.mem_append.mp hseg with hseg | hseg
        · exact h.inside seg (List.mem_append_left _ hseg)
        · rw [List.mem_singleton.mp hseg]
          intro point hpoint
          rcases List.mem_append.mp hpoint with hpoint | hpoint
          · exact h.inside s.cur (by simp) point hpoint
          · rw [List.mem_singleton.mp hpoint]
            exact hclip.inside.2
    · exact h.start hclip

variable [IsStrictOrderedRing K]

def meeting (dom : ChartDomain K) (before : Option (K × K)) (points : List (Option (K × K))) : List ((K × K) × (K × K)) :=
  (dataSegments before points).filter fun line => Meets dom line

theorem clipLoop_drawn (points : List (Option (K × K))) (h : Drawn dom s lines) (hfresh : s.prev = none → s.cur = []) :
    Drawn dom (points.foldl (clipStep dom) s) (lines ++ meeting dom s.prev points) := by
  induction points generalizing s lines with
  | nil =>
    have hnone : meeting dom s.prev [] = [] := by cases hprev : s.prev <;> rfl
    rw [hnone, List.append_nil]
    exact h
  | cons point points ih =>
    rw [List.foldl_cons]
    cases point with
    | none =>
      have hstep := ih (h.flush.withPrev none) fun _ => rfl
      have hskip : meeting dom s.prev (none :: points) = meeting dom none points := by cases hprev : s.prev <;> rfl
      rw [hskip]
      exact hstep
    | some point =>
      cases hprev : s.prev with
      | none =>
        have hcur := hfresh hprev
        have hstart : Drawn dom
            { s with prev := some point, cur := if dom.Inside point then s.cur ++ [point] else s.cur } lines := by
          rw [hcur]
          have hdrawn := h.drawn
          rw [hcur] at hdrawn
          split_ifs with hinside
          · refine ⟨by simpa [pieces] using hdrawn, ?_, h.long⟩
            intro seg hseg
            rcases List.mem_append.mp hseg with hseg | hseg
            · exact h.inside seg (List.mem_append_left _ hseg)
            · rw [List.mem_singleton.mp hseg]
              simpa using hinside
          · have hsame := h.withPrev (some point)
            rw [hcur] at hsame
            exact hsame
        have hstep := ih hstart fun hnone => nomatch hnone
        have hclip : clipStep dom s (some point) =
            { s with prev := some point, cur := if dom.Inside point then s.cur ++ [point] else s.cur } := by
          rw [clipStep, hprev]
        rw [hclip]
        exact hstep
      | some before =>
        cases hclip : clipSegment dom before point with
        | none =>
          have hmiss : ¬Meets dom (before, point) := by
            rw [← clipSegment_isSome, hclip]
            simp
          have hskip : meeting dom (some before) (some point :: points) = meeting dom (some point) points :=
            List.filter_cons_of_neg (by simpa using hmiss)
          have hstate : clipStep dom s (some point) = { s with prev := some point }.flush := by
            simp only [clipStep, hprev, hclip]
          rw [hskip, hstate]
          exact ih (h.withPrev (some point)).flush fun _ => rfl
        | some ends =>
          obtain ⟨a, b⟩ := ends
          have hmeets : Meets dom (before, point) := by
            rw [← clipSegment_isSome, hclip]
            rfl
          have hkeep : meeting dom (some before) (some point :: points) =
              (before, point) :: meeting dom (some point) points :=
            List.filter_cons_of_pos (by simpa using hmeets)
          have hstate : clipStep dom s (some point) = { s with prev := some point }.draw dom a b := by
            simp only [clipStep, hprev, hclip]
          have hprev' : ({ s with prev := some point }.draw dom a b).prev = some point := by
            unfold ClipState.draw
            split
            · split_ifs <;> rfl
            · rfl
          have hends : Intersection dom (before, point).1 (before, point).2 a b := clipSegment_some hclip
          have hstep := ih ((h.withPrev (some point)).draw hends) (by
            rw [hprev']
            exact fun hnone => nomatch hnone)
          rw [hkeep, hstate]
          rw [hprev', List.append_assoc] at hstep
          exact hstep

/-- In exact arithmetic, for every polyline and box: the drawn segments have at least two points and lie in the box, and
their pieces are, in the order of the polyline, one for each data segment that meets the box: up to the end of what it has
in the box, from the start of it or from a point within a billionth of the box of that start. -/
theorem clipCurve_draws (data : List (CurvePoint K)) (type : ChartType) (dom : ChartDomain K) :
    (∀ seg ∈ clipCurveToDomain data type dom, 2 ≤ seg.length ∧ ∀ point ∈ seg, dom.Inside point) ∧
    List.Forall₂ (DrawnFor dom) ((clipCurveToDomain data type dom).flatMap pieces)
      (meeting dom none (data.map fun p => finiteXY p type)) := by
  have hstart : Drawn dom ⟨[], [], none⟩ [] := ⟨.nil, by simp, by simp⟩
  have hrun := (clipLoop_drawn (data.map fun p => finiteXY p type) hstart fun _ => rfl).flush
  have hdrawn := hrun.drawn
  rw [List.flatMap_append] at hdrawn
  constructor
  · exact fun seg hseg => ⟨hrun.long seg hseg, hrun.inside seg (List.mem_append_left _ hseg)⟩
  · have hempty : List.flatMap pieces
        [((data.map fun p => finiteXY p type).foldl (clipStep dom) ⟨[], [], none⟩).flush.cur] = [] := rfl
    rw [hempty, List.append_nil] at hdrawn
    exact hdrawn

end Polyline

def unitBox : ChartDomain ℚ := ⟨0, 1, 0, 1⟩

def claCurve (points : List (ℚ × ℚ)) : List (CurvePoint ℚ) :=
  points.map fun p => ⟨some p.1, some p.2, none, none, none⟩

theorem clipCurve_draws_diagonal :
    (∀ seg ∈ clipCurveToDomain (claCurve [(-1, -1), (2, 2)]) .cla unitBox,
      2 ≤ seg.length ∧ ∀ point ∈ seg, unitBox.Inside point) ∧
    List.Forall₂ (DrawnFor unitBox) ((clipCurveToDomain (claCurve [(-1, -1), (2, 2)]) .cla unitBox).flatMap pieces)
      (meeting unitBox none ((claCurve [(-1, -1), (2, 2)]).map fun p => finiteXY p .cla)) :=
  clipCurve_draws (claCurve [(-1, -1), (2, 2)]) .cla unitBox

def grazingCurve : List (CurvePoint ℚ) := claCurve [(1 / 2, 1 / 2), (3 / 2, 1 / 2), (1 / 2, 1 / 2 + 1 / 10 ^ 10)]

/-- It is drawn on from where it left, and the middle of that piece is not on the curve. -/
theorem grazing_piece_off_curve :
    ((1, 1 / 2), (1 / 2, 1 / 2 + 1 / 10 ^ 10)) ∈ (clipCurveToDomain grazingCurve .cla unitBox).flatMap pieces ∧
      ∀ line ∈ dataSegments none (grazingCurve.map fun p => finiteXY p .cla), ∀ t,
        pointAt line.1 line.2 t ≠ pointAt (1, 1 / 2) (1 / 2, 1 / 2 + 1 / 10 ^ 10) (1 / 2) := by
  constructor
  · decide +kernel
  · have hlines : dataSegments none (grazingCurve.map fun p => finiteXY p .cla) =
        [((1 / 2, 1 / 2), (3 / 2, 1 / 2)), ((3 / 2, 1 / 2), (1 / 2, 1 / 2 + 1 / 10 ^ 10))] := rfl
    rw [hlines]
    simp only [List.forall_mem_cons, List.not_mem_nil, false_implies, implies_true, and_true, pointAt, ne_eq, Prod.mk.injEq]
    constructor
    · rintro t ⟨_, hy⟩
      norm_num at hy
    · rintro t ⟨hx, hy⟩
      have ht : t = 3 / 4 := by linarith
      rw [ht] at hy
      norm_num at hy

end XFoilFoam.Chart
