import XFoilFoam.Chart.Clipping
import XFoilFoam.Chart.Evidence

/-! `supportedFitSegments` and `readoutAtX` of `packages/core/src/chart.ts`: where a fitted curve is drawn and read. -/
namespace XFoilFoam.Chart
open Binary64
set_option autoImplicit false

/-! ## The code -/

def fitBridgeFloorDeg : Double := lit 6

def fitBridgeGapFactor : Double := lit 2

def medianGap (sorted : List Double) : Double :=
  let gaps := jsSort sub (List.zipWith sub sorted.tail sorted)
  gaps.getD (gaps.length / 2) (lit 0)

def fitBridgeThresholdDeg (alphas : List Double) : Double :=
  max fitBridgeFloorDeg (mul (medianGap (jsSort sub alphas)) fitBridgeGapFactor)

/-- The loop over the sorted angles; the span from `start` to `stop` is open. -/
def spansFrom (bridge start stop : Double) : List Double → List (Double × Double)
  | [] => [(start, stop)]
  | angle :: rest =>
    if le (sub angle stop) bridge then spansFrom bridge start angle rest
    else (start, stop) :: spansFrom bridge angle angle rest

/-- `1e-9`. -/
def tolerance : Double := lit (1 / 10 ^ 9)

def within (span : Double × Double) (angle : Double) : Bool :=
  le (sub span.1 tolerance) angle && le angle (add span.2 tolerance)

def sortedAngles (alphas : List Double) : List Double := jsSort sub alphas.eraseDups

def spansOf (alphas : List Double) : List (Double × Double) :=
  match sortedAngles alphas with
  | first :: rest => spansFrom (fitBridgeThresholdDeg (sortedAngles alphas)) first first rest
  | [] => []

/-- `supportedFitSegments`, for samples with an angle. -/
def supportedFitSegments {T : Type} (angle : T → Double) (fitPoints : List T) (alphas : List Double) : List (List T) :=
  if fitPoints.isEmpty ∨ (sortedAngles alphas).length < 2 then []
  else
    ((spansOf alphas).map fun span => fitPoints.filter fun p => within span (angle p)).filter fun s => 2 ≤ s.length

/-! ## Spans -/

section Spans
variable {bridge start stop : Double} {rest : List Double}

theorem tolerance_val : ∃ e, tolerance.val = .fin e ∧ 0 ≤ e ∧ e ≤ 1 := by
  have hnonneg : (0 : ℚ) ≤ roundRat (1 / 10 ^ 9) := roundRat_nonneg (by norm_num)
  have hone : roundRat (1 / 10 ^ 9) ≤ 2 ^ (0 : ℤ) := roundRat_le_two_zpow (by norm_num) (by norm_num) (by norm_num)
  rw [zpow_zero] at hone
  have hlimit : (1 : ℚ) < 2 ^ overflowExponent := one_lt_pow₀ one_lt_two (by decide)
  refine ⟨roundRat (1 / 10 ^ 9), Double.round64_of_lt ?_, hnonneg, hone⟩
  rw [abs_of_nonneg hnonneg]
  exact hone.trans_lt hlimit

structure IsBridge (bridge : Double) : Prop where
  number : bridge.val ≠ .nan
  floor : fitBridgeFloorDeg.rank ≤ bridge.rank

theorem mul_two_ne_nan {x : Double} (hx : x.val ≠ .nan) : (mul x fitBridgeGapFactor).val ≠ .nan := by
  have htwo : fitBridgeGapFactor.val = .fin ((2 : ℕ) : ℚ) := Double.lit_natCast (by norm_num)
  have hmul : mul x fitBridgeGapFactor = Double.ofExact (x.val.mul fitBridgeGapFactor.val) := rfl
  rw [hmul, htwo]
  cases hval : x.val with
  | nan => exact absurd hval hx
  | fin q => exact Double.ofExact_ne_nan _
  | posInf => decide
  | negInf => decide

theorem zipWith_sub_number {xs ys : List Double} (hx : ∀ x ∈ xs, isFinite x = true) (hy : ∀ y ∈ ys, isFinite y = true) :
    ∀ gap ∈ List.zipWith sub xs ys, gap.val ≠ .nan := by
  induction xs generalizing ys with
  | nil => simp
  | cons x xs ih =>
    cases ys with
    | nil => simp
    | cons y ys =>
      obtain ⟨hx₀, hxs⟩ := List.forall_mem_cons.mp hx
      obtain ⟨hy₀, hys⟩ := List.forall_mem_cons.mp hy
      have hgap : (sub x y).val = round64 (.fin (x.value - y.value)) :=
        Double.sub_val (Double.val_of_finite hx₀) (Double.val_of_finite hy₀)
      refine List.forall_mem_cons.mpr ⟨?_, ih hxs hys⟩
      rw [hgap]
      exact Double.ofExact_ne_nan _

theorem medianGap_number {sorted : List Double} (h : ∀ a ∈ sorted, isFinite a = true) : (medianGap sorted).val ≠ .nan := by
  unfold medianGap
  dsimp only
  rw [List.getD_eq_getElem?_getD]
  cases hgap : (jsSort sub (List.zipWith sub sorted.tail sorted))[
      (jsSort sub (List.zipWith sub sorted.tail sorted)).length / 2]? with
  | none => exact Double.ne_nan_of_fin Double.lit_zero
  | some gap =>
    have hmem := mem_jsSort.mp (List.mem_of_getElem? hgap)
    exact zipWith_sub_number (fun a ha => h a (List.mem_of_mem_tail ha)) h gap hmem

theorem isBridge {alphas : List Double} (h : ∀ a ∈ alphas, isFinite a = true) : IsBridge (fitBridgeThresholdDeg alphas) := by
  have hsix : fitBridgeFloorDeg.val ≠ .nan := Double.ne_nan_of_fin (Double.lit_natCast (by norm_num : 6 ≤ 2 ^ 53))
  have hsorted : ∀ a ∈ jsSort sub alphas, isFinite a = true := fun a ha => h a (mem_jsSort.mp ha)
  have hmax := Double.rank_max hsix (mul_two_ne_nan (medianGap_number hsorted))
  exact ⟨hmax.1, hmax.2.1⟩

theorem gap_of_not_bridged {angle : Double} (hbridge : IsBridge bridge) (hangle : isFinite angle = true)
    (hstop : isFinite stop = true) (h : ¬le (sub angle stop) bridge = true) : stop.value + 6 < angle.value := by
  have hgap : (sub angle stop).val = round64 (.fin (angle.value - stop.value)) :=
    Double.sub_val (Double.val_of_finite hangle) (Double.val_of_finite hstop)
  have hsub : sub angle stop = Double.ofExact (.fin (angle.value - stop.value)) := Double.ext_val hgap
  have hnumber : (sub angle stop).val ≠ .nan := hgap ▸ Double.ofExact_ne_nan _
  rw [Double.le_iff_rank hnumber hbridge.number, not_le] at h
  by_contra hclose
  have hmono := Double.rank_ofExact_mono (by linarith : angle.value - stop.value ≤ 6)
  rw [← hsub] at hmono
  exact absurd (hbridge.floor.trans_lt h) (not_lt.mpr hmono)

theorem not_both_within {s t : Double × Double} (hs : isFinite s.2 = true) (ht : isFinite t.1 = true)
    (hgap : s.2.value + 6 < t.1.value) (angle : Double) : ¬(within s angle = true ∧ within t angle = true) := by
  obtain ⟨e, he, hnonneg, hone⟩ := tolerance_val
  obtain ⟨high, hhigh, _, hle⟩ := Double.add_near (Double.val_of_finite hs) he hnonneg hone
  obtain ⟨low, hlow, _, hge⟩ := Double.sub_near (Double.val_of_finite ht) he hnonneg hone
  simp only [within, Bool.and_eq_true]
  rintro ⟨⟨_, hbelow⟩, habove, _⟩
  have hangle : angle.val ≠ .nan := by
    intro hnan
    have hval : angle.val.le (add s.2 tolerance).val = true := hbelow
    rw [hnan] at hval
    cases hval
  rw [Double.le_iff_rank hangle (Double.ne_nan_of_fin hhigh)] at hbelow
  rw [Double.le_iff_rank (Double.ne_nan_of_fin hlow) hangle] at habove
  have hlt : (sub t.1 tolerance).rank ≤ (add s.2 tolerance).rank := habove.trans hbelow
  rw [← Double.le_iff_rank (Double.ne_nan_of_fin hlow) (Double.ne_nan_of_fin hhigh), Double.le_iff hlow hhigh] at hlt
  linarith

theorem mem_spansFrom {span : Double × Double} (h : span ∈ spansFrom bridge start stop rest) :
    span.1 ∈ start :: rest ∧ span.2 ∈ stop :: rest := by
  induction rest generalizing start stop with
  | nil =>
    rw [List.mem_singleton.mp h]
    exact ⟨List.mem_cons_self, List.mem_cons_self⟩
  | cons angle rest ih =>
    rw [spansFrom] at h
    split_ifs at h with hbridged
    · obtain ⟨hfirst, hsecond⟩ := ih h
      refine ⟨?_, List.mem_cons_of_mem _ hsecond⟩
      rcases List.mem_cons.mp hfirst with hfirst | hfirst
      · exact List.mem_cons.mpr (.inl hfirst)
      · exact List.mem_cons_of_mem _ (List.mem_cons_of_mem _ hfirst)
    · rcases List.mem_cons.mp h with rfl | h
      · exact ⟨List.mem_cons_self, List.mem_cons_self⟩
      · obtain ⟨hfirst, hsecond⟩ := ih h
        exact ⟨List.mem_cons_of_mem _ hfirst, List.mem_cons_of_mem _ hsecond⟩

theorem spansFrom_apart (start : Double) (hbridge : IsBridge bridge) (hfinite : ∀ a ∈ stop :: rest, isFinite a = true)
    (hsorted : (stop :: rest).Pairwise fun a b => a.value ≤ b.value) :
    (spansFrom bridge start stop rest).Pairwise fun s t => s.2.value + 6 < t.1.value := by
  induction rest generalizing start stop with
  | nil => exact List.pairwise_singleton _ _
  | cons angle rest ih =>
    have hfinite' : ∀ a ∈ angle :: rest, isFinite a = true := fun a ha => hfinite a (List.mem_cons_of_mem _ ha)
    obtain ⟨_, hsorted'⟩ := List.pairwise_cons.mp hsorted
    rw [spansFrom]
    split_ifs with hbridged
    · exact ih start hfinite' hsorted'
    · refine List.pairwise_cons.mpr ⟨fun span hspan => ?_, ih angle hfinite' hsorted'⟩
      have hgap := gap_of_not_bridged hbridge (hfinite' angle List.mem_cons_self) (hfinite stop List.mem_cons_self) hbridged
      have hle : angle.value ≤ span.1.value := by
        rcases List.mem_cons.mp (mem_spansFrom hspan).1 with heq | hmem
        · rw [heq]
        · exact (List.pairwise_cons.mp hsorted').1 _ hmem
      exact hgap.trans_le hle

/-- A sample near an interval between adjacent angles that is bridged, or near one angle. -/
def Supported (bridge : Double) (sorted : List Double) (angle : Double) : Prop :=
  (∃ a b, [a, b] <:+: sorted ∧ le (sub b a) bridge = true ∧ within (a, b) angle = true) ∨
    ∃ a ∈ sorted, within (a, a) angle = true

theorem within_number {span : Double × Double} {angle : Double} (h : within span angle = true) : angle.val ≠ .nan := by
  intro hnan
  simp only [within, Bool.and_eq_true] at h
  have hval : angle.val.le (add span.2 tolerance).val = true := h.2
  rw [hnan] at hval
  cases hval

theorem within_extended {angle stop next : Double} (hstop : isFinite stop = true)
    (h : within (start, next) angle = true) : within (start, stop) angle = true ∨ within (stop, next) angle = true := by
  obtain ⟨e, he, hnonneg, hone⟩ := tolerance_val
  obtain ⟨high, hhigh, hstop_le, _⟩ := Double.add_near (Double.val_of_finite hstop) he hnonneg hone
  obtain ⟨low, hlow, hle_stop, _⟩ := Double.sub_near (Double.val_of_finite hstop) he hnonneg hone
  have hangle := within_number h
  simp only [within, Bool.and_eq_true] at h ⊢
  by_cases hbefore : le angle (add stop tolerance) = true
  · exact .inl ⟨h.1, hbefore⟩
  · refine .inr ⟨?_, h.2⟩
    rw [Double.le_iff_rank hangle (Double.ne_nan_of_fin hhigh), not_le] at hbefore
    rw [Double.le_iff_rank (Double.ne_nan_of_fin hlow) hangle]
    refine le_trans ?_ hbefore.le
    rw [← Double.le_iff_rank (Double.ne_nan_of_fin hlow) (Double.ne_nan_of_fin hhigh), Double.le_iff hlow hhigh]
    exact hle_stop.trans hstop_le

theorem spansFrom_supported (before : List Double) {sorted : List Double} (hsorted : sorted = before ++ stop :: rest)
    (hfinite : ∀ a ∈ sorted, isFinite a = true)
    (hrun : ∀ angle, within (start, stop) angle = true → Supported bridge sorted angle) :
    ∀ span ∈ spansFrom bridge start stop rest, ∀ angle, within span angle = true → Supported bridge sorted angle := by
  induction rest generalizing start stop before with
  | nil =>
    intro span hspan
    rw [List.mem_singleton.mp hspan]
    exact hrun
  | cons next rest ih =>
    have hnext : sorted = (before ++ [stop]) ++ next :: rest := by rw [hsorted, List.append_assoc, List.singleton_append]
    have hpair : [stop, next] <:+: sorted := ⟨before, rest, by rw [hsorted]; simp⟩
    rw [spansFrom]
    split_ifs with hbridged
    · refine ih _ hnext fun angle hwithin => ?_
      have hstop := hfinite stop (by rw [hsorted]; simp)
      rcases within_extended hstop hwithin with hleft | hright
      · exact hrun angle hleft
      · exact .inl ⟨stop, next, hpair, hbridged, hright⟩
    · refine List.forall_mem_cons.mpr ⟨hrun, ih _ hnext fun angle hwithin => ?_⟩
      exact .inr ⟨next, by rw [hsorted]; simp, hwithin⟩

theorem filters_subperm {T : Type} {tests : List (T → Bool)} (xs : List T)
    (h : tests.Pairwise fun p q => ∀ x, ¬(p x = true ∧ q x = true)) :
    ((tests.map fun p => xs.filter p).flatten).Subperm xs := by
  induction tests generalizing xs with
  | nil => exact List.nil_subperm
  | cons p tests ih =>
    obtain ⟨hp, htests⟩ := List.pairwise_cons.mp h
    have hsame : (tests.map fun q => xs.filter q) = tests.map fun q => (xs.filter fun x => !p x).filter q := by
      refine List.map_congr_left fun q hq => ?_
      rw [List.filter_filter]
      refine List.filter_congr fun x _ => ?_
      have hdisjoint := hp q hq x
      cases hpx : p x <;> cases hqx : q x <;> simp_all
    rw [List.map_cons, List.flatten_cons, hsame]
    exact ((List.subperm_append_left _).mpr (ih _ htests)).trans (List.filter_append_perm p xs).subperm

theorem supportedFitSegments_spec {T : Type} (angle : T → Double) (fitPoints : List T) (alphas : List Double)
    (hfinite : ∀ a ∈ alphas, isFinite a = true) :
    (supportedFitSegments angle fitPoints alphas).flatten.Subperm fitPoints ∧
      ∀ seg ∈ supportedFitSegments angle fitPoints alphas, ∀ p ∈ seg,
        Supported (fitBridgeThresholdDeg (sortedAngles alphas)) (sortedAngles alphas) (angle p) := by
  have hsortedFinite : ∀ a ∈ sortedAngles alphas, isFinite a = true :=
    fun a ha => hfinite a (List.mem_eraseDups.mp (mem_jsSort.mp ha))
  have hnumber : ∀ a ∈ alphas.eraseDups, a.val ≠ .nan :=
    fun a ha => Double.ne_nan_of_fin (Double.val_of_finite (hfinite a (List.mem_eraseDups.mp ha)))
  have horders : OrdersBy sub Double.rank alphas.eraseDups := fun p hp q hq => (Double.sub_spec (hnumber p hp) (hnumber q hq)).1
  have hvalues : (sortedAngles alphas).Pairwise fun a b => a.value ≤ b.value := by
    refine List.Pairwise.imp_of_mem ?_ horders.sorted
    intro a b ha hb hrank
    have ha' := Double.val_of_finite (hsortedFinite a ha)
    have hb' := Double.val_of_finite (hsortedFinite b hb)
    rwa [← Double.le_iff_rank (Double.ne_nan_of_fin ha') (Double.ne_nan_of_fin hb'), Double.le_iff ha' hb'] at hrank
  have hbridge := isBridge hsortedFinite
  unfold supportedFitSegments
  split_ifs
  · exact ⟨List.nil_subperm, by simp⟩
  · unfold spansOf
    cases hangles : sortedAngles alphas with
    | nil => exact ⟨List.nil_subperm, by simp⟩
    | cons first rest =>
      rw [hangles] at hsortedFinite hvalues hbridge
      constructor
      · have hspans := spansFrom_apart first hbridge hsortedFinite hvalues
        refine (List.filter_sublist.flatten.subperm).trans ?_
        have htests : ((spansFrom (fitBridgeThresholdDeg (first :: rest)) first first rest).map fun span =>
            fun p => within span (angle p)).Pairwise fun p q => ∀ x, ¬(p x = true ∧ q x = true) := by
          rw [List.pairwise_map]
          refine List.Pairwise.imp_of_mem ?_ hspans
          intro span other hspan hother hgap x
          exact not_both_within (hsortedFinite _ (mem_spansFrom hspan).2) (hsortedFinite _ (mem_spansFrom hother).1) hgap _
        have hsub := filters_subperm fitPoints htests
        rwa [List.map_map] at hsub
      · intro seg hseg p hp
        obtain ⟨span, hspan, rfl⟩ := List.mem_map.mp (List.mem_of_mem_filter hseg)
        have hstart : ∀ angle, within (first, first) angle = true →
            Supported (fitBridgeThresholdDeg (first :: rest)) (first :: rest) angle :=
          fun angle hwithin => .inr ⟨first, List.mem_cons_self, hwithin⟩
        exact spansFrom_supported [] rfl hsortedFinite hstart span hspan _ (List.mem_filter.mp hp).2

end Spans

/-! ## `readoutAtX` -/

/-- The value of an absent `cm`. -/
def notANumber : Double := ⟨.nan, round64_nan⟩

def xyOf (p : PolarPointData) : ChartType → Double × Double
  | .cla => (p.a, p.cl)
  | .clcd => (p.cd, p.cl)
  | .lda => (p.a, p.ld)
  | .cma => (p.a, p.cm.getD notANumber)

/-- The loop of `finiteChartSegments`; `current` is the segment that is open. -/
def finiteLoop (type : ChartType) (current : List PolarPointData) : List PolarPointData → List (List PolarPointData)
  | [] => if current.isEmpty then [] else [current]
  | p :: rest =>
    if isFinite (xyOf p type).1 && isFinite (xyOf p type).2 then finiteLoop type (current ++ [p]) rest
    else if current.isEmpty then finiteLoop type [] rest
    else current :: finiteLoop type [] rest

def finiteChartSegments (points : List PolarPointData) (type : ChartType) : List (List PolarPointData) :=
  finiteLoop type [] points

/-- The value at `x` behind `before`: on the first line that reaches `x`, else the last value. -/
def interpAfter (x : Double) (before : Double × Double) : List (Double × Double) → Double
  | [] => before.2
  | next :: rest =>
    if le x next.1 then
      if eq next.1 before.1 then before.2
      else add before.2 (mul (div (sub x before.1) (sub next.1 before.1)) (sub next.2 before.2))
    else interpAfter x next rest

/-- The loop body of `interpSeriesAtX`; none goes on to the next segment. -/
def interpSegment (x : Double) (xs : List (Double × Double)) : Option (Option Double) :=
  match xs.head?, xs.getLast? with
  | some first, some last =>
    if lt x first.1 || lt last.1 x then none
    else if xs.length = 1 then some (if eq x first.1 then some first.2 else none)
    else some (some (interpAfter x first xs.tail))
  | _, _ => none

def interpSeriesAtX (points : List PolarPointData) (type : ChartType) (x : Double) : Option Double :=
  ((finiteChartSegments points type).findSome? fun segment =>
    interpSegment x (jsSort (fun p q => sub p.1 q.1) (segment.map fun point => xyOf point type))).join

structure FitPoint where
  a : Double
  cl : Double
  cd : Double
  cm : Double
  ld : Double
  a_number : a.val ≠ .nan

def fitPointToPolarPoint (p : FitPoint) : PolarPointData where
  a := p.a
  cl := p.cl
  cd := p.cd
  cm := some p.cm
  ld := p.ld
  classificationState := none
  evidenceRole := none
  a_number := p.a_number

/-- One of `polars`; a polar without a fit has no samples. -/
structure ChartPolar where
  seriesId : String
  label : String
  re : Double
  color : String
  points : List PolarPointData
  fitPoints : List FitPoint

inductive CurveKind where
  | measured
  | fit
  deriving DecidableEq

structure ChartReadoutRow where
  seriesId : String
  re : Double
  color : String
  label : String
  kind : CurveKind
  y : Double

def measuredSegments (pl : ChartPolar) (type : ChartType) : List (List PolarPointData) :=
  (measuredEvidenceSegments pl.points).flatMap fun segment => finiteChartSegments segment type

/-- The drawn segments of a fit, those of one measured segment after those of another. -/
def drawnFitSegments (pl : ChartPolar) (type : ChartType) : List (List FitPoint) :=
  (measuredSegments pl type).flatMap fun segment =>
    supportedFitSegments FitPoint.a pl.fitPoints (segment.map PolarPointData.a)

def readoutRows (pl : ChartPolar) (type : ChartType) (x : Double) : List ChartReadoutRow :=
  let measured := (measuredSegments pl type).findSome? fun segment => interpSeriesAtX segment type x
  let fitted := (drawnFitSegments pl type).findSome? fun seg => interpSeriesAtX (seg.map fitPointToPolarPoint) type x
  (measured.map fun y => ⟨pl.seriesId, pl.re, pl.color, pl.label, .measured, y⟩).toList ++
    (fitted.map fun y => ⟨pl.seriesId, pl.re, pl.color, pl.label ++ " · best-fit", .fit, y⟩).toList

def readoutAtX (type : ChartType) (polars : List ChartPolar) (visibleSeries : String → Bool) (x : Double) :
    List ChartReadoutRow :=
  if type = .clcd then []
  else (polars.filter fun pl => visibleSeries pl.seriesId).flatMap fun pl => readoutRows pl type x

section Readout
variable {type : ChartType} {points : List PolarPointData} {x y : Double}

theorem mem_finiteLoop {current segment : List PolarPointData} (h : segment ∈ finiteLoop type current points) :
    ∀ p ∈ segment, p ∈ current ∨ p ∈ points := by
  induction points generalizing current with
  | nil =>
    rw [finiteLoop] at h
    split_ifs at h
    · exact (List.not_mem_nil h).elim
    · rw [List.mem_singleton.mp h]
      exact fun p hp => .inl hp
  | cons point rest ih =>
    rw [finiteLoop] at h
    split_ifs at h
    · intro p hp
      rcases ih h p hp with hcurrent | hrest
      · rcases List.mem_append.mp hcurrent with hcurrent | hpoint
        · exact .inl hcurrent
        · exact .inr (List.mem_cons.mpr (.inl (List.mem_singleton.mp hpoint)))
      · exact .inr (List.mem_cons_of_mem _ hrest)
    · intro p hp
      exact .inr (List.mem_cons_of_mem _ ((ih h p hp).resolve_left List.not_mem_nil))
    · rcases List.mem_cons.mp h with rfl | h
      · exact fun p hp => .inl hp
      · intro p hp
        exact .inr (List.mem_cons_of_mem _ ((ih h p hp).resolve_left List.not_mem_nil))

theorem xyOf_angle (p : PolarPointData) (htype : type ≠ .clcd) : (xyOf p type).1 = p.a := by
  cases type with
  | clcd => exact absurd rfl htype
  | cla => rfl
  | lda => rfl
  | cma => rfl

theorem interpSeriesAtX_between (htype : type ≠ .clcd) (hx : x.val ≠ .nan) (h : interpSeriesAtX points type x = some y) :
    ∃ p ∈ points, ∃ q ∈ points, le p.a x = true ∧ le x q.a = true := by
  unfold interpSeriesAtX at h
  rw [Option.join_eq_some_iff] at h
  obtain ⟨segment, hsegment, hvalue⟩ := List.exists_of_findSome?_eq_some h
  have hmem : ∀ xy ∈ jsSort (fun p q => sub p.1 q.1) (segment.map fun point => xyOf point type),
      ∃ p ∈ points, p.a = xy.1 := by
    intro xy hxy
    obtain ⟨p, hp, rfl⟩ := List.mem_map.mp (mem_jsSort.mp hxy)
    exact ⟨p, (mem_finiteLoop hsegment p hp).resolve_left List.not_mem_nil, (xyOf_angle p htype).symm⟩
  unfold interpSegment at hvalue
  split at hvalue
  · next first last hfirst hlast =>
    obtain ⟨p, hp, hpfirst⟩ := hmem first (List.mem_of_head? hfirst)
    obtain ⟨q, hq, hqlast⟩ := hmem last (List.mem_of_getLast? hlast)
    have hinside : (lt x first.1 || lt last.1 x) = false := by
      by_contra hout
      rw [Bool.not_eq_false] at hout
      rw [if_pos hout] at hvalue
      cases hvalue
    rw [Bool.or_eq_false_iff] at hinside
    refine ⟨p, hp, q, hq, ?_, ?_⟩
    · rw [Double.le_iff_rank p.a_number hx, hpfirst]
      exact (Double.not_lt_iff_rank hx (hpfirst ▸ p.a_number)).mp hinside.1
    · rw [Double.le_iff_rank hx q.a_number, hqlast]
      exact (Double.not_lt_iff_rank (hqlast ▸ q.a_number) hx).mp hinside.2
  · cases hvalue

theorem readoutAtX_fit {polars : List ChartPolar} {visibleSeries : String → Bool} {row : ChartReadoutRow}
    (hx : x.val ≠ .nan) (hrow : row ∈ readoutAtX type polars visibleSeries x) (hkind : row.kind = .fit) :
    ∃ pl ∈ polars, row.seriesId = pl.seriesId ∧ ∃ seg ∈ drawnFitSegments pl type,
      ∃ p ∈ seg, ∃ q ∈ seg, le p.a x = true ∧ le x q.a = true := by
  unfold readoutAtX at hrow
  split_ifs at hrow with htype
  · exact (List.not_mem_nil hrow).elim
  · obtain ⟨pl, hpl, hrow⟩ := List.mem_flatMap.mp hrow
    refine ⟨pl, List.mem_of_mem_filter hpl, ?_⟩
    rcases List.mem_append.mp hrow with hrow | hrow
    · obtain ⟨value, _, rfl⟩ := Option.map_eq_some_iff.mp (Option.mem_toList.mp hrow)
      cases hkind
    · obtain ⟨value, hvalue, rfl⟩ := Option.map_eq_some_iff.mp (Option.mem_toList.mp hrow)
      obtain ⟨seg, hseg, hread⟩ := List.exists_of_findSome?_eq_some hvalue
      obtain ⟨p, hp, q, hq, hbetween⟩ := interpSeriesAtX_between htype hx hread
      obtain ⟨p', hp', rfl⟩ := List.mem_map.mp hp
      obtain ⟨q', hq', rfl⟩ := List.mem_map.mp hq
      exact ⟨rfl, seg, hseg, p', hp', q', hq', hbetween⟩

end Readout

/-- Each fit sample is drawn at most once, and only within the tolerance of an interval between adjacent evidence angles
that is bridged, or of one evidence angle; and a fitted value is read at `x` only inside a drawn segment. -/
theorem fit_drawn_where_supported {T : Type} (angle : T → Double) (fitPoints : List T) (alphas : List Double)
    (hfinite : ∀ a ∈ alphas, isFinite a = true) (type : ChartType) (polars : List ChartPolar)
    (visibleSeries : String → Bool) (x : Double) (hx : x.val ≠ .nan) :
    (supportedFitSegments angle fitPoints alphas).flatten.Subperm fitPoints ∧
    (∀ seg ∈ supportedFitSegments angle fitPoints alphas, ∀ p ∈ seg,
      Supported (fitBridgeThresholdDeg (sortedAngles alphas)) (sortedAngles alphas) (angle p)) ∧
    ∀ row ∈ readoutAtX type polars visibleSeries x, row.kind = .fit →
      ∃ pl ∈ polars, row.seriesId = pl.seriesId ∧ ∃ seg ∈ drawnFitSegments pl type,
        ∃ p ∈ seg, ∃ q ∈ seg, le p.a x = true ∧ le x q.a = true := by
  obtain ⟨honce, hsupported⟩ := supportedFitSegments_spec angle fitPoints alphas hfinite
  exact ⟨honce, hsupported, fun row hrow hkind => readoutAtX_fit hx hrow hkind⟩

theorem fit_drawn_where_supported_two_angles :
    (supportedFitSegments id [(lit 0 : Double), lit 1] [lit 0, lit 1]).flatten.Subperm [lit 0, lit 1] := by
  have hfinite : ∀ a ∈ [(lit 0 : Double), lit 1], isFinite a = true := by decide +kernel
  exact (fit_drawn_where_supported id _ _ hfinite .cla [] (fun _ => true) (lit 0) (by decide +kernel)).1

/-- Evidence at 0, 1, 2 and 20 degrees: a sample beyond 2 degrees is drawn, and two samples at 20 degrees, where no interval
is bridged. -/
theorem samples_drawn_outside_intervals :
    (lit (2 + 1 / (2 * 10 ^ 9)) : Double) ∈ (supportedFitSegments id
        [lit (1 / 2), lit (2 + 1 / (2 * 10 ^ 9)), lit 20, lit 20] [lit 0, lit 1, lit 2, lit 20]).flatten ∧
      (lit 20 : Double) ∈ (supportedFitSegments id
        [lit (1 / 2), lit (2 + 1 / (2 * 10 ^ 9)), lit 20, lit 20] [lit 0, lit 1, lit 2, lit 20]).flatten ∧
      ∀ pair ∈ [((lit 0 : Double), (lit 1 : Double)), (lit 1, lit 2), (lit 2, lit 20)],
        le (sub pair.2 pair.1) (fitBridgeThresholdDeg [lit 0, lit 1, lit 2, lit 20]) = true →
          ¬(le pair.1 (lit 20) = true ∧ le (lit 20) pair.2 = true) ∧
            ¬(le pair.1 (lit (2 + 1 / (2 * 10 ^ 9))) = true ∧ le (lit (2 + 1 / (2 * 10 ^ 9))) pair.2 = true) := by
  decide +kernel

end XFoilFoam.Chart
