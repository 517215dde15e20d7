import XFoilFoam.Polar.Classify
import XFoilFoam.Foundations.JsSort
import XFoilFoam.Foundations.DoubleOrder

/-! The measured lines of `packages/core/src/chart.ts`: accepted primary evidence, angle by angle, broken
where an angle has none. -/
namespace XFoilFoam.Chart
open Binary64
set_option autoImplicit false

/-! ## Evidence -/

inductive EvidenceRole where
  | primary
  | alternate
  | conflict
  deriving DecidableEq

/-- The fields of a chart point that decide what is drawn; an angle of attack is a number. -/
structure PolarPointData where
  a : Double
  cl : Double
  cd : Double
  cm : Option Double
  ld : Double
  classificationState : Option Polar.ResultClassificationState
  evidenceRole : Option EvidenceRole
  a_number : a.val ≠ .nan
  deriving DecidableEq

def isPrimaryEvidence (point : PolarPointData) : Bool :=
  point.evidenceRole == none || point.evidenceRole == some .primary

def isAcceptedPrimaryEvidence (point : PolarPointData) : Bool :=
  isPrimaryEvidence point && point.classificationState == some .accepted

/-- `[...points].sort((a, b) => a.a - b.a)`. -/
def byAngle (points : List PolarPointData) : List PolarPointData := jsSort (fun p q => sub p.a q.a) points

/-! ## Measured segments -/

abbrev Bucket := Double × List PolarPointData

/-- `byAoa.get(point.a) ?? []` with the point pushed, set again under its angle. -/
def addToBucket (point : PolarPointData) : List Bucket → List Bucket
  | [] => [(point.a, [point])]
  | (angle, bucket) :: rest =>
    if angle = point.a then (angle, bucket ++ [point]) :: rest
    else (angle, bucket) :: addToBucket point rest

def bucketsOf (points : List PolarPointData) : List Bucket :=
  points.foldl (fun buckets point => addToBucket point buckets) []

/-- The loop over the buckets; `current` is the segment that is open. -/
def measuredLoop (current : List PolarPointData) : List Bucket → List (List PolarPointData)
  | [] => if current.isEmpty then [] else [current]
  | (_, bucket) :: rest =>
    let acceptedPrimary := bucket.filter isAcceptedPrimaryEvidence
    if acceptedPrimary.isEmpty then
      if current.isEmpty then measuredLoop [] rest else current :: measuredLoop [] rest
    else measuredLoop (current ++ acceptedPrimary) rest

def measuredEvidenceSegments (points : List PolarPointData) : List (List PolarPointData) :=
  measuredLoop [] (bucketsOf (byAngle points))

/-! ## Points in the order of their angles -/

theorem ordersBy_angle (points : List PolarPointData) :
    OrdersBy (fun p q : PolarPointData => sub p.a q.a) (fun p => p.a.rank) points :=
  fun p _ q _ => (Double.sub_spec p.a_number q.a_number).1

theorem byAngle_eq (points : List PolarPointData) :
    byAngle points = KeyOrder.sortBy (fun p => p.a.rank) points := (ordersBy_angle points).jsSort_eq_sortBy

theorem mem_byAngle {points : List PolarPointData} {p : PolarPointData} : p ∈ byAngle points ↔ p ∈ points :=
  mem_jsSort

/-! ## Buckets -/

structure Bucketed (buckets : List Bucket) : Prop where
  increasing : buckets.Pairwise fun b c => b.1.rank < c.1.rank
  angle : ∀ b ∈ buckets, ∀ p ∈ b.2, p.a = b.1
  number : ∀ b ∈ buckets, b.1.val ≠ .nan

theorem addToBucket_flatMap {buckets : List Bucket} (h : Bucketed buckets) {point : PolarPointData}
    (hlast : ∀ b ∈ buckets, b.1.rank ≤ point.a.rank) :
    (addToBucket point buckets).flatMap Prod.snd = buckets.flatMap Prod.snd ++ [point] := by
  induction buckets with
  | nil => rfl
  | cons b rest ih =>
    obtain ⟨angle, bucket⟩ := b
    obtain ⟨hhead, hrest⟩ := List.pairwise_cons.mp h.increasing
    rw [addToBucket]
    split
    · next hangle =>
      -- a later angle would exceed the point's
      have hnil : rest = [] := by
        by_contra hne
        obtain ⟨c, tail, rfl⟩ := List.exists_cons_of_ne_nil hne
        have hlt := hhead c List.mem_cons_self
        have hle := hlast c (List.mem_cons_of_mem _ List.mem_cons_self)
        rw [hangle] at hlt
        exact absurd hlt hle.not_gt
      rw [hnil]
      simp
    · next hangle =>
      have htail : Bucketed rest :=
        ⟨hrest, fun c hc => h.angle c (List.mem_cons_of_mem _ hc), fun c hc => h.number c (List.mem_cons_of_mem _ hc)⟩
      rw [List.flatMap_cons, ih htail (fun c hc => hlast c (List.mem_cons_of_mem _ hc)), List.flatMap_cons,
        List.append_assoc]

theorem angle_of_mem_addToBucket {buckets : List Bucket} {point : PolarPointData} {b : Bucket}
    (hb : b ∈ addToBucket point buckets) : b.1 = point.a ∨ ∃ c ∈ buckets, c.1 = b.1 := by
  induction buckets with
  | nil =>
    rw [addToBucket, List.mem_singleton] at hb
    exact .inl (by rw [hb])
  | cons c rest ih =>
    obtain ⟨angle, bucket⟩ := c
    rw [addToBucket] at hb
    split at hb
    · next hangle =>
      obtain rfl | hb := List.mem_cons.mp hb
      · exact .inl hangle
      · exact .inr ⟨b, List.mem_cons_of_mem _ hb, rfl⟩
    · obtain rfl | hb := List.mem_cons.mp hb
      · exact .inr ⟨_, List.mem_cons_self, rfl⟩
      · obtain hpoint | ⟨c, hc, hangle⟩ := ih hb
        · exact .inl hpoint
        · exact .inr ⟨c, List.mem_cons_of_mem _ hc, hangle⟩

theorem Bucketed.add {buckets : List Bucket} (h : Bucketed buckets) {point : PolarPointData}
    (hlast : ∀ b ∈ buckets, b.1.rank ≤ point.a.rank) : Bucketed (addToBucket point buckets) := by
  induction buckets with
  | nil =>
    refine ⟨List.pairwise_singleton _ _, ?_, ?_⟩
    · simp [addToBucket]
    · simpa [addToBucket] using point.a_number
  | cons b rest ih =>
    obtain ⟨angle, bucket⟩ := b
    obtain ⟨hhead, hrest⟩ := List.pairwise_cons.mp h.increasing
    have htail : Bucketed rest :=
      ⟨hrest, fun c hc => h.angle c (List.mem_cons_of_mem _ hc), fun c hc => h.number c (List.mem_cons_of_mem _ hc)⟩
    have hangles := h.angle _ List.mem_cons_self
    have hnumber := h.number _ List.mem_cons_self
    rw [addToBucket]
    split
    · next hangle =>
      refine ⟨List.pairwise_cons.mpr ⟨hhead, hrest⟩, ?_, ?_⟩
      · refine List.forall_mem_cons.mpr ⟨?_, htail.angle⟩
        simp only [List.mem_append, List.mem_singleton]
        rintro p (hp | rfl)
        · exact hangles p hp
        · exact hangle.symm
      · exact List.forall_mem_cons.mpr ⟨hnumber, htail.number⟩
    · next hangle =>
      have hadded := ih htail fun c hc => hlast c (List.mem_cons_of_mem _ hc)
      refine ⟨List.pairwise_cons.mpr ⟨?_, hadded.increasing⟩, List.forall_mem_cons.mpr ⟨hangles, hadded.angle⟩,
        List.forall_mem_cons.mpr ⟨hnumber, hadded.number⟩⟩
      intro c hc
      obtain hpoint | ⟨d, hd, hsame⟩ := angle_of_mem_addToBucket hc
      · rw [hpoint]
        refine lt_of_le_of_ne (hlast _ List.mem_cons_self) fun heq => hangle ?_
        exact Double.rank_inj hnumber point.a_number heq
      · rw [← hsame]
        exact hhead d hd

theorem bucketsOf_sorted (points : List PolarPointData) :
    Bucketed (bucketsOf (byAngle points)) ∧ (bucketsOf (byAngle points)).flatMap Prod.snd = byAngle points := by
  have hrun : ∀ (rest : List PolarPointData) (buckets : List Bucket), Bucketed buckets →
      (∀ b ∈ buckets, ∀ p ∈ rest, b.1.rank ≤ p.a.rank) → (rest.Pairwise fun p q => p.a.rank ≤ q.a.rank) →
      Bucketed (rest.foldl (fun buckets point => addToBucket point buckets) buckets) ∧
        (rest.foldl (fun buckets point => addToBucket point buckets) buckets).flatMap Prod.snd =
          buckets.flatMap Prod.snd ++ rest := by
    intro rest
    induction rest with
    | nil =>
      intro buckets h _ _
      exact ⟨h, (List.append_nil _).symm⟩
    | cons p rest ih =>
      intro buckets h hbefore hsorted
      obtain ⟨hp, hrest⟩ := List.pairwise_cons.mp hsorted
      have hlast : ∀ b ∈ buckets, b.1.rank ≤ p.a.rank := fun b hb => hbefore b hb p List.mem_cons_self
      obtain ⟨hbucketed, hflat⟩ := ih (addToBucket p buckets) (h.add hlast) (by
        intro b hb q hq
        obtain hpoint | ⟨c, hc, hsame⟩ := angle_of_mem_addToBucket hb
        · rw [hpoint]
          exact hp q hq
        · rw [← hsame]
          exact hbefore c hc q (List.mem_cons_of_mem _ hq)) hrest
      refine ⟨hbucketed, ?_⟩
      rw [List.foldl_cons, hflat, addToBucket_flatMap h hlast, List.append_assoc, List.singleton_append]
  have hempty : Bucketed [] := ⟨.nil, fun b hb => (List.not_mem_nil hb).elim, fun b hb => (List.not_mem_nil hb).elim⟩
  have hsorted := (ordersBy_angle points).sorted
  exact hrun (byAngle points) [] hempty (fun b hb => (List.not_mem_nil hb).elim) hsorted

/-! ## Runs of accepted angles -/

theorem measuredLoop_flatten (buckets : List Bucket) (current : List PolarPointData) :
    (measuredLoop current buckets).flatten =
      current ++ (buckets.flatMap Prod.snd).filter isAcceptedPrimaryEvidence := by
  induction buckets generalizing current with
  | nil =>
    rw [measuredLoop]
    split
    · next hempty => simp [List.isEmpty_iff.mp hempty]
    · simp
  | cons b rest ih =>
    obtain ⟨angle, bucket⟩ := b
    rw [measuredLoop, List.flatMap_cons, List.filter_append]
    split
    · next hnone =>
      rw [List.isEmpty_iff.mp hnone, List.nil_append]
      split
      · next hempty => rw [ih, List.isEmpty_iff.mp hempty]
      · rw [List.flatten_cons, ih, List.nil_append]
    · rw [ih, List.append_assoc]

theorem mem_measuredLoop {buckets : List Bucket} {current segment : List PolarPointData}
    (h : segment ∈ measuredLoop current buckets) :
    ∃ before run after, buckets = before ++ run ++ after ∧
      (∀ b ∈ run, b.2.filter isAcceptedPrimaryEvidence ≠ []) ∧
      segment = (if before = [] then current else []) ++
        run.flatMap (fun b => b.2.filter isAcceptedPrimaryEvidence) := by
  induction buckets generalizing current with
  | nil =>
    rw [measuredLoop] at h
    split at h
    · exact (List.not_mem_nil h).elim
    · rw [List.mem_singleton] at h
      exact ⟨[], [], [], rfl, by simp, by simp [h]⟩
  | cons b rest ih =>
    rw [measuredLoop] at h
    split at h
    · next hnone =>
      have hlater : segment ∈ measuredLoop [] rest → ∃ before run after, b :: rest = before ++ run ++ after ∧
          (∀ b ∈ run, b.2.filter isAcceptedPrimaryEvidence ≠ []) ∧
          segment = (if before = [] then current else []) ++
            run.flatMap (fun b => b.2.filter isAcceptedPrimaryEvidence) := by
        intro hmem
        obtain ⟨before, run, after, hsplit, hrun, hsegment⟩ := ih hmem
        refine ⟨b :: before, run, after, by rw [hsplit]; rfl, hrun, ?_⟩
        rw [hsegment, ite_self, if_neg (List.cons_ne_nil _ _)]
      split at h
      · exact hlater h
      · obtain rfl | hmem := List.mem_cons.mp h
        · exact ⟨[], [], b :: rest, rfl, by simp, by simp⟩
        · exact hlater hmem
    · next hsome =>
      rw [List.isEmpty_iff] at hsome
      obtain ⟨before, run, after, hsplit, hrun, hsegment⟩ := ih h
      by_cases hbefore : before = []
      · subst hbefore
        refine ⟨[], b :: run, after, by rw [hsplit]; rfl, List.forall_mem_cons.mpr ⟨hsome, hrun⟩, ?_⟩
        rw [hsegment, if_pos rfl, if_pos rfl, List.flatMap_cons, List.append_assoc]
      · refine ⟨b :: before, run, after, by rw [hsplit]; rfl, hrun, ?_⟩
        rw [hsegment, if_neg hbefore, if_neg (List.cons_ne_nil _ _)]

/-- The segments hold the accepted primary points, each once and in stable order of the angles; between
two points of one segment every angle with evidence has an accepted primary point. -/
theorem measured_segments_accepted (points : List PolarPointData) :
    (measuredEvidenceSegments points).flatten =
        KeyOrder.sortBy (fun p => p.a.rank) (points.filter isAcceptedPrimaryEvidence) ∧
      ∀ segment ∈ measuredEvidenceSegments points, ∀ p ∈ segment, ∀ q ∈ segment, ∀ r ∈ points,
        lt p.a r.a = true → lt r.a q.a = true →
          ∃ s ∈ points, s.a = r.a ∧ isAcceptedPrimaryEvidence s = true := by
  obtain ⟨hbucketed, hflat⟩ := bucketsOf_sorted points
  constructor
  · rw [measuredEvidenceSegments, measuredLoop_flatten, List.nil_append, hflat, byAngle_eq, KeyOrder.filter_sortBy]
  · intro segment hsegment p hp q hq r hr hpr hrq
    rw [Double.lt_iff_rank p.a_number r.a_number] at hpr
    rw [Double.lt_iff_rank r.a_number q.a_number] at hrq
    obtain ⟨before, run, after, hsplit, hrun, heq⟩ := mem_measuredLoop hsegment
    rw [ite_self, List.nil_append] at heq
    have hbucket : ∀ s ∈ points, ∃ b ∈ before ++ run ++ after, s ∈ b.2 := by
      intro s hs
      rw [← mem_byAngle, ← hflat] at hs
      rw [← hsplit]
      exact List.mem_flatMap.mp hs
    have hin : ∀ s ∈ segment, ∃ b ∈ run, s ∈ b.2 := by
      intro s hs
      rw [heq] at hs
      obtain ⟨b, hb, hmem⟩ := List.mem_flatMap.mp hs
      exact ⟨b, hb, List.mem_of_mem_filter hmem⟩
    have hangle : ∀ b ∈ before ++ run ++ after, ∀ s ∈ b.2, s.a = b.1 := by
      rw [← hsplit]
      exact hbucketed.angle
    have hincreasing := hbucketed.increasing
    rw [hsplit, List.pairwise_append, List.pairwise_append] at hincreasing
    obtain ⟨⟨-, -, hbeforeRun⟩, -, hbeforeAfter⟩ := hincreasing
    obtain ⟨bp, hbp, hpb⟩ := hin p hp
    obtain ⟨bq, hbq, hqb⟩ := hin q hq
    obtain ⟨br, hbr, hrb⟩ := hbucket r hr
    have hrunMem : ∀ b ∈ run, b ∈ before ++ run ++ after := fun b hb => by simp [hb]
    rw [hangle bp (hrunMem bp hbp) p hpb, hangle br hbr r hrb] at hpr
    rw [hangle bq (hrunMem bq hbq) q hqb, hangle br hbr r hrb] at hrq
    -- the bucket of `r` lies between two buckets of the run
    have hbrRun : br ∈ run := by
      rw [List.mem_append, List.mem_append] at hbr
      obtain (hbr | hbr) | hbr := hbr
      · exact absurd (hbeforeRun br hbr bp hbp) hpr.not_gt
      · exact hbr
      · exact absurd (hbeforeAfter bq (List.mem_append_right _ hbq) br hbr) hrq.not_gt
    obtain ⟨s, hs⟩ := List.exists_mem_of_ne_nil _ (hrun br hbrRun)
    obtain ⟨hsb, haccepted⟩ := List.mem_filter.mp hs
    refine ⟨s, ?_, ?_, haccepted⟩
    · rw [← mem_byAngle, ← hflat, hsplit]
      exact List.mem_flatMap.mpr ⟨br, hrunMem br hbrRun, hsb⟩
    · rw [hangle br (hrunMem br hbrRun) s hsb, hangle br (hrunMem br hbrRun) r hrb]

end XFoilFoam.Chart
