import XFoilFoam.Foundations.Bytes
import XFoilFoam.Foundations.JsSort
import XFoilFoam.Foundations.Table
import Mathlib.Data.List.DropRight
import Mathlib.Data.Nat.Digits.Defs

/-! The choices of the comparison page, `apps/web/lib/polar-series.ts`: the union of the series of several
payloads, counted by payload and told apart by condition ordinals where their labels collide. -/
namespace XFoilFoam.Polar
set_option autoImplicit false

/-! ## Labels -/

def isDigitUnit (u : UInt16) : Bool := decide (48 ≤ u.toNat) && decide (u.toNat ≤ 57)

/-- How the `i` flag compares code units: the upper case, and only of ASCII letters, since a unit from 128
on never folds to one below. -/
def foldUnit (u : UInt16) : UInt16 := if 97 ≤ u.toNat ∧ u.toNat ≤ 122 then u - 32 else u

/-- ` · condition `. -/
def conditionMark : JsString := 0x20 :: 0xb7 :: unitsOf " condition "

/-- `label.replace(CONDITION_SUFFIX, "")`: the digits at the end and the mark before them. -/
def baseConditionLabel (label : JsString) : JsString :=
  let stem := label.rdropWhile isDigitUnit
  if stem.length < label.length ∧
      (stem.drop (stem.length - conditionMark.length)).map foldUnit = conditionMark.map foldUnit then
    stem.take (stem.length - conditionMark.length)
  else label

def decimalUnits (n : ℕ) : JsString := (Nat.digits 10 n).reverse.map fun d => UInt16.ofNat (48 + d)

def conditionLabel (base : JsString) (index : ℕ) : JsString := base ++ conditionMark ++ decimalUnits (index + 1)

theorem digit_toNat {d : ℕ} (h : d < 10) : (UInt16.ofNat (48 + d)).toNat = 48 + d := by
  rw [UInt16.toNat_ofNat']
  omega

theorem mem_decimalUnits {n : ℕ} {u : UInt16} (h : u ∈ decimalUnits n) : isDigitUnit u = true := by
  obtain ⟨d, hd, rfl⟩ := List.mem_map.mp h
  have hlt : d < 10 := Nat.digits_lt_base (by omega) (List.mem_reverse.mp hd)
  rw [isDigitUnit, digit_toNat hlt, Bool.and_eq_true, decide_eq_true_eq, decide_eq_true_eq]
  omega

theorem decimalUnits_ne_nil {n : ℕ} (h : 0 < n) : decimalUnits n ≠ [] := by
  rw [decimalUnits, Ne, List.map_eq_nil_iff, List.reverse_eq_nil_iff]
  exact Nat.digits_ne_nil_iff_ne_zero.mpr h.ne'

theorem decimalUnits_injective {n m : ℕ} (h : decimalUnits n = decimalUnits m) : n = m := by
  have hread (k : ℕ) : (decimalUnits k).map (fun u => u.toNat - 48) = (Nat.digits 10 k).reverse := by
    rw [decimalUnits, List.map_map]
    refine (List.map_congr_left fun d hd => ?_).trans (List.map_id _)
    have hlt : d < 10 := Nat.digits_lt_base (by omega) (List.mem_reverse.mp hd)
    have hunit := digit_toNat hlt
    simp only [Function.comp_apply, id_eq]
    omega
  have hdigits := (hread n).symm.trans ((congrArg _ h).trans (hread m))
  exact Nat.digits_inj_iff.mp (List.reverse_inj.mp hdigits)

theorem rdropWhile_append_digits {stem digits : JsString} (hdigits : ∀ u ∈ digits, isDigitUnit u = true)
    (hstem : stem.rdropWhile isDigitUnit = stem) :
    (stem ++ digits).rdropWhile isDigitUnit = stem := by
  induction digits using List.reverseRecOn with
  | nil => rw [List.append_nil, hstem]
  | append_singleton digits u ih =>
    rw [← List.append_assoc, List.rdropWhile_concat_pos _ _ _ (hdigits u (by simp))]
    exact ih fun v hv => hdigits v (List.mem_append_left _ hv)

theorem rdropWhile_mark (base : JsString) :
    (base ++ conditionMark).rdropWhile isDigitUnit = base ++ conditionMark := by
  rw [show base ++ conditionMark = (base ++ conditionMark.dropLast) ++ [0x20] by
    rw [List.append_assoc]; rfl]
  exact List.rdropWhile_concat_neg _ _ _ (by decide)

theorem baseConditionLabel_conditionLabel (base : JsString) (index : ℕ) :
    baseConditionLabel (conditionLabel base index) = base := by
  have hstem : (conditionLabel base index).rdropWhile isDigitUnit = base ++ conditionMark :=
    rdropWhile_append_digits (fun u hu => mem_decimalUnits hu) (rdropWhile_mark base)
  have hdigits : 0 < (decimalUnits (index + 1)).length :=
    List.length_pos_of_ne_nil (decimalUnits_ne_nil (Nat.succ_pos index))
  have hcut : (base ++ conditionMark).length - conditionMark.length = base.length := by
    rw [List.length_append]
    omega
  have hlength : (base ++ conditionMark).length < (conditionLabel base index).length := by
    simp only [conditionLabel, List.length_append]
    omega
  unfold baseConditionLabel
  simp only [hstem, hcut]
  rw [List.drop_left, List.take_left, if_pos ⟨hlength, rfl⟩]

theorem conditionLabel_injective {base : JsString} {i j : ℕ} (h : conditionLabel base i = conditionLabel base j) :
    i = j := by
  have hdigits := decimalUnits_injective (List.append_cancel_left h)
  omega

/-! ## Options -/

structure PayloadPolar where
  seriesId : JsString
  label : JsString
  re : Double

structure PolarSeriesOption where
  seriesId : JsString
  label : JsString
  re : Double
  coverage : ℕ

/-- `localeCompare`, a total preorder. -/
structure LocaleOrder where
  localeCompare : JsString → JsString → Double
  total : ∀ a b, (localeCompare a b).positive = false ∨ (localeCompare b a).positive = false
  trans : ∀ a b c, (localeCompare a b).positive = false → (localeCompare b c).positive = false →
    (localeCompare a c).positive = false

/-- `byId`: a map in the order its keys are first set. -/
abbrev OptionsById := Table JsString PolarSeriesOption

/-- One polar of a payload; the second component is `seenInDetail`. -/
def countPolar (state : OptionsById × List JsString) (polar : PayloadPolar) : OptionsById × List JsString :=
  let byId := if (state.1.find? polar.seriesId).isSome then state.1
    else state.1.set polar.seriesId ⟨polar.seriesId, polar.label, polar.re, 0⟩
  if polar.seriesId ∈ state.2 then (byId, state.2)
  else (byId.modify polar.seriesId fun option => { option with coverage := option.coverage + 1 },
    polar.seriesId :: state.2)

def countDetail (byId : OptionsById) (detail : Option (List PayloadPolar)) : OptionsById :=
  ((detail.getD []).foldl countPolar (byId, [])).1

def compareOptions (order : LocaleOrder) (a b : PolarSeriesOption) : Double :=
  ((Binary64.sub a.re b.re).orElse (order.localeCompare a.label b.label)).orElse
    (order.localeCompare a.seriesId b.seriesId)

/-- `byBaseLabel`. -/
def groupByBase (options : List PolarSeriesOption) : Table JsString (List PolarSeriesOption) :=
  options.foldl (fun groups option =>
    groups.set (baseConditionLabel option.label)
      ((groups.find? (baseConditionLabel option.label)).getD [] ++ [option])) Table.empty

/-- An assignment to `option.label`.  The options are the objects made for `byId`, one for each series id,
so the id names the object. -/
def assignLabel (assignment : JsString × JsString) (option : PolarSeriesOption) : PolarSeriesOption :=
  if option.seriesId = assignment.1 then { option with label := assignment.2 } else option

def groupLabels (order : LocaleOrder) (group : JsString × List PolarSeriesOption) : List (JsString × JsString) :=
  if group.2.length < 2 then []
  else (jsSort (fun a b => order.localeCompare a.seriesId b.seriesId) group.2).zipIdx.map fun entry =>
    (entry.1.seriesId, conditionLabel group.1 entry.2)

def disambiguate (order : LocaleOrder) (options : List PolarSeriesOption) : List PolarSeriesOption :=
  ((groupByBase options).rows.flatMap (groupLabels order)).foldl
    (fun options assignment => options.map (assignLabel assignment)) options

def polarSeriesOptions (order : LocaleOrder) (details : List (Option (List PayloadPolar))) :
    List PolarSeriesOption :=
  let byId := details.foldl countDetail Table.empty
  jsSort (compareOptions order)
    (disambiguate order (jsSort (compareOptions order) (byId.rows.map Prod.snd)))

/-! ## Coverage -/

def Counted (byId : OptionsById) (count : JsString → ℕ) : Prop :=
  ∀ id, (byId.find? id).map (fun option => (option.seriesId, option.coverage)) =
    if count id = 0 then none else some (id, count id)

theorem mem_seen_countPolar (state : OptionsById × List JsString) (polar : PayloadPolar) (id : JsString) :
    id ∈ (countPolar state polar).2 ↔ id = polar.seriesId ∨ id ∈ state.2 := by
  simp only [countPolar]
  split
  · next hseen =>
    constructor
    · exact .inr
    · rintro (rfl | hid)
      · exact hseen
      · exact hid
  · exact List.mem_cons

theorem find?_entry {byId : OptionsById} (polar : PayloadPolar) {n : ℕ}
    (h : (byId.find? polar.seriesId).map (fun option => (option.seriesId, option.coverage)) =
      if n = 0 then none else some (polar.seriesId, n)) :
    ((if (byId.find? polar.seriesId).isSome then byId
        else byId.set polar.seriesId ⟨polar.seriesId, polar.label, polar.re, 0⟩).find? polar.seriesId).map
      (fun option => (option.seriesId, option.coverage)) = some (polar.seriesId, n) := by
  by_cases hn : n = 0
  · rw [if_pos hn, Option.map_eq_none_iff] at h
    simp [h, hn]
  · rw [if_neg hn] at h
    obtain ⟨option, hfind, -⟩ := Option.map_eq_some_iff.mp h
    rw [hfind, Option.isSome_some, if_pos rfl, h]

theorem countPolar_counted {byId : OptionsById} {seen : List JsString} {before : JsString → ℕ}
    (h : Counted byId fun id => before id + if id ∈ seen then 1 else 0) (polar : PayloadPolar) :
    Counted (countPolar (byId, seen) polar).1
      fun id => before id + if id ∈ (countPolar (byId, seen) polar).2 then 1 else 0 := by
  intro id
  have hid := h id
  have hentry := find?_entry polar (h polar.seriesId)
  simp only [mem_seen_countPolar] at hid hentry ⊢
  by_cases hseen : polar.seriesId ∈ seen
  · have hfound : (byId.find? polar.seriesId).isSome = true := by
      have hpolar := h polar.seriesId
      beta_reduce at hpolar
      rw [if_pos hseen, if_neg (by omega), Option.map_eq_some_iff] at hpolar
      obtain ⟨option, hfind, -⟩ := hpolar
      rw [hfind]
      rfl
    have hmem : (id = polar.seriesId ∨ id ∈ seen) ↔ id ∈ seen := by
      refine ⟨?_, .inr⟩
      rintro (rfl | hid)
      · exact hseen
      · exact hid
    simp only [countPolar, hfound, if_true, if_pos hseen, hmem]
    exact hid
  · simp only [countPolar, if_neg hseen]
    by_cases hsame : id = polar.seriesId
    · subst hsame
      rw [if_neg hseen, Option.map_eq_some_iff] at hentry
      obtain ⟨option, hfind, hoption⟩ := hentry
      rw [Prod.mk.injEq] at hoption
      rw [Table.find?_modify_self, hfind]
      simp [hoption.1, hoption.2]
    · rw [Table.find?_modify_ne _ _ hsame]
      have hset : ((if (byId.find? polar.seriesId).isSome then byId
          else byId.set polar.seriesId ⟨polar.seriesId, polar.label, polar.re, 0⟩).find? id) = byId.find? id := by
        split
        · rfl
        · rw [Table.find?_set, if_neg hsame]
      rw [hset, hid]
      simp [hsame]

theorem countPolars_counted (before : JsString → ℕ) (polars : List PayloadPolar) :
    ∀ {state : OptionsById × List JsString},
      Counted state.1 (fun id => before id + if id ∈ state.2 then 1 else 0) →
        Counted (polars.foldl countPolar state).1 fun id => before id +
          if id ∈ state.2 ∨ ∃ polar ∈ polars, polar.seriesId = id then 1 else 0 := by
  induction polars with
  | nil =>
    intro state h
    simpa using h
  | cons polar polars ih =>
    intro state h
    have hstep := ih (countPolar_counted h polar)
    intro id
    have hseen : (id ∈ (countPolar state polar).2 ∨ ∃ p ∈ polars, p.seriesId = id) ↔
        id ∈ state.2 ∨ ∃ p ∈ polar :: polars, p.seriesId = id := by
      rw [mem_seen_countPolar, List.exists_mem_cons_iff]
      constructor
      · rintro ((rfl | hid) | hid)
        · exact .inr (.inl rfl)
        · exact .inl hid
        · exact .inr (.inr hid)
      · rintro (hid | rfl | hid)
        · exact .inl (.inr hid)
        · exact .inl (.inl rfl)
        · exact .inr hid
    simp only [← hseen]
    exact hstep id

def contains (id : JsString) (detail : Option (List PayloadPolar)) : Bool :=
  (detail.getD []).any fun polar => polar.seriesId = id

theorem countDetail_counted {byId : OptionsById} {count : JsString → ℕ} (h : Counted byId count)
    (detail : Option (List PayloadPolar)) :
    Counted (countDetail byId detail) fun id => count id + if contains id detail then 1 else 0 := by
  have hstart : Counted ((byId, []) : OptionsById × List JsString).1
      fun id => count id + if id ∈ ([] : List JsString) then 1 else 0 := by simpa using h
  have hfold := countPolars_counted count (detail.getD []) hstart
  intro id
  simpa [countDetail, contains] using hfold id

theorem countDetails_counted (details : List (Option (List PayloadPolar))) :
    Counted (details.foldl countDetail Table.empty) fun id => details.countP (contains id) := by
  induction details using List.reverseRecOn with
  | nil =>
    intro id
    simp
  | append_singleton details detail ih =>
    intro id
    have hstep := countDetail_counted ih detail id
    simp only [List.foldl_append, List.foldl_cons, List.foldl_nil, List.countP_append, List.countP_singleton]
    exact hstep

theorem countDetails_key {details : List (Option (List PayloadPolar))} {id : JsString} {option : PolarSeriesOption}
    (h : (id, option) ∈ (details.foldl countDetail Table.empty).rows) :
    option.seriesId = id ∧ option.coverage = details.countP (contains id) := by
  have hid := countDetails_counted details id
  rw [Table.find?_of_mem h, Option.map_some] at hid
  split at hid
  · cases hid
  · simpa using hid

/-! ## Distinct labels -/

section Labels
variable {order : LocaleOrder} {options : List PolarSeriesOption}

def withBase (options : List PolarSeriesOption) (base : JsString) : List PolarSeriesOption :=
  options.filter fun option => baseConditionLabel option.label = base

theorem find?_groupByBase (options : List PolarSeriesOption) (base : JsString) :
    (groupByBase options).find? base =
      if withBase options base = [] then none else some (withBase options base) := by
  induction options using List.reverseRecOn with
  | nil => rfl
  | append_singleton options option ih =>
    have hlast : withBase (options ++ [option]) base =
        withBase options base ++ if baseConditionLabel option.label = base then [option] else [] := by
      simp [withBase, List.filter_append, List.filter_singleton]
    rw [groupByBase, List.foldl_append, ← groupByBase, List.foldl_cons, List.foldl_nil, Table.find?_set, hlast]
    by_cases hbase : base = baseConditionLabel option.label
    · subst hbase
      rw [ih]
      by_cases hnil : withBase options (baseConditionLabel option.label) = []
      · simp [hnil]
      · simp [hnil]
    · have hne : ¬ baseConditionLabel option.label = base := fun h => hbase h.symm
      rw [if_neg hbase, if_neg hne, List.append_nil, ih]

def sortedGroup (order : LocaleOrder) (options : List PolarSeriesOption) (base : JsString) :
    List PolarSeriesOption :=
  jsSort (fun a b => order.localeCompare a.seriesId b.seriesId) (withBase options base)

theorem mem_sortedGroup {base : JsString} {option : PolarSeriesOption} :
    option ∈ sortedGroup order options base ↔ option ∈ options ∧ baseConditionLabel option.label = base := by
  rw [sortedGroup, mem_jsSort, withBase, List.mem_filter, decide_eq_true_eq]

def assignments (order : LocaleOrder) (options : List PolarSeriesOption) : List (JsString × JsString) :=
  (groupByBase options).rows.flatMap (groupLabels order)

theorem mem_assignments {assignment : JsString × JsString} :
    assignment ∈ assignments order options ↔ ∃ base, 2 ≤ (withBase options base).length ∧
      ∃ index option, (sortedGroup order options base)[index]? = some option ∧
        assignment = (option.seriesId, conditionLabel base index) := by
  have hgroup (base : JsString) (group : List PolarSeriesOption) :
      (base, group) ∈ (groupByBase options).rows ↔ group = withBase options base ∧ group ≠ [] := by
    rw [← Table.find?_some_iff, find?_groupByBase]
    by_cases hnil : withBase options base = []
    · rw [if_pos hnil, hnil]
      simp
    · rw [if_neg hnil, Option.some.injEq]
      constructor
      · rintro rfl
        exact ⟨rfl, hnil⟩
      · rintro ⟨rfl, -⟩
        rfl
  rw [assignments, List.mem_flatMap]
  constructor
  · rintro ⟨⟨base, group⟩, hmem, hlabels⟩
    obtain ⟨rfl, -⟩ := (hgroup base group).mp hmem
    rw [groupLabels] at hlabels
    split at hlabels
    · cases hlabels
    · next hlength =>
      obtain ⟨⟨option, index⟩, hentry, rfl⟩ := List.mem_map.mp hlabels
      exact ⟨base, Nat.not_lt.mp hlength, index, option, List.mem_zipIdx_iff_getElem?.mp hentry, rfl⟩
  · rintro ⟨base, hlength, index, option, hindex, rfl⟩
    refine ⟨(base, withBase options base), (hgroup base _).mpr ⟨rfl, ?_⟩, ?_⟩
    · rintro hnil
      rw [hnil, List.length_nil] at hlength
      omega
    · rw [groupLabels, if_neg (Nat.not_lt.mpr hlength)]
      exact List.mem_map.mpr ⟨(option, index), List.mem_zipIdx_iff_getElem?.mpr hindex, rfl⟩

def relabel (labels : List (JsString × JsString)) (option : PolarSeriesOption) : PolarSeriesOption :=
  labels.foldl (fun option assignment => assignLabel assignment option) option

theorem disambiguate_eq : disambiguate order options = options.map (relabel (assignments order options)) := by
  have hfold (labels : List (JsString × JsString)) (options : List PolarSeriesOption) :
      labels.foldl (fun options assignment => options.map (assignLabel assignment)) options =
        options.map (relabel labels) := by
    induction labels generalizing options with
    | nil => exact (List.map_id _).symm
    | cons assignment labels ih =>
      rw [List.foldl_cons, ih, List.map_map]
      rfl
  exact hfold _ _

theorem relabel_frame (labels : List (JsString × JsString)) (option : PolarSeriesOption) :
    (relabel labels option).seriesId = option.seriesId ∧ (relabel labels option).coverage = option.coverage := by
  induction labels generalizing option with
  | nil => exact ⟨rfl, rfl⟩
  | cons assignment labels ih =>
    obtain ⟨hid, hcoverage⟩ := ih (assignLabel assignment option)
    have hcons : relabel (assignment :: labels) option = relabel labels (assignLabel assignment option) := rfl
    rw [hcons, hid, hcoverage, assignLabel]
    split
    · exact ⟨rfl, rfl⟩
    · exact ⟨rfl, rfl⟩

theorem relabel_label {labels : List (JsString × JsString)} {option : PolarSeriesOption} (label : JsString)
    (h : ∀ assignment ∈ labels, assignment.1 = option.seriesId → assignment.2 = label) :
    (relabel labels option).label =
      if ∃ assignment ∈ labels, assignment.1 = option.seriesId then label else option.label := by
  induction labels using List.reverseRecOn with
  | nil => simp [relabel]
  | append_singleton labels assignment ih =>
    have hlast : relabel (labels ++ [assignment]) option = assignLabel assignment (relabel labels option) := by
      simp [relabel]
    rw [hlast, assignLabel, (relabel_frame labels option).1]
    by_cases hsame : option.seriesId = assignment.1
    · have hlabel := h assignment (by simp) hsame.symm
      rw [if_pos hsame, if_pos ⟨assignment, by simp, hsame.symm⟩, hlabel]
    · have hnamed : (∃ a ∈ labels ++ [assignment], a.1 = option.seriesId) ↔
          ∃ a ∈ labels, a.1 = option.seriesId := by
        constructor
        · rintro ⟨a, ha, hname⟩
          obtain hmem | hlast := List.mem_append.mp ha
          · exact ⟨a, hmem, hname⟩
          · exact absurd (List.mem_singleton.mp hlast ▸ hname).symm hsame
        · rintro ⟨a, ha, hname⟩
          exact ⟨a, List.mem_append_left _ ha, hname⟩
      rw [if_neg hsame]
      simp only [hnamed]
      exact ih fun a ha => h a (List.mem_append_left _ ha)

variable (hids : (options.map (·.seriesId)).Nodup)
include hids

variable (order) in
theorem sortedGroup_ids (base : JsString) : ((sortedGroup order options base).map (·.seriesId)).Nodup := by
  have hperm : (sortedGroup order options base).Perm (withBase options base) := jsSort_perm
  exact (hperm.map (·.seriesId)).nodup_iff.mpr (hids.sublist (List.filter_sublist.map _))

theorem option_ext {a b : PolarSeriesOption} (ha : a ∈ options) (hb : b ∈ options)
    (h : a.seriesId = b.seriesId) : a = b := List.inj_on_of_nodup_map hids ha hb h

theorem index_unique {base : JsString} {i j : ℕ} {a b : PolarSeriesOption}
    (hi : (sortedGroup order options base)[i]? = some a) (hj : (sortedGroup order options base)[j]? = some b)
    (h : a.seriesId = b.seriesId) : i = j := by
  have hnodup := sortedGroup_ids order hids base
  have hlt : i < ((sortedGroup order options base).map (·.seriesId)).length := by
    rw [List.length_map]
    exact (List.getElem?_eq_some_iff.mp hi).1
  rw [← List.getElem?_inj hlt hnodup, List.getElem?_map, List.getElem?_map, hi, hj]
  exact congrArg some h

variable (order) in
theorem relabelled {option : PolarSeriesOption} (hmem : option ∈ options) :
    ((withBase options (baseConditionLabel option.label)).length < 2 ∧
        (relabel (assignments order options) option).label = option.label) ∨
      ∃ index, (sortedGroup order options (baseConditionLabel option.label))[index]? = some option ∧
        (relabel (assignments order options) option).label =
          conditionLabel (baseConditionLabel option.label) index := by
  -- an assignment that names the option comes from its own group and its own place
  have hnamed : ∀ assignment ∈ assignments order options, assignment.1 = option.seriesId →
      2 ≤ (withBase options (baseConditionLabel option.label)).length ∧
        ∃ index, (sortedGroup order options (baseConditionLabel option.label))[index]? = some option ∧
          assignment.2 = conditionLabel (baseConditionLabel option.label) index := by
    intro assignment hassigned hname
    obtain ⟨base, hlength, index, named, hindex, rfl⟩ := mem_assignments.mp hassigned
    obtain ⟨hnamedMem, rfl⟩ := mem_sortedGroup.mp (List.mem_of_getElem? hindex)
    obtain rfl := option_ext hids hnamedMem hmem hname
    exact ⟨hlength, index, hindex, rfl⟩
  by_cases hlength : 2 ≤ (withBase options (baseConditionLabel option.label)).length
  · have hgroup : option ∈ sortedGroup order options (baseConditionLabel option.label) :=
      mem_sortedGroup.mpr ⟨hmem, rfl⟩
    obtain ⟨index, hindex⟩ := List.getElem?_of_mem hgroup
    refine .inr ⟨index, hindex, ?_⟩
    have hassigned : (option.seriesId, conditionLabel (baseConditionLabel option.label) index) ∈
        assignments order options := mem_assignments.mpr ⟨_, hlength, index, option, hindex, rfl⟩
    rw [relabel_label (conditionLabel (baseConditionLabel option.label) index),
      if_pos ⟨_, hassigned, rfl⟩]
    intro assignment hother hname
    obtain ⟨-, index', hindex', hlabel⟩ := hnamed assignment hother hname
    rw [hlabel, index_unique hids hindex' hindex rfl]
  · refine .inl ⟨by omega, ?_⟩
    rw [relabel_label option.label fun assignment hassigned hname =>
      absurd (hnamed assignment hassigned hname).1 hlength, if_neg]
    rintro ⟨assignment, hassigned, hname⟩
    exact hlength (hnamed assignment hassigned hname).1

omit hids in
theorem eq_of_length_lt_two {group : List PolarSeriesOption} {a b : PolarSeriesOption} (h : group.length < 2)
    (ha : a ∈ group) (hb : b ∈ group) : a = b := by
  rcases group with _ | ⟨c, _ | ⟨d, rest⟩⟩
  · cases ha
  · rw [List.mem_singleton.mp ha, List.mem_singleton.mp hb]
  · simp only [List.length_cons] at h
    omega

variable (order) in
theorem relabelled_base {option : PolarSeriesOption} (hmem : option ∈ options) :
    baseConditionLabel (relabel (assignments order options) option).label = baseConditionLabel option.label := by
  obtain ⟨-, hlabel⟩ | ⟨index, -, hlabel⟩ := relabelled order hids hmem
  · rw [hlabel]
  · rw [hlabel, baseConditionLabel_conditionLabel]

theorem relabelled_injective {a b : PolarSeriesOption} (ha : a ∈ options) (hb : b ∈ options)
    (h : (relabel (assignments order options) a).label = (relabel (assignments order options) b).label) :
    a = b := by
  have hbase : baseConditionLabel a.label = baseConditionLabel b.label := by
    rw [← relabelled_base order hids ha, h, relabelled_base order hids hb]
  have hgroup : ∀ c : PolarSeriesOption, c ∈ options → baseConditionLabel c.label = baseConditionLabel b.label →
      c ∈ withBase options (baseConditionLabel b.label) := fun c hc hcb =>
    List.mem_filter.mpr ⟨hc, decide_eq_true hcb⟩
  obtain ⟨hshort, -⟩ | ⟨i, hi, hlabel⟩ := relabelled order hids ha
  · rw [hbase] at hshort
    exact eq_of_length_lt_two hshort (hgroup a ha hbase) (hgroup b hb rfl)
  · obtain ⟨hshort, -⟩ | ⟨j, hj, hlabel'⟩ := relabelled order hids hb
    · exact eq_of_length_lt_two hshort (hgroup a ha hbase) (hgroup b hb rfl)
    · rw [hlabel, hlabel', hbase] at h
      obtain rfl := conditionLabel_injective h
      rw [hbase] at hi
      exact Option.some.inj (hi.symm.trans hj)

theorem disambiguate_labels : ((disambiguate order options).map (·.label)).Nodup := by
  have hnodup : options.Nodup := List.Nodup.of_map _ hids
  rw [disambiguate_eq, List.map_map]
  exact hnodup.map_on fun a ha b hb h => relabelled_injective hids ha hb h

end Labels

/-- Every series of the payloads is offered once, counted by the payloads that have it, and no two choices
have one label. -/
theorem polarSeriesOptions_distinct (order : LocaleOrder) (details : List (Option (List PayloadPolar))) :
    ((polarSeriesOptions order details).map (·.seriesId)).Nodup ∧
      (∀ id, id ∈ (polarSeriesOptions order details).map (·.seriesId) ↔
        ∃ detail ∈ details, ∃ polars, detail = some polars ∧ ∃ polar ∈ polars, polar.seriesId = id) ∧
      (∀ option ∈ polarSeriesOptions order details,
        option.coverage = details.countP (contains option.seriesId)) ∧
      ((polarSeriesOptions order details).map (·.label)).Nodup := by
  have hrows := countDetails_counted details
  have hkeys := @countDetails_key details
  simp only [polarSeriesOptions]
  generalize details.foldl countDetail Table.empty = byId at hrows hkeys ⊢
  generalize hsorted : jsSort (compareOptions order) (byId.rows.map Prod.snd) = options
  have hperm : options.Perm (byId.rows.map Prod.snd) := hsorted ▸ jsSort_perm
  have hvalues : (byId.rows.map Prod.snd).map (·.seriesId) = byId.rows.map Prod.fst := by
    rw [List.map_map]
    exact List.map_congr_left fun row hrow => (hkeys hrow).1
  have hids : (options.map (·.seriesId)).Nodup := by
    rw [(hperm.map _).nodup_iff, hvalues]
    exact byId.nodup
  have hfinal : (jsSort (compareOptions order) (disambiguate order options)).Perm
      (options.map (relabel (assignments order options))) := disambiguate_eq ▸ jsSort_perm
  have hfinalIds : ((jsSort (compareOptions order) (disambiguate order options)).map (·.seriesId)).Perm
      (byId.rows.map Prod.fst) := by
    rw [← hvalues]
    refine (hfinal.map _).trans ?_
    rw [List.map_map]
    refine List.Perm.trans (List.Perm.of_eq ?_) (hperm.map _)
    exact List.map_congr_left fun option _ => (relabel_frame _ option).1
  refine ⟨hfinalIds.nodup_iff.mpr byId.nodup, fun id => ?_, fun option hoption => ?_, ?_⟩
  · have hcontained : 0 < details.countP (contains id) ↔
        ∃ detail ∈ details, ∃ polars, detail = some polars ∧ ∃ polar ∈ polars, polar.seriesId = id := by
      rw [List.countP_pos_iff]
      refine exists_congr fun detail => and_congr_right fun _ => ?_
      cases detail <;> simp [contains]
    rw [hfinalIds.mem_iff, ← hcontained]
    have hid := hrows id
    beta_reduce at hid
    constructor
    · intro hmem
      obtain ⟨⟨key, option⟩, hrow, rfl⟩ := List.mem_map.mp hmem
      by_contra hzero
      rw [Table.find?_of_mem hrow, if_pos (by omega)] at hid
      cases hid
    · intro hpos
      rw [if_neg (by omega), Option.map_eq_some_iff] at hid
      obtain ⟨option, hfind, -⟩ := hid
      exact Table.key_mem (Table.mem_of_find? hfind)
  · obtain ⟨original, horiginal, rfl⟩ := List.mem_map.mp (hfinal.mem_iff.mp hoption)
    obtain ⟨hid, hcoverage⟩ := relabel_frame (assignments order options) original
    obtain ⟨⟨key, value⟩, hrow, rfl⟩ := List.mem_map.mp (hperm.mem_iff.mp horiginal)
    obtain ⟨rfl, hcount⟩ := hkeys hrow
    rw [hid, hcoverage, hcount]
  · exact (jsSort_perm.map _).nodup_iff.mpr (disambiguate_labels hids)

end XFoilFoam.Polar
