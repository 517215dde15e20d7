import XFoilFoam.Polar.CycleCertificate
import XFoilFoam.Foundations.Double

/-! The parser of a clean-cycle certificate beside the clean-cycle gate of `baseRejectionReasons`: both
read the same payload, the parser when it arrives and the gate when a polar is projected.  The gate
counts cycles, the parser counts distinct indices. -/
namespace XFoilFoam.Polar
open Binary64
set_option autoImplicit false

/-! ## Indices as doubles -/

section Indices
variable {entry : JsValue Double} {entries : List (JsValue Double)} {x y start : Double}

def indexValue (entry : JsValue Double) : ℚ := ((cycleIndex? entry).map Double.value).getD 0

def IsIndex (x : Double) : Prop := ∃ n : ℤ, x.val = .fin n ∧ 0 ≤ n

theorem isIndex_of (hinteger : isInteger x = true) (hnonneg : le (lit 0) x = true) : IsIndex x := by
  obtain ⟨n, hn⟩ := Double.integer_iff.mp hinteger
  have hzero : (lit ((0 : ℕ) : ℚ) : Double).val = .fin ((0 : ℕ) : ℚ) := Double.lit_natCast (by norm_num)
  rw [Nat.cast_zero] at hzero
  have hle := (Double.le_iff hzero hn).mp hnonneg
  exact ⟨n, hn, by exact_mod_cast hle⟩

theorem integer?_num {v : JsValue Double} (h : integer? v = some x) : v = .num x := by
  have hfinite := (Option.filter_eq_some_iff.mp h).1
  cases v with
  | num y =>
    rw [JsValue.finite?] at hfinite
    split at hfinite
    · cases hfinite
      rfl
    · cases hfinite
  | _ => cases hfinite

theorem cycleIndex?_isIndex (h : cycleIndex? entry = some x) : IsIndex x := by
  obtain ⟨hinteger, hnonneg⟩ := cycleIndex?_eq_some h
  exact isIndex_of (Option.filter_eq_some_iff.mp hinteger).2 hnonneg

theorem indexValue_eq (h : cycleIndex? entry = some x) : indexValue entry = x.value := by
  rw [indexValue, h]
  rfl

theorem le_next (hx : IsIndex x) (hy : IsIndex y) (h : eq y (add x (lit 1)) = true) :
    x.value ≤ y.value := by
  obtain ⟨n, hn, hnonneg⟩ := hx
  obtain ⟨m, hm, -⟩ := hy
  rw [Double.value_of_val hn, Double.value_of_val hm]
  rcases Double.add_one hn hnonneg with hexact | ⟨k, hk, hle, -⟩
  · have heq := (Double.eq_iff hm hexact).mp h
    rw [heq]
    linarith
  · have heq := (Double.eq_iff hm hk).mp h
    rw [heq]
    exact_mod_cast hle

theorem indices_ge (entries : List (JsValue Double)) (hx : IsIndex x)
    (hconsecutive : consecutiveIndices (some x) entries = true)
    (hindexes : ∀ entry ∈ entries, (cycleIndex? entry).isSome) :
    ∀ entry ∈ entries, x.value ≤ indexValue entry := by
  induction entries generalizing x with
  | nil => simp
  | cons entry rest ih =>
    rw [List.forall_mem_cons] at hindexes
    obtain ⟨y, hy⟩ := Option.isSome_iff_exists.mp hindexes.1
    rw [consecutiveIndices, (cycleIndex?_eq_some hy).1] at hconsecutive
    obtain ⟨hnext, hrest⟩ := Bool.and_eq_true_iff.mp hconsecutive
    have hle := le_next hx (cycleIndex?_isIndex hy) hnext
    rw [List.forall_mem_cons, indexValue_eq hy]
    exact ⟨hle, fun other hother => hle.trans (ih (cycleIndex?_isIndex hy) hrest hindexes.2 other hother)⟩

theorem lt_of_before_start (entries : List (JsValue Double)) (hstart : IsIndex start)
    (previous : Option Double) (hconsecutive : consecutiveIndices previous entries = true)
    (hindexes : ∀ entry ∈ entries, (cycleIndex? entry).isSome) (position : ℕ)
    (hposition : (entries.filterMap cycleIndex?).findIdx? (fun index => eq index start) = some position) :
    ∀ entry ∈ entries.take position, indexValue entry < start.value := by
  induction entries generalizing previous position with
  | nil => simp
  | cons entry rest ih =>
    rw [List.forall_mem_cons] at hindexes
    obtain ⟨x, hx⟩ := Option.isSome_iff_exists.mp hindexes.1
    rw [consecutiveIndices, (cycleIndex?_eq_some hx).1] at hconsecutive
    obtain ⟨-, hrest⟩ := Bool.and_eq_true_iff.mp hconsecutive
    rw [List.filterMap_cons, hx] at hposition
    rw [List.findIdx?_cons] at hposition
    split at hposition
    · cases hposition
      simp
    · next hne =>
      obtain ⟨later, hlater, rfl⟩ := Option.map_eq_some_iff.mp hposition
      rw [List.take_succ_cons, List.forall_mem_cons]
      refine ⟨?_, ih _ hrest hindexes.2 later hlater⟩
      -- the start is one of the later cycles
      obtain ⟨hlt, hfound, -⟩ := List.findIdx?_eq_some_iff_getElem.mp hlater
      obtain ⟨found, hmem, hindex⟩ := List.mem_filterMap.mp (List.getElem_mem hlt)
      have hge := indices_ge rest (cycleIndex?_isIndex hx) hrest hindexes.2 found hmem
      obtain ⟨n, hn, -⟩ := cycleIndex?_isIndex hx
      obtain ⟨m, hm, -⟩ := cycleIndex?_isIndex hindex
      obtain ⟨k, hk, -⟩ := hstart
      have hfoundValue := (Double.eq_iff hm hk).mp hfound
      have hother : (n : ℚ) ≠ k := fun h => hne ((Double.eq_iff hn hk).mpr h)
      rw [indexValue_eq hindex, Double.value_of_val hm, Double.value_of_val hn, hfoundValue] at hge
      rw [indexValue_eq hx, Double.value_of_val hn, Double.value_of_val hk]
      exact lt_of_le_of_ne hge hother

theorem findIdx?_cycles (entries : List (JsValue Double)) (start : Double) (p : JsValue Double → Bool)
    (hp : ∀ entry x, cycleIndex? entry = some x → p entry = eq x start)
    (hindexes : ∀ entry ∈ entries, (cycleIndex? entry).isSome) :
    entries.findIdx? p = (entries.filterMap cycleIndex?).findIdx? (fun index => eq index start) := by
  induction entries with
  | nil => rfl
  | cons entry rest ih =>
    rw [List.forall_mem_cons] at hindexes
    obtain ⟨x, hx⟩ := Option.isSome_iff_exists.mp hindexes.1
    rw [List.filterMap_cons, hx, List.findIdx?_cons, List.findIdx?_cons, ih hindexes.2, hp entry x hx]

theorem length_cycleIndex? (entries : List (JsValue Double))
    (hindexes : ∀ entry ∈ entries, (cycleIndex? entry).isSome) :
    (entries.filterMap cycleIndex?).length = entries.length := by
  rw [List.length_filterMap_eq_countP]
  exact List.countP_eq_length.mpr hindexes

theorem le_of_selected {selectedIndexes : List Double} (hstart : IsIndex start)
    (hselected : selectedIndexes = (entries.filterMap selectedIndex?).foldl addNumber [])
    (hindexes : ∀ entry ∈ entries, (cycleIndex? entry).isSome)
    (hge : selectedIndexes.all (fun index => le start index) = true) (hentry : entry ∈ entries)
    (hdisposition : selectedCycle entry = true) : start.value ≤ indexValue entry := by
  have hrefl : ∀ x ∈ entries.filterMap selectedIndex?, eq x x = true := by
    intro x hx
    obtain ⟨other, -, hother⟩ := List.mem_filterMap.mp hx
    rw [selectedIndex?] at hother
    split at hother
    · obtain ⟨n, hn, -⟩ := cycleIndex?_isIndex hother
      exact (Double.eq_iff hn hn).mpr rfl
    · cases hother
  obtain ⟨x, hx⟩ := Option.isSome_iff_exists.mp (hindexes entry hentry)
  have hmem : x ∈ entries.filterMap selectedIndex? :=
    List.mem_filterMap.mpr ⟨entry, hentry, by rw [selectedIndex?, if_pos hdisposition, hx]⟩
  obtain ⟨y, hy, heq⟩ := (mem_addNumbers _ [] hrefl).2 x hmem
  rw [← hselected] at hy
  have hle := List.all_eq_true.mp hge y hy
  obtain ⟨n, hn, -⟩ := cycleIndex?_isIndex hx
  obtain ⟨k, hk, -⟩ := hstart
  rw [indexValue_eq hx, Double.value_of_val hn, Double.value_of_val hk]
  exact (Double.le_iff hk (Double.val_of_eq heq hn)).mp hle

end Indices

/-! ## The parser and the gate -/

section Gate
variable {value result : JsValue Double} {required : ℕ} {compare : Relational Double}

structure SelectsSuffix (value : JsValue Double) (required position : ℕ) (start : Double) : Prop where
  selectedStart : integer? (value.get "selected_cycle_start_index") = some start
  nonneg : le (lit 0) start = true
  found : (((value.get "cycles").elements).filterMap cycleIndex?).findIdx?
    (fun index => eq index start) = some position
  before : ∀ cycle ∈ (value.get "cycles").elements.take position, selectedCycle cycle = false
  length : ((value.get "cycles").elements.drop position).length = required
  enough : required ≤ ((value.get "cycles").elements.filter selectedCycle).length

theorem selectedStart?_eq_some {start : Double} (h : selectedStart? value = some start) :
    integer? (value.get "selected_cycle_start_index") = some start ∧ le (lit 0) start = true := by
  rw [selectedStart?] at h
  split at h
  · next hgood =>
    rw [nonnegativeInteger, JsValue.finiteAnd, h, Option.any_some, Bool.and_eq_true] at hgood
    rw [integer?, h]
    exact ⟨by simp [hgood.1], hgood.2⟩
  · cases h

theorem isLit_num {v : JsValue Double} {q : ℚ} (h : v.isLit q = true) : ∃ x, v = .num x ∧ eq x (lit q) = true := by
  cases v with
  | num x => exact ⟨x, rfl, h⟩
  | _ => cases h

theorem selectsSuffix_of_parse (hsmall : required < 2 ^ 53)
    (hrequired : (value.get "required_clean_cycles").isLit required = true)
    (hscan : (scanCycles .start 0 (value.get "cycles").elements).errors = [])
    (hcertified : certifiedErrors compare value
      (scanCycles .start 0 (value.get "cycles").elements) = []) :
    ∃ position start, SelectsSuffix value required position start := by
  obtain ⟨-, hconsecutive, hindexes, -, hcycles, hselected⟩ := scanCycles_ok _ _ _ hscan
  simp only [CycleScan.start, List.nil_append] at hconsecutive hcycles hselected hcertified
  simp only [certifiedErrors, List.append_eq_nil_iff, pushIf_eq_nil, Bool.not_eq_false'] at hcertified
  obtain ⟨⟨⟨-, hstartIn⟩, -⟩, hsuffix⟩ := hcertified
  obtain ⟨start, hstart, -⟩ := (Option.any_eq_true _ _).mp hstartIn
  rw [hstart, Option.elim_some] at hsuffix
  obtain ⟨hinteger, hnonneg⟩ := selectedStart?_eq_some hstart
  have hindex : IsIndex start := isIndex_of (Option.filter_eq_some_iff.mp hinteger).2 hnonneg
  unfold suffixErrors at hsuffix
  split at hsuffix
  · cases hsuffix
  · next position hposition =>
    simp only [List.append_eq_nil_iff, pushIf_eq_nil, Bool.not_eq_false', Bool.and_eq_true] at hsuffix
    obtain ⟨⟨⟨⟨⟨-, hlength⟩, -⟩, hge⟩, hsize⟩, -⟩ := hsuffix
    obtain ⟨r, hr, hreq⟩ := isLit_num hrequired
    have hval : r.val = .fin required := Double.val_of_eq hreq (Double.lit_natCast hsmall.le)
    rw [hr] at hlength hsize
    have hdrop := Double.natCast_of_eq_lit hsmall hval hlength
    have hcount := Double.natCast_of_eq_lit hsmall hval hsize
    rw [hcycles] at hposition hdrop
    refine ⟨position, start, hinteger, hnonneg, hposition, ?_, ?_, ?_⟩
    · intro cycle hcycle
      have hlt := lt_of_before_start _ hindex none hconsecutive hindexes position hposition cycle hcycle
      by_contra hdisposition
      rw [Bool.not_eq_false] at hdisposition
      have hle := le_of_selected hindex hselected hindexes hge (List.mem_of_mem_take hcycle) hdisposition
      exact absurd hlt (not_lt.mpr hle)
    · rw [List.length_drop, length_cycleIndex? _ hindexes] at hdrop
      rw [List.length_drop]
      exact hdrop
    · rw [hselected] at hcount
      have hadded := length_addNumbers ((value.get "cycles").elements.filterMap selectedIndex?) []
      have hkept := length_selectedIndex? (value.get "cycles").elements
      simp only [List.length_nil] at hadded
      omega

theorem SelectsSuffix.after {position : ℕ} {start : Double} (h : SelectsSuffix value required position start) :
    (∀ cycle ∈ (value.get "cycles").elements.drop position, selectedCycle cycle = true) ∧
      ((value.get "cycles").elements.filter selectedCycle).length = required := by
  have hsplit : (value.get "cycles").elements.filter selectedCycle =
      ((value.get "cycles").elements.drop position).filter selectedCycle := by
    conv_lhs => rw [← List.take_append_drop position (value.get "cycles").elements, List.filter_append]
    have hbefore : ((value.get "cycles").elements.take position).filter selectedCycle = [] := by
      rw [List.filter_eq_nil_iff]
      intro cycle hcycle
      simp [h.before cycle hcycle]
    rw [hbefore, List.nil_append]
  have henough := h.enough
  have hle := List.length_filter_le selectedCycle ((value.get "cycles").elements.drop position)
  rw [hsplit] at henough ⊢
  rw [h.length] at hle
  have heq : (((value.get "cycles").elements.drop position).filter selectedCycle).length =
      ((value.get "cycles").elements.drop position).length := by
    rw [h.length]
    omega
  exact ⟨List.length_filter_eq_length_iff.mp heq, by omega⟩

theorem suffixIsValid_of {position : ℕ} {start : Double}
    (h : SelectsSuffix value required position start)
    (hindexes : ∀ entry ∈ (value.get "cycles").elements, (cycleIndex? entry).isSome)
    (hconsecutive : consecutiveIndices none (value.get "cycles").elements = true) :
    suffixIsValid value (value.get "cycles").elements required = true := by
  have hstart : startPosition value (value.get "cycles").elements = some position := by
    rw [startPosition, h.selectedStart]
    simp only
    rw [if_pos h.nonneg, ← h.found]
    apply findIdx?_cycles _ _ _ _ hindexes
    intro entry x hx
    rw [integer?_num (cycleIndex?_eq_some hx).1]
  obtain ⟨hafter, hlength⟩ := h.after
  rw [suffixIsValid, hstart, Option.any_some]
  simp only [Bool.and_eq_true, List.all_eq_true, beq_iff_eq]
  exact ⟨⟨⟨hafter, fun cycle hcycle => by simp [h.before cycle hcycle]⟩, hconsecutive⟩, hlength⟩

theorem certifiedCycleReasons_of_parse (hsmall : required < 2 ^ 53)
    (h : parseUransCycleCertificate compare value = .ok result)
    (hcertified : (value.get "certified").isTrue = true)
    (hrequired : (value.get "required_clean_cycles").isLit required = true) :
    certifiedCycleReasons value required = [] := by
  obtain ⟨hterminal, hscan, herrors⟩ := parse_certified h hcertified
  obtain ⟨position, start, hsuffix⟩ := selectsSuffix_of_parse hsmall hrequired hscan herrors
  obtain ⟨-, hconsecutive, hindexes, hquality, -, -⟩ := scanCycles_ok _ _ _ hscan
  obtain ⟨-, hlength⟩ := hsuffix.after
  have hissues : ((value.get "cycles").elements.filter selectedCycle).flatMap
      selectedCleanCycleQualityReasons = [] := by
    rw [List.flatMap_eq_nil_iff]
    intro cycle hcycle
    obtain ⟨hmem, hselected⟩ := List.mem_filter.mp hcycle
    exact hquality cycle hmem hselected
  obtain ⟨r, hr, hreq⟩ := isLit_num hrequired
  have hlit : (lit (required : ℚ) : Double).val = .fin required := Double.lit_natCast hsmall.le
  have hval : r.val = .fin required := Double.val_of_eq hreq hlit
  have hinteger : integer? (.num r) = some r := by
    have hfinite : isFinite r = true := by
      show r.val.isFinite = true
      rw [hval]
      rfl
    rw [integer?, JsValue.finite?, if_pos hfinite, Option.filter_some_pos]
    exact Double.integer_iff.mpr ⟨required, by rw [hval, Int.cast_natCast]⟩
  obtain ⟨t, ht, htgood⟩ := (Option.any_eq_true _ _).mp hterminal
  have htinteger : integer? (value.get "terminal_clean_cycles") = some t := by
    rw [integer?, ht, Option.filter_some_pos]
    exact (Bool.and_eq_true_iff.mp htgood).1
  have hless : lt t r = false := by
    simp only [certifiedErrors, List.append_eq_nil_iff, pushIf_eq_nil] at herrors
    have hterminalLess := herrors.1.2
    rw [integer?_num htinteger, hr, compare.less_num] at hterminalLess
    exact hterminalLess
  have hge : le (lit (required : ℚ)) t = true := by
    obtain ⟨n, hn⟩ := Double.integer_iff.mp (Bool.and_eq_true_iff.mp htgood).1
    have hnot : ¬ ((n : ℚ) < required) := by
      rw [← Double.lt_iff hn hval, hless]
      exact Bool.false_ne_true
    exact (Double.le_iff hlit hn).mpr (not_lt.mp hnot)
  simp only [certifiedCycleReasons, hissues, hlength, List.append_eq_nil_iff, pushIf_eq_nil]
  rw [hr, hinteger, htinteger, Option.any_some, Option.any_some, hreq, hge,
    suffixIsValid_of hsuffix hindexes hconsecutive]
  simp

theorem cleanCycleReasons_of_parse (hsmall : required < 2 ^ 53)
    (h : parseUransCycleCertificate compare value = .ok result)
    (hcertified : (value.get "certified").isTrue = true)
    (hversion : (value.get "reducer_version").isStr "clean-cycle-v3" = true)
    (hrequired : (value.get "required_clean_cycles").isLit required = true) :
    cleanCycleReasons value required = [] := by
  have hreasons := certifiedCycleReasons_of_parse hsmall h hcertified hrequired
  rw [cleanCycleReasons]
  split
  · rfl
  · split
    · next hnull =>
      cases value with
      | null => cases hcertified
      | _ => cases hnull
    · simp [hcertified, hversion, hreasons, pushIf]

end Gate

/-! ## The clean-cycle reasons of a point -/

section Reasons
variable {F : Type} [Binary64 F]

/-- `certifiedNoShedding` of `baseRejectionReasons`. -/
def certifiedNoShedding (p : PolarEvidencePoint F) : Bool :=
  decide (p.unsteady = some false) && (!p.noSheddingCertificate.isNullish &&
    (parseNoSheddingCertificate p.noSheddingCertificate).isOk)

/-- `certifiedAperiodic` of `baseRejectionReasons`. -/
def certifiedAperiodic (p : PolarEvidencePoint F) : Bool :=
  let aperiodicOk := !p.aperiodicMeanCertificate.isNullish &&
    (parseAperiodicMeanCertificate p.aperiodicMeanCertificate).isOk
  decide (p.unsteady = some true) && decide (p.fidelity = some "urans_precalc") && aperiodicOk &&
    (aperiodicOk && coefficientsMatch p p.aperiodicMeanCertificate)

structure CleanCycleGateApplies (p : PolarEvidencePoint F) : Prop where
  urans : p.regime = some .urans
  notArchiveBacked : hasCertifiedSelectedArchiveInterpretation p = false
  notNoShedding : certifiedNoShedding p = false
  notAperiodic : certifiedAperiodic p = false

def cleanCycleReasonTexts : List String :=
  ["missing-clean-cycle-certificate", "invalid-clean-cycle-certificate", "uncertified-urans-cycles",
    "insufficient-clean-cycles", "insufficient-clean-cycle-evidence", "invalid-clean-cycle-quality"]

theorem pointReasons_not_clean (p : PolarEvidencePoint F) {r : String} (h : r ∈ pointReasons p) :
    r ∉ cleanCycleReasonTexts := by
  simp only [pointReasons, List.mem_append, mem_pushIf] at h
  rcases h with (((((((⟨-, rfl⟩ | ⟨-, rfl⟩) | ⟨-, rfl⟩) | ⟨-, rfl⟩) | ⟨-, rfl⟩) | ⟨-, rfl⟩) |
    ⟨-, rfl⟩) | ⟨-, rfl⟩) | ⟨-, rfl⟩
  all_goals decide

theorem ransHoldCertificateReasons_not_clean (p : PolarEvidencePoint F) {r : String}
    (h : r ∈ ransHoldCertificateReasons p) : r ∉ cleanCycleReasonTexts := by
  have hhold := ransHoldCertificateReasons_mem p h
  intro hclean
  have hdisjoint : ∀ t ∈ ransHoldReasonTexts, t ∉ cleanCycleReasonTexts := by decide
  exact hdisjoint r hhold hclean

theorem frameTrackReasons_not_clean (p : PolarEvidencePoint F) {r : String}
    (h : r ∈ frameTrackReasons p) : r ∉ cleanCycleReasonTexts := by
  unfold frameTrackReasons at h
  split at h
  · simp at h
  · simp only [List.mem_append, mem_pushIf] at h
    rcases h with ⟨-, rfl⟩ | ⟨-, rfl⟩
    all_goals decide

theorem cleanCycleReasons_mem (certificate : JsValue F) (required : ℕ) {r : String}
    (h : r ∈ cleanCycleReasons certificate required) : r ∈ cleanCycleReasonTexts := by
  unfold cleanCycleReasons at h
  split at h
  · simp at h
  · split at h
    · rw [List.mem_singleton] at h
      subst h
      decide
    · simp only [List.mem_append, mem_pushIf] at h
      rcases h with (⟨-, rfl⟩ | ⟨-, rfl⟩) | h
      · decide
      · decide
      · split at h
        · simp only [certifiedCycleReasons, List.mem_append, mem_pushIf] at h
          rcases h with ((⟨-, rfl⟩ | ⟨-, rfl⟩) | ⟨-, rfl⟩) | ⟨-, rfl⟩
          all_goals decide
        · simp at h

theorem mem_baseRejectionReasons {p : PolarEvidencePoint F} (happlies : CleanCycleGateApplies p)
    {r : String} (hr : r ∈ cleanCycleReasonTexts) :
    r ∈ baseRejectionReasons p ↔
      r ∈ cleanCycleReasons p.uransCycleCertificate (frameTrackMinPeriodsFor p.fidelity) := by
  have hperiodic : (!hasCertifiedSelectedArchiveInterpretation p && !certifiedNoShedding p &&
      !certifiedAperiodic p) = true := by
    rw [happlies.notArchiveBacked, happlies.notNoShedding, happlies.notAperiodic]
    rfl
  rw [baseRejectionReasons, if_pos happlies.urans, uransReasons]
  simp only [List.mem_append]
  constructor
  · intro h
    rcases h with (h | h) | h
    · exact absurd hr (pointReasons_not_clean p h)
    · exact absurd hr (ransHoldCertificateReasons_not_clean p h)
    · rcases h with (h | h) | h
      · exfalso
        simp only [mem_pushIf] at h
        rcases h with (((((⟨-, rfl⟩ | ⟨-, rfl⟩) | ⟨-, rfl⟩) | ⟨-, rfl⟩) | ⟨-, rfl⟩) | ⟨-, rfl⟩) | ⟨-, rfl⟩
        all_goals exact absurd hr (by decide)
      · split at h
        · exact absurd hr (frameTrackReasons_not_clean p h)
        · simp at h
      · split at h
        · exact h
        · simp at h
  · intro h
    refine .inr (.inr ?_)
    split
    · exact h
    · next hnot => exact absurd hperiodic hnot

theorem no_clean_reasons_iff {p : PolarEvidencePoint F} (happlies : CleanCycleGateApplies p) :
    (∀ r ∈ cleanCycleReasonTexts, r ∉ baseRejectionReasons p) ↔
      cleanCycleReasons p.uransCycleCertificate (frameTrackMinPeriodsFor p.fidelity) = [] := by
  rw [List.eq_nil_iff_forall_not_mem]
  constructor
  · intro h r hr
    have hclean := cleanCycleReasons_mem _ _ hr
    exact h r hclean ((mem_baseRejectionReasons happlies hclean).mpr hr)
  · intro h r hclean hr
    exact h r ((mem_baseRejectionReasons happlies hclean).mp hr)

end Reasons

/-! ## What the gate admits -/

section Admitted
variable {value : JsValue Double} {required : ℕ} {indices : Set Double}

/-- Cycles whose indices are the whole numbers from `n` on. -/
def ConsecutiveFrom : ℤ → List (JsValue Double) → Prop
  | _, [] => True
  | n, cycle :: rest =>
    (∃ x : Double, cycle.get "index" = .num x ∧ x.val = .fin n) ∧ ConsecutiveFrom (n + 1) rest

/-- The selected cycles are the last `required` ones, they have consecutive indices, and nothing is
held against any of them. -/
def LastCyclesSelected (value : JsValue Double) (required : ℕ) : Prop :=
  ∃ earlier selected, (value.get "cycles").elements = earlier ++ selected ∧ selected.length = required ∧
    (∀ cycle ∈ earlier, selectedCycle cycle = false) ∧
    (∀ cycle ∈ selected, selectedCycle cycle = true) ∧
    (∃ n, ConsecutiveFrom n selected) ∧
    ∀ cycle ∈ selected, selectedCleanCycleQualityReasons cycle = []

/-- The indices of the cycles are among `indices`. -/
def IndicesAmong (indices : Set Double) (value : JsValue Double) : Prop :=
  ∀ cycle ∈ (value.get "cycles").elements, ∀ x, cycle.get "index" = .num x → x ∈ indices

/-- No whole number among `indices` is its own successor. -/
def SuccessorsDiffer (indices : Set Double) : Prop :=
  ∀ x ∈ indices, IsIndex x → eq (add x (lit 1)) x = false

theorem consecutiveFrom_of (cycles : List (JsValue Double)) {x : Double} {n : ℤ} (hx : x.val = .fin n)
    (hnonneg : 0 ≤ n) (hconsecutive : consecutiveIndices (some x) cycles = true)
    (hamong : ∀ cycle ∈ cycles, ∀ y, cycle.get "index" = .num y → y ∈ indices)
    (hdiffer : SuccessorsDiffer indices) : ConsecutiveFrom (n + 1) cycles := by
  induction cycles generalizing x n with
  | nil => trivial
  | cons cycle rest ih =>
    rw [List.forall_mem_cons] at hamong
    rw [consecutiveIndices] at hconsecutive
    split at hconsecutive
    · cases hconsecutive
    · next y hy =>
      obtain ⟨hnext, hrest⟩ := Bool.and_eq_true_iff.mp hconsecutive
      have hget := integer?_num hy
      rcases Double.add_one hx hnonneg with hexact | ⟨m, hm, hle, hfixed⟩
      · have hyval : y.val = .fin ((n + 1 : ℤ) : ℚ) := by
          push_cast
          exact Double.val_of_eq hnext hexact
        exact ⟨⟨y, hget, hyval⟩, ih hyval (by omega) hrest hamong.2⟩
      · exfalso
        have hyval : y.val = .fin m := Double.val_of_eq hnext hm
        have hsucc : (add y (lit 1)).val = .fin m := by
          rw [Double.val_add_one hyval]
          exact hfixed
        have hsame : eq (add y (lit 1)) y = true := (Double.eq_iff hsucc hyval).mpr rfl
        rw [hdiffer y (hamong.1 y hget) ⟨m, hyval, by omega⟩] at hsame
        cases hsame

theorem consecutiveIndices_drop {F : Type} [Binary64 F] (cycles : List (JsValue F)) (previous : Option F)
    (position : ℕ) (h : consecutiveIndices previous cycles = true) :
    ∃ before, consecutiveIndices before (cycles.drop position) = true := by
  induction position generalizing previous cycles with
  | zero => exact ⟨previous, h⟩
  | succ position ih =>
    cases cycles with
    | nil => exact ⟨previous, rfl⟩
    | cons cycle rest =>
      rw [consecutiveIndices] at h
      split at h
      · cases h
      · next index _ => exact ih rest (some index) (Bool.and_eq_true_iff.mp h).2

theorem lastCyclesSelected_of_gate (hundefined : value.isUndefined = false) (hnull : value.isNull = false)
    (hreasons : cleanCycleReasons value required = [])
    (hamong : IndicesAmong indices value) (hdiffer : SuccessorsDiffer indices) :
    LastCyclesSelected value required := by
  simp only [cleanCycleReasons, hundefined, hnull, Bool.false_eq_true, if_false, List.append_eq_nil_iff,
    pushIf_eq_nil, Bool.not_eq_false'] at hreasons
  obtain ⟨⟨hversion, hcertified⟩, hgate⟩ := hreasons
  rw [hversion, hcertified, Bool.and_self, if_pos rfl] at hgate
  simp only [certifiedCycleReasons, List.append_eq_nil_iff, pushIf_eq_nil, Bool.not_eq_false',
    Bool.or_eq_false_iff] at hgate
  obtain ⟨⟨⟨-, -, hevidence⟩, hquality⟩, hsuffix⟩ := hgate
  obtain ⟨position, hposition, hparts⟩ := (Option.any_eq_true _ _).mp hsuffix
  simp only [Bool.and_eq_true, List.all_eq_true, beq_iff_eq, Bool.not_eq_true'] at hparts
  obtain ⟨⟨⟨hafter, hbefore⟩, hconsecutive⟩, hlength⟩ := hparts
  have hsplit : (value.get "cycles").elements.filter selectedCycle =
      (value.get "cycles").elements.drop position := by
    conv_lhs => rw [← List.take_append_drop position (value.get "cycles").elements, List.filter_append]
    rw [List.filter_eq_nil_iff.mpr (fun cycle hcycle => by simp [hbefore cycle hcycle]), List.nil_append,
      List.filter_eq_self.mpr hafter]
  rw [hsplit] at hlength hevidence hquality
  refine ⟨_, _, (List.take_append_drop position _).symm, hlength, hbefore, hafter, ?_, ?_⟩
  · -- the first selected cycle has the selected start index
    rw [startPosition] at hposition
    split at hposition
    · cases hposition
    · next start hstart =>
      split at hposition
      · next hnonneg =>
        obtain ⟨hlt, hfound, -⟩ := List.findIdx?_eq_some_iff_getElem.mp hposition
        obtain ⟨n, hn, hn0⟩ := isIndex_of (Option.filter_eq_some_iff.mp hstart).2 hnonneg
        obtain ⟨before, hchain⟩ := consecutiveIndices_drop _ _ position hconsecutive
        have hdropAmong : ∀ cycle ∈ (value.get "cycles").elements.drop position,
            ∀ y, cycle.get "index" = .num y → y ∈ indices :=
          fun cycle hcycle => hamong cycle (List.mem_of_mem_drop hcycle)
        rw [List.drop_eq_getElem_cons hlt] at hchain hdropAmong ⊢
        rw [consecutiveIndices] at hchain
        split at hchain
        · cases hchain
        · next x hx =>
          have hget := integer?_num hx
          rw [hget] at hfound
          have hxval : x.val = .fin n := Double.val_of_eq hfound hn
          refine ⟨n, ⟨x, hget, hxval⟩, ?_⟩
          exact consecutiveFrom_of _ hxval hn0 (Bool.and_eq_true_iff.mp hchain).2
            (List.forall_mem_cons.mp hdropAmong).2 hdiffer
      · cases hposition
  · intro cycle hcycle
    rw [List.eq_nil_iff_forall_not_mem]
    intro issue hissue
    have hmem : issue ∈ ((value.get "cycles").elements.drop position).flatMap
        selectedCleanCycleQualityReasons := List.mem_flatMap.mpr ⟨cycle, hcycle, hissue⟩
    have hnot := List.any_eq_false.mp hevidence issue hmem
    have hother := List.any_eq_false.mp hquality issue hmem
    simp [hnot] at hother

end Admitted

/-! ## Agreement -/

/-- What is accepted on arrival passes the gate, and what passes the gate has a clean suffix. -/
def ParserAndGateAgree (compare : Relational Double) (p : PolarEvidencePoint Double) : Prop :=
  (∀ result, parseUransCycleCertificate compare p.uransCycleCertificate = .ok result →
    (result.get "certified").isTrue = true →
    (result.get "reducer_version").isStr "clean-cycle-v3" = true →
    (result.get "required_clean_cycles").isLit (frameTrackMinPeriodsFor p.fidelity) = true →
    ∀ r ∈ cleanCycleReasonTexts, r ∉ baseRejectionReasons p) ∧
  (p.uransCycleCertificate.isNull = false → (∀ r ∈ cleanCycleReasonTexts, r ∉ baseRejectionReasons p) →
    LastCyclesSelected p.uransCycleCertificate (frameTrackMinPeriodsFor p.fidelity))

theorem frameTrackMinPeriodsFor_lt (fidelity : Option String) : frameTrackMinPeriodsFor fidelity < 2 ^ 53 := by
  unfold frameTrackMinPeriodsFor
  split <;> norm_num

theorem parse_eq_value {F : Type} [Binary64 F] {compare : Relational F} {value result : JsValue F}
    (h : parseUransCycleCertificate compare value = .ok result) : result = value := by
  rw [parseUransCycleCertificate] at h
  split at h
  · cases h
  · split at h
    · cases h
      rfl
    · cases h

theorem agree_of_successorsDiffer (compare : Relational Double) {indices : Set Double}
    {p : PolarEvidencePoint Double} (happlies : CleanCycleGateApplies p)
    (hundefined : p.uransCycleCertificate.isUndefined = false)
    (hamong : IndicesAmong indices p.uransCycleCertificate) (hdiffer : SuccessorsDiffer indices) :
    ParserAndGateAgree compare p := by
  constructor
  · intro result hparse hcertified hversion hrequired
    rw [parse_eq_value hparse] at hcertified hversion hrequired
    exact (no_clean_reasons_iff happlies).mpr (cleanCycleReasons_of_parse
      (frameTrackMinPeriodsFor_lt p.fidelity) hparse hcertified hversion hrequired)
  · intro hnull hreasons
    exact lastCyclesSelected_of_gate hundefined hnull ((no_clean_reasons_iff happlies).mp hreasons)
      hamong hdiffer

/-! ### Repeated indices -/

section Repeated
variable {y : Double}

def cleanCycleFields : List (String × JsValue Double) :=
  [("t_start", .num (lit 0)), ("t_end", .num (lit 1)), ("coefficient_samples", .num (lit 20)),
    ("field_frames", .num (lit 20)), ("phase_max_gap", .num (lit 0)), ("phase_shift_bins", .num (lit 0)),
    ("cl_mean", .num (lit 0)), ("cd_mean", .num (lit 0)), ("cm_mean", .num (lit 0))] ++
    cycleMetricKeys.map (fun key => (key, .num (lit 0))) ++
    [("disposition", .str "selected"), ("reasons", .arr [])]

def repeatedCycle (y : Double) : JsValue Double := .obj (("index", .num y) :: cleanCycleFields)

def repeatedCertificate (y : Double) : JsValue Double :=
  .obj [("reducer_version", .str "clean-cycle-v3"), ("period_s", .num (lit 1)),
    ("phase_samples", .num (lit 20)), ("required_clean_cycles", .num (lit 3)),
    ("terminal_clean_cycles", .num (lit 3)), ("selected_cycle_start_index", .num y),
    ("certified", .bool true), ("cadence_adjusted", .bool false),
    ("cycles", .arr [repeatedCycle y, repeatedCycle y, repeatedCycle y])]

def periodicPoint (certificate : JsValue Double) : PolarEvidencePoint Double where
  a := lit 4
  cl := some (lit 1)
  cd := some (lit (1 / 10))
  cm := some (lit 0)
  ld := some (lit 10)
  status := "done"
  source := "solved"
  regime := some .urans
  converged := true
  stalled := false
  unsteady := some true
  error := none
  failureDisposition := none
  finalResidual := none
  iterations := none
  sourceGeometryCompatible := none
  hasForceHistory := true
  hasVideo := true
  frameTrack := .undefined
  uransCycleCertificate := certificate
  noSheddingCertificate := .undefined
  aperiodicMeanCertificate := .undefined
  ransHoldCertificate := .undefined
  fidelity := some "urans_precalc"
  steadyHistory := .undefined
  qualityWarnings := none
  selectedArchiveInterpretation := .undefined

theorem periodicPoint_applies (certificate : JsValue Double) :
    CleanCycleGateApplies (periodicPoint certificate) := ⟨rfl, rfl, rfl, rfl⟩

theorem get_obj_cons_ne {F : Type} {name key : String} (v : JsValue F) (fields : List (String × JsValue F))
    (h : name ≠ key) : (JsValue.obj ((name, v) :: fields)).get key = (JsValue.obj fields).get key := by
  simp [JsValue.get, h]

theorem repeatedCycle_index (y : Double) : (repeatedCycle y).get "index" = .num y := rfl

theorem repeatedCycle_selected (y : Double) : selectedCycle (repeatedCycle y) = true := rfl

theorem qualityReasons_congr {F : Type} [Binary64 F] {a b : JsValue F}
    (h : ∀ key, key ≠ "index" → a.get key = b.get key) :
    selectedCleanCycleQualityReasons a = selectedCleanCycleQualityReasons b := by
  unfold selectedCleanCycleQualityReasons
  simp only [List.flatMap_cons, List.flatMap_nil]
  rw [h "coefficient_samples" (by decide), h "field_frames" (by decide), h "phase_max_gap" (by decide),
    h "phase_shift_bins" (by decide), h "reasons" (by decide),
    h ("cl" ++ "_shape_error") (by decide), h ("cl" ++ "_amplitude_deviation") (by decide),
    h ("cl" ++ "_high_frequency") (by decide), h ("cd" ++ "_shape_error") (by decide),
    h ("cd" ++ "_amplitude_deviation") (by decide), h ("cd" ++ "_high_frequency") (by decide),
    h ("cm" ++ "_shape_error") (by decide), h ("cm" ++ "_amplitude_deviation") (by decide),
    h ("cm" ++ "_high_frequency") (by decide)]

theorem repeatedCycle_clean (y : Double) : selectedCleanCycleQualityReasons (repeatedCycle y) = [] := by
  have hrest : selectedCleanCycleQualityReasons (.obj cleanCycleFields) = [] := by decide +kernel
  rw [← hrest]
  exact qualityReasons_congr (fun key hkey => get_obj_cons_ne _ _ hkey.symm)

theorem integer?_of_isIndex (hy : IsIndex y) : integer? (.num y) = some y := by
  obtain ⟨n, hn, -⟩ := hy
  have hfinite : isFinite y = true := by
    show y.val.isFinite = true
    rw [hn]
    rfl
  exact integer?_of_finite hfinite (Double.integer_iff.mpr ⟨n, hn⟩)

theorem repeated_admitted (hy : IsIndex y) (hfixed : eq (add y (lit 1)) y = true) :
    cleanCycleReasons (repeatedCertificate y) 3 = [] := by
  have hinteger := integer?_of_isIndex hy
  obtain ⟨n, hn, hnonneg⟩ := hy
  have hself : eq y y = true := (Double.eq_iff hn hn).mpr rfl
  have hnext : eq y (add y (lit 1)) = true := by
    have hsum := Double.val_of_eq hfixed hn
    exact (Double.eq_iff hn hsum).mpr rfl
  have hge : le (lit 0) y = true := by
    have hzero : (lit ((0 : ℕ) : ℚ) : Double).val = .fin ((0 : ℕ) : ℚ) := Double.lit_natCast (by norm_num)
    rw [Nat.cast_zero] at hzero
    exact (Double.le_iff hzero hn).mpr (by exact_mod_cast hnonneg)
  have hcycles : ((repeatedCertificate y).get "cycles").elements =
      [repeatedCycle y, repeatedCycle y, repeatedCycle y] := rfl
  have hselected : [repeatedCycle y, repeatedCycle y, repeatedCycle y].filter selectedCycle =
      [repeatedCycle y, repeatedCycle y, repeatedCycle y] := rfl
  have hstart : startPosition (repeatedCertificate y)
      [repeatedCycle y, repeatedCycle y, repeatedCycle y] = some 0 := by
    have hget : (repeatedCertificate y).get "selected_cycle_start_index" = .num y := rfl
    rw [startPosition, hget, hinteger]
    simp only
    rw [if_pos hge, List.findIdx?_cons, repeatedCycle_index]
    simp only
    rw [if_pos hself]
  have hsuffix : suffixIsValid (repeatedCertificate y)
      [repeatedCycle y, repeatedCycle y, repeatedCycle y] 3 = true := by
    rw [suffixIsValid, hstart, Option.any_some, hselected]
    simp [repeatedCycle_selected, consecutiveIndices, repeatedCycle_index, hinteger, hnext]
  have hreasons : certifiedCycleReasons (repeatedCertificate y) 3 = [] := by
    have hcounts : (!(integer? ((repeatedCertificate y).get "required_clean_cycles")).any
        (fun x => eq x (lit (3 : ℕ))) ||
        !(integer? ((repeatedCertificate y).get "terminal_clean_cycles")).any
          (fun x => le (lit (3 : ℕ)) x)) = false := by
      show (!(integer? (.num (lit 3) : JsValue Double)).any (fun x => eq x (lit (3 : ℕ))) ||
        !(integer? (.num (lit 3) : JsValue Double)).any (fun x => le (lit (3 : ℕ)) x)) = false
      decide +kernel
    simp only [certifiedCycleReasons, hcycles, hselected, hsuffix, hcounts, List.flatMap_cons,
      List.flatMap_nil, repeatedCycle_clean]
    rfl
  have hversion : ((repeatedCertificate y).get "reducer_version").isStr "clean-cycle-v3" = true := rfl
  have hcertified : ((repeatedCertificate y).get "certified").isTrue = true := rfl
  simp only [cleanCycleReasons, hversion, hcertified, hreasons]
  rfl

theorem repeated_not_lastCyclesSelected (y : Double) : ¬ LastCyclesSelected (repeatedCertificate y) 3 := by
  rintro ⟨earlier, selected, hcycles, hlength, -, -, ⟨n, hconsecutive⟩, -⟩
  have hall : ((repeatedCertificate y).get "cycles").elements =
      [repeatedCycle y, repeatedCycle y, repeatedCycle y] := rfl
  rw [hall] at hcycles
  have hearlier : earlier = [] := by
    have htotal := congrArg List.length hcycles
    rw [List.length_append, hlength] at htotal
    simpa using htotal
  rw [hearlier, List.nil_append] at hcycles
  rw [← hcycles] at hconsecutive
  obtain ⟨⟨x, hx, hxval⟩, ⟨x', hx', hxval'⟩, -⟩ := hconsecutive
  rw [repeatedCycle_index] at hx hx'
  cases hx
  cases hx'
  rw [hxval] at hxval'
  have hsame : (n : ℚ) = ((n + 1 : ℤ) : ℚ) := ExactNum.fin.inj hxval'
  have hint : n = n + 1 := by exact_mod_cast hsame
  omega

end Repeated

/-- The parser and the gate agree on all certificates with indices from a set exactly when no whole
number of the set is left as it is by adding one, as doubles from `2 ^ 53` on are. -/
theorem parser_gate_agree_iff (compare : Relational Double) (indices : Set Double) :
    (∀ p : PolarEvidencePoint Double, CleanCycleGateApplies p →
      p.uransCycleCertificate.isUndefined = false → IndicesAmong indices p.uransCycleCertificate →
      ParserAndGateAgree compare p) ↔ SuccessorsDiffer indices := by
  constructor
  · intro hall y hy hindex
    by_contra hfixed
    rw [Bool.not_eq_false] at hfixed
    have hamong : IndicesAmong indices (repeatedCertificate y) := by
      intro cycle hcycle x hx
      have hsame : cycle = repeatedCycle y := by
        have hmem : cycle ∈ [repeatedCycle y, repeatedCycle y, repeatedCycle y] := hcycle
        simpa using hmem
      rw [hsame, repeatedCycle_index] at hx
      cases hx
      exact hy
    have happlies := periodicPoint_applies (repeatedCertificate y)
    have hagree := hall (periodicPoint (repeatedCertificate y)) happlies rfl hamong
    exact repeated_not_lastCyclesSelected y
      (hagree.2 rfl ((no_clean_reasons_iff happlies).mpr (repeated_admitted hindex hfixed)))
  · intro hdiffer p happlies hundefined hamong
    exact agree_of_successorsDiffer compare happlies hundefined hamong hdiffer

/-- Three cycles that all have the index `2 ^ 53` pass the gate. -/
theorem repeated_index_passes_gate :
    CleanCycleGateApplies (periodicPoint (repeatedCertificate (lit (2 ^ 53)))) ∧
      (∀ r ∈ cleanCycleReasonTexts,
        r ∉ baseRejectionReasons (periodicPoint (repeatedCertificate (lit (2 ^ 53))))) ∧
      ¬ LastCyclesSelected (repeatedCertificate (lit (2 ^ 53))) 3 := by
  have happlies := periodicPoint_applies (repeatedCertificate (lit (2 ^ 53)))
  have hval : (lit (2 ^ 53) : Double).val = .fin ((2 ^ 53 : ℤ) : ℚ) := by decide +kernel
  have hfixed : eq (add (lit (2 ^ 53)) (lit 1)) (lit (2 ^ 53) : Double) = true := by decide +kernel
  exact ⟨happlies, (no_clean_reasons_iff happlies).mpr (repeated_admitted ⟨_, hval, by norm_num⟩ hfixed),
    repeated_not_lastCyclesSelected _⟩

end XFoilFoam.Polar
