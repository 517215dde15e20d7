import XFoilFoam.Polar.Evidence

/-! `parseUransCycleCertificate` of `urans-cycle-certificate.ts`. -/
namespace XFoilFoam.Polar
open Binary64
set_option autoImplicit false

/-! ## Parser -/

section Parser
variable {F : Type} [Binary64 F]

/-- `<` of the language, which converts what is no number. -/
structure Relational (F : Type) [Binary64 F] where
  less : JsValue F → JsValue F → Bool
  less_num : ∀ x y : F, less (.num x) (.num y) = lt x y

def uransCycleDispositions : List String :=
  ["selected", "startup", "hard_corrupt", "settling_outlier", "cadence_unresolved",
    "numerically_noisy", "insufficient_frames"]

def uransCertificateKeys : List String :=
  ["reducer_version", "period_s", "phase_samples", "required_clean_cycles", "terminal_clean_cycles",
    "selected_cycle_start_index", "certified", "cadence_adjusted", "cycles"]

def cycleMetricKeys : List String :=
  ["cl_shape_error", "cd_shape_error", "cm_shape_error", "cl_amplitude_deviation",
    "cd_amplitude_deviation", "cm_amplitude_deviation", "cl_high_frequency", "cd_high_frequency",
    "cm_high_frequency"]

def uransCycleKeys : List String :=
  ["index", "t_start", "t_end", "coefficient_samples", "field_frames", "phase_max_gap",
    "phase_shift_bins", "cl_mean", "cd_mean", "cm_mean"] ++ cycleMetricKeys ++ ["disposition", "reasons"]

/-- The text of a `SelectedCleanCycleQualityReason`. -/
def CycleIssue.text : CycleIssue → String
  | .coefficientSamples => "coefficient-samples"
  | .fieldFrames => "field-frames"
  | .phaseGap => "phase-gap"
  | .phaseShift => "phase-shift"
  | .reasons => "reasons"
  | .shapeError channel => channel ++ "-shape-error"
  | .amplitudeDeviation channel => channel ++ "-amplitude-deviation"
  | .highFrequency channel => channel ++ "-high-frequency"

/-- `Set.prototype.add` on numbers. -/
def addNumber (numbers : List F) (x : F) : List F :=
  if numbers.any (fun y => eq y x) then numbers else numbers ++ [x]

/-- What the loop over `cycles` carries. -/
structure CycleScan (F : Type) where
  previousEnd : F
  previousCycleIndex : Option F
  selectedIndexes : List F
  cycleIndexes : List F
  errors : List String

def CycleScan.start : CycleScan F := ⟨negInf, none, [], [], []⟩

/-- `integerAtLeast(entry.index, 0)`, with the number. -/
def cycleIndex? (entry : JsValue F) : Option F :=
  if nonnegativeInteger (entry.get "index") 0 then (entry.get "index").finite? else none

def cycleIndexErrors (previousCycleIndex : Option F) (entry : JsValue F) (path : String) : List String :=
  match cycleIndex? entry, previousCycleIndex with
  | some index, some previous =>
    pushIf (!eq index (add previous (lit 1)))
      (path ++ ".index: cycles must have contiguous chronological indexes")
  | _, _ => []

/-- The checks on `t_start` and `t_end`. -/
def cycleTimeErrors (previousEnd : F) (entry : JsValue F) (path : String) : List String :=
  eachKey entry ["t_start", "t_end"] (fun v => v.finiteAnd (fun x => !lt x (lit 0))) path
      "expected non-negative finite number" ++
    pushIf ((entry.get "t_start").finiteAnd (fun start =>
        (entry.get "t_end").finiteAnd (fun stop => le stop start)))
      (path ++ ": t_end must be greater than t_start") ++
    pushIf ((entry.get "t_start").finiteAnd (fun start =>
        lt (add start (lit (1 / 10 ^ 12))) previousEnd))
      (path ++ ": cycles must be chronological and non-overlapping")

def cycleValueErrors (entry : JsValue F) (path : String) : List String :=
  eachKey entry (["phase_max_gap", "cl_mean", "cd_mean", "cm_mean"] ++ cycleMetricKeys) JsValue.finite path
      "expected finite number" ++
    pushIf ((entry.get "phase_max_gap").finiteAnd (fun x => lt x (lit 0) || lt (lit 1) x))
      (path ++ ".phase_max_gap: expected number in [0, 1]") ++
    eachKey entry cycleMetricKeys (fun v => !v.finiteAnd (fun x => lt x (lit 0))) path
      "expected non-negative number" ++
    pushIf (!(entry.get "disposition").isStrAnd uransCycleDispositions.contains)
      (path ++ ".disposition: unexpected value") ++
    pushIf (!(entry.get "reasons").isArray ||
        (entry.get "reasons").elements.any (fun reason => !reason.isStrAnd (fun _ => true)))
      (path ++ ".reasons: expected string array")

/-- `entry.disposition === "selected" && integerAtLeast(entry.index, 0)`, with the index. -/
def selectedIndex? (entry : JsValue F) : Option F :=
  if selectedCycle entry then cycleIndex? entry else none

def cyclePolicyErrors (entry : JsValue F) (path : String) : List String :=
  if (selectedIndex? entry).isSome then
    (selectedCleanCycleQualityReasons entry).map (fun reason =>
      path ++ ": selected cycle violates clean-cycle policy (" ++ reason.text ++ ")")
  else []

def scanCycle (scan : CycleScan F) (position : ℕ) (entry : JsValue F) : CycleScan F :=
  let path := "urans_cycle_certificate.cycles[" ++ Nat.repr position ++ "]"
  if !entry.isRecord then { scan with errors := scan.errors ++ [path ++ ": expected object"] }
  else
    { previousEnd := (entry.get "t_end").finite?.getD scan.previousEnd
      previousCycleIndex := (cycleIndex? entry).or scan.previousCycleIndex
      selectedIndexes := (selectedIndex? entry).elim scan.selectedIndexes (addNumber scan.selectedIndexes)
      cycleIndexes := scan.cycleIndexes ++ (cycleIndex? entry).toList
      errors := scan.errors ++ exactKeys entry uransCycleKeys path " (contract drift)" ++
        eachKey entry ["index", "coefficient_samples", "field_frames", "phase_shift_bins"]
          (fun v => nonnegativeInteger v 0) path "expected non-negative integer" ++
        cycleIndexErrors scan.previousCycleIndex entry path ++
        cycleTimeErrors scan.previousEnd entry path ++ cycleValueErrors entry path ++
        cyclePolicyErrors entry path }

def scanCycles (scan : CycleScan F) (position : ℕ) : List (JsValue F) → CycleScan F
  | [] => scan
  | entry :: rest => scanCycles (scanCycle scan position entry) (position + 1) rest

/-- `integerAtLeast(value.selected_cycle_start_index, 0)`, with the number. -/
def selectedStart? (value : JsValue F) : Option F :=
  if nonnegativeInteger (value.get "selected_cycle_start_index") 0 then
    (value.get "selected_cycle_start_index").finite? else none

/-- The checks of a certified result on the suffix that starts at `selectedStart`. -/
def suffixErrors (compare : Relational F) (value : JsValue F) (scan : CycleScan F) (selectedStart : F) :
    List String :=
  match scan.cycleIndexes.findIdx? (fun index => eq index selectedStart) with
  | none => ["urans_cycle_certificate: certified result selected suffix is not present in cycles"]
  | some startPosition =>
    let terminalIndexes := scan.cycleIndexes.drop startPosition
    pushIf (!(decide (0 < terminalIndexes.length) &&
        (value.get "required_clean_cycles").isLit terminalIndexes.length &&
        terminalIndexes.all (fun index => scan.selectedIndexes.any (fun y => eq y index)) &&
        scan.selectedIndexes.all (fun index => le selectedStart index)))
      ("urans_cycle_certificate: selected cycles must be the exact contiguous terminal " ++
        "publication suffix") ++
    pushIf (!(value.get "required_clean_cycles").isLit scan.selectedIndexes.length)
      "urans_cycle_certificate: selected terminal suffix length must equal required_clean_cycles" ++
    pushIf (compare.less (.num (lit scan.cycleIndexes.length)) (value.get "terminal_clean_cycles"))
      "urans_cycle_certificate: terminal_clean_cycles exceeds the audited cycle count"

def certifiedErrors (compare : Relational F) (value : JsValue F) (scan : CycleScan F) : List String :=
  pushIf (compare.less (.num (lit scan.selectedIndexes.length)) (value.get "required_clean_cycles"))
      "urans_cycle_certificate: certified result has too few selected cycles" ++
    pushIf (!(selectedStart? value).any (fun start => scan.selectedIndexes.any (fun y => eq y start)))
      "urans_cycle_certificate: certified result has invalid selected_cycle_start_index" ++
    pushIf (compare.less (value.get "terminal_clean_cycles") (value.get "required_clean_cycles"))
      "urans_cycle_certificate: certified result has insufficient terminal_clean_cycles" ++
    (selectedStart? value).elim [] (suffixErrors compare value scan)

def cyclesErrors (compare : Relational F) (value : JsValue F) : List String :=
  if !(value.get "cycles").isArray then ["urans_cycle_certificate.cycles: expected array"]
  else
    let scan := scanCycles .start 0 (value.get "cycles").elements
    scan.errors ++ (if (value.get "certified").isTrue then certifiedErrors compare value scan else [])

/-- `typeof value === "boolean"`. -/
def isBoolean : JsValue F → Bool
  | .bool _ => true
  | _ => false

def parseUransCycleCertificate (compare : Relational F) (value : JsValue F) :
    Except (List String) (JsValue F) :=
  if !value.isRecord then
    .error ["urans_cycle_certificate: expected object, got " ++
      (if value.isNull then "null" else value.typeOf)]
  else
    match exactKeys value uransCertificateKeys "urans_cycle_certificate" " (contract drift)" ++
      pushIf (!(value.get "reducer_version").isStrAnd (fun s => !s.toList.all jsWhitespace))
        "urans_cycle_certificate.reducer_version: expected non-empty string" ++
      pushIf (!(value.get "period_s").finiteAnd (fun x => !le x (lit 0)))
        "urans_cycle_certificate.period_s: expected positive finite number" ++
      pushIf (!nonnegativeInteger (value.get "phase_samples") 20 ||
          (value.get "phase_samples").finiteAnd (fun x => lt (lit 512) x))
        "urans_cycle_certificate.phase_samples: expected integer in [20, 512]" ++
      pushIf (!nonnegativeInteger (value.get "required_clean_cycles") 1)
        "urans_cycle_certificate.required_clean_cycles: expected positive integer" ++
      pushIf (!nonnegativeInteger (value.get "terminal_clean_cycles") 0)
        "urans_cycle_certificate.terminal_clean_cycles: expected non-negative integer" ++
      pushIf (!(value.get "selected_cycle_start_index").isNull &&
          !nonnegativeInteger (value.get "selected_cycle_start_index") 0)
        ("urans_cycle_certificate.selected_cycle_start_index: " ++
          "expected non-negative integer or null") ++
      pushIf (!isBoolean (value.get "certified")) "urans_cycle_certificate.certified: expected boolean" ++
      pushIf (!isBoolean (value.get "cadence_adjusted"))
        "urans_cycle_certificate.cadence_adjusted: expected boolean" ++
      cyclesErrors compare value with
    | [] => .ok value
    | errors => .error errors

/-! ## What an accepted certificate passed -/

theorem cycleIndex?_eq_some {entry : JsValue F} {index : F} (h : cycleIndex? entry = some index) :
    integer? (entry.get "index") = some index ∧ le (lit 0) index = true := by
  rw [cycleIndex?] at h
  split at h
  · next hgood =>
    rw [nonnegativeInteger, JsValue.finiteAnd, h, Option.any_some, Bool.and_eq_true] at hgood
    rw [integer?, h]
    exact ⟨by simp [hgood.1], hgood.2⟩
  · cases h

theorem cycleIndex?_isSome {entry : JsValue F} (h : nonnegativeInteger (entry.get "index") 0 = true) :
    ∃ index, cycleIndex? entry = some index := by
  rw [cycleIndex?, if_pos h]
  rw [nonnegativeInteger, JsValue.finiteAnd, Option.any_eq_true] at h
  obtain ⟨index, hindex, -⟩ := h
  exact ⟨index, hindex⟩

theorem scanCycle_ok {scan : CycleScan F} {position : ℕ} {entry : JsValue F}
    (h : (scanCycle scan position entry).errors = []) :
    scan.errors = [] ∧ ∃ index, cycleIndex? entry = some index ∧
      scan.previousCycleIndex.all (fun previous => eq index (add previous (lit 1))) = true ∧
      (selectedCycle entry = true → selectedCleanCycleQualityReasons entry = []) ∧
      (scanCycle scan position entry).previousCycleIndex = some index ∧
      (scanCycle scan position entry).cycleIndexes = scan.cycleIndexes ++ [index] ∧
      (scanCycle scan position entry).selectedIndexes =
        if selectedCycle entry then addNumber scan.selectedIndexes index else scan.selectedIndexes := by
  unfold scanCycle at h ⊢
  dsimp only at h ⊢
  by_cases hrecord : entry.isRecord = true
  · rw [if_neg (by simp [hrecord])] at h ⊢
    simp only [List.append_eq_nil_iff, eachKey_eq_nil, List.forall_mem_cons] at h
    obtain ⟨⟨⟨⟨⟨⟨herrors, -⟩, hinteger, -⟩, hindexes⟩, -⟩, -⟩, hpolicy⟩ := h
    obtain ⟨index, hindex⟩ := cycleIndex?_isSome hinteger
    refine ⟨herrors, index, hindex, ?_, ?_, ?_, ?_, ?_⟩
    · unfold cycleIndexErrors at hindexes
      rw [hindex] at hindexes
      cases hprevious : scan.previousCycleIndex with
      | none => rfl
      | some previous =>
        rw [hprevious] at hindexes
        simpa [pushIf_eq_nil] using hindexes
    · intro hselected
      rw [cyclePolicyErrors, selectedIndex?, if_pos hselected, hindex] at hpolicy
      simpa using hpolicy
    · rw [hindex]
      rfl
    · rw [hindex]
      rfl
    · rw [selectedIndex?, hindex]
      split <;> rfl
  · rw [if_pos (by simpa using hrecord)] at h
    simp at h

theorem scanCycles_ok (entries : List (JsValue F)) (scan : CycleScan F) (position : ℕ)
    (h : (scanCycles scan position entries).errors = []) :
    scan.errors = [] ∧ consecutiveIndices scan.previousCycleIndex entries = true ∧
      (∀ entry ∈ entries, (cycleIndex? entry).isSome) ∧
      (∀ entry ∈ entries, selectedCycle entry = true → selectedCleanCycleQualityReasons entry = []) ∧
      (scanCycles scan position entries).cycleIndexes =
        scan.cycleIndexes ++ entries.filterMap cycleIndex? ∧
      (scanCycles scan position entries).selectedIndexes =
        (entries.filterMap selectedIndex?).foldl addNumber scan.selectedIndexes := by
  induction entries generalizing scan position with
  | nil => exact ⟨h, rfl, by simp, by simp, by simp [scanCycles], rfl⟩
  | cons entry rest ih =>
    obtain ⟨hstep, hconsecutive, hindexes, hquality, hcycles, hselected⟩ := ih _ _ h
    obtain ⟨herrors, index, hindex, hnext, hclean, hprevious, hcycleIndexes, hselectedIndexes⟩ :=
      scanCycle_ok hstep
    refine ⟨herrors, ?_, ?_, ?_, ?_, ?_⟩
    · rw [hprevious] at hconsecutive
      rw [consecutiveIndices, (cycleIndex?_eq_some hindex).1]
      exact Bool.and_eq_true_iff.mpr ⟨hnext, hconsecutive⟩
    · rw [List.forall_mem_cons]
      exact ⟨by rw [hindex]; rfl, hindexes⟩
    · rw [List.forall_mem_cons]
      exact ⟨hclean, hquality⟩
    · rw [scanCycles, hcycles, hcycleIndexes, List.filterMap_cons, hindex, List.append_assoc]
      rfl
    · rw [scanCycles, hselected, hselectedIndexes, List.filterMap_cons, selectedIndex?, hindex]
      split <;> rfl

theorem parse_certified {compare : Relational F} {value result : JsValue F}
    (h : parseUransCycleCertificate compare value = .ok result)
    (hcertified : (value.get "certified").isTrue = true) :
    nonnegativeInteger (value.get "terminal_clean_cycles") 0 = true ∧
      (scanCycles .start 0 (value.get "cycles").elements).errors = [] ∧
      certifiedErrors compare value (scanCycles .start 0 (value.get "cycles").elements) = [] := by
  rw [parseUransCycleCertificate] at h
  split at h
  · cases h
  · split at h
    · next hnil =>
      simp only [List.append_eq_nil_iff, pushIf_eq_nil] at hnil
      obtain ⟨⟨⟨⟨⟨-, hterminal⟩, -⟩, -⟩, -⟩, hcycles⟩ := hnil
      rw [cyclesErrors] at hcycles
      split at hcycles
      · cases hcycles
      · obtain ⟨herrors, hcertifiedErrors⟩ := List.append_eq_nil_iff.mp hcycles
        exact ⟨by simpa using hterminal, herrors, hcertifiedErrors⟩
    · cases h

theorem length_addNumbers (xs numbers : List F) :
    (xs.foldl addNumber numbers).length ≤ numbers.length + xs.length := by
  induction xs generalizing numbers with
  | nil => simp
  | cons x xs ih =>
    have hadd : (addNumber numbers x).length ≤ numbers.length + 1 := by
      unfold addNumber
      split <;> simp
    have hrest := ih (addNumber numbers x)
    rw [List.foldl_cons, List.length_cons]
    omega

theorem mem_addNumbers (xs numbers : List F) (hrefl : ∀ x ∈ xs, eq x x = true) :
    (∀ y ∈ numbers, y ∈ xs.foldl addNumber numbers) ∧
      ∀ x ∈ xs, ∃ y ∈ xs.foldl addNumber numbers, eq y x = true := by
  induction xs generalizing numbers with
  | nil => simp
  | cons x xs ih =>
    rw [List.forall_mem_cons] at hrefl
    obtain ⟨hkept, hadded⟩ := ih (addNumber numbers x) hrefl.2
    have hsubset : ∀ y ∈ numbers, y ∈ addNumber numbers x := by
      intro y hy
      unfold addNumber
      split
      · exact hy
      · exact List.mem_append_left _ hy
    have hself : ∃ y ∈ addNumber numbers x, eq y x = true := by
      unfold addNumber
      split
      · next hany => exact List.any_eq_true.mp hany
      · exact ⟨x, by simp, hrefl.1⟩
    refine ⟨fun y hy => hkept y (hsubset y hy), ?_⟩
    rw [List.forall_mem_cons]
    obtain ⟨y, hy, heq⟩ := hself
    exact ⟨⟨y, hkept y hy, heq⟩, hadded⟩

theorem length_selectedIndex? (entries : List (JsValue F)) :
    (entries.filterMap selectedIndex?).length ≤ (entries.filter selectedCycle).length := by
  induction entries with
  | nil => simp
  | cons entry rest ih =>
    rw [List.filterMap_cons, List.filter_cons]
    unfold selectedIndex? at ih ⊢
    cases hselected : selectedCycle entry with
    | false => simpa using ih
    | true =>
      cases cycleIndex? entry with
      | none =>
        simp only [if_true, List.length_cons]
        omega
      | some index => simpa using ih

end Parser

end XFoilFoam.Polar
