import XFoilFoam.Foundations.JsValue
import XFoilFoam.Foundations.Knapsack
import XFoilFoam.Foundations.ExceptLists
import Mathlib.Algebra.Order.Floor.Ring
import Mathlib.Algebra.BigOperators.Ring.Finset
import Mathlib.Data.List.Sort
import Mathlib.Data.Rat.Floor

/-! `apps/sweeper/src/queued-disk-exposure.ts`: the solver-disk reserve of the queued jobs.

The reserve of one job is computed on doubles and enters the forecast only as a safe integer.  From
there on the source adds non-negative safe integers and checks the total, so the model adds
naturals: a partial sum that a double could round is already past the bound of the last check. -/
namespace XFoilFoam.DiskExposure
open Knapsack
set_option autoImplicit false

/-! ## The source's data -/

def maxForecastQueueJobs : ℕ := 4096

def defaultDiskAdmissionBatchSlots : ℕ := 16

/-- The fields of `DiskAdmissionConfig` the forecast reads. -/
structure DiskAdmissionConfig (F : Type) where
  jobReserveBytes : F
  idleSlotReserveBytes : F
  ransCaseReserveBytes : Option F
  precalcCaseReserveBytes : Option F
  fullCaseReserveBytes : Option F

structure LocalDiskJob (F : Type) where
  totalCases : F
  completedCases : F
  requestPayload : JsValue F
  admissionCpuSlots : Option F

/-- A queued job as the forecast sees it: planned slots and reserved bytes. -/
structure Request where
  slots : ℕ
  bytes : ℕ
  slots_pos : 0 < slots
  deriving DecidableEq

structure Exposure where
  reservedBytes : ℕ
  queuedCpuSlots : ℕ
  deriving DecidableEq, Repr

def boundsError : String := "Queued disk forecast exceeds finite storage bounds"

section Model
variable {F : Type} [Binary64 F]
open Binary64

def safeNat (x : F) : Option ℕ :=
  (safeInteger x).bind (fun n => if 0 ≤ n then some n.toNat else none)

/-- `finiteList`, with the numbers. -/
def finiteList (value : JsValue F) (positive : Bool) : Option (List F) :=
  match value with
  | .arr xs =>
    if 0 < xs.length ∧ xs.length ≤ 1024 then
      xs.mapM (fun entry => entry.finite?.filter (fun x => !positive || lt (lit 0) x))
    else none
  | _ => none

/-- `new Set(values).size === values.length` on finite numbers. -/
def distinct : List F → Bool
  | [] => true
  | x :: xs => xs.all (fun y => !eq x y) && distinct xs

/-- The reserve of one case of the requested solver, `undefined` where the configuration has none. -/
def perCaseReserve (solver : JsValue F) (forceTransient transientFallback : Bool)
    (config : DiskAdmissionConfig F) : Option F :=
  if transientFallback then config.fullCaseReserveBytes
  else if forceTransient then
    if (solver.get "urans_fidelity").isStr "precalc" then config.precalcCaseReserveBytes
    else if (solver.get "urans_fidelity").isStr "full" then config.fullCaseReserveBytes
    else none
  else config.ransCaseReserveBytes

def queuedJobReserve (job : LocalDiskJob F) (config : DiskAdmissionConfig F) :
    Except String (Option ℕ) :=
  let request := job.requestPayload.get "engineRequest"
  let solver := request.get "solver"
  if !request.isRecord || !solver.isRecord || !(request.get "continue_from").isNullish ||
      !eq job.completedCases (lit 0) then .ok none
  else
    match finiteList ((request.get "aoa").get "angles") false,
        finiteList (request.get "chord_lengths") true, finiteList (request.get "speeds") true,
        solver.get "force_transient", solver.get "transient_fallback" with
    | some angles, some chords, some speeds, .bool forceTransient, .bool transientFallback =>
      if !distinct angles ||
          safeInteger job.totalCases != some (angles.length * chords.length * speeds.length : ℕ) then
        .ok none
      else
        match perCaseReserve solver forceTransient transientFallback config with
        | none => .ok none
        | some perCase =>
          match safeNat (ceil (mul job.totalCases perCase)) with
          | some bytes => if bytes = 0 then .error boundsError else .ok (some bytes)
          | none => .error boundsError
    | _, _, _, _, _ => .ok none

/-- The planned slots of a job that pass `Number.isSafeInteger` and are at least one. -/
def plannedSlots (job : LocalDiskJob F) : Option {n : ℕ // 0 < n} :=
  (job.admissionCpuSlots.bind safeNat).bind (fun n => if h : 0 < n then some ⟨n, h⟩ else none)

/-- One element of the `requests` list. -/
def queuedRequest (config : DiskAdmissionConfig F) (job : LocalDiskJob F) :
    Except String Request :=
  match job.admissionCpuSlots, plannedSlots job with
  | some slotsNumber, some slots =>
    (queuedJobReserve job config).bind fun known =>
      match known <|> safeNat (max config.jobReserveBytes (mul slotsNumber config.idleSlotReserveBytes)) with
      | some bytes => .ok ⟨slots.val, bytes, slots.property⟩
      | none => .error boundsError
  | _, _ => .error "Queued disk forecast requires exact planned CPU slots"

end Model

/-- The comparator of the `sort`: `left` stays before `right` unless `right` is strictly denser. -/
def DenserFirst (left right : Request) : Prop :=
  right.bytes * left.slots ≤ left.bytes * right.slots

instance : DecidableRel DenserFirst := fun left right =>
  inferInstanceAs (Decidable (right.bytes * left.slots ≤ left.bytes * right.slots))

/-- `requests.sort(...)`, which is stable. -/
def byDensity (requests : List Request) : List Request := requests.insertionSort DenserFirst

/-- The loop over the sorted requests, with `reservedBytes` and `remaining`. -/
def reserveLoop : List Request → ℕ → ℕ → ℕ × ℕ
  | [], remaining, reservedBytes => (reservedBytes, remaining)
  | request :: requests, remaining, reservedBytes =>
    let slots := min remaining request.slots
    let reservedBytes := reservedBytes + (request.bytes * slots + request.slots - 1) / request.slots
    let remaining := remaining - slots
    if remaining = 0 then (reservedBytes, remaining)
    else reserveLoop requests remaining reservedBytes

def forecast (requests : List Request) (idleSlots idleSlotReserveBytes : ℕ) : Exposure :=
  let out := reserveLoop (byDensity requests) idleSlots 0
  ⟨out.1 + min out.2 defaultDiskAdmissionBatchSlots * idleSlotReserveBytes, idleSlots - out.2⟩

def checked (exposure : Exposure) : Except String Exposure :=
  if (exposure.reservedBytes : ℤ) ≤ ExactNum.maxSafe then .ok exposure else .error boundsError

def queuedDiskExposure {F : Type} [Binary64 F] (jobs : List (LocalDiskJob F)) (idleSlots : F)
    (config : DiskAdmissionConfig F) : Except String Exposure :=
  match safeNat idleSlots, (safeNat config.idleSlotReserveBytes).filter (fun n => decide (0 < n)) with
  | some idle, some idleSlotReserveBytes =>
    if maxForecastQueueJobs < jobs.length then
      .ok ⟨min idle defaultDiskAdmissionBatchSlots * idleSlotReserveBytes, 0⟩
    else if jobs.any (fun job => (plannedSlots job).isNone) then
      .error "Queued disk forecast requires exact planned CPU slots"
    else
      (jobs.mapM (queuedRequest config)).bind fun requests =>
        checked (forecast requests idle idleSlotReserveBytes)
  | _, _ => .error "Queued disk forecast requires finite storage and capacity bounds"

/-! ## The loop is the greedy filling -/

/-- The knapsack item of a request: slots are the capacity it takes, bytes its value. -/
def item (r : Request) : Item ℚ := ⟨r.slots, r.bytes⟩

theorem cut_ceil (m s : ℕ) (hs : 0 < s) : (((m + s - 1) / s : ℕ) : ℤ) = ⌈(m : ℚ) / s⌉ := by
  have hs' : (0 : ℚ) < s := by exact_mod_cast hs
  generalize hq : (m + s - 1) / s = q
  have hlow : q * s + 1 ≤ m + s := by
    have := Nat.div_mul_le_self (m + s - 1) s
    rw [hq] at this
    omega
  have hhigh : m ≤ q * s := by
    have := Nat.lt_div_mul_add (a := m + s - 1) hs
    rw [hq] at this
    omega
  have hlow' : (q : ℚ) * s + 1 ≤ m + s := by exact_mod_cast hlow
  have hhigh' : (m : ℚ) ≤ q * s := by exact_mod_cast hhigh
  symm
  rw [Int.ceil_eq_iff, lt_div_iff₀ hs', div_le_iff₀ hs', Int.cast_natCast]
  exact ⟨by linarith, hhigh'⟩

theorem cut_whole (bytes slots : ℕ) (hs : 0 < slots) :
    (bytes * slots + slots - 1) / slots = bytes := by
  rw [Nat.add_sub_assoc hs, Nat.mul_comm, Nat.mul_add_div hs, Nat.div_eq_of_lt (by omega), Nat.add_zero]

theorem item_bounds (requests : List Request) :
    ∀ i ∈ requests.map item, 0 < i.weight ∧ 0 ≤ i.value := by
  intro i hi
  obtain ⟨r, -, rfl⟩ := List.mem_map.mp hi
  exact ⟨Nat.cast_pos.mpr r.slots_pos, Nat.cast_nonneg _⟩

theorem reserveLoop_spec : ∀ (requests : List Request) (remaining reserved : ℕ),
      ((reserveLoop requests remaining reserved).1 : ℤ) =
          reserved + ⌈greedy (requests.map item) (remaining : ℚ)⌉ ∧
        (reserveLoop requests remaining reserved).2 = remaining - (requests.map Request.slots).sum
  | [], remaining, reserved => by simp [reserveLoop, greedy]
  | r :: rs, remaining, reserved => by
    have hr := r.slots_pos
    simp only [reserveLoop, List.map_cons, List.sum_cons, greedy]
    by_cases hfit : r.slots ≤ remaining
    · have hfit' : (item r).weight ≤ (remaining : ℚ) := by simpa [item] using hfit
      have hrem : (remaining : ℚ) - (item r).weight = ((remaining - r.slots : ℕ) : ℚ) := by
        rw [Nat.cast_sub hfit]; rfl
      rw [Nat.min_eq_right hfit, cut_whole _ _ hr, if_pos hfit', hrem]
      have hvalue : (item r).value = ((r.bytes : ℤ) : ℚ) := by simp [item]
      rw [hvalue, Int.ceil_intCast_add]
      split
      · next h0 =>
        rw [h0, Nat.cast_zero, greedy_zero _ (fun i hi => (item_bounds rs i hi).1)]
        simp; omega
      · obtain ⟨h1, h2⟩ := reserveLoop_spec rs (remaining - r.slots) (reserved + r.bytes)
        rw [h1, h2]
        push_cast
        exact ⟨by ring, by omega⟩
    · have hfit' : ¬ (item r).weight ≤ (remaining : ℚ) := by simpa [item] using hfit
      rw [Nat.min_eq_left (by omega), if_neg hfit', Nat.sub_self, if_pos rfl]
      refine ⟨?_, by simp; omega⟩
      push_cast
      have h := cut_ceil (r.bytes * remaining) r.slots hr
      push_cast at h
      rw [h]
      rfl

/-! ## The sorted queue -/

instance : IsTrans Request DenserFirst where
  trans a b c hab hbc := by
    unfold DenserFirst at *
    refine Nat.le_of_mul_le_mul_right ?_ b.slots_pos
    calc c.bytes * a.slots * b.slots = c.bytes * b.slots * a.slots := by ring
      _ ≤ b.bytes * c.slots * a.slots := Nat.mul_le_mul_right _ hbc
      _ = b.bytes * a.slots * c.slots := by ring
      _ ≤ a.bytes * b.slots * c.slots := Nat.mul_le_mul_right _ hab
      _ = a.bytes * c.slots * b.slots := by ring

instance : Std.Total DenserFirst where
  total a b := Nat.le_total (b.bytes * a.slots) (a.bytes * b.slots)

theorem byDensity_perm (requests : List Request) : (byDensity requests).Perm requests :=
  List.perm_insertionSort DenserFirst requests

theorem byDensity_denser (requests : List Request) :
    ((byDensity requests).map item).Pairwise Denser := by
  rw [List.pairwise_map]
  refine (List.pairwise_insertionSort DenserFirst requests).imp ?_
  intro a b h
  have h' : b.bytes * a.slots ≤ a.bytes * b.slots := h
  show (b.bytes : ℚ) * a.slots ≤ a.bytes * b.slots
  exact_mod_cast h'

/-- The most a fractional choice of the requests can reserve on the idle slots. -/
def knapsackMax (requests : List Request) (idle : ℕ) : ℚ :=
  greedy ((byDensity requests).map item) idle

theorem knapsackMax_isGreatest (requests : List Request) (idle : ℕ) :
    IsGreatest (attainable (requests.map item) (idle : ℚ)) (knapsackMax requests idle) := by
  have hperm := (byDensity_perm requests).map item
  have h := greedy_isGreatest ((byDensity requests).map item) (idle : ℚ)
    (Nat.cast_nonneg idle) (item_bounds _) (byDensity_denser requests)
  exact ⟨attainable_perm hperm _ h.1, fun v hv => h.2 (attainable_perm hperm.symm _ hv)⟩

theorem forecast_reserved (requests : List Request) (idle idleBytes : ℕ) :
    ((forecast requests idle idleBytes).reservedBytes : ℤ) =
      ⌈knapsackMax requests idle⌉ +
        (min (idle - (requests.map Request.slots).sum) defaultDiskAdmissionBatchSlots * idleBytes : ℕ) := by
  obtain ⟨h1, h2⟩ := reserveLoop_spec (byDensity requests) idle 0
  have hsum : ((byDensity requests).map Request.slots).sum =
      (requests.map Request.slots).sum :=
    ((byDensity_perm requests).map Request.slots).sum_eq
  simp only [forecast]
  rw [h2, hsum, Nat.cast_add, h1, Nat.cast_zero, zero_add]
  rfl

theorem forecast_slots (requests : List Request) (idle idleBytes : ℕ) :
    (forecast requests idle idleBytes).queuedCpuSlots =
      idle - (idle - (requests.map Request.slots).sum) := by
  obtain ⟨-, h2⟩ := reserveLoop_spec (byDensity requests) idle 0
  have hsum : ((byDensity requests).map Request.slots).sum =
      (requests.map Request.slots).sum :=
    ((byDensity_perm requests).map Request.slots).sum_eq
  simp only [forecast]
  rw [h2, hsum]

theorem forecast_perm {requests requests' : List Request} (h : requests.Perm requests')
    (idle idleBytes : ℕ) : forecast requests idle idleBytes = forecast requests' idle idleBytes := by
  have hmax : knapsackMax requests idle = knapsackMax requests' idle := by
    have h1 := knapsackMax_isGreatest requests idle
    have h2 := knapsackMax_isGreatest requests' idle
    exact le_antisymm (h2.2 (attainable_perm (h.map item) _ h1.1))
      (h1.2 (attainable_perm (h.symm.map item) _ h2.1))
  have hsum := (h.map Request.slots).sum_eq
  have hbytes : (forecast requests idle idleBytes).reservedBytes =
      (forecast requests' idle idleBytes).reservedBytes := by
    have h1 := forecast_reserved requests idle idleBytes
    rw [hmax, hsum, ← forecast_reserved requests' idle idleBytes] at h1
    exact_mod_cast h1
  have hslots : (forecast requests idle idleBytes).queuedCpuSlots =
      (forecast requests' idle idleBytes).queuedCpuSlots := by
    rw [forecast_slots, forecast_slots, hsum]
  cases hf : forecast requests idle idleBytes
  cases hf' : forecast requests' idle idleBytes
  rw [hf, hf'] at hbytes hslots
  simp only at hbytes hslots
  rw [hbytes, hslots]

theorem forecast_covers {sub requests : List Request} (h : sub.Sublist requests)
    (idle idleBytes : ℕ) (hfit : (sub.map Request.slots).sum ≤ idle) :
    (sub.map Request.bytes).sum ≤ (forecast requests idle idleBytes).reservedBytes := by
  have hslots : ((sub.map item).map Item.weight).sum = (((sub.map Request.slots).sum : ℕ) : ℚ) := by
    rw [List.map_map, Nat.cast_list_sum, List.map_map]; rfl
  have hbytes : ((sub.map item).map Item.value).sum = (((sub.map Request.bytes).sum : ℕ) : ℚ) := by
    rw [List.map_map, Nat.cast_list_sum, List.map_map]; rfl
  have hmem := sublist_attainable (h.map item) (idle : ℚ) (by rw [hslots]; exact_mod_cast hfit)
  have hle := (knapsackMax_isGreatest requests idle).2 hmem
  rw [hbytes] at hle
  have hceil : ((sub.map Request.bytes).sum : ℤ) ≤ ⌈knapsackMax requests idle⌉ := by
    have hup := hle.trans (Int.le_ceil _)
    generalize (sub.map Request.bytes).sum = total at hup ⊢
    exact_mod_cast hup
  have hres := forecast_reserved requests idle idleBytes
  omega

/-! ## The exposure -/

theorem checked_eq_ok {exposure r : Exposure} :
    checked exposure = .ok r ↔ exposure = r ∧ (r.reservedBytes : ℤ) ≤ ExactNum.maxSafe := by
  unfold checked
  split
  · next h =>
    constructor
    · rintro ⟨⟩
      exact ⟨rfl, h⟩
    · rintro ⟨rfl, -⟩
      rfl
  · next h =>
    constructor
    · rintro ⟨⟩
    · rintro ⟨rfl, hs⟩
      exact absurd hs h

theorem queuedRequest_planned {F : Type} [Binary64 F] {config : DiskAdmissionConfig F}
    {job : LocalDiskJob F} {request : Request} (h : queuedRequest config job = .ok request) :
    ∃ slots, plannedSlots job = some slots := by
  unfold queuedRequest at h
  split at h
  · next slots _ hplanned => exact ⟨slots, hplanned⟩
  · cases h

theorem queuedDiskExposure_ok {F : Type} [Binary64 F] {jobs : List (LocalDiskJob F)} {idleSlots : F}
    {config : DiskAdmissionConfig F} {r : Exposure} (hlen : jobs.length ≤ maxForecastQueueJobs) :
    queuedDiskExposure jobs idleSlots config = .ok r ↔
      ∃ idle idleBytes requests, safeNat idleSlots = some idle ∧
        safeNat config.idleSlotReserveBytes = some idleBytes ∧ 0 < idleBytes ∧
        jobs.mapM (queuedRequest config) = .ok requests ∧
        forecast requests idle idleBytes = r ∧ (r.reservedBytes : ℤ) ≤ ExactNum.maxSafe := by
  have hshort : ¬ maxForecastQueueJobs < jobs.length := by omega
  constructor
  · intro h
    unfold queuedDiskExposure at h
    split at h
    · next idle idleBytes hidle hfilter =>
      rw [if_neg hshort] at h
      split at h
      · cases h
      · obtain ⟨requests, hreqs, h⟩ := bind_eq_ok.mp h
        obtain ⟨hbytes, hpos⟩ := Option.filter_eq_some_iff.mp hfilter
        obtain ⟨rfl, hsafe⟩ := checked_eq_ok.mp h
        exact ⟨idle, idleBytes, requests, hidle, hbytes, by simpa using hpos, hreqs, rfl, hsafe⟩
    · cases h
  · rintro ⟨idle, idleBytes, requests, hidle, hbytes, hpos, hreqs, rfl, hsafe⟩
    have hslots : jobs.any (fun job => (plannedSlots job).isNone) = false := by
      rw [List.any_eq_false]
      intro job hjob
      obtain ⟨request, hrequest⟩ := mapM_mem hreqs hjob
      obtain ⟨slots, hplanned⟩ := queuedRequest_planned hrequest
      simp [hplanned]
    have hfilter : (safeNat config.idleSlotReserveBytes).filter (fun n => decide (0 < n)) =
        some idleBytes := Option.filter_eq_some_iff.mpr ⟨hbytes, by simpa using hpos⟩
    simp only [queuedDiskExposure, hidle, hfilter, if_neg hshort, hslots, hreqs]
    exact checked_eq_ok.mpr ⟨rfl, hsafe⟩

theorem queuedDiskExposure_knapsack {F : Type} [Binary64 F] (jobs : List (LocalDiskJob F))
    (idleSlots : F) (config : DiskAdmissionConfig F) (r : Exposure)
    (hlen : jobs.length ≤ maxForecastQueueJobs)
    (h : queuedDiskExposure jobs idleSlots config = .ok r) :
    ∃ idle idleBytes requests, safeNat idleSlots = some idle ∧
      safeNat config.idleSlotReserveBytes = some idleBytes ∧
      jobs.mapM (queuedRequest config) = .ok requests ∧
      (∃ best : ℚ, IsGreatest (attainable (requests.map item) (idle : ℚ)) best ∧
        (r.reservedBytes : ℤ) = ⌈best⌉ + (min (idle - (requests.map Request.slots).sum)
          defaultDiskAdmissionBatchSlots * idleBytes : ℕ)) ∧
      (∀ jobs', jobs'.Perm jobs → queuedDiskExposure jobs' idleSlots config = .ok r) ∧
      (∀ sub chosen, List.Sublist sub jobs → sub.mapM (queuedRequest config) = .ok chosen →
        (chosen.map Request.slots).sum ≤ idle →
        (chosen.map Request.bytes).sum ≤ r.reservedBytes) := by
  obtain ⟨idle, idleBytes, requests, hidle, hbytes, hpos, hreqs, hf, hsafe⟩ :=
    (queuedDiskExposure_ok hlen).mp h
  refine ⟨idle, idleBytes, requests, hidle, hbytes, hreqs,
    ⟨knapsackMax requests idle, knapsackMax_isGreatest requests idle, ?_⟩, ?_, ?_⟩
  · rw [← hf]
    exact forecast_reserved requests idle idleBytes
  · intro jobs' hperm
    obtain ⟨requests', hreqs', hperm'⟩ :=
      List.perm_comp_forall₂ hperm ((mapM_eq_ok _ _ _).mp hreqs)
    refine (queuedDiskExposure_ok (hperm.length_eq ▸ hlen)).mpr
      ⟨idle, idleBytes, requests', hidle, hbytes, hpos, (mapM_eq_ok _ _ _).mpr hreqs', ?_, hsafe⟩
    rw [forecast_perm hperm', hf]
  · intro sub chosen hsub hchosen hfit
    rw [← hf]
    exact forecast_covers (mapM_sublist _ hsub hchosen hreqs) idle idleBytes hfit

def mixedQueue : List (LocalDiskJob ExactNum) :=
  [{ totalCases := .fin 2, completedCases := .fin 0, admissionCpuSlots := some (.fin 2),
     requestPayload := .obj [("engineRequest", .obj
       [("aoa", .obj [("angles", .arr [.num (.fin 0), .num (.fin 4)])]),
        ("chord_lengths", .arr [.num (.fin 1)]), ("speeds", .arr [.num (.fin 30)]),
        ("solver", .obj [("force_transient", .bool false), ("transient_fallback", .bool false)])])] },
   { totalCases := .fin 1, completedCases := .fin 0, admissionCpuSlots := some (.fin 3),
     requestPayload := .null }]

def mixedConfig : DiskAdmissionConfig ExactNum :=
  { jobReserveBytes := .fin 20, idleSlotReserveBytes := .fin 7,
    ransCaseReserveBytes := some (.fin (5 / 2)), precalcCaseReserveBytes := none,
    fullCaseReserveBytes := none }

theorem queuedDiskExposure_knapsack_mixed :
    queuedDiskExposure mixedQueue (.fin 4) mixedConfig = .ok ⟨24, 4⟩ ∧
      ∃ requests, mixedQueue.mapM (queuedRequest mixedConfig) = .ok requests ∧
        ∃ best : ℚ, IsGreatest (attainable (requests.map item) 4) best ∧ 24 = ⌈best⌉ := by
  have hrun : queuedDiskExposure mixedQueue (.fin 4) mixedConfig = .ok ⟨24, 4⟩ := by decide +kernel
  obtain ⟨idle, idleBytes, requests, hidle, hbytes, hreqs, ⟨best, hbest, heq⟩, -⟩ :=
    queuedDiskExposure_knapsack mixedQueue (.fin 4) mixedConfig ⟨24, 4⟩ (by decide) hrun
  have h4 : safeNat (ExactNum.fin 4) = some 4 := by decide +kernel
  obtain rfl : 4 = idle := Option.some.inj (h4.symm.trans hidle)
  refine ⟨hrun, requests, hreqs, best, by exact_mod_cast hbest, ?_⟩
  have hreqs' : mixedQueue.mapM (queuedRequest mixedConfig) = .ok [⟨2, 5, by decide⟩, ⟨3, 21, by decide⟩] := by
    decide +kernel
  rw [hreqs] at hreqs'
  cases hreqs'
  simpa using heq

end XFoilFoam.DiskExposure
