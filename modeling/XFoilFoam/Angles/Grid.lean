import XFoilFoam.Angles.Canonical
import XFoilFoam.Geometry.Coordinates

/-! `expandAngleGrid` of `canonical.ts`.  Angles below `2.5e11` degrees are counted in units of `1e-4`: the doubles
that the code scales, adds and divides are then exact, and a canonical angle is its own rounding. -/
namespace XFoilFoam.Angles
open Decimal XFoilFoam.Geometry
set_option autoImplicit false

/-! ## The expansion -/

/-- `AngleGridSpec`; an absent field is `undefined`. -/
structure AngleGridSpec where
  fromDeg : Option Double
  toDeg : Option Double
  stepDeg : Option Double
  listDeg : Option (List Double)

def aoaScale : Double := Binary64.lit 10000

/-- The loop over `v`; nothing when the fuel is used up. -/
def gridFrom (stop step : Double) : ℕ → Double → Option (Except String (List Double))
  | 0, _ => none
  | fuel + 1, v =>
    if Binary64.le v stop then
      match canonicalAoa (Binary64.div v aoaScale) with
      | .error e => some (.error e)
      | .ok a => (gridFrom stop step fuel (Binary64.add v step)).map fun rest => rest.map (a :: ·)
    else some (.ok [])

/-- `Math.round(canonicalAoa(x) * AOA_SCALE)`. -/
def scaled (x : Double) : Except String Double := do
  let canonical ← canonicalAoa x
  pure (mathRound (Binary64.mul canonical aoaScale))

def expandRange (fuel : ℕ) (fromDeg toDeg stepDeg : Double) : Option (Except String (List Double)) :=
  if Binary64.le stepDeg (Binary64.lit 0) then some (.error "angle grid stepDeg must be > 0")
  else
    match scaled fromDeg, scaled toDeg, scaled stepDeg with
    | .ok start, .ok stop, .ok step =>
      if Binary64.eq step (Binary64.lit 0) then
        some (.error "angle grid stepDeg rounds to zero at 1e-4 deg precision")
      else gridFrom stop step fuel start
    | .error e, _, _ => some (.error e)
    | _, .error e, _ => some (.error e)
    | _, _, .error e => some (.error e)

def expandList (list : List Double) : Except String (List Double) := do
  let angles ← list.mapM canonicalAoa
  pure (jsSort Binary64.sub angles.eraseDups)

def expandAngleGrid (fuel : ℕ) (spec : AngleGridSpec) : Option (Except String (List Double)) :=
  match spec.listDeg with
  | some list => some (expandList list)
  | none =>
    match spec.fromDeg, spec.toDeg, spec.stepDeg with
    | some fromDeg, some toDeg, some stepDeg =>
      if Binary64.isFinite fromDeg && Binary64.isFinite toDeg && Binary64.isFinite stepDeg then
        expandRange fuel fromDeg toDeg stepDeg
      else some (.error "angle grid requires fromDeg/toDeg/stepDeg when listDeg is absent")
    | _, _, _ => some (.error "angle grid requires fromDeg/toDeg/stepDeg when listDeg is absent")

def rangeSpec (fromDeg toDeg stepDeg : Double) : AngleGridSpec := ⟨some fromDeg, some toDeg, some stepDeg, none⟩

def listSpec (list : List Double) : AngleGridSpec := ⟨none, none, none, some list⟩

/-! ## Units of `1e-4` -/

def angle (n : ℤ) : Double := Binary64.lit (n / 10 ^ 4)

/-- The units up to which every step of the expansion is exact. -/
def exactUnits : ℤ := 25 * 10 ^ 14

section Units
variable {n : ℤ}

theorem abs_div_scale (h : |n| ≤ exactUnits) : |(n : ℚ) / 10 ^ 4| ≤ 25 * 10 ^ 10 := by
  have hcast : |(n : ℚ)| ≤ 25 * 10 ^ 14 := by exact_mod_cast h
  rw [abs_div, abs_of_pos (by norm_num : (0 : ℚ) < 10 ^ 4), div_le_iff₀ (by norm_num)]
  linarith

theorem abs_roundRat_le {p : ℚ} {m : ℤ} (hm : |m| ≤ 2 ^ 53) (h : |p| ≤ m) : |roundRat p| ≤ m := by
  have hmono := roundRat_mono h
  rw [roundRat_intCast hm] at hmono
  rw [abs_roundRat]
  exact hmono

theorem abs_roundRat_scale (h : |n| ≤ exactUnits) : |roundRat (n / 10 ^ 4)| ≤ 25 * 10 ^ 10 := by
  have hbound := abs_div_scale h
  have hlimit : ((25 * 10 ^ 10 : ℤ) : ℚ) = 25 * 10 ^ 10 := by norm_num
  rw [← hlimit] at hbound ⊢
  exact abs_roundRat_le (by norm_num) hbound

theorem angle_val (h : |n| ≤ exactUnits) : (angle n).val = .fin (roundRat (n / 10 ^ 4)) := by
  apply Double.round64_of_lt
  refine lt_of_le_of_lt (abs_roundRat_scale h) ?_
  calc (25 * 10 ^ 10 : ℚ) < 2 ^ 38 := by norm_num
    _ < 2 ^ overflowExponent := pow_lt_pow_right₀ (by norm_num) (by decide)

theorem least_units : (10 : ℚ) ^ (-4 : ℤ) ≤ roundRat (1 / 10 ^ 4) ∧ (10 : ℚ) ^ (-7 : ℤ) ≤ roundRat (1 / 10 ^ 6) ∧
    (1 : ℚ) / 25000 ≤ roundRat (1 / 20000) := by
  have hangle : roundRat (1 / 10 ^ 4) = (7378697629483821 : ℤ) * 2 ^ (-66 : ℤ) :=
    roundRat_near _ (by norm_num) (by norm_num) (by norm_num) (by norm_num [abs_lt])
  have hmillionth : roundRat (1 / 10 ^ 6) = (4722366482869645 : ℤ) * 2 ^ (-72 : ℤ) :=
    roundRat_near _ (by norm_num) (by norm_num) (by norm_num) (by norm_num [abs_lt])
  have hstep : roundRat (1 / 20000) = (7378697629483821 : ℤ) * 2 ^ (-67 : ℤ) :=
    roundRat_near _ (by norm_num) (by norm_num) (by norm_num) (by norm_num [abs_lt])
  rw [hangle, hmillionth, hstep]
  norm_num

theorem roundRat_one_unit : (10 : ℚ) ^ (-4 : ℤ) ≤ roundRat (1 / 10 ^ 4) := least_units.1

theorem decimal_angle (h : |n| ≤ exactUnits) : decimal (angle n) = n / 10 ^ 4 := by
  apply decimal_lit (b := -15) (by norm_num) (by norm_num) (angle_val h)
  · exact lt_of_le_of_lt (abs_roundRat_scale h) (by norm_num)
  · intro hne
    have hone : (1 : ℚ) / 10 ^ 4 ≤ |(n : ℚ) / 10 ^ 4| := by
      rw [abs_div, abs_of_pos (by norm_num : (0 : ℚ) < 10 ^ 4)]
      exact div_le_div_of_nonneg_right (by exact_mod_cast Int.one_le_abs hne) (by norm_num)
    rw [abs_roundRat]
    exact roundRat_one_unit.trans (roundRat_mono hone)

theorem units_angle (h : |n| ≤ exactUnits) : units 4 (angle n) = n := by
  rw [units, decimal_angle h, div_mul_cancel₀ _ (by norm_num), roundHalfEven_intCast]

theorem canonicalAoa_angle (h : |n| ≤ exactUnits) : canonicalAoa (angle n) = .ok (angle n) := by
  rw [canonicalAoa_eq (angle_val h), units_angle h, angle]

theorem angle_lt {m : ℤ} (hm : |m| ≤ exactUnits) (hn : |n| ≤ exactUnits) (h : m < n) :
    Binary64.lt (angle m) (angle n) = true := by
  have hle : (m : ℚ) / 10 ^ 4 ≤ n / 10 ^ 4 := div_le_div_of_nonneg_right (by exact_mod_cast h.le) (by norm_num)
  refine Double.lt_of_rounded (angle_val hm) (angle_val hn) hle fun hsame => ?_
  have hunits := units_angle hm
  rw [hsame, units_angle hn] at hunits
  omega

end Units

/-! ## Scaled whole numbers -/

def whole (n : ℤ) : Double := Binary64.lit n

theorem abs_roundRat_sub_of_abs_lt {p : ℚ} {b : ℤ} (hmin : -1074 ≤ b) (h : |p| < 2 ^ (b + 53)) :
    |roundRat p - p| ≤ 2 ^ b / 2 := by
  by_cases hzero : p = 0
  · rw [hzero, roundRat_zero, sub_zero, abs_zero]
    exact (half_pos (two_zpow_pos b)).le
  · have hpower : (2 : ℚ) ^ lastBit p ≤ 2 ^ b := zpow_le_zpow_right₀ (by norm_num) (lastBit_le hzero h hmin)
    exact (abs_roundRat_sub p).trans (by linarith)

section Scaled
variable {n : ℤ}

theorem whole_val (h : |n| ≤ 2 ^ 53) : (whole n).val = .fin n := Double.lit_intCast h

theorem aoaScale_val : aoaScale.val = .fin 10000 := by
  have hlit := Double.lit_intCast (n := 10000) (by norm_num)
  exact_mod_cast hlit

theorem div_aoaScale (h : |n| ≤ 2 ^ 53) : Binary64.div (whole n) aoaScale = angle n := by
  show Double.ofExact ((whole n).val.div aoaScale.val) = Double.ofExact (.fin (n / 10 ^ 4))
  rw [whole_val h, aoaScale_val]
  norm_num [ExactNum.div]

theorem add_whole {m : ℤ} (hm : |m| ≤ 2 ^ 53) (hn : |n| ≤ 2 ^ 53) :
    Binary64.add (whole m) (whole n) = whole (m + n) := by
  show Double.ofExact ((whole m).val.add (whole n).val) = Double.ofExact (.fin ((m + n : ℤ) : ℚ))
  rw [whole_val hm, whole_val hn]
  push_cast
  rfl

theorem mathRound_scaled (h : |n| ≤ exactUnits) :
    mathRound (Binary64.mul (angle n) aoaScale) = whole n := by
  set v := roundRat ((n : ℚ) / 10 ^ 4) with hv
  have hunits : |(n : ℚ)| ≤ 25 * 10 ^ 14 := by exact_mod_cast h
  have hnear : |v - n / 10 ^ 4| ≤ 2 ^ (-15 : ℤ) / 2 :=
    abs_roundRat_sub_of_abs_lt (by norm_num) (lt_of_le_of_lt (abs_div_scale h) (by norm_num))
  have hproduct : |v * 10000 - n| ≤ 2 / 10 := by
    have hsplit : v * 10000 - n = (v - n / 10 ^ 4) * 10000 := by ring
    rw [hsplit, abs_mul, abs_of_pos (by norm_num : (0 : ℚ) < 10000)]
    have : (2 : ℚ) ^ (-15 : ℤ) / 2 * 10000 ≤ 2 / 10 := by norm_num
    linarith
  have hsize : |v * 10000| < 2 ^ (-1 + 53 : ℤ) := by
    have htriangle : |v * 10000| ≤ |v * 10000 - n| + |(n : ℚ)| := by
      have := abs_add_le (v * 10000 - n) n
      rwa [sub_add_cancel] at this
    have hlimit : (2 / 10 + 25 * 10 ^ 14 : ℚ) < 2 ^ (-1 + 53 : ℤ) := by norm_num
    exact lt_of_le_of_lt (htriangle.trans (add_le_add hproduct hunits)) hlimit
  have hround := abs_roundRat_sub_of_abs_lt (b := -1) (by norm_num) hsize
  have hval : (Binary64.mul (angle n) aoaScale).val = .fin (roundRat (v * 10000)) := by
    have hexact : (Binary64.mul (angle n) aoaScale).val = round64 (.fin (v * 10000)) := by
      show round64 ((angle n).val.mul aoaScale.val) = _
      rw [angle_val h, aoaScale_val]
      rfl
    rw [hexact]
    apply Double.round64_of_lt
    have hpower : (2 : ℚ) ^ (-1 + 53 : ℤ) = ((2 ^ 52 : ℤ) : ℚ) := by norm_num
    have hle := abs_roundRat_le (by norm_num) (hpower ▸ hsize.le)
    refine lt_of_le_of_lt hle ?_
    exact_mod_cast Double.two_pow_lt (by decide : 52 < overflowExponent)
  have hfloor : ⌊roundRat (v * 10000) + 1 / 2⌋ = n := by
    have hquarter : (2 : ℚ) ^ (-1 : ℤ) / 2 = 1 / 4 := by norm_num
    rw [hquarter] at hround
    obtain ⟨hlow, hhigh⟩ := abs_le.mp hround
    obtain ⟨hlow', hhigh'⟩ := abs_le.mp hproduct
    rw [Int.floor_eq_iff]
    constructor <;> linarith
  simp only [mathRound, hval, hfloor, whole]

theorem scaled_eq {x : Double} {q : ℚ} (hx : x.val = .fin q) (h : |units 4 x| ≤ exactUnits) :
    scaled x = .ok (whole (units 4 x)) := by
  unfold scaled
  rw [canonicalAoa_eq hx]
  show Except.ok (mathRound (Binary64.mul (angle (units 4 x)) aoaScale)) = _
  rw [mathRound_scaled h]

end Scaled

/-! ## Steps beyond the exact units -/

/-- A number from `c` on, or infinity. -/
def AtLeast (c : ℚ) (x : Double) : Prop := x.val = .posInf ∨ ∃ q, x.val = .fin q ∧ c ≤ q

section Large
variable {c : ℤ} {p : ℚ} {x : Double}

theorem atLeast_lit (hc : |c| ≤ 2 ^ 53) (h : c ≤ p) : AtLeast c (Binary64.lit p) := by
  have hround := roundRat_mono h
  rw [roundRat_intCast hc] at hround
  have hsmall : -(2 : ℚ) ^ overflowExponent < c := by
    have habs : |(c : ℚ)| < 2 ^ overflowExponent := by exact_mod_cast lt_of_le_of_lt hc (Double.two_pow_lt (by decide))
    exact (abs_lt.mp habs).1
  obtain ⟨-, hval⟩ | ⟨hlow, -⟩ | ⟨-, hval⟩ := Double.round64_cases p
  · exact .inl hval
  · exact absurd (hsmall.trans_le hround) (not_lt.mpr hlow)
  · exact .inr ⟨_, hval, hround⟩

theorem atLeast_mul {d : ℤ} (hd : |d| ≤ 2 ^ 53) (hx : AtLeast c x) (h : d ≤ (c : ℚ) * 10000) :
    AtLeast d (Binary64.mul x aoaScale) := by
  have hmul : Binary64.mul x aoaScale = Double.ofExact (x.val.mul aoaScale.val) := rfl
  rw [aoaScale_val] at hmul
  obtain hinf | ⟨q, hq, hle⟩ := hx
  · left
    rw [hmul, hinf]
    rfl
  · rw [hmul, hq]
    exact atLeast_lit hd (h.trans (by linarith))

theorem atLeast_mathRound (hc : |c| ≤ 2 ^ 53) (hx : AtLeast c x) : AtLeast c (mathRound x) := by
  obtain hinf | ⟨q, hq, hle⟩ := hx
  · left
    simp only [mathRound, hinf]
  · simp only [mathRound, hq]
    apply atLeast_lit hc
    have hfloor : c ≤ ⌊q + 1 / 2⌋ := Int.le_floor.mpr (by linarith)
    exact_mod_cast hfloor

theorem atLeast_add {d v : ℤ} (hd : |d| ≤ 2 ^ 53) (hv : |v| ≤ 2 ^ 53) (hx : AtLeast c x) (h : d ≤ v + c) :
    AtLeast d (Binary64.add (whole v) x) := by
  have hadd : Binary64.add (whole v) x = Double.ofExact ((whole v).val.add x.val) := rfl
  rw [whole_val hv] at hadd
  have hcast : (d : ℚ) ≤ v + c := by exact_mod_cast h
  obtain hinf | ⟨q, hq, hle⟩ := hx
  · left
    rw [hadd, hinf]
    rfl
  · rw [hadd, hq]
    exact atLeast_lit hd (by linarith)

theorem AtLeast.not_le {t : ℤ} (ht : |t| ≤ 2 ^ 53) (hx : AtLeast c x) (h : t < c) :
    Binary64.le x (whole t) = false := by
  rw [Bool.eq_false_iff]
  intro hle
  obtain hinf | ⟨q, hq, hge⟩ := hx
  · have hval : x.val.le (whole t).val = true := hle
    rw [hinf, whole_val ht] at hval
    cases hval
  · have hcast : (t : ℚ) < c := by exact_mod_cast h
    have := (Double.le_iff hq (whole_val ht)).mp hle
    linarith

end Large

/-! ## The loop -/

/-- The angles from `f` units on in steps of `s` up to `t`. -/
def unitGrid (f t s : ℤ) : List Double := (List.range ((t - f) / s + 1).toNat).map fun i : ℕ => angle (f + i * s)

section Loop
variable {f t s : ℤ} {step : Double}

theorem unitGrid_of_lt (hs : 0 < s) (h : t < f) : unitGrid f t s = [] := by
  have hnone : ((t - f) / s + 1).toNat = 0 := by
    have := Int.ediv_neg_of_neg_of_pos (by omega : t - f < 0) hs
    omega
  rw [unitGrid, hnone]
  rfl

theorem count_succ (hs : 0 < s) (h : f ≤ t) :
    ((t - f) / s + 1).toNat = ((t - (f + s)) / s + 1).toNat + 1 := by
  have hnext : (t - (f + s)) / s = (t - f) / s - 1 := by
    rw [show t - (f + s) = t - f + s * (-1) by ring, Int.add_mul_ediv_left _ _ hs.ne']
    ring
  have hnonneg := Int.ediv_nonneg (by omega : 0 ≤ t - f) hs.le
  omega

theorem unitGrid_cons (hs : 0 < s) (h : f ≤ t) : unitGrid f t s = angle f :: unitGrid (f + s) t s := by
  rw [unitGrid, count_succ hs h, List.range_succ_eq_map, List.map_cons, List.map_map, unitGrid]
  congr 1
  · simp
  · apply List.map_congr_left
    intro i _
    show angle (f + ((i + 1 : ℕ) : ℤ) * s) = angle (f + s + i * s)
    congr 1
    push_cast
    ring

theorem mem_unitGrid (hs : 0 < s) {a : Double} :
    a ∈ unitGrid f t s ↔ ∃ i : ℕ, f + i * s ≤ t ∧ a = angle (f + i * s) := by
  simp only [unitGrid, List.mem_map, List.mem_range]
  constructor
  · rintro ⟨i, hi, rfl⟩
    refine ⟨i, ?_, rfl⟩
    have hle : (i : ℤ) ≤ (t - f) / s := by omega
    have := (Int.le_ediv_iff_mul_le hs).mp hle
    omega
  · rintro ⟨i, hi, rfl⟩
    refine ⟨i, ?_, rfl⟩
    have hle : (i : ℤ) ≤ (t - f) / s := (Int.le_ediv_iff_mul_le hs).mpr (by omega)
    omega

theorem mem_unitGrid_units (hs : 0 < s) (hf : |f| ≤ 10 ^ 15) (ht : |t| ≤ 10 ^ 15) {i : ℕ} (hi : f + i * s ≤ t) :
    |f + i * s| ≤ exactUnits := by
  have hnonneg : 0 ≤ i * s := by positivity
  have hf' := abs_le.mp hf
  have ht' := abs_le.mp ht
  unfold exactUnits
  rw [abs_le]
  constructor <;> omega

theorem unitGrid_sorted (hs : 0 < s) (hf : |f| ≤ 10 ^ 15) (ht : |t| ≤ 10 ^ 15) :
    (unitGrid f t s).Pairwise fun a b => Binary64.lt a b = true := by
  rw [unitGrid, List.pairwise_map]
  refine List.Pairwise.imp_of_mem ?_ List.pairwise_lt_range
  intro i j hi hj hlt
  have hbound : ∀ k ∈ List.range ((t - f) / s + 1).toNat, f + k * s ≤ t := by
    intro k hk
    have hle : (k : ℤ) ≤ (t - f) / s := by
      have := List.mem_range.mp hk
      omega
    have := (Int.le_ediv_iff_mul_le hs).mp hle
    omega
  apply angle_lt (mem_unitGrid_units hs hf ht (hbound i hi)) (mem_unitGrid_units hs hf ht (hbound j hj))
  have : (i : ℤ) * s < j * s := mul_lt_mul_of_pos_right (by exact_mod_cast hlt) hs
  omega

/-- The scaled step: exact, or past the end of every range. -/
def Steps (s : ℤ) (step : Double) : Prop :=
  s ≤ exactUnits ∧ step = whole s ∨ exactUnits < s ∧ AtLeast exactUnits step

theorem scaled_steps {x : Double} {q : ℚ} (hx : x.val = .fin q) (hs : 0 < units 4 x) :
    ∃ step, scaled x = .ok step ∧ Steps (units 4 x) step := by
  obtain hsmall | hlarge := le_or_gt (units 4 x) exactUnits
  · exact ⟨_, scaled_eq hx (by rw [abs_of_pos hs]; exact hsmall), .inl ⟨hsmall, rfl⟩⟩
  · refine ⟨mathRound (Binary64.mul (angle (units 4 x)) aoaScale), ?_, .inr ⟨hlarge, ?_⟩⟩
    · unfold scaled
      rw [canonicalAoa_eq hx]
      rfl
    · have hunits : (exactUnits : ℚ) ≤ units 4 x := by exact_mod_cast hlarge.le
      have hangle : AtLeast (25 * 10 ^ 10 : ℤ) (angle (units 4 x)) := by
        apply atLeast_lit (by norm_num)
        rw [le_div_iff₀ (by norm_num)]
        refine le_trans (le_of_eq ?_) hunits
        norm_num [exactUnits]
      apply atLeast_mathRound (by norm_num [exactUnits])
      apply atLeast_mul (by norm_num [exactUnits]) hangle
      norm_num [exactUnits]

theorem Steps.ne_zero (h : Steps s step) (hs : 0 < s) : Binary64.eq step (Binary64.lit 0) = false := by
  rw [Bool.eq_false_iff]
  intro heq
  have hval := Double.val_of_eq heq Double.lit_zero
  obtain ⟨hsmall, rfl⟩ | ⟨-, hinf | ⟨q, hq, hle⟩⟩ := h
  · have habs : |s| ≤ 2 ^ 53 := by
      unfold exactUnits at hsmall
      rw [abs_of_pos hs]
      omega
    rw [whole_val habs] at hval
    have : (s : ℚ) = 0 := ExactNum.fin.inj hval
    have hzero : s = 0 := by exact_mod_cast this
    omega
  · rw [hinf] at hval
    cases hval
  · rw [hq] at hval
    have hzero : q = 0 := ExactNum.fin.inj hval
    rw [hzero] at hle
    norm_num [exactUnits] at hle

theorem gridFrom_eq (hs : 0 < s) (hsteps : Steps s step) (ht : |t| ≤ 10 ^ 15) {fuel : ℕ} {v : ℤ}
    (hlow : -10 ^ 15 ≤ v) (hhigh : v ≤ 4 * 10 ^ 15) (hfuel : ((t - v) / s + 1).toNat < fuel) :
    gridFrom (whole t) step fuel (whole v) = some (.ok (unitGrid v t s)) := by
  have htop : t ≤ 10 ^ 15 := (abs_le.mp ht).2
  have ht53 : |t| ≤ 2 ^ 53 := ht.trans (by norm_num)
  induction fuel generalizing v with
  | zero => exact absurd hfuel (Nat.not_lt_zero _)
  | succ fuel ih =>
    have hv53 : |v| ≤ 2 ^ 53 := abs_le.mpr ⟨by omega, by omega⟩
    rw [gridFrom]
    by_cases hle : v ≤ t
    · have hcompare : Binary64.le (whole v) (whole t) = true :=
        (Double.le_iff (whole_val hv53) (whole_val ht53)).mpr (by exact_mod_cast hle)
      have hexact : |v| ≤ exactUnits := abs_le.mpr ⟨by unfold exactUnits; omega, by unfold exactUnits; omega⟩
      have hcount := count_succ hs hle
      rw [if_pos hcompare, div_aoaScale hv53, canonicalAoa_angle hexact, unitGrid_cons hs hle]
      obtain ⟨hsmall, rfl⟩ | ⟨hlarge, hatLeast⟩ := hsteps
      · unfold exactUnits at hsmall
        have hs53 : |s| ≤ 2 ^ 53 := abs_le.mpr ⟨by omega, by omega⟩
        have hrest := ih (v := v + s) (by omega) (by omega) (by omega)
        simp only [add_whole hv53 hs53, hrest]
        rfl
      · -- one step leaves the range
        unfold exactUnits at hlarge
        have hpast : t < v + s := by omega
        rw [unitGrid_of_lt hs hpast]
        have hstop : Binary64.le (Binary64.add (whole v) step) (whole t) = false := by
          apply AtLeast.not_le ht53 (atLeast_add (d := t + 1) _ hv53 hatLeast _) (by omega)
          · exact abs_le.mpr ⟨by omega, by omega⟩
          · unfold exactUnits
            omega
        obtain ⟨more, rfl⟩ := Nat.exists_eq_succ_of_ne_zero (by omega : fuel ≠ 0)
        have hdone : gridFrom (whole t) step (more + 1) (Binary64.add (whole v) step) = some (.ok []) := by
          rw [gridFrom, hstop]
          rfl
        simp only [hdone]
        rfl
    · have hcompare : ¬Binary64.le (whole v) (whole t) = true := by
        rw [Double.le_iff (whole_val hv53) (whole_val ht53)]
        exact_mod_cast hle
      rw [if_neg hcompare, unitGrid_of_lt hs (not_le.mp hle)]

end Loop

/-! ## Grids -/

section Ranges
variable {x : Double} {q : ℚ}

theorem decimalOf_abs_lt {m : ℤ} (hm : |m| ≤ 2 ^ 53) (h : |q| < m) : 0 ≤ decimalOf |q| ∧ decimalOf |q| < m := by
  obtain hzero | hpos := (abs_nonneg q).eq_or_lt
  · rw [← hzero] at h ⊢
    rw [decimalOf_zero]
    exact ⟨le_rfl, h⟩
  · exact ⟨decimalOf_nonneg hpos, decimalOf_lt hpos (roundRat_intCast hm) h⟩

theorem abs_units_le_mul {m : ℤ} (hx : x.val = .fin q) (hm : |m| ≤ 2 ^ 53) (h : |q| < m) :
    |units 4 x| ≤ m * 10 ^ 4 := by
  obtain ⟨hnonneg, hlt⟩ := decimalOf_abs_lt hm h
  have hscaled : |decimal x * 10 ^ 4| ≤ ((m * 10 ^ 4 : ℤ) : ℚ) := by
    have habs : |decimal x| = decimalOf |q| := by
      rw [decimal_eq hx]
      split
      · rw [abs_neg, abs_of_nonneg hnonneg]
      · rw [abs_of_nonneg hnonneg]
    rw [abs_mul, habs, abs_of_pos (by norm_num : (0 : ℚ) < 10 ^ 4)]
    push_cast
    exact mul_le_mul_of_nonneg_right hlt.le (by norm_num)
  obtain ⟨hlow, hhigh⟩ := abs_le.mp hscaled
  rw [abs_le]
  refine ⟨le_roundHalfEven ?_, roundHalfEven_le hhigh⟩
  rw [Int.cast_neg]
  exact hlow

theorem abs_units_le (hx : x.val = .fin q) (h : |q| < 10 ^ 11) : |units 4 x| ≤ 10 ^ 15 :=
  abs_units_le_mul (m := 10 ^ 11) hx (by norm_num) (by exact_mod_cast h)

theorem units_nonneg (hx : x.val = .fin q) (h : 0 < q) : 0 ≤ units 4 x := by
  apply le_roundHalfEven
  rw [decimal_eq hx, if_neg h.not_gt, abs_of_pos h, Int.cast_zero]
  exact mul_nonneg (decimalOf_nonneg h) (by norm_num)

theorem expandRange_eq {fromDeg toDeg stepDeg : Double} {a b c : ℚ} (hfrom : fromDeg.val = .fin a)
    (hto : toDeg.val = .fin b) (hstep : stepDeg.val = .fin c) (ha : |a| < 10 ^ 11) (hb : |b| < 10 ^ 11) (hc : 0 < c)
    (hunits : units 4 stepDeg ≠ 0) {fuel : ℕ}
    (hfuel : ((units 4 toDeg - units 4 fromDeg) / units 4 stepDeg + 1).toNat < fuel) :
    expandAngleGrid fuel (rangeSpec fromDeg toDeg stepDeg) =
      some (.ok (unitGrid (units 4 fromDeg) (units 4 toDeg) (units 4 stepDeg))) := by
  have hf := abs_units_le hfrom ha
  have ht := abs_units_le hto hb
  have hs : 0 < units 4 stepDeg := lt_of_le_of_ne (units_nonneg hstep hc) (Ne.symm hunits)
  have hexact : (10 ^ 15 : ℤ) ≤ exactUnits := by norm_num [exactUnits]
  have hpositive : Binary64.le stepDeg (Binary64.lit 0) = false := by
    rw [Bool.eq_false_iff, ne_eq, Double.le_iff hstep Double.lit_zero]
    exact not_le.mpr hc
  have hfinite : ∀ {x : Double} {q : ℚ}, x.val = .fin q → Binary64.isFinite x = true := by
    intro x q hx
    show x.val.isFinite = true
    rw [hx]
    rfl
  obtain ⟨step, hscaled, hsteps⟩ := scaled_steps hstep hs
  have hloop := gridFrom_eq hs hsteps ht (abs_le.mp hf).1 ((abs_le.mp hf).2.trans (by norm_num)) hfuel
  simp only [expandAngleGrid, rangeSpec, hfinite hfrom, hfinite hto, hfinite hstep, Bool.and_self, if_true, expandRange,
    hpositive, scaled_eq hfrom (hf.trans hexact), scaled_eq hto (ht.trans hexact), hscaled, hsteps.ne_zero hs, hloop]
  rfl

theorem eraseDups_of_nodup {xs : List Double} (h : xs.Nodup) : xs.eraseDups = xs := by
  induction xs with
  | nil => rfl
  | cons x rest ih =>
    obtain ⟨hnot, hrest⟩ := List.nodup_cons.mp h
    have hfilter : (rest.filter fun y => !y == x) = rest := by
      rw [List.filter_eq_self]
      intro y hy
      have hne : y ≠ x := fun heq => hnot (heq ▸ hy)
      simpa using hne
    rw [List.eraseDups_cons, hfilter, ih hrest]

theorem expandList_eq {angles : List Double} (hcanonical : ∀ a ∈ angles, canonicalAoa a = .ok a)
    (hfinite : ∀ a ∈ angles, ∃ q, a.val = .fin q)
    (hsorted : angles.Pairwise fun a b => Binary64.lt a b = true) : expandList angles = .ok angles := by
  have hmap : angles.mapM canonicalAoa = .ok angles := by
    induction angles with
    | nil => rfl
    | cons a rest ih =>
      have hrest := ih (fun b hb => hcanonical b (List.mem_cons_of_mem _ hb))
        (fun b hb => hfinite b (List.mem_cons_of_mem _ hb)) (List.pairwise_cons.mp hsorted).2
      rw [List.mapM_cons, hcanonical a List.mem_cons_self, hrest]
      rfl
  have hlt : ∀ {a b : Double}, a ∈ angles → b ∈ angles → Binary64.lt a b = true →
      a ≠ b ∧ (Binary64.sub a b).positive = false := by
    intro a b hamem hbmem hab
    obtain ⟨p, hp⟩ := hfinite a hamem
    obtain ⟨r, hr⟩ := hfinite b hbmem
    have hpr := (Double.lt_iff hp hr).mp hab
    refine ⟨?_, ?_⟩
    · rintro rfl
      rw [hp] at hr
      exact hpr.ne (ExactNum.fin.inj hr)
    · rw [Bool.eq_false_iff, ne_eq, (Double.sub_fin_spec hp hr).1]
      exact hpr.not_gt
  have hnodup : angles.Nodup := hsorted.imp_of_mem fun ha hb hab => (hlt ha hb hab).1
  have hsort : jsSort Binary64.sub angles = angles :=
    List.Pairwise.insertionSort_eq (hsorted.imp_of_mem fun ha hb hab => (hlt ha hb hab).2)
  unfold expandList
  rw [hmap]
  show Except.ok (jsSort Binary64.sub angles.eraseDups) = _
  rw [eraseDups_of_nodup hnodup, hsort]

end Ranges

/-- Below `1e11` degrees, and with a step of at least one unit, a range expands to the ascending list of the
canonical angles from the start on in whole steps up to the end; that list expands to itself, and a coarser grid
from the same start is part of it. -/
theorem angle_grid_exact {fromDeg toDeg stepDeg : Double} {a b c : ℚ} (hfrom : fromDeg.val = .fin a)
    (hto : toDeg.val = .fin b) (hstep : stepDeg.val = .fin c) (ha : |a| < 10 ^ 11) (hb : |b| < 10 ^ 11) (hc : 0 < c)
    (hunits : units 4 stepDeg ≠ 0) :
    canonicalAoa fromDeg = .ok (angle (units 4 fromDeg)) ∧ canonicalAoa toDeg = .ok (angle (units 4 toDeg)) ∧
      canonicalAoa stepDeg = .ok (angle (units 4 stepDeg)) ∧
      ∃ grid : List Double,
        (∃ enough, ∀ fuel ≥ enough, expandAngleGrid fuel (rangeSpec fromDeg toDeg stepDeg) = some (.ok grid)) ∧
        grid.Pairwise (fun x y => Binary64.lt x y = true) ∧
        (∀ x, x ∈ grid ↔ ∃ i : ℕ, units 4 fromDeg + i * units 4 stepDeg ≤ units 4 toDeg ∧
          x = angle (units 4 fromDeg + i * units 4 stepDeg)) ∧
        (∀ fuel, expandAngleGrid fuel (listSpec grid) = some (.ok grid)) ∧
        ∀ (fineDeg : Double) (d : ℚ) (k : ℕ), fineDeg.val = .fin d → 0 < d → units 4 fineDeg ≠ 0 →
          units 4 stepDeg = k * units 4 fineDeg →
          ∃ fine : List Double,
            (∃ enough, ∀ fuel ≥ enough, expandAngleGrid fuel (rangeSpec fromDeg toDeg fineDeg) = some (.ok fine)) ∧
            grid ⊆ fine := by
  have hs : 0 < units 4 stepDeg := lt_of_le_of_ne (units_nonneg hstep hc) (Ne.symm hunits)
  have hf := abs_units_le hfrom ha
  have ht := abs_units_le hto hb
  refine ⟨canonicalAoa_eq hfrom, canonicalAoa_eq hto, canonicalAoa_eq hstep,
    unitGrid (units 4 fromDeg) (units 4 toDeg) (units 4 stepDeg), ?_, unitGrid_sorted hs hf ht,
    fun x => mem_unitGrid hs, ?_, ?_⟩
  · exact ⟨_, fun fuel hfuel => expandRange_eq hfrom hto hstep ha hb hc hunits (Nat.lt_of_succ_le hfuel)⟩
  · intro fuel
    have hmember : ∀ x ∈ unitGrid (units 4 fromDeg) (units 4 toDeg) (units 4 stepDeg),
        ∃ n : ℤ, |n| ≤ exactUnits ∧ x = angle n := by
      intro x hx
      obtain ⟨i, hi, rfl⟩ := (mem_unitGrid hs).mp hx
      exact ⟨_, mem_unitGrid_units hs hf ht hi, rfl⟩
    show some (expandList _) = _
    rw [expandList_eq _ _ (unitGrid_sorted hs hf ht)]
    · intro x hx
      obtain ⟨n, hn, rfl⟩ := hmember x hx
      exact canonicalAoa_angle hn
    · intro x hx
      obtain ⟨n, hn, rfl⟩ := hmember x hx
      exact ⟨_, angle_val hn⟩
  · intro fineDeg d k hfine hd hfineUnits hmultiple
    have hfinePos : 0 < units 4 fineDeg := lt_of_le_of_ne (units_nonneg hfine hd) (Ne.symm hfineUnits)
    refine ⟨unitGrid (units 4 fromDeg) (units 4 toDeg) (units 4 fineDeg),
      ⟨_, fun fuel hfuel => expandRange_eq hfrom hto hfine ha hb hd hfineUnits (Nat.lt_of_succ_le hfuel)⟩, ?_⟩
    intro x hx
    obtain ⟨i, hi, rfl⟩ := (mem_unitGrid hs).mp hx
    -- step `i` of the coarse grid is step `i * k` of the fine one
    have hsame : (i : ℤ) * units 4 stepDeg = ((i * k : ℕ) : ℤ) * units 4 fineDeg := by
      rw [hmultiple]
      push_cast
      ring
    rw [mem_unitGrid hfinePos]
    exact ⟨i * k, by rw [← hsame]; exact hi, by rw [hsame]⟩

/-- The half-degree grid from `-10` to `25`, of which the grid in tenths has every angle. -/
theorem half_degree_grid_exact :
    units 4 (Binary64.lit (1 / 2)) = (5 : ℕ) * units 4 (Binary64.lit (1 / 10)) ∧
      ∃ grid : List Double,
        (∃ enough, ∀ fuel ≥ enough,
          expandAngleGrid fuel (rangeSpec (Binary64.lit (-10)) (Binary64.lit 25) (Binary64.lit (1 / 2))) =
            some (.ok grid)) ∧
        Binary64.lit (-19 / 2) ∈ grid ∧
        ∃ fine : List Double,
          (∃ enough, ∀ fuel ≥ enough,
            expandAngleGrid fuel (rangeSpec (Binary64.lit (-10)) (Binary64.lit 25) (Binary64.lit (1 / 10))) =
              some (.ok fine)) ∧
          grid ⊆ fine := by
  have hmultiple : units 4 (Binary64.lit (1 / 2)) = (5 : ℕ) * units 4 (Binary64.lit (1 / 10)) := by decide +kernel
  have hstart : units 4 (Binary64.lit (-10)) = -100000 := by decide +kernel
  have hend : units 4 (Binary64.lit 25) = 250000 := by decide +kernel
  have hstep : units 4 (Binary64.lit (1 / 2)) = 5000 := by decide +kernel
  have hfrom : (Binary64.lit (-10) : Double).val = .fin (-10) := by decide +kernel
  have hto : (Binary64.lit 25 : Double).val = .fin 25 := by decide +kernel
  have hhalf : (Binary64.lit (1 / 2) : Double).val = .fin (1 / 2) := by decide +kernel
  have htenth : (Binary64.lit (1 / 10) : Double).val = .fin (roundRat (1 / 10)) := by decide +kernel
  obtain ⟨-, -, -, grid, hgrid, -, hmem, -, hfine⟩ :=
    angle_grid_exact hfrom hto hhalf (by norm_num) (by norm_num) (by norm_num) (by rw [hstep]; decide)
  refine ⟨hmultiple, grid, hgrid, ?_, hfine _ _ 5 htenth (by decide +kernel) (by decide +kernel) hmultiple⟩
  rw [hmem, hstart, hend, hstep]
  exact ⟨1, by decide, by decide +kernel⟩

/-- A positive step that rounds to no unit is refused. -/
theorem lost_step_refused :
    Binary64.lt (Binary64.lit 0) (Binary64.lit (1 / 10 ^ 5) : Double) = true ∧
      ∀ (fuel : ℕ) (grid : List Double),
        expandAngleGrid fuel (rangeSpec (Binary64.lit 0) (Binary64.lit 1) (Binary64.lit (1 / 10 ^ 5))) ≠
          some (.ok grid) := by
  refine ⟨by decide +kernel, ?_⟩
  intro fuel grid
  have hfrom : scaled (Binary64.lit 0) = .ok (whole 0) := by decide +kernel
  have hto : scaled (Binary64.lit 1) = .ok (whole 10000) := by decide +kernel
  have hstep : scaled (Binary64.lit (1 / 10 ^ 5)) = .ok (whole 0) := by decide +kernel
  have hrefused : expandRange fuel (Binary64.lit 0) (Binary64.lit 1) (Binary64.lit (1 / 10 ^ 5)) =
      some (.error "angle grid stepDeg rounds to zero at 1e-4 deg precision") := by
    have hpositive : Binary64.le (Binary64.lit (1 / 10 ^ 5) : Double) (Binary64.lit 0) = false := by decide +kernel
    have hzero : Binary64.eq (whole 0) (Binary64.lit 0) = true := by decide +kernel
    simp only [expandRange, hpositive, hfrom, hto, hstep, hzero]
    rfl
  have hfinite : (Binary64.isFinite (Binary64.lit 0 : Double) && Binary64.isFinite (Binary64.lit 1 : Double) &&
      Binary64.isFinite (Binary64.lit (1 / 10 ^ 5) : Double)) = true := by decide +kernel
  simp only [expandAngleGrid, rangeSpec, hfinite, if_true, hrefused]
  intro h
  cases h

end XFoilFoam.Angles
