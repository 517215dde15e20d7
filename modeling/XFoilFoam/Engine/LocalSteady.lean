import XFoilFoam.Engine.RansHold
import XFoilFoam.Evidence.ManifestPayload
import XFoilFoam.Foundations.DoubleOrder
import Mathlib.Data.List.Forall2

/-! The certificate of a local-time-step run in the solver log: `parse_local_steady_convergence` of
`postprocess/residuals.py`. -/
namespace XFoilFoam.Engine
open Binary64
open Evidence (PyValue pyText getOr)
set_option autoImplicit false

/-! ## Values -/

/-- The platform: `int` and `float` of a word and `json.loads`, `none` for a `ValueError`. -/
structure LogRuntime where
  int : List Char → Option ℤ
  float : List Char → Option Double
  loads : List Char → Option PyValue

inductive LogError where
  | valueError (text : String)
  | unreadable
  | overflowError
  deriving DecidableEq

structure ConvergenceInfo where
  converged : Bool
  iterations : Option ℤ
  finalResidual : Option Double
  deriving DecidableEq

/-- `max` of an iterable. -/
def maxOf : List Double → Double
  | [] => lit 0
  | x :: xs => xs.foldl Double.pyMax x

/-- `value == n` for a whole number. -/
def equalsInt (n : ℤ) : PyValue → Bool
  | .int z => z == n
  | .float x => x == .fin n
  | .bool b => (if b then 1 else 0) == n
  | _ => false

def isStr (text : String) : PyValue → Bool
  | .str s => s == pyText text
  | _ => false

/-- `type(value) is int`. -/
def isInt : PyValue → Bool
  | .int _ => true
  | _ => false

/-- `math.isclose`. -/
def isClose (a b relTol absTol : Double) : Bool :=
  eq a b || (isFinite a && isFinite b &&
    (le (abs (sub b a)) (abs (mul relTol b)) || le (abs (sub b a)) (abs (mul relTol a)) || le (abs (sub b a)) absTol))

/-! ## Lines -/

def residualTag : List Char := "XFOILFOAM_LOCAL_STEADY_RESIDUAL ".toList
def convergedTag : List Char := "XFOILFOAM_LOCAL_STEADY_CONVERGED ".toList

def isResidual (line : List Char) : Bool := residualTag.isPrefixOf line
def isCertificate (line : List Char) : Bool := convergedTag.isPrefixOf line

structure ResidualSample where
  iteration : ℤ
  values : List Double
  deriving DecidableEq

def readSample (runtime : LogRuntime) (line : List Char) : Except LogError ResidualSample :=
  match (splitWords [] line).tail with
  | [iteration, density, momentum, energy, turbulenceEnergy, turbulenceFrequency] =>
    match runtime.int iteration,
      [density, momentum, energy, turbulenceEnergy, turbulenceFrequency].mapM runtime.float with
    | some iteration, some values =>
      if iteration ≤ 0 ∨ values.any (fun value => !isFinite value || lt value (lit 0)) = true then
        .error (.valueError "Invalid conserved-field residual sample")
      else .ok ⟨iteration, values⟩
    | _, _ => .error .unreadable
  | _ => .error (.valueError "Incomplete conserved-field residual sample")

abbrev WindowEntry := ℤ × Double

def requiredSteps : ℕ := 100

/-- `samples.clear()` at a gap, then `samples.append` on a deque of bounded length. -/
def appendSample (samples : List WindowEntry) (entry : WindowEntry) : List WindowEntry :=
  let kept := if samples.getLast?.any (fun last => entry.1 != last.1 + 1) then [] else samples
  (kept ++ [entry]).drop ((kept ++ [entry]).length - requiredSteps)

structure LogState where
  samples : List WindowEntry
  certificate : Option PyValue

/-- `json.loads` into a variable that was `None`. -/
def notNone : PyValue → Option PyValue
  | .none => none
  | value => some value

def readLine (runtime : LogRuntime) (state : LogState) (line : List Char) : Except LogError LogState :=
  if isResidual line then
    if state.certificate.isSome then .error (.valueError "Local steady execution continued after certification")
    else (readSample runtime line).map fun sample =>
      { state with samples := appendSample state.samples (sample.iteration, maxOf sample.values) }
  else if isCertificate line then
    if state.certificate.isSome then .error (.valueError "Duplicate local steady certificate")
    else
      match runtime.loads (line.drop convergedTag.length) with
      | some value => .ok { state with certificate := notNone value }
      | none => .error .unreadable
  else .ok state

/-! ## The certificate -/

/-- A finite number of the certificate; `math.isfinite` of an integer goes through a double. -/
def finiteNumber : PyValue → Except LogError (Option ExactNum)
  | .int z => if (Double.ofExact (.fin z)).val.isFinite then .ok (some (.fin z)) else .error .overflowError
  | .float x => .ok (if x.isFinite then some x else none)
  | _ => .ok none

def declaredLimit (tolerance : Double) : Double := mul tolerance (add (lit 1) (lit (1 / 10 ^ 8)))

def certify (tolerance : Double) (state : LogState) : Except LogError ConvergenceInfo :=
  match state.certificate with
  | none =>
    .ok ⟨false, state.samples.getLast?.map Prod.fst, state.samples.getLast?.map Prod.snd⟩
  | some (.dict fields) =>
    let get (key : String) := getOr fields key .none
    if !equalsInt 2 (get "version") || !isStr "iteration" (get "coordinate_kind") then
      .error (.valueError "Invalid local steady certificate")
    else if !(isInt (get "version") && isInt (get "iteration") && isInt (get "consecutive_steps")) then
      .error (.valueError "Local steady certificate requires exact integer counters")
    else
      match state.samples.getLast? with
      | none => .error (.valueError "Local steady certificate has no sustained residual window")
      | some (iteration, _) =>
        if state.samples.length ≠ requiredSteps ∨ equalsInt iteration (get "iteration") = false ∨
            equalsInt requiredSteps (get "consecutive_steps") = false then
          .error (.valueError "Local steady certificate has no sustained residual window")
        else
          match finiteNumber (get "tolerance"), finiteNumber (get "maximum_window_residual") with
          | .error e, _ => .error e
          | .ok none, _ => .error (.valueError "Nonfinite local steady certificate")
          | .ok (some _), .error e => .error e
          | .ok (some _), .ok none => .error (.valueError "Nonfinite local steady certificate")
          | .ok (some declared), .ok (some maximum) =>
            let observed := maxOf (state.samples.map Prod.snd)
            if declared.le (.fin 0) || (declaredLimit tolerance).val.lt declared || maximum.lt (.fin 0) ||
                declared.lt maximum || declared.lt observed.val ||
                !isClose observed (Double.ofExact maximum) (lit (1 / 10 ^ 5)) (lit (1 / 10 ^ 14)) then
              .error (.valueError "Local steady residuals do not meet the requested tolerance")
            else .ok ⟨true, some iteration, some observed⟩
  | some _ => .error (.valueError "Invalid local steady certificate")

def parseLocalSteadyConvergence (runtime : LogRuntime) (log : List Char) (tolerance : Double) :
    Except LogError ConvergenceInfo :=
  if !isFinite tolerance || le tolerance (lit 0) then
    .error (.valueError "Local steady tolerance must be finite and positive")
  else ((splitLines [] log).foldlM (readLine runtime) ⟨[], none⟩).bind (certify tolerance)

/-! ## The largest value -/

section Maximum
variable {values : List Double} {x : Double}

theorem foldl_pyMax (hx : isFinite x = true) (hvalues : ∀ y ∈ values, isFinite y = true) :
    isFinite (values.foldl Double.pyMax x) = true ∧ x.value ≤ (values.foldl Double.pyMax x).value ∧
      ∀ y ∈ values, y.value ≤ (values.foldl Double.pyMax x).value := by
  induction values generalizing x with
  | nil => exact ⟨hx, le_rfl, fun y hy => absurd hy List.not_mem_nil⟩
  | cons y values ih =>
    obtain ⟨hy, hrest⟩ := List.forall_mem_cons.mp hvalues
    have hstep : isFinite (x.pyMax y) = true ∧ x.value ≤ (x.pyMax y).value ∧ y.value ≤ (x.pyMax y).value := by
      unfold Double.pyMax
      split
      · next hlt =>
        rw [Double.lt_iff (Double.val_of_finite hx) (Double.val_of_finite hy)] at hlt
        exact ⟨hy, hlt.le, le_rfl⟩
      · next hlt =>
        rw [Double.lt_iff (Double.val_of_finite hx) (Double.val_of_finite hy)] at hlt
        exact ⟨hx, le_rfl, not_lt.mp hlt⟩
    obtain ⟨hfinite, hle, hall⟩ := ih hstep.1 hrest
    exact ⟨hfinite, hstep.2.1.trans hle, List.forall_mem_cons.mpr ⟨hstep.2.2.trans hle, hall⟩⟩

theorem maxOf_finite (h : ∀ x ∈ values, isFinite x = true) :
    isFinite (maxOf values) = true ∧ ∀ x ∈ values, x.value ≤ (maxOf values).value := by
  cases values with
  | nil => exact ⟨by decide +kernel, fun x hx => absurd hx List.not_mem_nil⟩
  | cons x values =>
    obtain ⟨hx, hrest⟩ := List.forall_mem_cons.mp h
    obtain ⟨hfinite, hle, hall⟩ := foldl_pyMax hx hrest
    exact ⟨hfinite, List.forall_mem_cons.mpr ⟨hle, hall⟩⟩

end Maximum

/-! ## Samples -/

def ResidualSample.entry (sample : ResidualSample) : WindowEntry := (sample.iteration, maxOf sample.values)

def Consecutive (window : List ResidualSample) : Prop := window.IsChain fun a b => b.iteration = a.iteration + 1

section Samples
variable {runtime : LogRuntime} {line : List Char} {sample : ResidualSample} {window : List ResidualSample}

theorem readSample_sound (h : readSample runtime line = .ok sample) :
    sample.values.length = 5 ∧ ∀ value ∈ sample.values, isFinite value = true ∧ lt value (lit 0) = false := by
  unfold readSample at h
  split at h
  · split at h
    · next values _ hvalues =>
      split at h
      · cases h
      · next hvalid =>
        cases h
        rw [not_or, List.any_eq_true] at hvalid
        rw [mapM_eq_some] at hvalues
        refine ⟨hvalues.length_eq.symm, fun value hvalue => ?_⟩
        have hgood : ¬(!isFinite value || lt value (lit 0)) = true := fun hbad => hvalid.2 ⟨value, hvalue, hbad⟩
        rw [Bool.or_eq_true, not_or, Bool.not_eq_true, Bool.not_eq_true, Bool.not_eq_false'] at hgood
        exact hgood
    · cases h
  · cases h

theorem appendSample_eq (hwindow : Consecutive window) (sample : ResidualSample) :
    ∃ dropped kept, window ++ [sample] = dropped ++ kept ∧ kept.length ≤ requiredSteps ∧ Consecutive kept ∧
      appendSample (window.map ResidualSample.entry) sample.entry = kept.map ResidualSample.entry := by
  -- what is left of the window before the sample comes in
  obtain ⟨cleared, rest, hsplit, hrest, heq⟩ : ∃ cleared rest, window = cleared ++ rest ∧
      Consecutive (rest ++ [sample]) ∧
      (if (window.map ResidualSample.entry).getLast?.any (fun last => sample.entry.1 != last.1 + 1) then []
        else window.map ResidualSample.entry) = rest.map ResidualSample.entry := by
    split
    · exact ⟨window, [], (List.append_nil _).symm, List.isChain_singleton _, rfl⟩
    · next hnext =>
      refine ⟨[], window, rfl, hwindow.append (List.isChain_singleton _) fun last hlast next hhead => ?_, rfl⟩
      rw [List.head?_cons, Option.mem_some_iff] at hhead
      rw [Option.mem_def] at hlast
      subst hhead
      rw [List.getLast?_map, hlast] at hnext
      simpa [ResidualSample.entry] using hnext
  refine ⟨cleared ++ (rest ++ [sample]).take ((rest ++ [sample]).length - requiredSteps),
    (rest ++ [sample]).drop ((rest ++ [sample]).length - requiredSteps), ?_, ?_, hrest.drop _, ?_⟩
  · rw [hsplit, List.append_assoc, List.append_assoc, List.take_append_drop]
  · rw [List.length_drop]
    omega
  · rw [appendSample]
    simp only [heq]
    rw [List.map_drop, List.map_append, List.map_singleton]
    simp only [List.length_append, List.length_map, List.length_singleton]

end Samples

/-! ## The log read so far -/

/-- The window is the end of the samples read, and a certificate that is known was their last word. -/
structure ReadSoFar (runtime : LogRuntime) (seen : List (List Char)) (state : LogState) : Prop where
  window : ∃ earlier window, (seen.filter isResidual).mapM (readSample runtime) = .ok (earlier ++ window) ∧
    window.length ≤ requiredSteps ∧ Consecutive window ∧ state.samples = window.map ResidualSample.entry
  certificate : ∀ value, state.certificate = some value → ∃ before line after, seen = before ++ line :: after ∧
    isResidual line = false ∧ isCertificate line = true ∧
    runtime.loads (line.drop convergedTag.length) = some value ∧ ∀ l ∈ after, isResidual l = false

section Reading
variable {runtime : LogRuntime} {seen : List (List Char)} {state state' : LogState} {line : List Char}

theorem ReadSoFar.other (h : ReadSoFar runtime seen state) (hline : isResidual line = false) :
    ReadSoFar runtime (seen ++ [line]) state := by
  constructor
  · obtain ⟨earlier, window, hparsed, hwindow⟩ := h.window
    refine ⟨earlier, window, ?_, hwindow⟩
    rw [List.filter_append, List.filter_singleton, hline, cond_false, List.append_nil]
    exact hparsed
  · intro value hvalue
    obtain ⟨before, certified, after, hseen, hrest, hcertified, hloads, hafter⟩ := h.certificate value hvalue
    refine ⟨before, certified, after ++ [line], by rw [hseen, List.append_assoc, List.cons_append], hrest, hcertified,
      hloads, fun l hl => ?_⟩
    obtain hl | hl := List.mem_append.mp hl
    · exact hafter l hl
    · rw [List.mem_singleton.mp hl]
      exact hline

theorem ReadSoFar.step (h : ReadSoFar runtime seen state) (hstep : readLine runtime state line = .ok state') :
    ReadSoFar runtime (seen ++ [line]) state' := by
  unfold readLine at hstep
  split at hstep
  · next hresidual =>
    split at hstep
    · cases hstep
    · next hopen =>
      obtain ⟨sample, hsample, rfl⟩ := map_eq_ok.mp hstep
      obtain ⟨earlier, window, hparsed, -, hchain, hsamples⟩ := h.window
      obtain ⟨dropped, kept, hsplit, hlength, hkept, happend⟩ := appendSample_eq hchain sample
      refine ⟨⟨earlier ++ dropped, kept, ?_, hlength, hkept, ?_⟩, ?_⟩
      · rw [List.append_assoc, ← hsplit, List.filter_append, List.filter_singleton, hresidual, cond_true,
          mapM_eq_ok, ← List.append_assoc]
        exact List.rel_append ((mapM_eq_ok _ _ _).mp hparsed) (.cons hsample .nil)
      · show appendSample state.samples sample.entry = _
        rw [hsamples, happend]
      · intro value hvalue
        rw [show state.certificate = some value from hvalue] at hopen
        exact absurd rfl hopen
  · next hresidual =>
    rw [Bool.not_eq_true] at hresidual
    split at hstep
    · next hcertificate =>
      split at hstep
      · cases hstep
      · split at hstep
        · next value hloads =>
          cases hstep
          refine ⟨(h.other hresidual).window, fun value' hvalue' => ?_⟩
          have hsame : value = value' := by
            cases value <;> simp_all [notNone]
          subst hsame
          exact ⟨seen, line, [], rfl, hresidual, hcertificate, hloads, fun l hl => absurd hl List.not_mem_nil⟩
        · cases hstep
    · cases hstep
      exact h.other hresidual

theorem readSoFar_log {lines : List (List Char)} (h : lines.foldlM (readLine runtime) ⟨[], none⟩ = .ok state) :
    ReadSoFar runtime lines state := by
  refine foldlM_invariant (P := ReadSoFar runtime) ⟨⟨[], [], rfl, Nat.zero_le _, List.isChain_nil, rfl⟩, ?_⟩
    (fun seen s a s' hs hstep => hs.step hstep) h
  intro value hvalue
  cases hvalue

end Reading

/-! ## What a certificate proves -/

theorem Consecutive.iterations {sample : ResidualSample} {window : List ResidualSample}
    (h : Consecutive (sample :: window)) :
    (sample :: window).map ResidualSample.iteration =
      (List.range (window.length + 1)).map fun k : ℕ => sample.iteration + (k : ℤ) := by
  induction window generalizing sample with
  | nil => simp
  | cons next window ih =>
    obtain ⟨hnext, hrest⟩ := List.isChain_cons_cons.mp h
    rw [List.map_cons, ih hrest, hnext, List.length_cons, List.range_succ_eq_map (n := window.length + 1),
      List.map_cons, List.map_map]
    have hshift : ∀ k ∈ List.range (window.length + 1),
        sample.iteration + 1 + (k : ℤ) = sample.iteration + (k.succ : ℤ) := by
      intro k _
      push_cast
      ring
    rw [List.map_congr_left hshift, Nat.cast_zero, add_zero]
    rfl

theorem Consecutive.ending {window : List ResidualSample} (h : Consecutive window) {iteration : ℤ}
    (hlast : (window.map ResidualSample.iteration).getLast? = some iteration) :
    window.map ResidualSample.iteration =
      (List.range window.length).map fun k : ℕ => iteration - ((window.length : ℤ) - 1) + (k : ℤ) := by
  cases window with
  | nil => cases hlast
  | cons sample window =>
    have hiterations := h.iterations
    rw [hiterations, List.range_succ, List.map_append, List.map_singleton, List.getLast?_concat] at hlast
    cases hlast
    rw [hiterations, List.length_cons]
    push_cast
    simp

theorem finiteNumber_fin {value : PyValue} {x : ExactNum} (h : finiteNumber value = .ok (some x)) : ∃ q, x = .fin q := by
  unfold finiteNumber at h
  split at h
  · split at h
    · cases h
      exact ⟨_, rfl⟩
    · cases h
  · next y =>
    cases y with
    | fin q =>
      cases h
      exact ⟨q, rfl⟩
    | _ => cases h
  · cases h

theorem eq_int_of_equalsInt {value : PyValue} {n : ℤ} (hint : isInt value = true) (h : equalsInt n value = true) :
    value = .int n := by
  cases value with
  | int z => rw [eq_of_beq (show (z == n) = true from h)]
  | _ => cases hint

theorem certify_converged {tolerance : Double} {state : LogState} {info : ConvergenceInfo}
    (h : certify tolerance state = .ok info) (hconverged : info.converged = true) :
    ∃ fields iteration declared, state.certificate = some (.dict fields) ∧
      getOr fields "iteration" .none = .int iteration ∧ info.iterations = some iteration ∧
      state.samples.length = requiredSteps ∧ (state.samples.map Prod.fst).getLast? = some iteration ∧
      (declaredLimit tolerance).val.lt (.fin declared) = false ∧
      (ExactNum.fin declared).lt (maxOf (state.samples.map Prod.snd)).val = false := by
  unfold certify at h
  split at h
  · cases h
    cases hconverged
  · next fields hcertificate =>
    dsimp only at h
    split at h
    · cases h
    · split at h
      · cases h
      · split at h
        · cases h
        · next iteration residual hlast =>
          split at h
          · cases h
          · next hwindow =>
            split at h
            · cases h
            · cases h
            · cases h
            · cases h
            · next declared maximum hdeclared _ =>
              split at h
              · cases h
              · next hbounds =>
                cases h
                simp only [Bool.or_eq_true, not_or, Bool.not_eq_true] at hbounds
                obtain ⟨⟨⟨⟨⟨-, hlimit⟩, -⟩, -⟩, hobserved⟩, -⟩ := hbounds
                obtain ⟨q, rfl⟩ := finiteNumber_fin hdeclared
                obtain ⟨hlength, hiteration, -⟩ := not_or.mp hwindow |>.imp_right not_or.mp
                have hint : isInt (getOr fields "iteration" .none) = true := by simp_all
                refine ⟨fields, iteration, q, hcertificate, ?_, rfl, not_not.mp hlength, ?_, hlimit, hobserved⟩
                · exact eq_int_of_equalsInt hint (Bool.eq_true_of_not_eq_false hiteration)
                · rw [List.getLast?_map, hlast]
                  rfl
  · cases h

theorem le_limit {x limit : Double} {q : ℚ} (hx : isFinite x = true) (hlimit : limit.val ≠ .nan) (hle : x.value ≤ q)
    (hq : limit.val.lt (.fin q) = false) : le x limit = true := by
  show x.val.le limit.val = true
  rw [Double.val_of_finite hx]
  cases h : limit.val with
  | nan => exact absurd h hlimit
  | negInf =>
    rw [h] at hq
    cases hq
  | posInf => rfl
  | fin l =>
    rw [h] at hq
    have hql : q ≤ l := not_lt.mp (of_decide_eq_false hq)
    obtain hlt | heq := lt_or_eq_of_le (hle.trans hql)
    · simp [ExactNum.le, ExactNum.lt, hlt]
    · simp [ExactNum.le, ExactNum.eq, heq]

theorem declaredLimit_ne_nan {tolerance : Double} (h : isFinite tolerance = true) :
    (declaredLimit tolerance).val ≠ .nan := by
  obtain ⟨slack, hslack⟩ : ∃ q, (add (lit 1) (lit (1 / 10 ^ 8)) : Double).val = .fin q :=
    ⟨_, Double.val_of_finite (by decide +kernel)⟩
  show (Double.ofExact (tolerance.val.mul (add (lit 1) (lit (1 / 10 ^ 8)) : Double).val)).val ≠ .nan
  rw [Double.val_of_finite h, hslack]
  exact Double.ofExact_ne_nan _

/-- The last hundred samples before the certificate are of consecutive iterations up to the certified one, none of
their residuals exceeds the limit, and no sample follows. -/
def Sustained (runtime : LogRuntime) (log : List Char) (limit : Double) (certified : Option ℤ) : Prop :=
  ∃ before line after fields iteration earlier window, splitLines [] log = before ++ line :: after ∧
    isCertificate line = true ∧ runtime.loads (line.drop convergedTag.length) = some (.dict fields) ∧
    getOr fields "iteration" .none = .int iteration ∧ certified = some iteration ∧
    (∀ l ∈ after, isResidual l = false) ∧
    (before.filter isResidual).mapM (readSample runtime) = .ok (earlier ++ window) ∧
    window.map ResidualSample.iteration =
      (List.range requiredSteps).map (fun k : ℕ => iteration - ((requiredSteps : ℤ) - 1) + (k : ℤ)) ∧
    ∀ sample ∈ window, sample.values.length = 5 ∧ ∀ value ∈ sample.values,
      isFinite value = true ∧ lt value (lit 0) = false ∧ le value limit = true

/-- A log that is reported to converge has a sustained window within the tolerance and its slack. -/
theorem converged_sustained {runtime : LogRuntime} {log : List Char} {tolerance : Double} {info : ConvergenceInfo}
    (h : parseLocalSteadyConvergence runtime log tolerance = .ok info) (hconverged : info.converged = true) :
    Sustained runtime log (declaredLimit tolerance) info.iterations := by
  unfold parseLocalSteadyConvergence at h
  split at h
  · cases h
  · next htolerance =>
    obtain ⟨state, hrun, hcertify⟩ := bind_eq_ok.mp h
    obtain ⟨fields, iteration, declared, hcertificate, hget, hinfo, hlength, hlast, hlimit, hobserved⟩ :=
      certify_converged hcertify hconverged
    have hread := readSoFar_log hrun
    obtain ⟨before, line, after, hlines, hother, hcertified, hloads, hafter⟩ := hread.certificate _ hcertificate
    obtain ⟨earlier, window, hparsed, -, hchain, hsamples⟩ := hread.window
    have hrest : after.filter isResidual = [] := by
      rw [List.filter_eq_nil_iff]
      intro l hl
      rw [hafter l hl]
      exact Bool.false_ne_true
    have hfilter : (splitLines [] log).filter isResidual = before.filter isResidual := by
      rw [hlines, List.filter_append, List.filter_cons_of_neg (by rw [hother]; exact Bool.false_ne_true), hrest,
        List.append_nil]
    rw [hfilter] at hparsed
    have hcount : window.length = requiredSteps := by rw [← hlength, hsamples, List.length_map]
    have hiterations : (window.map ResidualSample.iteration).getLast? = some iteration := by
      rw [← hlast, hsamples, List.map_map]
      rfl
    refine ⟨before, line, after, fields, iteration, earlier, window, hlines, hcertified, hloads, hget, hinfo, hafter,
      hparsed, ?_, fun sample hsample => ?_⟩
    · rw [hchain.ending hiterations, hcount]
    · have hsound : ∀ s ∈ window, s.values.length = 5 ∧
          ∀ value ∈ s.values, isFinite value = true ∧ lt value (lit 0) = false := by
        intro s hs
        obtain ⟨l, -, hl⟩ := mem_of_mapM_eq_ok hparsed (List.mem_append_right earlier hs)
        exact readSample_sound hl
      have hmax : ∀ s ∈ window, isFinite (maxOf s.values) = true ∧
          ∀ value ∈ s.values, value.value ≤ (maxOf s.values).value :=
        fun s hs => maxOf_finite fun value hvalue => ((hsound s hs).2 value hvalue).1
      have hentries : state.samples.map Prod.snd = window.map fun s => maxOf s.values := by
        rw [hsamples, List.map_map]
        rfl
      have hall : isFinite (maxOf (state.samples.map Prod.snd)) = true ∧
          ∀ x ∈ state.samples.map Prod.snd, x.value ≤ (maxOf (state.samples.map Prod.snd)).value := by
        refine maxOf_finite fun x hx => ?_
        rw [hentries] at hx
        obtain ⟨s, hs, rfl⟩ := List.mem_map.mp hx
        exact (hmax s hs).1
      rw [Double.val_of_finite hall.1] at hobserved
      have hdeclared : (maxOf (state.samples.map Prod.snd)).value ≤ declared := not_lt.mp (of_decide_eq_false hobserved)
      have htop : maxOf sample.values ∈ state.samples.map Prod.snd := by
        rw [hentries]
        exact List.mem_map_of_mem hsample
      rw [Bool.or_eq_true, not_or, Bool.not_eq_true, Bool.not_eq_false'] at htolerance
      refine ⟨(hsound sample hsample).1, fun value hvalue => ?_⟩
      obtain ⟨hfinite, hnonneg⟩ := (hsound sample hsample).2 value hvalue
      refine ⟨hfinite, hnonneg, le_limit hfinite (declaredLimit_ne_nan htolerance.1) ?_ hlimit⟩
      calc
        value.value ≤ (maxOf sample.values).value := (hmax sample hsample).2 value hvalue
        _ ≤ (maxOf (state.samples.map Prod.snd)).value := hall.2 _ htop
        _ ≤ declared := hdeclared

/-! ## A log within the slack -/

def slackFields : List (Evidence.PyStr × PyValue) :=
  [(pyText "version", .int 2), (pyText "coordinate_kind", .str (pyText "iteration")), (pyText "iteration", .int 100),
    (pyText "consecutive_steps", .int 100), (pyText "tolerance", .int 1), (pyText "maximum_window_residual", .int 1)]

def slackCertificate : List Char :=
  "\x7b\"version\":2,\"coordinate_kind\":\"iteration\",\"iteration\":100,\"consecutive_steps\":100,".toList ++
    "\"tolerance\":1,\"maximum_window_residual\":1\x7d".toList

def slackRuntime : LogRuntime where
  int word := if word.isEmpty || word.any (fun c => !c.isDigit) then none else some (Nat.ofDigitChars 10 word 0)
  float := digitsRuntime.float
  loads text := if text = slackCertificate then some (.dict slackFields) else none

def slackLine (n : ℕ) : List Char := residualTag ++ (Nat.toDigits 10 n ++ " 1 1 1 1 1".toList)

def slackLog : List Char :=
  (List.range 100).flatMap (fun i => slackLine (i + 1) ++ ['\n']) ++ (convergedTag ++ slackCertificate)

def slackTolerance : Double := lit (999999995 / 10 ^ 9)

def slackSample (n : ℕ) : ResidualSample := ⟨n, List.replicate 5 (wholeDouble 1)⟩

theorem readSample_slackLine (n : ℕ) (hn : 0 < n) : readSample slackRuntime (slackLine n) = .ok (slackSample n) := by
  have htag : residualTag = "XFOILFOAM_LOCAL_STEADY_RESIDUAL".toList ++ [' '] := by decide
  have hvalues : " 1 1 1 1 1".toList = ' ' :: "1 1 1 1 1".toList := by decide
  have hones : splitWords [] "1 1 1 1 1".toList = List.replicate 5 ['1'] := by decide
  have hfields : (splitWords [] (slackLine n)).tail = Nat.toDigits 10 n :: List.replicate 5 ['1'] := by
    rw [slackLine, htag, List.append_assoc, List.singleton_append, splitWords_cons (notMem_of_all (by decide)) (by simp), hvalues,
      splitWords_cons (fun c hc => (not_space_of_isDigit (digits_isDigit n c hc)).1) (by simp), List.tail_cons,
      hones, List.reverse_nil, List.nil_append]
  have hint : slackRuntime.int (Nat.toDigits 10 n) = some (n : ℤ) := by
    show (if _ then none else some _) = _
    rw [toDigits_isDigits, Nat.ofDigitChars_ten_toDigits]
    rfl
  have hfloats : (List.replicate 5 ['1']).mapM slackRuntime.float = some (List.replicate 5 (wholeDouble 1)) := by
    decide +kernel
  have hvalid : ¬((n : ℤ) ≤ 0 ∨
      ((List.replicate 5 (wholeDouble 1)).any fun value => !isFinite value || lt value (lit 0)) = true) := by
    rw [not_or, not_le]
    exact ⟨by exact_mod_cast hn, by decide +kernel⟩
  unfold readSample
  rw [hfields]
  simp only [List.replicate] at hfloats ⊢
  rw [hint, hfloats]
  simp only [List.replicate] at hvalid
  simp only [if_neg hvalid]
  rfl

theorem slackLog_lines : splitLines [] slackLog =
    (List.range 100).map (fun i => slackLine (i + 1)) ++ [convergedTag ++ slackCertificate] := by
  have hline : ∀ n, ∀ c ∈ slackLine n, pyLineBreak c = false := by
    intro n c hc
    rw [slackLine, List.mem_append, List.mem_append] at hc
    obtain hc | hc | hc := hc
    · exact notMem_of_all (by decide : (residualTag.all fun c => !pyLineBreak c) = true) c hc
    · exact (not_space_of_isDigit (digits_isDigit n c hc)).2
    · exact notMem_of_all (by decide : (" 1 1 1 1 1".toList.all fun c => !pyLineBreak c) = true) c hc
  have hlast : splitLines [] (convergedTag ++ slackCertificate) = [convergedTag ++ slackCertificate] :=
    splitLines_last (notMem_of_all (by decide +kernel)) (List.append_ne_nil_of_left_ne_nil (by decide) _)
  have hrun : ∀ numbers : List ℕ,
      splitLines [] (numbers.flatMap (fun i => slackLine (i + 1) ++ ['\n']) ++ (convergedTag ++ slackCertificate)) =
        numbers.map (fun i => slackLine (i + 1)) ++ [convergedTag ++ slackCertificate] := by
    intro numbers
    induction numbers with
    | nil => exact hlast
    | cons i numbers ih =>
      rw [List.flatMap_cons, List.append_assoc, List.append_assoc, List.singleton_append, splitLines_cons (hline _), ih]
      rfl
  exact hrun _

theorem slackLog_window (n : ℕ) (hn : n ≤ requiredSteps) :
    ((List.range n).map fun i => slackLine (i + 1)).foldlM (readLine slackRuntime) ⟨[], none⟩ =
      .ok ⟨(List.range n).map fun i => (slackSample (i + 1)).entry, none⟩ := by
  induction n with
  | zero => rfl
  | succ n ih =>
    have hresidual : isResidual (slackLine (n + 1)) = true := by
      rw [isResidual, slackLine, List.isPrefixOf_iff_prefix]
      exact List.prefix_append _ _
    have hstep : readLine slackRuntime ⟨(List.range n).map fun i => (slackSample (i + 1)).entry, none⟩
        (slackLine (n + 1)) = .ok ⟨appendSample ((List.range n).map fun i => (slackSample (i + 1)).entry)
          (slackSample (n + 1)).entry, none⟩ := by
      rw [readLine, if_pos hresidual, if_neg (by simp), readSample_slackLine _ (Nat.succ_pos n)]
      rfl
    have happend : appendSample ((List.range n).map fun i => (slackSample (i + 1)).entry) (slackSample (n + 1)).entry =
        (List.range (n + 1)).map fun i => (slackSample (i + 1)).entry := by
      have hkept : ((List.range n).map fun i => (slackSample (i + 1)).entry).getLast?.any
          (fun last => (slackSample (n + 1)).entry.1 != last.1 + 1) = false := by
        cases n with
        | zero => rfl
        | succ m =>
          rw [List.range_succ, List.map_append, List.map_singleton, List.getLast?_concat, Option.any_some]
          simp [slackSample, ResidualSample.entry]
      rw [appendSample]
      simp only [hkept, Bool.false_eq_true, if_false]
      rw [List.length_append, List.length_map, List.length_range, List.length_singleton, Nat.sub_eq_zero_of_le hn,
        List.drop_zero, List.range_succ, List.map_append, List.map_singleton]
    rw [happend] at hstep
    rw [List.range_succ (n := n), List.map_append (f := fun i => slackLine (i + 1)), List.map_singleton, foldlM_concat,
      ← List.range_succ]
    exact bind_eq_ok.mpr ⟨_, ih (Nat.le_of_succ_le hn), hstep⟩

theorem slackLog_converges : parseLocalSteadyConvergence slackRuntime slackLog slackTolerance =
    .ok ⟨true, some 100, some (wholeDouble 1)⟩ := by
  have htolerance : (!isFinite slackTolerance || le slackTolerance (lit 0)) = false := by decide +kernel
  have hresidual : isResidual (convergedTag ++ slackCertificate) = false := by decide +kernel
  have hcertificate : isCertificate (convergedTag ++ slackCertificate) = true := by
    rw [isCertificate, List.isPrefixOf_iff_prefix]
    exact List.prefix_append _ _
  have hlast : ∀ samples, readLine slackRuntime ⟨samples, none⟩ (convergedTag ++ slackCertificate) =
      .ok ⟨samples, some (.dict slackFields)⟩ := by
    intro samples
    have hloads : slackRuntime.loads ((convergedTag ++ slackCertificate).drop convergedTag.length) =
        some (.dict slackFields) := by
      rw [List.drop_left]
      show (if slackCertificate = slackCertificate then some (PyValue.dict slackFields) else none) = _
      rw [if_pos rfl]
    rw [readLine, if_neg (by rw [hresidual]; exact Bool.false_ne_true), if_pos hcertificate, if_neg (by simp), hloads]
    rfl
  have hrun : (splitLines [] slackLog).foldlM (readLine slackRuntime) ⟨[], none⟩ =
      .ok ⟨(List.range 100).map fun i => (slackSample (i + 1)).entry, some (.dict slackFields)⟩ := by
    rw [slackLog_lines, foldlM_concat]
    exact bind_eq_ok.mpr ⟨_, slackLog_window 100 le_rfl, hlast _⟩
  rw [parseLocalSteadyConvergence, htolerance, if_neg Bool.false_ne_true]
  exact bind_eq_ok.mpr ⟨_, hrun, by decide +kernel⟩

theorem slackLog_sustained : Sustained slackRuntime slackLog (declaredLimit slackTolerance) (some 100) :=
  converged_sustained slackLog_converges rfl

/-- The window of that log exceeds the tolerance it was read with. -/
theorem slackLog_beyond_tolerance :
    ¬∀ (runtime : LogRuntime) (log : List Char) (tolerance : Double) (info : ConvergenceInfo),
      parseLocalSteadyConvergence runtime log tolerance = .ok info → info.converged = true →
        Sustained runtime log tolerance info.iterations := by
  intro h
  obtain ⟨before, line, after, fields, iteration, earlier, window, hlines, -, -, -, -, -, hparsed, hwindow, hvalues⟩ :=
    h slackRuntime slackLog slackTolerance _ slackLog_converges rfl
  obtain ⟨sample, hsample⟩ : ∃ sample, sample ∈ window := by
    refine List.exists_mem_of_ne_nil _ fun hnil => ?_
    have hlength := congrArg List.length hwindow
    rw [hnil, List.length_map, List.length_map, List.length_range] at hlength
    cases hlength
  obtain ⟨l, hl, hread⟩ := mem_of_mapM_eq_ok hparsed (List.mem_append_right earlier hsample)
  obtain ⟨hbefore, hresidual⟩ := List.mem_filter.mp hl
  have hmem : l ∈ splitLines [] slackLog := by
    rw [hlines]
    exact List.mem_append_left _ hbefore
  rw [slackLog_lines, List.mem_append, List.mem_singleton, List.mem_map] at hmem
  obtain ⟨i, -, rfl⟩ | rfl := hmem
  · rw [readSample_slackLine _ (Nat.succ_pos i), Except.ok.injEq] at hread
    have hone : wholeDouble 1 ∈ sample.values := by
      rw [← hread]
      exact List.mem_replicate.mpr ⟨by decide, rfl⟩
    exact absurd ((hvalues sample hsample).2 _ hone).2.2 (by decide +kernel)
  · exact absurd hresidual (by decide +kernel)

end XFoilFoam.Engine
