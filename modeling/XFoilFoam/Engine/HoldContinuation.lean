import XFoilFoam.Engine.HoldDictionaries
import XFoilFoam.Engine.BudgetedRunner
import XFoilFoam.Foundations.RelyGuarantee

/-! `complete_rans_hold` of `openfoam/rans_hold.py`: a converged steady case is run on in chunks of one hold window until
its coefficients hold, with both solver dictionaries rewritten around each chunk.  What the engine, the file system and the
solver do is the site's; the dictionaries are bytes. -/
namespace XFoilFoam.HoldContinuation
open Engine Binary64
open BudgetedRunner (RunResult)
set_option autoImplicit false

/-! ## The site -/

structure Child where
  name : List Char
  isDir : Bool
  hasVelocity : Bool

def latestIteration (runtime : PyRuntime) (children : List Child) : Option ℤ :=
  (children.filterMap fun child =>
    if child.isDir then
      (runtime.float child.name).bind fun value =>
        if isFinite value && le (lit 0) value && value.value.den == 1 && child.hasVelocity then some value.value.num
        else none
    else none).max?

/-- The dictionaries of a case and everything else in its directory and its engine. -/
structure Files (World : Type) where
  controlDict : ByteArray
  fvSolution : ByteArray
  world : World

inductive Dictionary where
  | controlDict
  | fvSolution
  deriving DecidableEq

def Files.get {World : Type} (files : Files World) : Dictionary → ByteArray
  | .controlDict => files.controlDict
  | .fvSolution => files.fvSolution

def Files.put {World : Type} (files : Files World) (bytes : ByteArray) : Dictionary → Files World
  | .controlDict => { files with controlDict := bytes }
  | .fvSolution => { files with fvSolution := bytes }

/-- Where `atomic_dictionary` is called. -/
inductive WritePlace where
  | edit
  | restore

/-- A write may raise before or after the file is replaced. -/
inductive WriteOutcome (ε : Type) where
  | done
  | before (error : ε)
  | after (error : ε)

structure HoldRequest where
  startIteration : ℤ
  requestedEndIteration : ℤ
  maximumIteration : ℤ
  spec : BudgetedRunner.CaseSpec

inductive StoreStep where
  | mkdir (name : String)
  | evidence (name : String) (file : String) (text : List Char)
  | request (name : String) (text : String)
  | log (name : String) (stdout : String)

structure HoldCall where
  spec : BudgetedRunner.CaseSpec
  nProc : ℤ
  timeout : Double

structure SolverCommand where
  app : String
  nProc : ℤ
  timeout : Double
  restart : Bool

structure Site (World ε : Type) where
  runtime : PyRuntime
  word : WordChars
  budgeted : Bool
  steadySolverCommand : Except ε String
  forceTransient : Bool
  converged : String → Except ε Bool
  checkMaterialDomain : RunResult → World → Except ε Unit × World
  /-- The last of the coefficient files. -/
  coefficients : World → Except ε (Option ByteArray)
  children : World → Except ε (List Child)
  cancelCheck : Option (World → Except ε Unit × World)
  limit : World → Except ε (Option Double)
  consumed : World → Except ε (Option Double)
  uuid4 : World → Except ε String × World
  store : StoreStep → World → Except ε Unit × World
  dumps : HoldRequest → Except ε String
  write : WritePlace → Dictionary → List Char → Files World → WriteOutcome ε
  solver : SolverCommand → Files World → Except ε RunResult × Files World

/-- One call of the solver: the iteration it starts from and the control dictionary it finds. -/
structure Ask where
  start : ℤ
  controlDict : ByteArray

structure HoldState (World : Type) where
  files : Files World
  asks : List Ask

/-! ## The program -/

section Program
variable {World ε α : Type} (site : Site World ε)

abbrev HoldTask (World ε α : Type) := Task (HoldState World) (HoldError ε) α

/-- What a step that may raise goes on with. -/
def lift (outcome : Except (HoldError ε) α) : HoldTask World ε α :=
  match outcome with
  | .ok a => .done a
  | .error e => .raised e

def outside (outcome : Except ε α) : HoldTask World ε α := lift (outcome.mapError .outside)

def effect (f : World → Except ε α × World) : HoldTask World ε α :=
  (Task.update fun s => ((f s.files.world).1, { s with files := { s.files with world := (f s.files.world).2 } })).bind outside

def look (f : World → Except ε α) : HoldTask World ε α := (Task.read fun s => f s.files.world).bind outside

/-- `if cancel_check: cancel_check()`. -/
def cancel : HoldTask World ε Unit :=
  match site.cancelCheck with
  | some check => effect check
  | none => .done ()

/-- `Path.read_text` of a dictionary. -/
def readDictionary (dictionary : Dictionary) : HoldTask World ε (List Char) :=
  (Task.read fun s => readText (s.files.get dictionary)).bind fun
    | some text => .done text
    | none => .raised (.python .unicodeDecodeError)

def atomicDictionary (place : WritePlace) (dictionary : Dictionary) (text : List Char) : HoldTask World ε Unit :=
  (Task.update fun s =>
    match site.write place dictionary text s.files with
    | .done => (.ok (), { s with files := s.files.put (textBytes text) dictionary })
    | .before e => (.error e, s)
    | .after e => (.error e, { s with files := s.files.put (textBytes text) dictionary })).bind outside

def askSolver (current : ℤ) (command : SolverCommand) : HoldTask World ε RunResult :=
  (Task.update fun s =>
    ((site.solver command s.files).1,
      ⟨(site.solver command s.files).2, s.asks ++ [⟨current, s.files.controlDict⟩]⟩)).bind outside

/-- `analyze_rans_hold(path)`, as to whether it certifies. -/
def certifies (file : ByteArray) : HoldTask World ε Bool :=
  lift (((analyzeRansHold site.runtime file ransHoldRequiredSamples ransHoldRelativeTolerance
    ransHoldAbsoluteFloor).mapError .python).map fun analysis => analysis.any (·.certified))

structure Hold where
  family : String
  control : List Char
  solution : List Char
  current : ℤ
  maximum : ℤ

/-- `float(root_entry(control, "endTime"))`, when that is a whole number. -/
def endTime (runtime : PyRuntime) (control : List Char) : Except (HoldError ε) (Option ℤ) :=
  (rootEntry control "endTime").bind fun value =>
    match runtime.float value with
    | none => .error (.valueError value)
    | some number => .ok (if isFinite number && number.value.den == 1 then some number.value.num else none)

/-- Everything before the `try`. -/
def prepareHold (result : RunResult) : HoldTask World ε (Option Hold) :=
  if !site.budgeted then .done none
  else
    (outside site.steadySolverCommand).bind fun family =>
    if !(["simpleFoam", "rhoSimpleFoam", "xfoilfoamRhoSimpleFoam"].contains family) || site.forceTransient || !result.ok then
      .done none
    else
      (outside (site.converged result.stdout)).bind fun converged =>
      if !converged then .done none
      else
        (effect (site.checkMaterialDomain result)).bind fun _ =>
        (look site.coefficients).bind fun
          | none => .done none
          | some file =>
            (certifies site file).bind fun certified =>
            if certified then .done none
            else
              (look site.children).bind fun children =>
              match latestIteration site.runtime children with
              | none => .done none
              | some current =>
                (readDictionary .controlDict).bind fun control =>
                (readDictionary .fvSolution).bind fun solution =>
                (lift (endTime site.runtime control)).bind fun
                  | none => .raised (.infrastructureError "RANS hold has no finite remaining iteration allocation")
                  | some maximum =>
                    if maximum < current then
                      .raised (.infrastructureError "RANS hold has no finite remaining iteration allocation")
                    else .done (some ⟨family, control, solution, current, maximum⟩)

def holdMarker : String := "XFOILFOAM_RANS_HOLD_CONTINUATION"

def holdSteps (maximum current : ℤ) : ℤ := min ransHoldRequiredSamples (maximum - current)

def editDictionaries (call : HoldCall) (hold : Hold) (current : ℤ) : HoldTask World ε (String × String) :=
  let stop := current + holdSteps hold.maximum current
  (lift (holdDictionaries site.word hold.control hold.solution stop (holdSteps hold.maximum current))).bind fun updated =>
    (effect site.uuid4).bind fun name =>
    (effect (site.store (.mkdir name))).bind fun _ =>
    (effect (site.store (.evidence name "controlDict" updated.1))).bind fun _ =>
    (effect (site.store (.evidence name "fvSolution" updated.2))).bind fun _ =>
    (outside (site.dumps ⟨current, stop, hold.maximum, call.spec⟩)).bind fun request =>
    (effect (site.store (.request name (request ++ "\n")))).bind fun _ =>
    (atomicDictionary site .edit .controlDict updated.1).bind fun _ =>
    (atomicDictionary site .edit .fvSolution updated.2).bind fun _ => .done (name, request)

/-- How a turn of the loop ends: `break`, or on to the next with this history and this result. -/
inductive Turn where
  | stop (result : RunResult)
  | again (history : String) (result : RunResult)

def holdTurn (call : HoldCall) (hold : Hold) (current : ℤ) (history : String) (result : RunResult) :
    HoldTask World ε Turn :=
  (cancel site).bind fun _ =>
  (look site.limit).bind fun limit =>
  (look site.consumed).bind fun consumed =>
  match limit, consumed with
  | some limit, some consumed =>
    if le limit consumed then .done (.stop result)
    else if holdSteps hold.maximum current < ransHoldRequiredSamples then .done (.stop result)
    else
      (editDictionaries site call hold current).bind fun (name, request) =>
      (cancel site).bind fun _ =>
      (askSolver site current ⟨hold.family, call.nProc, pyMin [call.timeout, sub limit consumed], true⟩).bind fun continued =>
      (effect (site.store (.log name continued.stdout))).bind fun _ =>
      let history := history ++ "\n" ++ holdMarker ++ " " ++ request ++ "\n" ++ continued.stdout
      let result := { continued with stdout := history }
      (effect (site.checkMaterialDomain continued)).bind fun _ =>
      (cancel site).bind fun _ =>
      if !continued.ok then .done (.stop result)
      else
        (look site.children).bind fun children =>
        if latestIteration site.runtime children ≠ some (current + holdSteps hold.maximum current) then
          .raised (.infrastructureError "RANS hold did not retain its exact bounded continuation fields")
        else
          (look site.coefficients).bind fun
            | none => .done (.again history result)
            | some file =>
              (certifies site file).bind fun certified =>
              .done (if certified then .stop result else .again history result)
  | _, _ => .done (.stop result)

def holdLoop (call : HoldCall) (hold : Hold) (current : ℤ) (history : String) (result : RunResult) :
    HoldTask World ε RunResult :=
  if current < hold.maximum then
    (holdTurn site call hold current history result).bind fun
      | .stop result => .done result
      | .again history result => holdLoop call hold (current + holdSteps hold.maximum current) history result
  else .done result
termination_by (hold.maximum - current).toNat
decreasing_by
  rw [holdSteps, ransHoldRequiredSamples]
  omega

def completeRansHold (call : HoldCall) (result : RunResult) : HoldTask World ε RunResult :=
  (prepareHold site result).bind fun
    | none => .done result
    | some hold =>
      (holdLoop site call hold hold.current result.stdout result).ensure
        ((atomicDictionary site .restore .controlDict hold.control).bind fun _ =>
          atomicDictionary site .restore .fvSolution hold.solution)

end Program

/-! ## What a step leaves alone -/

section Effects
variable {World ε α : Type} {site : Site World ε} {I : HoldState World → Prop} {s : HoldState World}

def core (s : HoldState World) : ByteArray × ByteArray × List Ask := (s.files.controlDict, s.files.fvSolution, s.asks)

theorem spares_lift (outcome : Except (HoldError ε) α) : (lift outcome : HoldTask World ε α).Spares core := by
  cases outcome with
  | ok a => exact Task.spares_done _ a
  | error e => exact Task.spares_raised _ e

theorem spares_outside (outcome : Except ε α) : (outside outcome : HoldTask World ε α).Spares core := spares_lift _

theorem spares_effect (f : World → Except ε α × World) : (effect f : HoldTask World ε α).Spares core :=
  fun _ => ⟨rfl, (spares_outside _ _).weaken (fun _ h => h) fun _ _ h => h⟩

theorem spares_look (f : World → Except ε α) : (look f : HoldTask World ε α).Spares core :=
  (Task.spares_read _ _).bind fun _ => spares_outside _

theorem spares_cancel (site : Site World ε) : (cancel site).Spares core := by
  unfold cancel
  split
  · exact spares_effect _
  · exact Task.spares_done _ _

theorem spared {t : HoldTask World ε α} {P : List Ask → Prop} (h : t.Spares core) (hP : P s.asks) :
    t.Always (fun s' => P s'.asks) (fun _ s' => core s' = core s) s :=
  h.always (I := fun s' => P s'.asks)
    (fun s₁ s₂ heq hP => by
      have hasks : s₂.asks = s₁.asks := congrArg (fun c : ByteArray × ByteArray × List Ask => c.2.2) heq
      rwa [hasks])
    hP

theorem afterSpared {β : Type} {t : HoldTask World ε α} {k : α → HoldTask World ε β} {P : List Ask → Prop}
    {Q : Except (HoldError ε) β → HoldState World → Prop} (h : t.Spares core) (hP : P s.asks)
    (hok : ∀ a s', core s' = core s → (k a).Always (fun s' => P s'.asks) Q s')
    (herror : ∀ e s', core s' = core s → Q (.error e) s') : (t.bind k).Always (fun s' => P s'.asks) Q s :=
  (spared h hP).bind (fun a s' _ heq => hok a s' heq) fun e s' _ heq => herror e s' heq

theorem asks_of_core {s' : HoldState World} (h : core s' = core s) : s'.asks = s.asks :=
  congrArg (fun c : ByteArray × ByteArray × List Ask => c.2.2) h

theorem controlDict_of_core {s' : HoldState World} (h : core s' = core s) : s'.files.controlDict = s.files.controlDict :=
  congrArg (fun c : ByteArray × ByteArray × List Ask => c.1) h

theorem fvSolution_of_core {s' : HoldState World} (h : core s' = core s) : s'.files.fvSolution = s.files.fvSolution :=
  congrArg (fun c : ByteArray × ByteArray × List Ask => c.2.1) h

theorem lift_always {β : Type} {outcome : Except (HoldError ε) α} {k : α → HoldTask World ε β}
    {Q : Except (HoldError ε) β → HoldState World → Prop} (hI : I s)
    (hok : ∀ a, outcome = .ok a → (k a).Always I Q s) (herror : ∀ e, Q (.error e) s) :
    ((lift outcome).bind k).Always I Q s := by
  cases outcome with
  | ok a => exact hok a rfl
  | error e => exact ⟨hI, herror e⟩

theorem atomicDictionary_always {P : List Ask → Prop} (place : WritePlace) (dictionary : Dictionary) (text : List Char)
    (hP : P s.asks) :
    (atomicDictionary site place dictionary text).Always (fun s' => P s'.asks)
      (fun r s' => s'.asks = s.asks ∧ (r = .ok () → s'.files = s.files.put (textBytes text) dictionary) ∧
        (site.write place dictionary text s.files = .done → r = .ok ())) s := by
  refine ⟨hP, ?_⟩
  dsimp only
  cases hwrite : site.write place dictionary text s.files with
  | done => exact ⟨hP, rfl, fun _ => rfl, fun _ => rfl⟩
  | before e => exact ⟨hP, rfl, (fun h => by cases h), fun h => by cases h⟩
  | after e => exact ⟨hP, rfl, (fun h => by cases h), fun h => by cases h⟩

theorem askSolver_always {P : List Ask → Prop} {current : ℤ} {command : SolverCommand} (hP : P s.asks)
    (hnext : P (s.asks ++ [⟨current, s.files.controlDict⟩])) :
    (askSolver site current command).Always (fun s' => P s'.asks)
      (fun _ s' => s'.asks = s.asks ++ [⟨current, s.files.controlDict⟩]) s := by
  refine ⟨hP, ?_⟩
  dsimp only
  cases (site.solver command s.files).1 with
  | ok continued => exact ⟨hnext, rfl⟩
  | error e => exact ⟨hnext, rfl⟩

end Effects

/-! ## Chunks -/

section Chunks
variable {World ε : Type} {site : Site World ε} {s : HoldState World}

def ConfiguredEnd (site : Site World ε) (control : ByteArray) (maximum : ℤ) : Prop :=
  ∃ text, readText control = some text ∧ endTime site.runtime text = (.ok (some maximum) : Except (HoldError ε) _)

def EndsAt (ε : Type) (control : ByteArray) (stop : ℤ) : Prop :=
  ∃ text, readText control = some text ∧ rootEntry text "endTime" = (.ok (decimal stop) : Except (HoldError ε) _)

/-- The solver was asked for one hold window after another, none beyond the configured end. -/
def Asked (site : Site World ε) (control : ByteArray) (first : ℤ) (asks : List Ask) : Prop :=
  ∀ (i : ℕ) (ask : Ask), asks[i]? = some ask →
    ask.start = first + ransHoldRequiredSamples * i ∧ EndsAt ε ask.controlDict (ask.start + ransHoldRequiredSamples) ∧
      ∃ maximum, ConfiguredEnd site control maximum ∧ ask.start + ransHoldRequiredSamples ≤ maximum

variable {control : ByteArray} {first current maximum : ℤ}

theorem Asked.append {asks : List Ask} {ask : Ask} (h : Asked site control first asks)
    (hmaximum : ConfiguredEnd site control maximum) (hstart : ask.start = first + ransHoldRequiredSamples * asks.length)
    (hstop : ask.start + ransHoldRequiredSamples ≤ maximum)
    (hend : EndsAt ε ask.controlDict (ask.start + ransHoldRequiredSamples)) : Asked site control first (asks ++ [ask]) := by
  intro i ask' hi
  obtain hlt | hge := Nat.lt_or_ge i asks.length
  · rw [List.getElem?_append_left hlt] at hi
    exact h i ask' hi
  · rw [List.getElem?_append_right hge, List.getElem?_singleton] at hi
    split at hi
    · next hzero =>
      cases hi
      have hlast : i = asks.length := by omega
      rw [hlast]
      exact ⟨hstart, hend, maximum, hmaximum, hstop⟩
    · cases hi

/-- What the work before the `try` hands on. -/
structure Prepared (site : Site World ε) (s : HoldState World) (hold : Hold) : Prop where
  control : readText s.files.controlDict = some hold.control
  solution : readText s.files.fvSolution = some hold.solution
  maximum : endTime site.runtime hold.control = (.ok (some hold.maximum) : Except (HoldError ε) _)

theorem readDictionary_always {β : Type} {P : List Ask → Prop} {dictionary : Dictionary} {k : List Char → HoldTask World ε β}
    {Q : Except (HoldError ε) β → HoldState World → Prop} (hP : P s.asks)
    (hok : ∀ text, readText (s.files.get dictionary) = some text → (k text).Always (fun s' => P s'.asks) Q s)
    (herror : ∀ e, Q (.error e) s) : ((readDictionary dictionary).bind k).Always (fun s' => P s'.asks) Q s := by
  refine ⟨hP, ?_⟩
  dsimp only
  cases hread : readText (s.files.get dictionary) with
  | some text => exact hok text hread
  | none => exact ⟨hP, herror _⟩

theorem prepareHold_always {P : List Ask → Prop} (result : RunResult) (hP : P s.asks) :
    (prepareHold site result).Always (fun s' => P s'.asks)
      (fun r s' => core s' = core s ∧ ∀ hold, r = .ok (some hold) → Prepared site s hold) s := by
  have hleave : ∀ s' : HoldState World, core s' = core s →
      (Task.done none : HoldTask World ε (Option Hold)).Always (fun s' => P s'.asks)
        (fun r s' => core s' = core s ∧ ∀ hold, r = .ok (some hold) → Prepared site s hold) s' := by
    intro s' heq
    have hP' : P s'.asks := by rwa [asks_of_core heq]
    exact ⟨hP', heq, fun hold h => by cases h⟩
  have hraise : ∀ (e : HoldError ε) (s' : HoldState World), core s' = core s →
      core s' = core s ∧ ∀ hold, (.error e : Except (HoldError ε) (Option Hold)) = .ok (some hold) → Prepared site s hold :=
    fun e s' heq => ⟨heq, fun _ h => by cases h⟩
  unfold prepareHold
  split
  · exact hleave s rfl
  refine lift_always hP (fun family _ => ?_) fun e => hraise e s rfl
  split
  · exact hleave s rfl
  refine lift_always hP (fun converged _ => ?_) fun e => hraise e s rfl
  split
  · exact hleave s rfl
  refine afterSpared (spares_effect _) hP (fun _ s₁ h₁ => ?_) hraise
  have hP₁ : P s₁.asks := by rwa [asks_of_core h₁]
  refine afterSpared (spares_look _) hP₁ (fun file s₂ h₂ => ?_) fun e s₂ h₂ => hraise e s₂ (h₂.trans h₁)
  have hP₂ : P s₂.asks := by rwa [asks_of_core h₂]
  cases file with
  | none => exact hleave s₂ (h₂.trans h₁)
  | some file =>
    refine lift_always hP₂ (fun certified _ => ?_) fun e => hraise e s₂ (h₂.trans h₁)
    split
    · exact hleave s₂ (h₂.trans h₁)
    refine afterSpared (spares_look _) hP₂ (fun children s₃ h₃ => ?_) fun e s₃ h₃ => hraise e s₃ (h₃.trans (h₂.trans h₁))
    have heq : core s₃ = core s := h₃.trans (h₂.trans h₁)
    have hP₃ : P s₃.asks := by rwa [asks_of_core heq]
    split
    · exact hleave s₃ heq
    refine readDictionary_always hP₃ (fun control hcontrol => ?_) fun e => hraise e s₃ heq
    refine readDictionary_always hP₃ (fun solution hsolution => ?_) fun e => hraise e s₃ heq
    refine lift_always hP₃ (fun maximum hmaximum => ?_) fun e => hraise e s₃ heq
    cases maximum with
    | none => exact ⟨hP₃, hraise _ s₃ heq⟩
    | some maximum =>
      dsimp only
      split
      · exact ⟨hP₃, hraise _ s₃ heq⟩
      · refine ⟨hP₃, heq, fun hold h => ?_⟩
        cases h
        refine ⟨?_, ?_, hmaximum⟩
        · rw [← controlDict_of_core heq]
          exact hcontrol
        · rw [← fvSolution_of_core heq]
          exact hsolution

theorem editDictionaries_always {P : List Ask → Prop} {call : HoldCall} {hold : Hold} (hcontrol : '\r' ∉ hold.control)
    (hP : P s.asks) :
    (editDictionaries site call hold current).Always (fun s' => P s'.asks)
      (fun r s' => s'.asks = s.asks ∧
        ((∃ a, r = .ok a) → EndsAt ε s'.files.controlDict (current + holdSteps hold.maximum current))) s := by
  have hraise : ∀ (e : HoldError ε) (s' : HoldState World), s'.asks = s.asks →
      s'.asks = s.asks ∧ ((∃ a, (.error e : Except (HoldError ε) (String × String)) = .ok a) →
        EndsAt ε s'.files.controlDict (current + holdSteps hold.maximum current)) := by
    rintro e s' hasks
    exact ⟨hasks, fun ⟨_, h⟩ => by cases h⟩
  unfold editDictionaries
  refine lift_always hP (fun updated hupdated => ?_) fun e => hraise e s rfl
  obtain ⟨hcr, hend⟩ := holdDictionaries_endTime hcontrol hupdated
  refine afterSpared (spares_effect _) hP (fun name s₁ h₁ => ?_) fun e s' h => hraise e s' (asks_of_core h)
  have h₁ := asks_of_core h₁
  refine afterSpared (spares_effect _) (by rwa [h₁]) (fun _ s₂ h₂ => ?_) fun e s' h => hraise e s' ((asks_of_core h).trans h₁)
  have h₂ := (asks_of_core h₂).trans h₁
  refine afterSpared (spares_effect _) (by rwa [h₂]) (fun _ s₃ h₃ => ?_) fun e s' h => hraise e s' ((asks_of_core h).trans h₂)
  have h₃ := (asks_of_core h₃).trans h₂
  refine afterSpared (spares_effect _) (by rwa [h₃]) (fun _ s₄ h₄ => ?_) fun e s' h => hraise e s' ((asks_of_core h).trans h₃)
  have h₄ := (asks_of_core h₄).trans h₃
  refine lift_always (by rwa [h₄]) (fun request _ => ?_) fun e => hraise e s₄ h₄
  refine afterSpared (spares_effect _) (by rwa [h₄]) (fun _ s₅ h₅ => ?_) fun e s' h => hraise e s' ((asks_of_core h).trans h₄)
  have h₅ := (asks_of_core h₅).trans h₄
  refine (atomicDictionary_always .edit .controlDict updated.1 (by rwa [h₅])).bind (fun _ s₆ _ h₆ => ?_)
    fun e s₆ _ h₆ => hraise e s₆ (h₆.1.trans h₅)
  refine (atomicDictionary_always .edit .fvSolution updated.2 (by rwa [h₆.1, h₅])).bind (fun _ s₇ hP₇ h₇ => ?_)
    fun e s₇ _ h₇ => hraise e s₇ (h₇.1.trans (h₆.1.trans h₅))
  refine ⟨hP₇, h₇.1.trans (h₆.1.trans h₅), fun _ => ?_⟩
  rw [h₇.2.1 rfl]
  show EndsAt ε s₆.files.controlDict _
  rw [h₆.2.1 rfl]
  exact ⟨updated.1, readText_textBytes hcr, hend⟩

theorem holdTurn_always {call : HoldCall} {hold : Hold} {history : String} {result : RunResult}
    (hcontrol : '\r' ∉ hold.control) (hmaximum : ConfiguredEnd site control hold.maximum)
    (hasked : Asked site control first s.asks) (hcurrent : current = first + ransHoldRequiredSamples * s.asks.length) :
    (holdTurn site call hold current history result).Always (fun s' => Asked site control first s'.asks)
      (fun r s' => ∀ history' result', r = .ok (.again history' result') →
        current + holdSteps hold.maximum current = first + ransHoldRequiredSamples * s'.asks.length) s := by
  have hraise : ∀ (e : HoldError ε) (s' : HoldState World) (history' : String) (result' : RunResult),
      (.error e : Except (HoldError ε) Turn) = .ok (.again history' result') →
        current + holdSteps hold.maximum current = first + ransHoldRequiredSamples * s'.asks.length :=
    fun e s' history' result' h => by cases h
  have hstop : ∀ (result' : RunResult) (s' : HoldState World), Asked site control first s'.asks →
      (Task.done (.stop result') : HoldTask World ε Turn).Always (fun s' => Asked site control first s'.asks)
        (fun r s' => ∀ history' result', r = .ok (.again history' result') →
          current + holdSteps hold.maximum current = first + ransHoldRequiredSamples * s'.asks.length) s' :=
    fun _ _ h => ⟨h, fun _ _ h => by cases h⟩
  unfold holdTurn
  refine afterSpared (spares_cancel site) hasked (fun _ s₁ h₁ => ?_) fun e s' _ => hraise e s'
  have h₁ := asks_of_core h₁
  refine afterSpared (spares_look _) (by rwa [h₁]) (fun limit s₂ h₂ => ?_) fun e s' _ => hraise e s'
  have h₂ := (asks_of_core h₂).trans h₁
  refine afterSpared (spares_look _) (by rwa [h₂]) (fun consumed s₃ h₃ => ?_) fun e s' _ => hraise e s'
  have h₃ := (asks_of_core h₃).trans h₂
  have hasked₃ : Asked site control first s₃.asks := by rwa [h₃]
  split
  · next limit consumed =>
    split
    · exact hstop result s₃ hasked₃
    split
    · exact hstop result s₃ hasked₃
    next hfull =>
    have hsteps : holdSteps hold.maximum current = ransHoldRequiredSamples := by
      rw [holdSteps] at hfull ⊢
      omega
    refine (editDictionaries_always hcontrol hasked₃).bind (fun edited s₄ hasked₄ h₄ => ?_) fun e s' _ _ => hraise e s'
    have hready := h₄.2 ⟨edited, rfl⟩
    have h₄ := h₄.1
    refine (spared (spares_cancel site) hasked₄).bind (fun _ s₅ hasked₅ h₅ => ?_) fun e s' _ _ => hraise e s'
    have h₅' := ((asks_of_core h₅).trans h₄).trans h₃
    -- the solver finds the dictionary that was put in place
    have hend : EndsAt ε s₅.files.controlDict (current + ransHoldRequiredSamples) := by
      rw [controlDict_of_core h₅, ← hsteps]
      exact hready
    have hlong : current + ransHoldRequiredSamples ≤ hold.maximum := by
      rw [holdSteps] at hsteps
      omega
    have hasked₆ : Asked site control first (s₅.asks ++ [⟨current, s₅.files.controlDict⟩]) :=
      hasked₅.append hmaximum (by rw [h₅', ← hcurrent]) hlong hend
    have hcount : current + holdSteps hold.maximum current =
        first + ransHoldRequiredSamples * (s₅.asks ++ [(⟨current, s₅.files.controlDict⟩ : Ask)]).length := by
      rw [hsteps, List.length_append, List.length_singleton, h₅', hcurrent]
      push_cast
      ring
    refine (askSolver_always hasked₅ hasked₆).bind (fun continued s₆ hasked₆ h₆ => ?_) fun e s' _ _ => hraise e s'
    refine afterSpared (spares_effect _) hasked₆ (fun _ s₇ h₇ => ?_) fun e s' _ => hraise e s'
    have h₇ := (asks_of_core h₇).trans h₆
    refine afterSpared (spares_effect _) (by rwa [h₇]) (fun _ s₈ h₈ => ?_) fun e s' _ => hraise e s'
    have h₈ := (asks_of_core h₈).trans h₇
    refine afterSpared (spares_cancel site) (by rwa [h₈]) (fun _ s₉ h₉ => ?_) fun e s' _ => hraise e s'
    have h₉ := (asks_of_core h₉).trans h₈
    have hasked₉ : Asked site control first s₉.asks := by rwa [h₉]
    split
    · exact hstop _ s₉ hasked₉
    refine afterSpared (spares_look _) hasked₉ (fun children s₁₀ h₁₀ => ?_) fun e s' _ => hraise e s'
    have h₁₀ := (asks_of_core h₁₀).trans h₉
    have hasked₁₀ : Asked site control first s₁₀.asks := by rwa [h₁₀]
    split
    · exact ⟨hasked₁₀, hraise _ s₁₀⟩
    refine afterSpared (spares_look _) hasked₁₀ (fun file s₁₁ h₁₁ => ?_) fun e s' _ => hraise e s'
    have h₁₁ := (asks_of_core h₁₁).trans h₁₀
    have hasked₁₁ : Asked site control first s₁₁.asks := by rwa [h₁₁]
    have hnext : current + holdSteps hold.maximum current = first + ransHoldRequiredSamples * s₁₁.asks.length := by
      rw [h₁₁, hcount]
    cases file with
    | none => exact ⟨hasked₁₁, fun _ _ _ => hnext⟩
    | some file => exact lift_always hasked₁₁ (fun certified _ => ⟨hasked₁₁, fun _ _ _ => hnext⟩) fun e => hraise e s₁₁
  · exact hstop result s₃ hasked₃

theorem holdLoop_always (call : HoldCall) {hold : Hold} (history : String) (result : RunResult)
    (hcontrol : '\r' ∉ hold.control) (hmaximum : ConfiguredEnd site control hold.maximum)
    (hasked : Asked site control first s.asks) (hcurrent : current = first + ransHoldRequiredSamples * s.asks.length) :
    (holdLoop site call hold current history result).Always (fun s' => Asked site control first s'.asks)
      (fun _ _ => True) s := by
  induction current, history, result using holdLoop.induct hold generalizing s with
  | case1 current history result hlt ih =>
    rw [holdLoop, if_pos hlt]
    refine (holdTurn_always hcontrol hmaximum hasked hcurrent).bind (fun turn s' hasked' hnext => ?_) fun _ _ _ _ => trivial
    cases turn with
    | stop result' => exact ⟨hasked', trivial⟩
    | again history' result' => exact ih history' result' hasked' (hnext history' result' rfl)
  | case2 current history result hlt =>
    rw [holdLoop, if_neg hlt]
    exact ⟨hasked, trivial⟩

/-- What a dictionary is after the hold: the bytes it had, or its text written again. -/
def Rewritten (before after : ByteArray) : Prop :=
  after = before ∨ ∃ text, before.utf8Decode? = some text ∧ '\r' ∈ text ∧ after = textBytes (universalNewlines text.toList)

theorem rewritten_of_readText {file : ByteArray} {text : List Char} (h : readText file = some text) :
    Rewritten file (textBytes text) := by
  obtain ⟨decoded, hdecoded, rfl⟩ := Option.map_eq_some_iff.mp h
  by_cases hcr : '\r' ∈ decoded
  · exact .inr ⟨decoded, hdecoded, hcr, rfl⟩
  · left
    obtain ⟨letters, rfl⟩ := ByteArray.isSome_utf8Decode?_iff.mp (by rw [hdecoded, Option.isSome_some])
    rw [List.utf8Decode?_utf8Encode] at hdecoded
    cases hdecoded
    rw [universalNewlines_of_notMem fun h => hcr (Array.mem_toList_iff.mp h), textBytes, String.toByteArray_ofList]

theorem restore_always {P : List Ask → Prop} (hold : Hold) (hP : P s.asks)
    (hrestore : ∀ dictionary text files, site.write .restore dictionary text files = .done) :
    ((atomicDictionary site .restore .controlDict hold.control).bind fun _ =>
      atomicDictionary site .restore .fvSolution hold.solution).Always (fun s' => P s'.asks)
        (fun _ s' => s'.files.controlDict = textBytes hold.control ∧ s'.files.fvSolution = textBytes hold.solution) s := by
  refine (atomicDictionary_always .restore .controlDict hold.control hP).bind (fun _ s₁ hP₁ h₁ => ?_) fun e s₁ _ h₁ => ?_
  · refine (atomicDictionary_always .restore .fvSolution hold.solution hP₁).mono fun r s₂ _ h₂ => ?_
    rw [h₂.2.1 (h₂.2.2 (hrestore _ _ _))]
    exact ⟨congrArg Files.controlDict (h₁.2.1 rfl), rfl⟩
  · cases h₁.2.2 (hrestore _ _ _)

/-- On every way out the dictionaries have the text they had, and the solver was only asked for hold windows, one after
another, that end no later than the configured end. -/
theorem completeRansHold_restores (site : Site World ε) (call : HoldCall) (result : RunResult) (files : Files World)
    (hrestore : ∀ dictionary text files, site.write .restore dictionary text files = .done) :
    let final := ((completeRansHold site call result).run ⟨files, []⟩).2
    (∃ first, Asked site files.controlDict first final.asks) ∧
      ∀ dictionary, Rewritten (files.get dictionary) (final.files.get dictionary) := by
  have hempty (first : ℤ) : Asked site files.controlDict first [] := fun i ask hi => by cases hi
  have hmain : (completeRansHold site call result).Always (fun s' => ∃ first, Asked site files.controlDict first s'.asks)
      (fun _ s' => ∀ dictionary, Rewritten (files.get dictionary) (s'.files.get dictionary)) ⟨files, []⟩ := by
    have hsame : ∀ s' : HoldState World, core s' = core ⟨files, []⟩ →
        ∀ dictionary, Rewritten (files.get dictionary) (s'.files.get dictionary) := by
      intro s' heq dictionary
      cases dictionary with
      | controlDict => exact .inl (controlDict_of_core heq)
      | fvSolution => exact .inl (fvSolution_of_core heq)
    have hbefore := @prepareHold_always World ε site ⟨files, []⟩ (fun asks => ∃ first, Asked site files.controlDict first asks)
      result ⟨0, hempty 0⟩
    refine hbefore.bind (fun prepared s' hasked h => ?_) fun e s' _ h => hsame s' h.1
    cases prepared with
    | none => exact ⟨hasked, hsame s' h.1⟩
    | some hold =>
      have hprepared := h.2 hold rfl
      have hasked' : Asked site files.controlDict hold.current s'.asks := by
        rw [asks_of_core h.1]
        exact hempty _
      have hcurrent : hold.current = hold.current + ransHoldRequiredSamples * s'.asks.length := by
        rw [asks_of_core h.1, List.length_nil]
        simp
      have hloop := holdLoop_always call result.stdout result
        (notMem_of_readText hprepared.control) ⟨hold.control, hprepared.control, hprepared.maximum⟩ hasked' hcurrent
      refine Task.Always.ensure (hloop.weaken (fun s'' h => ⟨hold.current, h⟩) fun _ _ h => h) fun r s'' hasked'' _ => ?_
      have hcleanup := restore_always (P := fun asks => ∃ first, Asked site files.controlDict first asks) hold hasked'' hrestore
      refine hcleanup.mono fun o s₃ _ h₃ r' _ dictionary => ?_
      cases dictionary with
      | controlDict =>
        show Rewritten files.controlDict s₃.files.controlDict
        rw [h₃.1]
        exact rewritten_of_readText hprepared.control
      | fvSolution =>
        show Rewritten files.fvSolution s₃.files.fvSolution
        rw [h₃.2]
        exact rewritten_of_readText hprepared.solution
  have hend := hmain.reaches (Task.reaches_run _ _)
  exact ⟨hend.1, hend.2 _ rfl⟩

end Chunks

/-! ## A plain case -/

def wordChar (c : Char) : Bool := c.isAlphanum || c == '_'

def plainSite (limit : Option Double) (restoring : WriteOutcome Unit) : Site Unit Unit where
  runtime := digitsRuntime
  word := wordChar
  budgeted := true
  steadySolverCommand := .ok "simpleFoam"
  forceTransient := false
  converged _ := .ok true
  checkMaterialDomain _ w := (.ok (), w)
  coefficients _ := .ok (some (textBytes []))
  children _ := .ok [⟨"100".toList, true, true⟩]
  cancelCheck := none
  limit _ := .ok limit
  consumed _ := .ok (some (wholeDouble 0))
  uuid4 w := (.ok "chunk", w)
  store _ w := (.ok (), w)
  dumps _ := .ok "request"
  write place _ _ _ :=
    match place with
    | .edit => .done
    | .restore => restoring
  solver _ files := (.error (), files)

def laterEntries : List Char :=
  "stopAt endTime;\nendTime 500;\nwriteControl timeStep;\nwriteInterval 500;\npurgeWrite 3;\n".toList

def plainControl : List Char := "startFrom startTime;".toList ++ '\n' :: laterEntries

def plainSolution : List Char := "SIMPLE \x7b residualControl \x7b p 1; \x7d \x7d\n".toList

def heldSolution : List Char := "SIMPLE \x7b residualControl \x7b\x7d \x7d\n".toList

theorem certifies_empty (limit : Option Double) (restoring : WriteOutcome Unit) :
    (certifies (plainSite limit restoring) (textBytes []) : HoldTask Unit Unit Bool) = .done false := by
  rw [certifies, show (plainSite limit restoring).runtime = digitsRuntime from rfl, analyze_eq, strictDataRows, textBytes,
    String.toByteArray_ofList, List.utf8Decode?_utf8Encode]
  rfl

theorem latestIteration_hundred : latestIteration digitsRuntime [⟨"100".toList, true, true⟩] = some 100 := by
  have hfloat : digitsRuntime.float "100".toList = some (wholeDouble 100) := rfl
  have hval := wholeDouble_val (n := 100) (by decide)
  have hle : le (lit 0) (wholeDouble 100) = true := (Double.le_iff Double.lit_zero hval).mpr (by norm_num)
  rw [latestIteration, List.filterMap_cons]
  dsimp only
  rw [if_pos rfl, hfloat, Option.bind_some, isFinite_wholeDouble (by decide), hle, Double.value_of_val hval]
  rfl

def plainCall : HoldCall := ⟨⟨.fin 1, .fin 30, .fin 2⟩, 1, wholeDouble 10⟩

def plainResult : RunResult := ⟨"simpleFoam", 0, "", false⟩

def plainHold : Hold := ⟨"simpleFoam", plainControl, plainSolution, 100, 500⟩

theorem prepare_plain {files : Files Unit} (limit : Option Double) (restoring : WriteOutcome Unit)
    (hcontrol : readText (files.get .controlDict) = some plainControl)
    (hsolution : readText (files.get .fvSolution) = some plainSolution) :
    (prepareHold (plainSite limit restoring) plainResult).run ⟨files, []⟩ =
      (.ok (some plainHold), ⟨files, []⟩) := by
  have hend : endTime (ε := Unit) digitsRuntime plainControl = .ok (some 500) := by rfl
  have hread : ∀ {dictionary text}, readText (files.get dictionary) = some text →
      (readDictionary dictionary : HoldTask Unit Unit (List Char)).run ⟨files, []⟩ = (.ok text, ⟨files, []⟩) := by
    intro dictionary text h
    rw [readDictionary, Task.run_bind_ok (Task.run_read _ _), h]
    rfl
  unfold prepareHold
  rw [if_neg (by exact Bool.false_ne_true), Task.run_bind_ok rfl, if_neg (by exact Bool.false_ne_true), Task.run_bind_ok rfl,
    if_neg (by exact Bool.false_ne_true), Task.run_bind_ok rfl, Task.run_bind_ok rfl]
  dsimp only
  rw [certifies_empty, Task.run_bind_ok (Task.run_done _ _), if_neg Bool.false_ne_true, Task.run_bind_ok rfl,
    show (plainSite limit restoring).runtime = digitsRuntime from rfl, latestIteration_hundred]
  dsimp only
  show Task.run (Task.bind (readDictionary .controlDict) _) ⟨files, []⟩ = _
  rw [Task.run_bind_ok (hread hcontrol), Task.run_bind_ok (hread hsolution), hend]
  rfl

theorem run_unlimited {files : Files Unit} (hcontrol : readText (files.get .controlDict) = some plainControl)
    (hsolution : readText (files.get .fvSolution) = some plainSolution) :
    ((completeRansHold (plainSite none .done) plainCall plainResult).run ⟨files, []⟩).2.files =
      ⟨textBytes plainControl, textBytes plainSolution, ()⟩ := by
  have hloop : (holdLoop (plainSite none .done) plainCall plainHold plainHold.current plainResult.stdout plainResult).run
      ⟨files, []⟩ = (.ok plainResult, ⟨files, []⟩) := by
    rw [holdLoop, if_pos (by decide)]
    rfl
  rw [completeRansHold, Task.run_bind_ok (prepare_plain none .done hcontrol hsolution)]
  dsimp only
  rw [Task.run_ensure hloop rfl]
  rfl

theorem run_refused {files : Files Unit} (hcontrol : readText (files.get .controlDict) = some plainControl)
    (hsolution : readText (files.get .fvSolution) = some plainSolution) :
    ((completeRansHold (plainSite (some (wholeDouble 10)) (.before ())) plainCall plainResult).run ⟨files, []⟩).2.files.fvSolution =
      textBytes heldSolution := by
  obtain ⟨updated, hupdated⟩ : ∃ updated,
      holdDictionaries (ε := Unit) (plainSite (some (wholeDouble 10)) (.before ())).word plainHold.control plainHold.solution
        (plainHold.current + holdSteps plainHold.maximum plainHold.current)
        (holdSteps plainHold.maximum plainHold.current) = .ok (updated, heldSolution) := ⟨_, rfl⟩
  have hle : ¬le (wholeDouble 10) (wholeDouble 0) = true := by
    rw [Double.le_iff (wholeDouble_val (by decide)) (wholeDouble_val (by decide))]
    norm_num
  have hloop : (holdLoop (plainSite (some (wholeDouble 10)) (.before ())) plainCall
      plainHold plainHold.current plainResult.stdout plainResult).run ⟨files, []⟩ =
        (.error (.outside ()), ⟨⟨textBytes updated, textBytes heldSolution, ()⟩,
          [⟨100, textBytes updated⟩]⟩) := by
    have hedit : (editDictionaries (plainSite (some (wholeDouble 10)) (.before ())) plainCall
        plainHold plainHold.current).run ⟨files, []⟩ = (.ok ("chunk", "request"),
          ⟨⟨textBytes updated, textBytes heldSolution, ()⟩, []⟩) := by
      unfold editDictionaries
      dsimp only
      rw [hupdated]
      rfl
    have hturn : (holdTurn (plainSite (some (wholeDouble 10)) (.before ())) plainCall
        plainHold plainHold.current plainResult.stdout plainResult).run ⟨files, []⟩ =
          (.error (.outside ()), ⟨⟨textBytes updated, textBytes heldSolution, ()⟩,
            [⟨100, textBytes updated⟩]⟩) := by
      rw [holdTurn, Task.run_bind_ok rfl, Task.run_bind_ok rfl, Task.run_bind_ok rfl]
      dsimp only
      rw [if_neg hle, if_neg (by decide)]
      show Task.run (Task.bind (editDictionaries _ _ _ _) _) ⟨files, []⟩ = _
      rw [Task.run_bind_ok hedit]
      rfl
    rw [holdLoop, if_pos (by decide), Task.run_bind, hturn]
  rw [completeRansHold, Task.run_bind_ok (prepare_plain _ _ hcontrol hsolution)]
  dsimp only
  rw [Task.run_ensure hloop rfl]
  rfl

def crlfControl : List Char := "startFrom startTime;".toList ++ '\r' :: '\n' :: laterEntries

theorem universalNewlines_crlfControl : universalNewlines crlfControl = plainControl := by
  have hfirst : '\r' ∉ "startFrom startTime;".toList := by decide
  have hlater : '\r' ∉ laterEntries := by decide
  have h := @universalNewlines_append _ ('\r' :: '\n' :: laterEntries) hfirst
  rw [universalNewlines_crlf, universalNewlines_of_notMem hlater] at h
  exact h

theorem textBytes_inj {text text' : List Char} (h : textBytes text = textBytes text') : text = text' := by
  have hdecode := congrArg ByteArray.utf8Decode? h
  rw [textBytes, textBytes, String.toByteArray_ofList, String.toByteArray_ofList, List.utf8Decode?_utf8Encode,
    List.utf8Decode?_utf8Encode] at hdecode
  simpa using hdecode

/-- Line ends of another system are lost; and when the first restoring write is refused, the second dictionary stays rewritten. -/
theorem dictionaries_left_changed :
    ((completeRansHold (plainSite none .done) plainCall plainResult).run
        ⟨⟨textBytes crlfControl, textBytes plainSolution, ()⟩, []⟩).2.files.controlDict ≠ textBytes crlfControl ∧
      ((completeRansHold (plainSite (some (wholeDouble 10)) (.before ())) plainCall plainResult).run
        ⟨⟨textBytes plainControl, textBytes plainSolution, ()⟩, []⟩).2.files.fvSolution ≠ textBytes plainSolution := by
  have hsolution : readText (textBytes plainSolution) = some plainSolution := readText_textBytes (by decide)
  constructor
  · have hcontrol : readText (textBytes crlfControl) = some plainControl := by
      rw [readText, textBytes, String.toByteArray_ofList, List.utf8Decode?_utf8Encode]
      exact congrArg some universalNewlines_crlfControl
    rw [@run_unlimited ⟨textBytes crlfControl, textBytes plainSolution, ()⟩ hcontrol hsolution]
    intro h
    have hrest := List.append_cancel_left (textBytes_inj h)
    exact absurd (List.cons.inj hrest).1 (by decide)
  · rw [@run_refused ⟨textBytes plainControl, textBytes plainSolution, ()⟩ (readText_textBytes (by decide)) hsolution]
    exact fun h => absurd (textBytes_inj h) (by decide)

/-- A hold with plain dictionaries. -/
theorem completeRansHold_restores_plain :
    let final := ((completeRansHold (plainSite (some (wholeDouble 10)) .done) plainCall plainResult).run
      ⟨⟨textBytes plainControl, textBytes plainSolution, ()⟩, []⟩).2
    (∃ first, Asked (plainSite (some (wholeDouble 10)) .done) (textBytes plainControl) first final.asks) ∧
      ∀ dictionary, Rewritten ((⟨textBytes plainControl, textBytes plainSolution, ()⟩ : Files Unit).get dictionary)
        (final.files.get dictionary) :=
  completeRansHold_restores (plainSite (some (wholeDouble 10)) .done) plainCall plainResult
    ⟨textBytes plainControl, textBytes plainSolution, ()⟩ fun _ _ _ => rfl

end XFoilFoam.HoldContinuation
