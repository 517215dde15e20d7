import XFoilFoam.Execution.StopProof

/-! Deliveries that are skipped as duplicates: who held the lock they were refused. -/
namespace XFoilFoam.Execution
open Submission (JobState)
set_option autoImplicit false

variable {i j : Actor} {w w' : World} {f n : ℕ}

/-! ## What no program does -/

/-- Whatever it does to the files, an actor takes the lock for itself alone, and what was done stays done. -/
structure Touches (i : Actor) (w w' : World) : Prop where
  others : ∀ f j, j ≠ i → w'.held f = some j → w.held f = some j
  refused : ∀ x ∈ w.refused, x ∈ w'.refused
  entered : w'.entered = w.entered ∨ (∃ n, i = .delivery n) ∧ w'.entered = w.entered ++ [i]

/-- The files that a delivery looks at before it goes inside are left alone. -/
structure Looks (w w' : World) : Prop where
  dir : w'.dir = { w.dir with lock := w'.dir.lock }
  made : w'.made = w.made
  receipt : w'.cancelReceipt = w.cancelReceipt

theorem Touches.of_same (hheld : w'.held = w.held) (hrefused : w'.refused = w.refused) (hentered : w'.entered = w.entered) :
    Touches i w w' := by
  refine ⟨fun g j _ hg => ?_, fun x hx => ?_, .inl hentered⟩
  · rwa [hheld] at hg
  · rwa [hrefused]

theorem Touches.refl (i : Actor) (w : World) : Touches i w w := .of_same rfl rfl rfl

theorem Looks.refl (w : World) : Looks w w := ⟨rfl, rfl, rfl⟩

theorem open_touches (w : World) : Touches i w w.open_.2 ∧ Looks w w.open_.2 := by
  obtain ⟨file, hopen, -⟩ | ⟨-, hopen⟩ := open_cases w
  · rw [hopen]
    exact ⟨.refl i w, .refl w⟩
  · rw [hopen]
    exact ⟨.of_same rfl rfl rfl, rfl, rfl, rfl⟩

theorem open_held (w : World) : w.open_.2.held = w.held := by
  obtain ⟨file, hopen, -⟩ | ⟨-, hopen⟩ := open_cases w
  · rw [hopen]
  · rw [hopen]

theorem open_entered (w : World) : w.open_.2.entered = w.entered := by
  obtain ⟨file, hopen, -⟩ | ⟨-, hopen⟩ := open_cases w
  · rw [hopen]
  · rw [hopen]

theorem open_made (h : w.made = true) : ∃ file, w.open_.1 = some file := by
  unfold World.open_
  rw [h]
  cases w.dir.lock with
  | none => exact ⟨w.nextFile, rfl⟩
  | some file => exact ⟨file, rfl⟩

theorem dies_held (h : (dies i w).held f = some j) : w.held f = some j := by
  change (if w.held f = some i then none else w.held f) = some j at h
  split at h
  · cases h
  · exact h

theorem flock_touches (i : Actor) (f : ℕ) (w : World) : Touches i w (w.flock i f).2 ∧ Looks w (w.flock i f).2 := by
  unfold World.flock
  split
  · refine ⟨⟨fun g j hj hg => ?_, fun _ => id, .inl rfl⟩, rfl, rfl, rfl⟩
    by_cases hgf : g = f
    · rw [hgf] at hg
      exact absurd (Option.some.inj ((Function.update_self f (some i) w.held).symm.trans hg)).symm hj
    · exact (Function.update_of_ne hgf ..).symm.trans hg
  · exact ⟨⟨fun _ _ _ => id, fun _ hx => List.mem_append_left _ hx, .inl rfl⟩, rfl, rfl, rfl⟩

theorem unlock_touches (f : ℕ) (w : World) : Touches i w { w with held := Function.update w.held f none } ∧
    Looks w { w with held := Function.update w.held f none } := by
  refine ⟨⟨fun g j _ hg => ?_, fun _ => id, .inl rfl⟩, rfl, rfl, rfl⟩
  by_cases hgf : g = f
  · rw [hgf] at hg
    cases (Function.update_self f none w.held).symm.trans hg
  · exact (Function.update_of_ne hgf ..).symm.trans hg

abbrev Looking {α : Type} (i : Actor) (t : Act α) : Prop := t.Acts (fun w w' => Touches i w w' ∧ Looks w w') fun _ => True

abbrev Touching {α : Type} (i : Actor) (Q : Except Raised α → Prop) (t : Act α) : Prop := t.Acts (Touches i) Q

theorem looking_read {α β : Type} {g : World → α} {k : α → Act β} (h : ∀ a, Looking i (k a)) :
    Looking i ((Task.read g).bind k) := Task.Acts.read (fun w => ⟨.refl i w, .refl w⟩) h

theorem touching_read {α β : Type} {Q : Except Raised β → Prop} {g : World → α} {k : α → Act β}
    (h : ∀ a, Touching i Q (k a)) : Touching i Q ((Task.read g).bind k) := Task.Acts.read (.refl i) h

theorem touching_unlock (i : Actor) (f : ℕ) : Touching i (fun r => r = .ok ()) (unlock f) :=
  fun w => ⟨(unlock_touches f w).1, rfl⟩

theorem touching_mapDir (i : Actor) (g : JobDir → JobDir) :
    Touching i (fun r => r = .ok ()) (.modify fun w => w.mapDir g : Act Unit) :=
  fun _ => ⟨.of_same rfl rfl rfl, rfl⟩

theorem touching_isCancelled {β : Type} {Q : Except Raised β → Prop} {k : Bool → Act β} (h : ∀ b, Touching i Q (k b)) :
    Touching i Q (isCancelled.bind k) := by
  intro w
  refine ⟨.refl i w, ?_⟩
  dsimp only
  cases w.dir.cancelled with
  | true => exact h true
  | false => exact fun w₁ => ⟨.refl i w₁, h _⟩

theorem touching_terminalize (i : Actor) : Touching i (fun r => ∃ b, r = .ok b) terminalizeCancelledResult := by
  refine touching_read fun result => ?_
  cases result with
  | none => exact ⟨false, rfl⟩
  | some state =>
    dsimp only
    split
    · exact ⟨false, rfl⟩
    · exact (touching_mapDir i _).bind (fun _ _ => ⟨true, rfl⟩) fun e he => by cases he

theorem touching_writeStatus (i : Actor) (status : JobStatus) (now : ℕ) :
    Touching i (fun r => r = .ok ()) (writeStatus status now) :=
  touching_read fun _ => touching_mapDir i _

/-! ## A delivery -/

section Delivery
variable {identity : NamespaceIdentity} {work : Act JobState} {published : Bool}

def Decided (r : Except Raised Outcome) : Prop := r ≠ .ok .duplicateSkipped

theorem touching_work (hwork : Work identity published work) : Touching i (fun _ => True) work := by
  induction hwork with
  | returns => trivial
  | raises => trivial
  | acts does _ ih =>
    refine fun w => ⟨?_, ih w⟩
    cases does <;> exact .of_same rfl rfl rfl

theorem touching_leave (i : Actor) :
    Touching i (fun r => r = .ok ()) (.modify fun w => { w with inside := Function.update w.inside i false } : Act Unit) :=
  fun _ => ⟨.of_same rfl rfl rfl, rfl⟩

theorem touching_execute (hwork : Work identity false work) (n : ℕ) :
    Touching (.delivery n) (fun _ => True) (executeJob (.delivery n) work) := by
  refine Task.Acts.modify (fun w => ⟨fun _ _ _ => id, fun _ => id, .inr ⟨⟨n, rfl⟩, rfl⟩⟩) ?_
  exact (touching_work hwork).ensure (touching_leave _)

theorem touching_afterFailure (i : Actor) (engine : String) (now : ℕ) (e : Raised) :
    Touching i Decided (afterFailure engine now e) := by
  have hstatus {β : Type} {Q : Except Raised β → Prop} {k : Unit → Act β} (status : JobStatus) (hk : Touching i Q (k ())) :
      Touching i Q ((writeStatus status now).bind k) :=
    (touching_writeStatus i status now).bind (fun _ _ => hk) fun e he => by cases he
  have hresult {state : JobState} {r : Act Outcome} (hr : Touching i Decided r) :
      Touching i Decided ((writeResult state).bind fun _ => r) :=
    (touching_mapDir i _).bind (fun _ _ => hr) fun e he => by cases he
  cases e with
  | jobCancelled =>
    refine (touching_terminalize i).bind (fun terminalized _ => ?_) fun e he => by cases he.choose_spec
    refine touching_read fun result => ?_
    cases result with
    | none => exact touching_read fun _ => hstatus _ (hresult fun h => by cases h)
    | some state =>
      dsimp only
      split
      · exact fun h => by cases h
      · exact touching_read fun _ => hstatus _ (hresult fun h => by cases h)
  | _ => exact hstatus _ (hresult fun h => by cases h)

theorem touching_runOwned (hwork : Work identity false work) (n : ℕ) (engine : String) (now : ℕ) :
    Touching (.delivery n) Decided (runOwned (.delivery n) identity engine work now) := by
  refine Task.Acts.bind (Q := fun _ => True) (touching_read fun owner => ?_) (fun _ _ => ?_) fun e _ h => by cases h
  · split
    · trivial
    · exact (touching_mapDir _ _).bind (fun _ _ => (touching_mapDir _ _).mono (fun _ _ => id) fun _ _ => trivial)
        fun e he => by cases he
  refine touching_read fun status => ?_
  refine Task.Acts.bind (Q := fun r => r = .ok ()) ?_ (fun _ _ => ?_) fun e he => by cases he
  · cases status with
    | none => exact rfl
    | some status => exact touching_writeStatus _ _ now
  · refine Task.Acts.handle (Q := Decided) ?_ (fun _ => id) fun e _ => touching_afterFailure _ engine now e
    exact (touching_execute hwork n).bind (fun state _ h => by cases h) fun e _ h => by cases h

theorem touching_runLocked (hwork : Work identity false work) (n : ℕ) (engine : String) (now : ℕ) :
    Touching (.delivery n) Decided (runLocked (.delivery n) identity engine work now) := by
  refine touching_read fun existing => ?_
  cases existing.filter terminal with
  | some state => exact fun h => by cases h
  | none =>
    refine touching_isCancelled fun cancelled => ?_
    cases cancelled with
    | false => exact touching_runOwned hwork n engine now
    | true =>
      refine (touching_terminalize _).bind (fun _ _ => ?_) fun e he => by cases he.choose_spec
      refine touching_read fun status => ?_
      exact (touching_writeStatus _ _ now).bind (fun _ _ h => by cases h) fun e he => by cases he

end Delivery

/-! ## The other calls -/

theorem touching_openLock {β : Type} {Q : Except Raised β → Prop} {k : Option ℕ → Act β} (h : ∀ file, Touching i Q (k file)) :
    Touching i Q (openLock.bind k) := Task.Acts.update (fun w => (open_touches w).1) h

theorem touching_tryLock {β : Type} {Q : Except Raised β → Prop} {k : Bool → Act β} (h : ∀ b, Touching i Q (k b)) :
    Touching i Q ((tryLock i f).bind k) := Task.Acts.update (fun w => (flock_touches i f w).1) h

theorem looking_isCancelled {β : Type} {k : Bool → Act β} (h : ∀ b, Looking i (k b)) : Looking i (isCancelled.bind k) := by
  intro w
  refine ⟨⟨.refl i w, .refl w⟩, ?_⟩
  dsimp only
  cases w.dir.cancelled with
  | true => exact h true
  | false => exact fun w₁ => ⟨⟨.refl i w₁, .refl w₁⟩, h _⟩

theorem looking_inspectProcesses (i : Actor) (identity : NamespaceIdentity) (fence : Fence) (basis : Basis) :
    Looking i (inspectProcesses identity fence basis) :=
  fun _ => ⟨⟨.of_same rfl rfl rfl, rfl, rfl, rfl⟩, trivial⟩

theorem looking_inspectLocked (i : Actor) (identity : NamespaceIdentity) (fence : Fence) :
    Looking i (inspectLocked identity fence) := by
  refine looking_read fun owner => ?_
  cases owner with
  | some owner =>
    dsimp only
    split
    · trivial
    · exact looking_inspectProcesses i identity fence _
  | none =>
    refine looking_read fun prepared => ?_
    split
    · trivial
    · refine looking_read fun status => ?_
      dsimp only
      split
      · trivial
      · exact looking_inspectProcesses i identity fence _

theorem looking_inspectFenced (i : Actor) (identity : NamespaceIdentity) (fence : Fence) :
    Looking i (inspectFenced i identity fence) := by
  refine Task.Acts.handle (Q := fun _ => True) ?_ (fun _ _ => trivial) fun _ _ => trivial
  refine Task.Acts.update open_touches fun file => ?_
  cases file with
  | none => trivial
  | some f =>
    refine Task.Acts.update (flock_touches i f) fun taken => ?_
    cases taken with
    | false => trivial
    | true => exact (looking_inspectLocked i identity fence).ensure fun w => ⟨unlock_touches f w, rfl⟩

theorem looking_inspect (i : Actor) (identity : NamespaceIdentity) :
    Looking i ((executionStopProof i identity).bind fun proof => .done (Outcome.proof proof)) := by
  refine Task.Acts.bind (Q := fun _ => True) ?_ (fun _ _ => trivial) fun _ _ => trivial
  refine looking_isCancelled fun cancelled => ?_
  cases cancelled with
  | true => exact looking_inspectFenced i identity _
  | false =>
    refine looking_read fun result => ?_
    split
    · exact looking_inspectFenced i identity _
    · trivial

theorem touching_fenceStableSubmission (i : Actor) (now : ℕ) : Touching i (fun _ => True) (fenceStableSubmission now) := by
  refine touching_read fun request => touching_read fun status => ?_
  refine Task.Acts.bind (Q := fun _ => True) ?_ (fun _ _ => ?_) fun _ _ => trivial
  · split
    · refine touching_read fun retired => ?_
      split
      · trivial
      · refine touching_read fun empty => ?_
        split
        · trivial
        · refine (touching_mapDir i _).bind (fun _ _ => ?_) fun e he => by cases he
          exact (touching_writeStatus i _ now).mono (fun _ _ => id) fun _ _ => trivial
    · refine touching_isCancelled fun cancelled => ?_
      cases cancelled <;> trivial
    · trivial
  · exact (touching_mapDir i _).bind (fun _ _ _ => ⟨.of_same rfl rfl rfl, trivial⟩) fun e he => by cases he

theorem touching_cancel (i : Actor) (stable : Bool) (now : ℕ) : Touching i (fun _ => True) (cancel stable now) := by
  refine Task.Acts.bind (Q := fun _ => True) ?_ (fun _ _ => ?_) fun _ _ => trivial
  · split
    · exact touching_fenceStableSubmission i now
    · trivial
  refine touching_read fun made => ?_
  split
  · trivial
  refine (touching_mapDir i _).bind (fun _ _ => ?_) fun e he => by cases he
  refine touching_read fun status => ?_
  refine (touching_writeStatus i _ now).bind (fun _ _ => ?_) fun e he => by cases he
  exact (touching_terminalize i).bind (fun _ _ => trivial) fun _ _ => trivial

theorem touching_removeTree (i : Actor) (order : List JobFile) : Touching i (fun _ => True) (removeTree order) := by
  refine Task.Acts.bind (Q := fun r => r = .ok ()) ?_ (fun _ _ => ?_) fun e he => by cases he
  · refine Task.Acts.each (fun file => ?_) order
    exact fun w => ⟨.of_same rfl rfl rfl, rfl⟩
  · refine Task.Acts.update (fun w => ?_) fun removed => ?_
    · split
      · exact .of_same rfl rfl rfl
      · exact .refl i w
    · cases removed <;> trivial

theorem touching_guard {body : Act Outcome} (hbody : Touching i (fun _ => True) body) :
    Touching i (fun _ => True) (jobRetentionGuard i body) := by
  refine touching_openLock fun file => ?_
  cases file with
  | none => trivial
  | some f =>
    refine touching_tryLock fun taken => ?_
    cases taken with
    | false => trivial
    | true =>
      refine Task.Acts.ensure ?_ (touching_unlock i f)
      refine touching_read fun status => ?_
      split
      · trivial
      · refine touching_read fun result => ?_
        split
        · trivial
        · exact hbody

theorem touching_program (jobId : String) {c : Call} (hmakes : Makes i c) (hi : ∀ n, i ≠ .delivery n) :
    Touching i (fun _ => True) (program jobId i c) := by
  cases hmakes with
  | deliver n => exact absurd rfl (hi n)
  | cancel n stable now => exact touching_cancel _ stable now
  | inspect n identity => exact (looking_inspect _ identity).mono (fun _ _ h => h.1) fun _ _ => trivial
  | strip n =>
    refine touching_read fun made => ?_
    split
    · exact touching_guard trivial
    · trivial
  | delete n order =>
    refine touching_read fun made => ?_
    split
    · exact touching_guard (touching_removeTree _ order)
    · trivial

/-! ## Refusals -/

/-- No delivery tried the lock while a retention attempt or an inspection had it. -/
def Unobstructed (w : World) : Prop := ∀ n j, (.delivery n, j) ∈ w.refused → ∃ k, j = .delivery k

structure Leaves (i : Actor) (w w' : World) : Prop where
  mine : ∀ f, w'.held f = some i → w.held f = some i
  refused : ∀ x ∈ w.refused, x ∈ w'.refused

theorem Leaves.refl (i : Actor) (w : World) : Leaves i w w := ⟨fun _ => id, fun _ => id⟩

theorem Touches.leaves (h : Touches i w w') (j : Actor) (hj : j ≠ i) : Leaves j w w' :=
  ⟨fun f => h.others f j hj, h.refused⟩

def Unheld (i : Actor) (w : World) : Prop := ∀ f, w.held f ≠ some i

theorem Leaves.unheld (h : Leaves i w w') (hunheld : Unheld i w) : Unheld i w' :=
  fun f hf => hunheld f (h.mine f hf)

def Behind (i : Actor) (r : Except Raised Outcome) (w : World) : Prop :=
  ∀ n, i = .delivery n → r = .ok .duplicateSkipped → ∃ k, k ≠ n ∧ (.delivery n, .delivery k) ∈ w.refused

theorem Behind.lasts {r : Except Raised Outcome} (h : Behind i r w) (hrefused : ∀ x ∈ w.refused, x ∈ w'.refused) : Behind i r w' := by
  intro n hi hr
  obtain ⟨k, hk, hrecord⟩ := h n hi hr
  exact ⟨k, hk, hrefused _ hrecord⟩

abbrev Skips (n : ℕ) (t : Act Outcome) (w : World) : Prop :=
  t.Keeps Unobstructed (fun _ => True) (Leaves (.delivery n)) (fun w w' => ∀ j, j ≠ .delivery n → Leaves j w w')
    (Behind (.delivery n)) w

theorem skips_of_decided {t : Act Outcome} (h : Touching (.delivery n) Decided t) : Skips n t w := by
  refine (h.keeps (P := fun _ => True) (fun _ _ _ _ _ => trivial) (fun _ _ _ _ ht => ⟨trivial, ht.leaves, trivial⟩) trivial).mono ?_
  exact fun r _ _ hr _ _ hskipped => absurd hskipped hr.1

section Delivery
variable {identity : NamespaceIdentity} {work : Act JobState}

theorem skips_takeLock (hwork : Work identity false work) (hunheld : Unheld (.delivery n) w) (engine : String) (now : ℕ) :
    Skips n (takeLock (.delivery n) identity engine work now) w := by
  refine Task.Keeps.modify fun w₁ h₁ _ _ => ⟨trivial, fun j _ => ⟨fun _ => id, fun _ => id⟩, ?_⟩
  refine Task.Keeps.update fun w₂ h₂ _ _ => ⟨trivial, (open_touches w₂).1.leaves, ?_⟩
  have hunheld₂ : Unheld (.delivery n) w₂ := h₂.unheld (h₁.unheld hunheld)
  cases w₂.open_.1 with
  | none => exact fun w₃ _ _ n' _ hskipped => by cases hskipped
  | some f =>
    refine Task.Keeps.update fun w₃ h₃ _ hallowed => ⟨trivial, (flock_touches _ f w₃).1.leaves, ?_⟩
    cases hheld : w₃.held f with
    | none =>
      have hflock : (w₃.flock (.delivery n) f).1 = true := by rw [World.flock, hheld]
      rw [hflock]
      exact skips_of_decided ((touching_runLocked hwork n engine now).ensure (touching_unlock _ f))
    | some holder =>
      have hflock : w₃.flock (.delivery n) f = (false, { w₃ with refused := w₃.refused ++ [(.delivery n, holder)] }) := by
        rw [World.flock, hheld]
      rw [hflock] at hallowed ⊢
      have hrecord : (.delivery n, holder) ∈ w₃.refused ++ [(.delivery n, holder)] := List.mem_append_right _ List.mem_cons_self
      obtain ⟨k, rfl⟩ := hallowed n holder hrecord
      have hkn : k ≠ n := by
        rintro rfl
        have hheld₂ := h₃.mine f hheld
        rw [open_held] at hheld₂
        exact hunheld₂ f hheld₂
      refine Task.Keeps.read (fun _ _ _ => Leaves.refl _ _) fun w₄ h₄ _ => ?_
      cases w₄.dir.result with
      | some state => exact fun w₅ _ _ n' _ hskipped => by cases hskipped
      | none =>
        intro w₅ h₅ _ n' hn' _
        cases hn'
        exact ⟨k, hkn, h₅.refused _ (h₄.refused _ hrecord)⟩

theorem skips_runPolar (hwork : Work identity false work) (hunheld : Unheld (.delivery n) w) (jobId : String)
    (message : Message) (engine : String) (now : ℕ) :
    Skips n (runPolar jobId (.delivery n) message identity engine work now) w := by
  unfold runPolar
  split
  · exact skips_takeLock hwork hunheld engine now
  · split
    · exact fun w₁ _ _ n' _ hskipped => by cases hskipped
    · refine Task.Keeps.read (fun _ _ _ => Leaves.refl _ _) fun w₁ h₁ _ => ?_
      split
      · refine skips_of_decided (touching_isCancelled fun cancelled => ?_)
        cases cancelled <;> exact fun h => by cases h
      · split
        · exact fun w₂ _ _ n' _ hskipped => by cases hskipped
        · exact skips_takeLock hwork (h₁.unheld hunheld) engine now

end Delivery

theorem refusal_terms (jobId : String) :
    Actors.Terms (company jobId fun _ _ => True) Unobstructed (fun _ => True) Leaves Unheld Behind where
  refl := Leaves.refl
  trans _ _ _ _ h h' := ⟨fun f hf => h.mine f (h'.mine f hf), fun x hx => h'.refused x (h.refused x hx)⟩
  waits _ _ _ hrely h := hrely.unheld h
  lasts _ _ _ _ hrely _ h := h.lasts hrely.refused
  dies _ _ _ := ⟨trivial, fun _ _ => ⟨fun _ hf => dies_held hf, fun _ => id⟩⟩
  around _ _ _ hchanges := by
    cases hchanges
    exact ⟨trivial, fun j => ⟨fun _ => id, fun _ => id⟩⟩
  keeps i c w hstarts _ hunheld := by
    obtain ⟨hmakes, -⟩ := hstarts
    cases i with
    | delivery n =>
      cases hmakes with
      | deliver n works => exact skips_runPolar works hunheld jobId _ _ _
    | _ =>
      have hacts := touching_program jobId hmakes fun n hn => by cases hn
      refine (hacts.keeps (P := fun _ => True) (fun _ _ _ _ _ => trivial) (fun _ _ _ _ ht => ⟨trivial, ht.leaves, trivial⟩) trivial).mono ?_
      exact fun r _ _ _ n hn => by cases hn

/-! ## The only delivery of a pending job -/

structure Waiting (message : Message) (w : World) : Prop where
  made : w.made = true
  uncancelled : w.dir.cancelled = false
  receipt : w.cancelReceipt = false
  result : w.dir.result = none
  status : w.dir.status.any (fun status => live status.state) = true
  request : message.executionId ≠ none → w.dir.request = some message.request

theorem Waiting.looks {message : Message} (h : Waiting message w) (hl : Looks w w') : Waiting message w' := by
  refine ⟨hl.made.trans h.made, ?_, hl.receipt.trans h.receipt, ?_, ?_, fun hid => ?_⟩
  · rw [hl.dir]
    exact h.uncancelled
  · rw [hl.dir]
    exact h.result
  · rw [hl.dir]
    exact h.status
  · rw [hl.dir]
    exact h.request hid

/-- Only one delivery takes the lock; until it is inside, the job waits for it. -/
structure Alone (n : ℕ) (message : Message) (w : World) : Prop where
  lock : ∀ f k, w.held f = some (.delivery k) → k = n
  waiting : w.entered = [] → Waiting message w

structure Lets (n : ℕ) (i : Actor) (w w' : World) : Prop where
  entered : w.entered ≠ [] → w'.entered ≠ []
  mine : i = .delivery n → ∀ f, w'.held f = some i → w.held f = some i
  mono : i = .delivery n → ∀ j ∈ w.entered, j ∈ w'.entered
  owner : i = .delivery n → w.entered = [] → w'.entered = [] ∧ w'.dir.owner = w.dir.owner

theorem Lets.refl (n : ℕ) (i : Actor) (w : World) : Lets n i w w :=
  ⟨id, fun _ _ => id, fun _ _ => id, fun _ hnone => ⟨hnone, rfl⟩⟩

theorem Lets.trans {w'' : World} (h : Lets n i w w') (h' : Lets n i w' w'') : Lets n i w w'' := by
  refine ⟨fun hw => h'.entered (h.entered hw), fun hi f hf => h.mine hi f (h'.mine hi f hf),
    fun hi j hj => h'.mono hi j (h.mono hi j hj), fun hi hnone => ?_⟩
  obtain ⟨hnone', howner⟩ := h.owner hi hnone
  obtain ⟨hnone'', howner'⟩ := h'.owner hi hnone'
  exact ⟨hnone'', howner'.trans howner⟩

variable {message : Message}

theorem Touches.entered_ne (h : Touches i w w') (hentered : w.entered ≠ []) : w'.entered ≠ [] := by
  obtain hsame | ⟨-, hadded⟩ := h.entered
  · rwa [hsame]
  · rw [hadded]
    exact List.append_ne_nil_of_left_ne_nil hentered _

theorem Touches.lock (h : Touches i w w') (halone : ∀ f k, w.held f = some (.delivery k) → k = n)
    (hi : ∀ k, i = .delivery k → k = n) (f k : ℕ) (hheld : w'.held f = some (.delivery k)) : k = n := by
  by_cases hself : Actor.delivery k = i
  · exact hi k hself.symm
  · exact halone f k (h.others f _ hself hheld)

theorem Alone.late (h : Alone n message w) (hi : ∀ k, i = .delivery k → k = n) (hentered : w.entered ≠ [])
    (ht : Touches i w w') : Alone n message w' ∧ (∀ j, j ≠ i → Lets n j w w') ∧ w'.entered ≠ [] := by
  have hlate := ht.entered_ne hentered
  refine ⟨⟨ht.lock h.lock hi, fun hnone => absurd hnone hlate⟩, fun j hj => ⟨fun _ => hlate,
    fun _ f => ht.others f j hj, fun _ k hk => ?_, fun _ hnone => absurd hnone hentered⟩, hlate⟩
  obtain hsame | ⟨-, hadded⟩ := ht.entered
  · rwa [hsame]
  · rw [hadded]
    exact List.mem_append_left _ hk

theorem Alone.looks (h : Alone n message w) (hi : ∀ k, i ≠ .delivery k) (ht : Touches i w w') (hl : Looks w w') :
    Alone n message w' ∧ ∀ j, j ≠ i → Lets n j w w' := by
  have hsame : w'.entered = w.entered := by
    obtain hsame | ⟨⟨k, hk⟩, -⟩ := ht.entered
    · exact hsame
    · exact absurd hk (hi k)
  refine ⟨⟨ht.lock h.lock fun k hk => absurd hk (hi k), fun hnone => ?_⟩, fun j hj => ⟨ht.entered_ne,
    fun _ f => ht.others f j hj, fun _ k hk => ?_, fun _ hnone => ⟨hsame.trans hnone, ?_⟩⟩⟩
  · exact (h.waiting (hsame.symm.trans hnone)).looks hl
  · rwa [hsame]
  · rw [hl.dir]

abbrev Watched {α : Type} (n : ℕ) (message : Message) (i : Actor) (Q : Except Raised α → World → Prop) (t : Act α)
    (w : World) : Prop :=
  t.Keeps Unobstructed (Alone n message) (Lets n i) (fun w w' => ∀ j, j ≠ i → Lets n j w w') Q w

theorem watched_late {α : Type} {Q : Except Raised α → Prop} {t : Act α} (h : Touching i Q t)
    (hi : ∀ k, i = .delivery k → k = n) (hentered : w.entered ≠ []) :
    Watched n message i (fun r w' => Q r ∧ w'.entered ≠ []) t w :=
  h.keeps (P := fun w => w.entered ≠ []) (fun _ _ hrely _ => hrely.entered) (fun _ _ halone hlate ht => halone.late hi hlate ht) hentered

theorem watched_looking {α : Type} {t : Act α} (h : Looking i t) (hi : ∀ k, i ≠ .delivery k) :
    Watched n message i (fun _ _ => True) t w := by
  refine (h.keeps (P := fun _ => True) (fun _ _ _ _ _ => trivial) (fun _ _ halone _ hacts => ?_) trivial).mono fun _ _ _ _ => trivial
  obtain ⟨halone', hlets⟩ := halone.looks hi hacts.1 hacts.2
  exact ⟨halone', hlets, trivial⟩

theorem watched_guard {body : Act Outcome} (hi : ∀ k, i ≠ .delivery k) (hbody : Touching i (fun _ => True) body) :
    Watched n message i (fun _ _ => True) (jobRetentionGuard i body) w := by
  have hlate (k : ℕ) (hk : i = .delivery k) : k = n := absurd hk (hi k)
  refine Task.Keeps.update fun w₁ _ halone₁ _ => ?_
  obtain ⟨halone₁', hlets₁⟩ := halone₁.looks hi (open_touches w₁).1 (open_touches (i := i) w₁).2
  refine ⟨halone₁', hlets₁, ?_⟩
  cases w₁.open_.1 with
  | none => exact fun _ _ _ => trivial
  | some f =>
    refine Task.Keeps.update fun w₂ _ halone₂ _ => ?_
    obtain ⟨halone₂', hlets₂⟩ := halone₂.looks hi (flock_touches i f w₂).1 (flock_touches i f w₂).2
    refine ⟨halone₂', hlets₂, ?_⟩
    cases (w₂.flock i f).1 with
    | false => exact fun _ _ _ => trivial
    | true =>
      refine Task.Keeps.ensure (Q := fun _ _ => True) (Lets.refl n i) (fun _ _ _ _ _ _ => trivial) ?_ fun r w₃ halone₃ _ => ?_
      · refine Task.Keeps.read (fun w j _ => Lets.refl n j w) fun w₃ _ halone₃ => ?_
        split
        · exact fun _ _ _ => trivial
        · rename_i hover
          have hentered : w₃.entered ≠ [] := fun hnone => hover (halone₃.waiting hnone).status
          refine (watched_late (Q := fun _ => True) (touching_read fun result => ?_) hlate hentered).mono fun _ _ _ _ => trivial
          split
          · trivial
          · exact hbody
      · refine fun w₄ h₄ halone₄ _ => ?_
        obtain ⟨halone₄', hlets₄⟩ := halone₄.looks hi (unlock_touches (i := i) f w₄).1 (unlock_touches (i := i) f w₄).2
        exact ⟨halone₄', hlets₄, fun _ _ _ => ⟨rfl, trivial⟩⟩

section OnlyDelivery
variable {identity : NamespaceIdentity} {work : Act JobState} {owner owner' : Option NamespaceIdentity}

def Before (owner : Option NamespaceIdentity) (w : World) : Prop := w.entered = [] ∧ w.dir.owner = owner

theorem Before.rely (h : Before owner w) (hrely : Lets n (.delivery n) w w') : Before owner w' := by
  obtain ⟨hnone, howner⟩ := hrely.owner rfl h.1
  exact ⟨hnone, howner.trans h.2⟩

theorem lets_of_other (hentered : w.entered ≠ [] → w'.entered ≠ []) (j : Actor) (hj : j ≠ .delivery n) : Lets n j w w' :=
  ⟨hentered, fun h => absurd h hj, fun h => absurd h hj, fun h => absurd h hj⟩

abbrev Enters {α : Type} (n : ℕ) (message : Message) (t : Act α) (w : World) : Prop :=
  Watched n message (.delivery n) (fun _ w' => .delivery n ∈ w'.entered) t w

theorem Alone.inside (h : Alone n message w) (hin : .delivery n ∈ w.entered) (ht : Touches (.delivery n) w w') :
    Alone n message w' ∧ (∀ j, j ≠ .delivery n → Lets n j w w') ∧ .delivery n ∈ w'.entered := by
  have hself : ∀ k, Actor.delivery n = .delivery k → k = n := fun k hk => (Actor.delivery.inj hk).symm
  obtain ⟨halone', hlets, -⟩ := h.late hself (List.ne_nil_of_mem hin) ht
  refine ⟨halone', hlets, ?_⟩
  obtain hsame | ⟨-, hadded⟩ := ht.entered
  · rwa [hsame]
  · rw [hadded]
    exact List.mem_append_left _ hin

theorem watched_inside {α : Type} {Q : Except Raised α → Prop} {t : Act α} (h : Touching (.delivery n) Q t)
    (hinside : .delivery n ∈ w.entered) :
    Watched n message (.delivery n) (fun r w' => Q r ∧ .delivery n ∈ w'.entered) t w :=
  h.keeps (P := fun w => .delivery n ∈ w.entered) (fun _ _ hrely _ => hrely.mono rfl _)
    (fun _ _ halone hin ht => halone.inside hin ht) hinside

theorem enters_execute (hwork : Work identity false work) : Enters n message (executeJob (.delivery n) work) w := by
  refine Task.Keeps.modify fun w₁ _ halone₁ _ => ?_
  have hne : w₁.entered ++ [.delivery n] ≠ [] := List.append_ne_nil_of_right_ne_nil _ (List.cons_ne_nil _ _)
  refine ⟨⟨halone₁.lock, fun hnone => absurd hnone hne⟩, lets_of_other fun _ => hne, ?_⟩
  refine (watched_inside ((touching_work hwork).ensure (touching_leave _)) ?_).mono fun _ _ _ h => h.2
  exact List.mem_append_right _ List.mem_cons_self

theorem watched_write {α : Type} {Q : Except Raised α → World → Prop} {g : JobDir → JobDir} {k : Unit → Act α}
    (hbefore : Before owner w) (hg : ∀ w, Waiting message w → Waiting message (w.mapDir g))
    (howner : ∀ d : JobDir, d.owner = owner → (g d).owner = owner')
    (hk : ∀ w', Before owner' w' → Watched n message (.delivery n) Q (k ()) w') :
    Watched n message (.delivery n) Q ((Task.modify fun w => w.mapDir g).bind k) w := by
  refine Task.Keeps.modify fun w₁ h₁ halone₁ _ => ?_
  have hbefore₁ := hbefore.rely h₁
  refine ⟨⟨halone₁.lock, fun hnone => hg w₁ (halone₁.waiting hnone)⟩, lets_of_other fun hne => hne, ?_⟩
  exact hk _ ⟨hbefore₁.1, howner _ hbefore₁.2⟩

theorem watched_recordOwner (hbefore : Before none w) :
    Watched n message (.delivery n) (fun r w' => r = .ok () ∧ Before (some identity) w') (recordExecutionOwner identity) w := by
  refine Task.Keeps.read (fun w j _ => Lets.refl n j w) fun w₁ h₁ _ => ?_
  have hbefore₁ := hbefore.rely h₁
  rw [hbefore₁.2, if_neg fun h => Bool.false_ne_true h.1]
  refine watched_write hbefore₁ (fun w h => ⟨rfl, h.uncancelled, h.receipt, h.result, h.status, h.request⟩) (fun _ _ => rfl)
    fun w₂ hbefore₂ => ?_
  refine watched_write (k := .done) hbefore₂ (fun w h => ⟨rfl, h.uncancelled, h.receipt, h.result, h.status, h.request⟩)
    (fun _ howner => howner) fun w₃ hbefore₃ => ?_
  exact fun w₄ h₄ _ => ⟨rfl, hbefore₃.rely h₄⟩

theorem watched_running (hbefore : Before owner w) (status : JobStatus) (hrunning : status.state = .running) (now : ℕ) :
    Watched n message (.delivery n) (fun r w' => r = .ok () ∧ Before owner w') (writeStatus status now) w := by
  refine Task.Keeps.read (fun w j _ => Lets.refl n j w) fun w₁ h₁ _ => ?_
  refine watched_write (k := .done) (hbefore.rely h₁) (fun w h => ⟨rfl, h.uncancelled, h.receipt, h.result, ?_, h.request⟩)
    (fun _ howner => howner) fun w₂ hbefore₂ => ?_
  · show live status.state = true
    rw [hrunning]
    rfl
  · exact fun w₃ h₃ _ => ⟨rfl, hbefore₂.rely h₃⟩

theorem enters_runOwned (hwork : Work identity false work) (hbefore : Before none w) (engine : String) (now : ℕ) :
    Enters n message (runOwned (.delivery n) identity engine work now) w := by
  refine (watched_recordOwner hbefore).bind (Lets.refl n _) (fun _ w₁ _ h₁ => ?_) fun e _ _ h => by cases h.1
  refine Task.Keeps.read (fun w j _ => Lets.refl n j w) fun w₂ h₂ _ => ?_
  have hbefore₂ := h₁.2.rely h₂
  refine Task.Keeps.bind (Q := fun r w' => r = .ok () ∧ Before (some identity) w') (Lets.refl n _) ?_ (fun _ w₃ _ _ => ?_)
    fun e _ _ h => by cases h.1
  · cases w₂.dir.status with
    | none => exact fun w₃ h₃ _ => ⟨rfl, hbefore₂.rely h₃⟩
    | some status => exact watched_running hbefore₂ _ rfl now
  · refine Task.Keeps.handle (Q := fun _ w' => .delivery n ∈ w'.entered) (Lets.refl n _) ?_ (fun _ _ _ h => h)
      fun e w₄ _ hinside => (watched_inside (touching_afterFailure _ engine now e) hinside).mono fun _ _ _ h => h.2
    refine (enters_execute hwork).bind (Lets.refl n _) (fun _ w₄ _ hinside => ?_) fun _ _ _ h => h
    exact fun w₅ h₅ _ => h₅.mono rfl _ hinside

theorem enters_runLocked (hwork : Work identity false work) (hbefore : Before none w) (engine : String) (now : ℕ) :
    Enters n message (runLocked (.delivery n) identity engine work now) w := by
  refine Task.Keeps.read (fun w j _ => Lets.refl n j w) fun w₁ h₁ halone₁ => ?_
  have hbefore₁ := hbefore.rely h₁
  rw [(halone₁.waiting hbefore₁.1).result]
  intro w₂ h₂ halone₂ _
  refine ⟨halone₂, fun j _ => Lets.refl n j w₂, ?_⟩
  have hbefore₂ := hbefore₁.rely h₂
  dsimp only
  rw [(halone₂.waiting hbefore₂.1).uncancelled]
  intro w₃ h₃ halone₃ _
  refine ⟨halone₃, fun j _ => Lets.refl n j w₃, ?_⟩
  have hbefore₃ := hbefore₂.rely h₃
  dsimp only
  rw [(halone₃.waiting hbefore₃.1).receipt]
  exact enters_runOwned hwork hbefore₃ engine now

theorem enters_takeLock (hwork : Work identity false work) (hbefore : Before none w) (hunheld : Unheld (.delivery n) w)
    (engine : String) (now : ℕ) : Enters n message (takeLock (.delivery n) identity engine work now) w := by
  refine Task.Keeps.modify fun w₁ h₁ halone₁ _ => ?_
  have hbefore₁ : Before none ({ w₁ with made := true } : World) := (hbefore.rely h₁ : Before none w₁)
  have hunheld₁ : Unheld (.delivery n) w₁ := fun f hf => hunheld f (h₁.mine rfl f hf)
  have hmade (hnone : w₁.entered = []) : Waiting message { w₁ with made := true } := by
    obtain ⟨-, huncancelled, hreceipt, hresult, hstatus, hrequest⟩ := halone₁.waiting hnone
    exact ⟨rfl, huncancelled, hreceipt, hresult, hstatus, hrequest⟩
  refine ⟨⟨halone₁.lock, hmade⟩, lets_of_other fun hne => hne, ?_⟩
  -- the directory is there, so the lock file opens
  refine Task.Keeps.update fun w₂ h₂ halone₂ _ => ?_
  have hbefore₂ : Before none w₂ := hbefore₁.rely h₂
  have hunheld₂ : Unheld (.delivery n) w₂.open_.2 := fun f hf => by
    rw [open_held] at hf
    exact hunheld₁ f (h₂.mine rfl f hf)
  obtain ⟨f, hopen⟩ := open_made (halone₂.waiting hbefore₂.1).made
  have hlooks := (open_touches (i := .delivery n) w₂).2
  have hentered₂ : w₂.open_.2.entered = w₂.entered := open_entered w₂
  refine ⟨⟨fun g k hg => ?_, fun hnone => (halone₂.waiting (hentered₂.symm.trans hnone)).looks hlooks⟩,
    lets_of_other fun hne => ?_, ?_⟩
  · rw [open_held] at hg
    exact halone₂.lock g k hg
  · rwa [hentered₂]
  have hbefore₂' : Before none w₂.open_.2 := ⟨hentered₂.trans hbefore₂.1, by rw [hlooks.dir]; exact hbefore₂.2⟩
  rw [hopen]
  -- and the lock is free: no other delivery takes it, and nobody else has it now
  refine Task.Keeps.update fun w₃ h₃ halone₃ hallowed => ?_
  have hbefore₃ : Before none ({ w₃ with held := Function.update w₃.held f (some (.delivery n)) } : World) :=
    (hbefore₂'.rely h₃ : Before none w₃)
  cases hheld : w₃.held f with
  | some holder =>
    have hflock : w₃.flock (.delivery n) f = (false, { w₃ with refused := w₃.refused ++ [(.delivery n, holder)] }) := by
      rw [World.flock, hheld]
    rw [hflock] at hallowed
    obtain ⟨k, rfl⟩ := hallowed n holder (List.mem_append_right _ List.mem_cons_self)
    rw [halone₃.lock f k hheld] at hheld
    exact absurd (h₃.mine rfl f hheld) (hunheld₂ f)
  | none =>
    have hflock : w₃.flock (.delivery n) f = (true, { w₃ with held := Function.update w₃.held f (some (.delivery n)) }) := by
      rw [World.flock, hheld]
    rw [hflock]
    have hlock : ∀ g k, Function.update w₃.held f (some (.delivery n)) g = some (.delivery k) → k = n := fun g k hg => by
      by_cases hgf : g = f
      · rw [hgf, Function.update_self] at hg
        exact (Actor.delivery.inj (Option.some.inj hg)).symm
      · exact halone₃.lock g k ((Function.update_of_ne hgf ..).symm.trans hg)
    have hwaiting (hnone : w₃.entered = []) :
        Waiting message { w₃ with held := Function.update w₃.held f (some (.delivery n)) } :=
      (halone₃.waiting hnone).looks ⟨rfl, rfl, rfl⟩
    refine ⟨⟨hlock, hwaiting⟩, lets_of_other fun hne => hne, ?_⟩
    refine Task.Keeps.ensure (Q := fun _ w' => .delivery n ∈ w'.entered) (Lets.refl n _)
      (fun _ _ _ hrely _ hinside => hrely.mono rfl _ hinside) ?_ fun r w₄ _ hinside => ?_
    · exact enters_runLocked hwork hbefore₃ engine now
    · exact watched_inside (touching_unlock _ f) hinside

theorem enters_runPolar (hwork : Work identity false work) (hbefore : Before none w) (hunheld : Unheld (.delivery n) w)
    {jobId : String} (hid : ∀ executionId, message.executionId = some executionId → executionId = jobId) (engine : String)
    (now : ℕ) : Enters n message (runPolar jobId (.delivery n) message identity engine work now) w := by
  unfold runPolar
  split
  · exact enters_takeLock hwork hbefore hunheld engine now
  · rename_i executionId hsome
    rw [if_neg (not_not.mpr (hid executionId hsome))]
    refine Task.Keeps.read (fun w j _ => Lets.refl n j w) fun w₁ h₁ halone₁ => ?_
    have hbefore₁ := hbefore.rely h₁
    have hregistered := (halone₁.waiting hbefore₁.1).request (by rw [hsome]; exact Option.some_ne_none _)
    rw [hregistered]
    dsimp only
    rw [if_neg (not_not.mpr rfl)]
    exact enters_takeLock hwork hbefore₁ (fun f hf => hunheld f (h₁.mine rfl f hf)) engine now

end OnlyDelivery

def OnlyDelivers (n : ℕ) (message : Message) (i : Actor) : Call → Prop
  | .deliver sent _ _ _ _ => i = .delivery n ∧ sent = message
  | .cancel _ _ => False
  | _ => True

def Unborn (n : ℕ) (i : Actor) (w : World) : Prop := i = .delivery n → Before none w ∧ Unheld i w

def Delivers (n : ℕ) (i : Actor) (_ : Except Raised Outcome) (w : World) : Prop := i = .delivery n → i ∈ w.entered

theorem delivery_terms {jobId : String} {n : ℕ} {message : Message}
    (hid : ∀ executionId, message.executionId = some executionId → executionId = jobId) :
    Actors.Terms (company jobId (OnlyDelivers n message)) Unobstructed (Alone n message) (Lets n) (Unborn n) (Delivers n) where
  refl := Lets.refl n
  trans _ _ _ _ h h' := h.trans h'
  waits i w w' hrely h hi := by
    obtain ⟨hbefore, hunheld⟩ := h hi
    refine ⟨?_, fun f hf => hunheld f (hrely.mine hi f hf)⟩
    rw [hi] at hrely
    exact hbefore.rely hrely
  lasts i r w w' hrely _ h hi := hrely.mono hi _ (h hi)
  dies i w h := by
    refine ⟨⟨fun f k hk => h.lock f k (dies_held hk), fun hnone => (h.waiting hnone).looks ⟨rfl, rfl, rfl⟩⟩, fun j hj => ?_⟩
    exact ⟨id, fun _ f hf => dies_held hf, fun _ _ => id, fun _ hnone => ⟨hnone, rfl⟩⟩
  around w w' h hchanges := by
    cases hchanges
    refine ⟨⟨h.lock, fun hnone => (h.waiting hnone).looks ⟨rfl, rfl, rfl⟩⟩, fun j => ?_⟩
    exact ⟨id, fun _ _ => id, fun _ _ => id, fun _ hnone => ⟨hnone, rfl⟩⟩
  keeps i c w hstarts halone hunborn := by
    obtain ⟨hmakes, honly⟩ := hstarts
    have hother {t : Act Outcome} (hi : ∀ k, i ≠ .delivery k) (h : Watched n message i (fun _ _ => True) t w) :
        Watched n message i (Delivers n i) t w := h.mono fun _ _ _ _ hn => absurd hn (hi n)
    cases hmakes with
    | deliver m works =>
      obtain ⟨hm, rfl⟩ := honly
      obtain rfl := Actor.delivery.inj hm
      obtain ⟨hbefore, hunheld⟩ := hunborn rfl
      exact (enters_runPolar works hbefore hunheld hid _ _).mono fun _ _ _ h _ => h
    | cancel => exact honly.elim
    | inspect m identity => exact hother (fun k hk => by cases hk) (watched_looking (looking_inspect _ identity) fun k hk => by cases hk)
    | strip m =>
      refine hother (fun k hk => by cases hk) (Task.Keeps.read (fun w j _ => Lets.refl n j w) fun w₁ _ _ => ?_)
      split
      · exact watched_guard (fun k hk => by cases hk) trivial
      · exact fun _ _ _ => trivial
    | delete m order =>
      refine hother (fun k hk => by cases hk) (Task.Keeps.read (fun w j _ => Lets.refl n j w) fun w₁ _ _ => ?_)
      split
      · exact watched_guard (fun k hk => by cases hk) (touching_removeTree _ order)
      · exact fun _ _ _ => trivial

/-! ## Who is skipped -/

def AtRest (a : Actors Actor Call World Raised Outcome) : Prop := a.Idle ∧ ∀ f, a.shared.held f = none

def Queued (message : Message) (a : Actors Actor Call World Raised Outcome) : Prop :=
  AtRest a ∧ Waiting message a.shared ∧ a.shared.entered = [] ∧ a.shared.dir.owner = none

/-- Runs in which no delivery meets a retention attempt or an inspection at the lock. -/
abbrev RunsUnobstructed (jobId : String) (may : Actor → Call → Prop) (init : Actors Actor Call World Raised Outcome → Prop) :
    Actors Actor Call World Raised Outcome → Prop :=
  Reachable init fun a a' => Actors.Step (company jobId may) a a' ∧ Unobstructed a'.shared

theorem skipped_behind_delivery (jobId : String) :
    (∀ a, RunsUnobstructed jobId (fun _ _ => True) AtRest a →
      ∀ n, (.delivery n, .ok .duplicateSkipped) ∈ a.returned → ∃ k, k ≠ n ∧ (.delivery n, .delivery k) ∈ a.shared.refused) ∧
    ∀ n message, (∀ executionId, message.executionId = some executionId → executionId = jobId) →
      ∀ a, RunsUnobstructed jobId (OnlyDelivers n message) (Queued message) a →
        ∀ r, (.delivery n, r) ∈ a.returned → .delivery n ∈ a.shared.entered := by
  refine ⟨fun a h n hskipped => ?_, fun n message hid a h r hreturned => ?_⟩
  · have hsound := Actors.sound_of_reachable (refusal_terms jobId) (fun a₀ h₀ => ⟨h₀.1, trivial, fun i f hf => ?_⟩) h
    · exact (hsound.returned _ _ hskipped).2.2 n rfl rfl
    · rw [h₀.2 f] at hf
      cases hf
  · have hsound := Actors.sound_of_reachable (delivery_terms (n := n) hid) (fun a₀ h₀ => ?_) h
    · exact (hsound.returned _ _ hreturned).2.2 rfl
    · obtain ⟨⟨hidle, hheld⟩, hwaiting, hentered, howner⟩ := h₀
      refine ⟨hidle, ⟨fun f k hf => ?_, fun _ => hwaiting⟩, fun i _ => ⟨⟨hentered, howner⟩, fun f hf => ?_⟩⟩
      · rw [hheld f] at hf
        cases hf
      · rw [hheld f] at hf
        cases hf

section Example

def queued : World :=
  { made := true, dir := { request := some "polar", status := some { state := .pending }, notStarted := true } }

def polar : Message := { executionId := some "job", request := "polar" }

def delivery : Call := .deliver polar here "openfoam" (.done .completed) 0

theorem delivery_makes (n : ℕ) : Makes (.delivery n) delivery := .deliver n (.returns false .completed)

theorem queued_start : Queued polar { shared := queued } :=
  ⟨⟨⟨fun _ => rfl, fun _ => rfl, rfl⟩, fun _ => rfl⟩, ⟨rfl, rfl, rfl, rfl, rfl, fun _ => rfl⟩, rfl, rfl⟩

def skippedRun : Actors Actor Call World Raised Outcome :=
  let only := company "job" (OnlyDelivers 0 polar)
  let guarded := (List.replicate 3 (.retention 0)).foldl Actors.turn (Actors.begin only { shared := queued } (.retention 0) .strip)
  let delivered := (List.replicate 6 (.delivery 0)).foldl Actors.turn (Actors.begin only guarded (.delivery 0) delivery)
  (List.replicate 3 (.retention 0)).foldl Actors.turn delivered

theorem skippedRun_reachable :
    Reachable (Queued polar) (Actors.Step (company "job" (OnlyDelivers 0 polar))) skippedRun := by
  have hstrip : (company "job" (OnlyDelivers 0 polar)).starts (.retention 0) .strip := ⟨.strip 0, trivial⟩
  have hdeliver : (company "job" (OnlyDelivers 0 polar)).starts (.delivery 0) delivery := ⟨delivery_makes 0, rfl, rfl⟩
  have hstripping := Actors.reachable_begin (P := fun _ => True) (.start queued_start) rfl hstrip trivial
  have hguarded := Actors.reachable_turns (P := fun _ => True) hstripping (List.replicate 3 (.retention 0)) fun _ _ => trivial
  have hdelivering := Actors.reachable_begin (P := fun _ => True) hguarded rfl hdeliver trivial
  have hdelivered := Actors.reachable_turns (P := fun _ => True) hdelivering (List.replicate 6 (.delivery 0)) fun _ _ => trivial
  have hrun := Actors.reachable_turns (P := fun _ => True) hdelivered (List.replicate 3 (.retention 0)) fun _ _ => trivial
  exact Actors.reachable_of_allowed (P := fun _ => True) hrun

/-- The only delivery of a pending job is consumed, nobody was inside, and nobody is left to do anything. -/
theorem only_delivery_skipped : ∃ a, Reachable (Queued polar) (Actors.Step (company "job" (OnlyDelivers 0 polar))) a ∧
    (.delivery 0, .ok .duplicateSkipped) ∈ a.returned ∧ a.shared.entered = [] ∧ ∀ n k, (.delivery n, .delivery k) ∉ a.shared.refused := by
  refine ⟨skippedRun, skippedRun_reachable, ?_, rfl, fun n k hrefused => ?_⟩
  · exact List.mem_cons_self
  · have hrecord : skippedRun.shared.refused = [(.delivery 0, .retention 0)] := rfl
    rw [hrecord, List.mem_singleton] at hrefused
    cases hrefused

theorem unobstructed_of_all (h : w.refused.all fun x => match x.2 with | .delivery _ => true | _ => false) : Unobstructed w := by
  intro n j hj
  have hdelivery := List.all_eq_true.mp h _ hj
  cases j with
  | delivery k => exact ⟨k, rfl⟩
  | _ => cases hdelivery

def deliveredRun : Actors Actor Call World Raised Outcome :=
  (List.replicate 18 (.delivery 0)).foldl Actors.turn
    (Actors.begin (company "job" (OnlyDelivers 0 polar)) { shared := queued } (.delivery 0) delivery)

theorem deliveredRun_runs : RunsUnobstructed "job" (OnlyDelivers 0 polar) (Queued polar) deliveredRun := by
  have hdeliver : (company "job" (OnlyDelivers 0 polar)).starts (.delivery 0) delivery := ⟨delivery_makes 0, rfl, rfl⟩
  have hbegun := Actors.reachable_begin (P := Unobstructed) (.start queued_start) rfl hdeliver (unobstructed_of_all rfl)
  exact Actors.reachable_turns hbegun _ fun n hn => unobstructed_of_all (by revert n; decide +kernel)

def duplicateRun : Actors Actor Call World Raised Outcome :=
  let anyone := company "job" fun _ _ => True
  let delivered := (List.replicate 14 (.delivery 0)).foldl Actors.turn
    (Actors.begin anyone { shared := queued } (.delivery 0) delivery)
  (List.replicate 6 (.delivery 1)).foldl Actors.turn (Actors.begin anyone delivered (.delivery 1) delivery)

theorem duplicateRun_runs : RunsUnobstructed "job" (fun _ _ => True) AtRest duplicateRun := by
  have hdeliver (n : ℕ) : (company "job" fun _ _ => True).starts (.delivery n) delivery := ⟨delivery_makes n, trivial⟩
  have hbegun := Actors.reachable_begin (P := Unobstructed) (.start queued_start.1) rfl (hdeliver 0) (unobstructed_of_all rfl)
  have hinside := Actors.reachable_turns hbegun (List.replicate 14 (.delivery 0)) fun n hn =>
    unobstructed_of_all (by revert n; decide +kernel)
  have hagain := Actors.reachable_begin hinside rfl (hdeliver 1) (unobstructed_of_all rfl)
  exact Actors.reachable_turns hagain _ fun n hn => unobstructed_of_all (by revert n; decide +kernel)

theorem duplicate_skipped_and_delivered :
    (∃ k, k ≠ 1 ∧ (.delivery 1, .delivery k) ∈ duplicateRun.shared.refused) ∧ .delivery 0 ∈ deliveredRun.shared.entered := by
  have hskipped := skipped_behind_delivery "job"
  refine ⟨hskipped.1 duplicateRun duplicateRun_runs 1 List.mem_cons_self, ?_⟩
  exact hskipped.2 0 polar (fun _ h => (Option.some.inj h).symm) deliveredRun deliveredRun_runs (.ok (.state .completed)) List.mem_cons_self

end Example

end XFoilFoam.Execution
