import XFoilFoam.Execution.Programs

/-! A job whose directory stays: one delivery at a time inside, none after a stop proof. -/
namespace XFoilFoam.Execution
open Submission (JobState)
set_option autoImplicit false

/-! ## The invariant, and what each actor relies on -/

/-- No delivery that looks will go on. -/
def Fenced (w : World) : Prop := w.dir.cancelled = true ∨ w.cancelReceipt = true ∨ w.dir.result.any terminal = true

/-- The proofs that say something for good. -/
def Final (p : StopProof) : Prop := p.executionStopped = true ∨ p.ownershipBasis = some .neverStartedCancellationFence

structure Safe (w : World) : Prop where
  file : ∀ f i, w.held f = some i → w.dir.lock = some f
  locked : ∀ i, w.inside i = true → ∃ f, w.held f = some i
  owned : ∀ identity, w.processes identity ≠ 0 → w.dir.owner = some identity
  recorded : w.entered ≠ [] → w.dir.owner ≠ none
  fenced : ∀ p ∈ w.proofs, Final p → Fenced w ∧ ∀ i, w.inside i = false
  stopped : ∀ p ∈ w.proofs, p.executionStopped = true → ∀ identity, w.processes identity = 0
  never : ∀ p ∈ w.proofs, p.ownershipBasis = some .neverStartedCancellationFence → w.entered = []

def Terminalized (w w' : World) : Prop :=
  w'.dir.result = w.dir.result ∨ w'.dir.cancelled = true ∧ w'.dir.result = some .cancelled

structure Rely (i : Actor) (w w' : World) : Prop where
  lock : ∀ f, w.dir.lock = some f → w'.dir.lock = some f
  mine : ∀ f, w'.held f = some i ↔ w.held f = some i
  inside : w'.inside i = w.inside i
  cancelled : w.dir.cancelled = true → w'.dir.cancelled = true
  receipt : w.cancelReceipt = true → w'.cancelReceipt = true
  fenced : Fenced w → Fenced w'
  proofs : ∀ p ∈ w.proofs, p ∈ w'.proofs
  under : ∀ f, w.held f = some i → Terminalized w w' ∧ w'.dir.owner = w.dir.owner ∧ w'.proofs = w.proofs

variable {i j : Actor} {w w' w'' : World} {f : ℕ}

theorem Rely.refl (i : Actor) (w : World) : Rely i w w :=
  ⟨fun _ => id, fun _ => Iff.rfl, rfl, id, id, id, fun _ => id, fun _ _ => ⟨.inl rfl, rfl, rfl⟩⟩

theorem Rely.trans (h : Rely i w w') (h' : Rely i w' w'') : Rely i w w'' := by
  refine ⟨fun f hf => h'.lock f (h.lock f hf), fun f => (h'.mine f).trans (h.mine f), h'.inside.trans h.inside,
    fun hc => h'.cancelled (h.cancelled hc), fun hr => h'.receipt (h.receipt hr), fun hf => h'.fenced (h.fenced hf),
    fun p hp => h'.proofs p (h.proofs p hp), fun f hf => ?_⟩
  obtain ⟨hresult, howner, hproofs⟩ := h.under f hf
  obtain ⟨hresult', howner', hproofs'⟩ := h'.under f ((h.mine f).mpr hf)
  refine ⟨?_, howner'.trans howner, hproofs'.trans hproofs⟩
  obtain hsame' | hover' := hresult'
  · obtain hsame | ⟨hcancelled, hover⟩ := hresult
    · exact .inl (hsame'.trans hsame)
    · exact .inr ⟨h'.cancelled hcancelled, hsame'.trans hover⟩
  · exact .inr hover'

/-- What the others see of an actor's own action. -/
abbrev Guar (i : Actor) (w w' : World) : Prop := ∀ j, j ≠ i → Rely j w w'

abbrev Kept {α : Type} (i : Actor) (Q : Except Raised α → World → Prop) (t : Act α) (w : World) : Prop :=
  t.Keeps (fun _ => True) Safe (Rely i) (Guar i) Q w

theorem Guar.refl (i : Actor) (w : World) : Guar i w w := fun j _ => Rely.refl j w

theorem Guar.of_held (hheld : w.held f = some i) (hsafe : Safe w) (hlock : w'.dir.lock = w.dir.lock) (hheld' : w'.held = w.held)
    (hinside : ∀ j, j ≠ i → w'.inside j = w.inside j) (hcancelled : w'.dir.cancelled = w.dir.cancelled)
    (hreceipt : w'.cancelReceipt = w.cancelReceipt) (hfenced : Fenced w → Fenced w')
    (hproofs : ∀ p ∈ w.proofs, p ∈ w'.proofs) :
    Guar i w w' := by
  intro j hj
  refine ⟨fun g hg => hlock.trans hg, fun g => by rw [hheld'], hinside j hj, fun h => hcancelled.trans h,
    fun h => hreceipt.trans h, hfenced, hproofs, fun g hg => ?_⟩
  have hsame : g = f := Option.some.inj ((hsafe.file g j hg).symm.trans (hsafe.file f i hheld))
  rw [hsame, hheld] at hg
  exact absurd (Option.some.inj hg) (Ne.symm hj)

/-! ## Steps outside the lock -/

theorem Safe.of_same (h : Safe w) (hlock : w'.dir.lock = w.dir.lock) (hheld : w'.held = w.held) (hinside : w'.inside = w.inside)
    (hprocesses : w'.processes = w.processes) (howner : w'.dir.owner = w.dir.owner) (hentered : w'.entered = w.entered)
    (hproofs : w'.proofs = w.proofs) (hfenced : Fenced w → Fenced w') : Safe w' := by
  refine ⟨?_, ?_, ?_, ?_, ?_, ?_, ?_⟩
  · rw [hheld, hlock]
    exact h.file
  · rw [hinside, hheld]
    exact h.locked
  · rw [hprocesses, howner]
    exact h.owned
  · rw [hentered, howner]
    exact h.recorded
  · rw [hproofs, hinside]
    exact fun p hp hfinal => (h.fenced p hp hfinal).imp hfenced id
  · rw [hproofs, hprocesses]
    exact h.stopped
  · rw [hproofs, hentered]
    exact h.never

theorem Safe.mapDir {g : JobDir → JobDir} (h : Safe w) (hlock : (g w.dir).lock = w.dir.lock) (howner : (g w.dir).owner = w.dir.owner)
    (hfenced : Fenced w → Fenced (w.mapDir g)) : Safe (w.mapDir g) :=
  h.of_same hlock rfl rfl rfl howner rfl rfl hfenced

theorem kept_read {α β : Type} {Q : Except Raised β → World → Prop} {g : World → α} {k : α → Act β}
    (h : ∀ w', Rely i w w' → Safe w' → Kept i Q (k (g w')) w') : Kept i Q ((Task.read g).bind k) w :=
  Task.Keeps.read (Guar.refl i) h

theorem kept_isCancelled {β : Type} {Q : Except Raised β → World → Prop} {k : Bool → Act β}
    (htrue : ∀ w', Rely i w w' → Safe w' → Fenced w' → Kept i Q (k true) w')
    (hfalse : ∀ w', Rely i w w' → Safe w' → w.dir.cancelled = false → w.cancelReceipt = false → Kept i Q (k false) w') :
    Kept i Q (isCancelled.bind k) w := by
  intro w₁ h₁ hsafe₁ _
  refine ⟨hsafe₁, Guar.refl i w₁, ?_⟩
  have hcancelled : w₁.dir.cancelled = false → w.dir.cancelled = false := fun hnot => by
    by_contra hwas
    rw [Bool.not_eq_false] at hwas
    rw [h₁.cancelled hwas] at hnot
    cases hnot
  dsimp only
  cases hmarked : w₁.dir.cancelled with
  | true => exact htrue w₁ h₁ hsafe₁ (.inl hmarked)
  | false =>
    intro w₂ h₂ hsafe₂ _
    refine ⟨hsafe₂, Guar.refl i w₂, ?_⟩
    have h₀₂ := h₁.trans h₂
    dsimp only
    cases hreceipt : w₂.cancelReceipt with
    | true => exact htrue w₂ h₀₂ hsafe₂ (.inr (.inl hreceipt))
    | false =>
      refine hfalse w₂ h₀₂ hsafe₂ (hcancelled hmarked) ?_
      by_contra hwas
      rw [Bool.not_eq_false] at hwas
      rw [h₀₂.receipt hwas] at hreceipt
      cases hreceipt

theorem open_cases (w : World) : (∃ file, w.open_ = (file, w) ∧ ∀ g, file = some g → w.dir.lock = some g) ∨
    w.dir.lock = none ∧ w.open_ =
      (some w.nextFile, { w with dir := { w.dir with lock := some w.nextFile }, nextFile := w.nextFile + 1 }) := by
  unfold World.open_
  split
  · exact .inl ⟨none, rfl, fun _ hnone => by cases hnone⟩
  · split
    · rename_i file hlock
      exact .inl ⟨some file, rfl, fun g hg => hg ▸ hlock⟩
    · rename_i hlock
      exact .inr ⟨hlock, rfl⟩

theorem kept_openLock {β : Type} {Q : Except Raised β → World → Prop} {k : Option ℕ → Act β}
    (h : ∀ file w', Rely i w w' → Safe w' → (∀ g, file = some g → w'.dir.lock = some g) → Kept i Q (k file) w') :
    Kept i Q (openLock.bind k) w := by
  refine Task.Keeps.update fun w₁ h₁ hsafe₁ _ => ?_
  obtain ⟨file, hopen, hfile⟩ | ⟨hlock, hopen⟩ := open_cases w₁
  · rw [hopen]
    exact ⟨hsafe₁, Guar.refl i w₁, h file w₁ h₁ hsafe₁ hfile⟩
  · rw [hopen]
    have hfree : ∀ g j, w₁.held g ≠ some j := fun g j hheld => by
      rw [hsafe₁.file g j hheld] at hlock
      cases hlock
    have hrely : ∀ j, Rely j w₁ { w₁ with
        dir := { w₁.dir with lock := some w₁.nextFile }, nextFile := w₁.nextFile + 1 } := fun j =>
      ⟨fun g hg => absurd (hlock.symm.trans hg) (Option.some_ne_none g).symm, fun _ => Iff.rfl, rfl, id, id, id, fun _ => id,
        fun _ _ => ⟨.inl rfl, rfl, rfl⟩⟩
    have hsafe : Safe { w₁ with dir := { w₁.dir with lock := some w₁.nextFile }, nextFile := w₁.nextFile + 1 } :=
      ⟨fun g j hheld => absurd hheld (hfree g j), hsafe₁.locked, hsafe₁.owned, hsafe₁.recorded, hsafe₁.fenced,
        hsafe₁.stopped, hsafe₁.never⟩
    exact ⟨hsafe, fun j _ => hrely j, h _ _ (h₁.trans (hrely i)) hsafe fun _ hg => hg⟩

/-! ## The lock -/

structure Free (i : Actor) (w : World) : Prop where
  unheld : ∀ g, w.held g ≠ some i
  outside : w.inside i = false

structure Holds (i : Actor) (f : ℕ) (w : World) : Prop where
  held : w.held f = some i
  outside : w.inside i = false

theorem Free.rely (h : Free i w) (hrely : Rely i w w') : Free i w' :=
  ⟨fun g hg => h.unheld g ((hrely.mine g).mp hg), hrely.inside.trans h.outside⟩

theorem Holds.rely (h : Holds i f w) (hrely : Rely i w w') : Holds i f w' :=
  ⟨(hrely.mine f).mpr h.held, hrely.inside.trans h.outside⟩

theorem Holds.nobody_inside (h : Holds i f w) (hsafe : Safe w) (j : Actor) : w.inside j = false := by
  by_contra hinside
  rw [Bool.not_eq_false] at hinside
  obtain ⟨g, hg⟩ := hsafe.locked j hinside
  have hsame : g = f := Option.some.inj ((hsafe.file g j hg).symm.trans (hsafe.file f i h.held))
  rw [hsame, h.held] at hg
  rw [← Option.some.inj hg, h.outside] at hinside
  cases hinside

theorem kept_tryLock {β : Type} {Q : Except Raised β → World → Prop} {k : Bool → Act β} (hlock : w.dir.lock = some f)
    (hfree : Free i w)
    (htaken : ∀ w', Safe w' → Holds i f w' → (Fenced w → Fenced w') → Kept i Q (k true) w')
    (hrefused : ∀ w', Safe w' → Free i w' → Kept i Q (k false) w') :
    Kept i Q ((tryLock i f).bind k) w := by
  refine Task.Keeps.update fun w₁ h₁ hsafe₁ _ => ?_
  have hfree₁ := hfree.rely h₁
  cases hheld : w₁.held f with
  | some holder =>
    have hflock : w₁.flock i f = (false, { w₁ with refused := w₁.refused ++ [(i, holder)] }) := by
      rw [World.flock, hheld]
    rw [hflock]
    have hrely : ∀ j, Rely j w₁ { w₁ with refused := w₁.refused ++ [(i, holder)] } := fun j =>
      ⟨fun _ => id, fun _ => Iff.rfl, rfl, id, id, id, fun _ => id, fun _ _ => ⟨.inl rfl, rfl, rfl⟩⟩
    have hsafe : Safe { w₁ with refused := w₁.refused ++ [(i, holder)] } :=
      hsafe₁.of_same rfl rfl rfl rfl rfl rfl rfl id
    exact ⟨hsafe, fun j _ => hrely j, hrefused _ hsafe (hfree₁.rely (hrely i))⟩
  | none =>
    have hflock : w₁.flock i f = (true, { w₁ with held := Function.update w₁.held f (some i) }) := by
      rw [World.flock, hheld]
    rw [hflock]
    have hsafe : Safe { w₁ with held := Function.update w₁.held f (some i) } := by
      refine ⟨fun g j hg => ?_, fun j hj => ?_, hsafe₁.owned, hsafe₁.recorded, hsafe₁.fenced, hsafe₁.stopped,
        hsafe₁.never⟩
      · by_cases hgf : g = f
        · rw [hgf]
          exact h₁.lock f hlock
        · exact hsafe₁.file g j ((Function.update_of_ne hgf ..).symm.trans hg)
      · obtain ⟨g, hg⟩ := hsafe₁.locked j hj
        have hgf : g ≠ f := fun heq => by
          rw [heq, hheld] at hg
          cases hg
        exact ⟨g, (Function.update_of_ne hgf ..).trans hg⟩
    refine ⟨hsafe, fun j hj => ⟨fun _ => id, fun g => ?_, rfl, id, id, id, fun _ => id, fun _ _ => ⟨.inl rfl, rfl, rfl⟩⟩,
      htaken _ hsafe ⟨Function.update_self .., hfree₁.outside⟩ h₁.fenced⟩
    show Function.update w₁.held f (some i) g = some j ↔ w₁.held g = some j
    by_cases hgf : g = f
    · rw [hgf, hheld, Function.update_self]
      exact iff_of_false (fun hsame => hj (Option.some.inj hsame).symm) fun hnone => by cases hnone
    · rw [Function.update_of_ne hgf]

theorem kept_unlock (h : Holds i f w) :
    Kept i (fun r w' => r = .ok () ∧ Free i w' ∧ ∀ p ∈ w.proofs, p ∈ w'.proofs) (unlock f) w := by
  intro w₁ h₁ hsafe₁ _
  have hheld₁ := (h.rely h₁).held
  have hother : ∀ g j, j ≠ i → (Function.update w₁.held f none g = some j ↔ w₁.held g = some j) := fun g j hj => by
    by_cases hgf : g = f
    · rw [hgf, Function.update_self, hheld₁]
      exact iff_of_false (fun hnone => by cases hnone) fun hsame => hj (Option.some.inj hsame).symm
    · rw [Function.update_of_ne hgf]
  have hfree : ∀ g, Function.update w₁.held f none g ≠ some i := fun g hg => by
    by_cases hgf : g = f
    · rw [hgf, Function.update_self] at hg
      cases hg
    · rw [Function.update_of_ne hgf] at hg
      exact hgf (Option.some.inj ((hsafe₁.file g i hg).symm.trans (hsafe₁.file f i hheld₁)))
  have hsafe : Safe { w₁ with held := Function.update w₁.held f none } := by
    refine ⟨fun g j hg => ?_, fun j hj => ?_, hsafe₁.owned, hsafe₁.recorded, hsafe₁.fenced, hsafe₁.stopped, hsafe₁.never⟩
    · have hji : j ≠ i := fun heq => hfree g (heq ▸ hg)
      exact hsafe₁.file g j ((hother g j hji).mp hg)
    · obtain ⟨g, hg⟩ := hsafe₁.locked j hj
      have hji : j ≠ i := fun heq => by
        rw [heq, (h.rely h₁).outside] at hj
        cases hj
      exact ⟨g, (hother g j hji).mpr hg⟩
  refine ⟨hsafe, fun j hj => ⟨fun _ => id, fun g => hother g j hj, rfl, id, id, id, fun _ => id, fun g hg => ⟨.inl rfl, rfl, rfl⟩⟩,
    fun w₂ h₂ _ => ⟨rfl, ?_, fun p hp => h₂.proofs p (h₁.proofs p hp)⟩⟩
  exact Free.rely (w := { w₁ with held := Function.update w₁.held f none }) ⟨hfree, (h.rely h₁).outside⟩ h₂

/-! ## Behind the lock -/

/-- What holds of a state behind the lock, whatever the others do and whatever the status says. -/
structure Stage (i : Actor) (f : ℕ) (S : World → Prop) : Prop where
  held : ∀ w, S w → w.held f = some i
  rely : ∀ w w', Rely i w w' → Safe w' → S w → S w'
  status : ∀ w status, S w → S (w.mapDir fun d => { d with status := status })

theorem holds_stage (i : Actor) (f : ℕ) : Stage i f (Holds i f) :=
  ⟨fun _ h => h.held, fun _ _ hrely _ h => h.rely hrely, fun _ _ h => ⟨h.held, h.outside⟩⟩

theorem fenced_mapDir {g : JobDir → JobDir} (hcancelled : (g w.dir).cancelled = w.dir.cancelled)
    (hover : w.dir.result.any terminal = true → (g w.dir).result.any terminal = true) (h : Fenced w) : Fenced (w.mapDir g) :=
  h.imp (fun hc => hcancelled.trans hc) (Or.imp id hover)

theorem Stage.writeStatus {S : World → Prop} (stage : Stage i f S) (h : S w) (status : JobStatus) (now : ℕ) :
    Kept i (fun r w' => r = .ok () ∧ S w') (writeStatus status now) w := by
  refine kept_read fun w₁ h₁ hsafe₁ => ?_
  intro w₂ h₂ hsafe₂ _
  have hS : S w₂ := stage.rely _ _ (h₁.trans h₂) hsafe₂ h
  refine ⟨hsafe₂.mapDir rfl rfl (fenced_mapDir rfl id), ?_, fun w₃ h₃ hsafe₃ => ⟨rfl, ?_⟩⟩
  · exact Guar.of_held (stage.held _ hS) hsafe₂ rfl rfl (fun _ _ => rfl) rfl rfl id fun _ => id
  · exact stage.rely _ _ h₃ hsafe₃ (stage.status _ _ hS)

theorem Holds.writeResult (h : Holds i f w) {state : JobState} (hstate : terminal state = true) :
    Kept i (fun r w' => r = .ok () ∧ Holds i f w') (writeResult state) w := by
  intro w₁ h₁ hsafe₁ _
  have hholds := h.rely h₁
  have hfenced : Fenced w₁ → Fenced (w₁.mapDir fun d => { d with result := some state }) := fenced_mapDir rfl fun _ => hstate
  refine ⟨hsafe₁.mapDir rfl rfl hfenced, ?_, fun w₂ h₂ _ => ⟨rfl, ?_⟩⟩
  · exact Guar.of_held hholds.held hsafe₁ rfl rfl (fun _ _ => rfl) rfl rfl hfenced fun _ => id
  · exact Holds.rely (w := w₁.mapDir fun d => { d with result := some state }) ⟨hholds.held, hholds.outside⟩ h₂

theorem Holds.terminalize (h : Holds i f w) :
    Kept i (fun r w' => (∃ b, r = .ok b ∧ (b = true → w'.dir.result = some .cancelled)) ∧ Holds i f w')
      terminalizeCancelledResult w := by
  refine kept_read fun w₁ h₁ hsafe₁ => ?_
  have hholds := h.rely h₁
  cases w₁.dir.result with
  | none => exact fun w₂ h₂ _ => ⟨⟨false, rfl, fun hb => by cases hb⟩, hholds.rely h₂⟩
  | some state =>
    dsimp only
    split
    · exact fun w₂ h₂ _ => ⟨⟨false, rfl, fun hb => by cases hb⟩, hholds.rely h₂⟩
    · intro w₂ h₂ hsafe₂ _
      have hholds₂ := hholds.rely h₂
      have hwritten : Holds i f (w₂.mapDir fun d => { d with result := some .cancelled }) := ⟨hholds₂.held, hholds₂.outside⟩
      have hfenced : Fenced w₂ → Fenced (w₂.mapDir fun d => { d with result := some .cancelled }) :=
        fenced_mapDir rfl fun _ => rfl
      refine ⟨hsafe₂.mapDir rfl rfl hfenced, ?_, fun w₃ h₃ _ => ⟨⟨true, rfl, fun _ => ?_⟩, ?_⟩⟩
      · exact Guar.of_held hholds₂.held hsafe₂ rfl rfl (fun _ _ => rfl) rfl rfl hfenced fun _ => id
      · obtain hsame | ⟨-, hover⟩ := (h₃.under f hwritten.held).1
        · exact hsame
        · exact hover
      · exact hwritten.rely h₃

/-- A delivery that goes on: nothing final was proved, and no result is over but by a cancellation. -/
structure Cleared (i : Actor) (f : ℕ) (w : World) : Prop extends Holds i f w where
  unproved : ∀ p ∈ w.proofs, ¬Final p
  running : w.dir.result.any terminal = true → w.dir.cancelled = true

structure Owned (i : Actor) (f : ℕ) (identity : NamespaceIdentity) (w : World) : Prop extends Cleared i f w where
  owner : w.dir.owner = some identity

/-- It is inside; only before it has published may the result be replaced by a partial one. -/
structure Inside (i : Actor) (f : ℕ) (identity : NamespaceIdentity) (published : Bool) (w : World) : Prop where
  held : w.held f = some i
  inside : w.inside i = true
  unproved : ∀ p ∈ w.proofs, ¬Final p
  owner : w.dir.owner = some identity
  running : published = false → w.dir.result.any terminal = true → w.dir.cancelled = true

theorem Rely.running (hrely : Rely i w w') (hheld : w.held f = some i)
    (h : w.dir.result.any terminal = true → w.dir.cancelled = true) (hover : w'.dir.result.any terminal = true) :
    w'.dir.cancelled = true := by
  obtain hsame | ⟨hcancelled, -⟩ := (hrely.under f hheld).1
  · rw [hsame] at hover
    exact hrely.cancelled (h hover)
  · exact hcancelled

theorem cleared_stage (i : Actor) (f : ℕ) : Stage i f (Cleared i f) := by
  refine ⟨fun _ h => h.held, fun w w' hrely _ h => ⟨h.toHolds.rely hrely, ?_, hrely.running h.held h.running⟩,
    fun _ _ h => ⟨⟨h.held, h.outside⟩, h.unproved, h.running⟩⟩
  rw [(hrely.under f h.held).2.2]
  exact h.unproved

theorem owned_stage (i : Actor) (f : ℕ) (identity : NamespaceIdentity) : Stage i f (Owned i f identity) := by
  refine ⟨fun _ h => h.held, fun w w' hrely hsafe h => ⟨(cleared_stage i f).rely w w' hrely hsafe h.toCleared, ?_⟩,
    fun w status h => ⟨(cleared_stage i f).status w status h.toCleared, h.owner⟩⟩
  exact (hrely.under f h.held).2.1.trans h.owner

theorem Inside.rely {identity : NamespaceIdentity} {published : Bool} (h : Inside i f identity published w)
    (hrely : Rely i w w') : Inside i f identity published w' := by
  obtain ⟨-, howner, hproofs⟩ := hrely.under f h.held
  refine ⟨(hrely.mine f).mpr h.held, hrely.inside.trans h.inside, ?_, howner.trans h.owner,
    fun hpublished => hrely.running h.held (h.running hpublished)⟩
  rw [hproofs]
  exact h.unproved

/-! ## A delivery -/

section Delivery
variable {identity : NamespaceIdentity} {published : Bool}

theorem Cleared.recordOwner (h : Cleared i f w) (identity : NamespaceIdentity) :
    Kept i (fun r w' => (r = .ok () → Owned i f identity w') ∧ Holds i f w') (recordExecutionOwner identity) w := by
  refine kept_read fun w₁ h₁ hsafe₁ => ?_
  have hcleared := (cleared_stage i f).rely _ _ h₁ hsafe₁ h
  split
  · exact fun w₂ h₂ _ => ⟨fun hraised => (by cases hraised), hcleared.toHolds.rely h₂⟩
  · rename_i hsame
    have howner : w₁.dir.owner = none ∨ w₁.dir.owner = some identity := by
      rw [not_and, not_not, Option.isSome_iff_ne_none] at hsame
      by_cases hnone : w₁.dir.owner = none
      · exact .inl hnone
      · exact .inr (hsame hnone)
    intro w₂ h₂ hsafe₂ _
    have hcleared₂ := (cleared_stage i f).rely _ _ h₂ hsafe₂ hcleared
    have howner₂ : w₂.dir.owner = none ∨ w₂.dir.owner = some identity := by
      rwa [(h₂.under f hcleared.held).2.1]
    have howned : Owned i f identity (w₂.mapDir fun d => { d with owner := some identity }) :=
      ⟨⟨⟨hcleared₂.held, hcleared₂.outside⟩, hcleared₂.unproved, hcleared₂.running⟩, rfl⟩
    -- processes there were in this namespace only
    have hsafe : Safe (w₂.mapDir fun d => { d with owner := some identity }) := by
      refine ⟨hsafe₂.file, hsafe₂.locked, fun other hother => ?_, fun _ hnone => (by cases hnone),
        fun p hp hfinal => absurd hfinal (hcleared₂.unproved p hp), hsafe₂.stopped, hsafe₂.never⟩
      have hbefore := hsafe₂.owned other hother
      obtain hnone | hidentity := howner₂
      · rw [hnone] at hbefore
        cases hbefore
      · exact hidentity.symm.trans hbefore
    refine ⟨hsafe, ?_, ?_⟩
    · exact Guar.of_held hcleared₂.held hsafe₂ rfl rfl (fun _ _ => rfl) rfl rfl id fun _ => id
    · intro w₃ h₃ hsafe₃ _
      have howned₃ := (owned_stage i f identity).rely _ _ h₃ hsafe₃ howned
      refine ⟨hsafe₃.mapDir rfl rfl (fenced_mapDir rfl id), ?_, fun w₄ h₄ hsafe₄ => ?_⟩
      · exact Guar.of_held howned₃.held hsafe₃ rfl rfl (fun _ _ => rfl) rfl rfl id fun _ => id
      · have hlast : Owned i f identity (w₃.mapDir fun d => { d with notStarted := false }) :=
          ⟨⟨⟨howned₃.held, howned₃.outside⟩, howned₃.unproved, howned₃.running⟩, howned₃.owner⟩
        have howned₄ := (owned_stage i f identity).rely _ _ h₄ hsafe₄ hlast
        exact ⟨fun _ => howned₄, howned₄.toHolds⟩

theorem Inside.does {published' : Bool} {effect : World → World} (h : Inside i f identity published w) (hsafe : Safe w)
    (hdoes : Does identity published published' effect) :
    Safe (effect w) ∧ Guar i w (effect w) ∧ Inside i f identity published' (effect w) := by
  cases hdoes with
  | reads => exact ⟨hsafe, Guar.refl i w, h⟩
  | starts =>
    refine ⟨⟨hsafe.file, hsafe.locked, fun other hother => ?_, hsafe.recorded, hsafe.fenced,
      fun p hp hstopped => absurd (.inl hstopped) (h.unproved p hp), hsafe.never⟩,
      Guar.of_held h.held hsafe rfl rfl (fun _ _ => rfl) rfl rfl id fun _ => id, h.held, h.inside, h.unproved, h.owner, h.running⟩
    by_cases hsame : other = identity
    · rw [hsame]
      exact h.owner
    · exact hsafe.owned other fun hzero => hother ((Function.update_of_ne hsame ..).trans hzero)
  | writesStatus =>
    exact ⟨hsafe.mapDir rfl rfl (fenced_mapDir rfl id), Guar.of_held h.held hsafe rfl rfl (fun _ _ => rfl) rfl rfl id fun _ => id,
      h.held, h.inside, h.unproved, h.owner, h.running⟩
  | publishesPartial =>
    have hfenced (hbefore : Fenced w) : Fenced (w.mapDir fun d => { d with result := some .running }) := by
      obtain hcancelled | hreceipt | hover := hbefore
      · exact .inl hcancelled
      · exact .inr (.inl hreceipt)
      · exact .inl (h.running rfl hover)
    exact ⟨hsafe.mapDir rfl rfl hfenced, Guar.of_held h.held hsafe rfl rfl (fun _ _ => rfl) rfl rfl hfenced fun _ => id,
      h.held, h.inside, h.unproved, h.owner, fun _ hover => by cases hover⟩
  | @publishes _ state ended =>
    have hfenced : Fenced w → Fenced (w.mapDir fun d => { d with result := some state }) := fenced_mapDir rfl fun _ => ended
    exact ⟨hsafe.mapDir rfl rfl hfenced, Guar.of_held h.held hsafe rfl rfl (fun _ _ => rfl) rfl rfl hfenced fun _ => id,
      h.held, h.inside, h.unproved, h.owner, fun hfalse => by cases hfalse⟩

theorem Inside.work {work : Act JobState} (hwork : Work identity published work) (h : Inside i f identity published w) :
    Kept i (fun _ w' => ∃ published, Inside i f identity published w') work w := by
  induction hwork generalizing w with
  | returns => exact fun w' hrely _ => ⟨_, h.rely hrely⟩
  | raises => exact fun w' hrely _ => ⟨_, h.rely hrely⟩
  | acts does _ ih =>
    intro w' hrely hsafe _
    obtain ⟨hsafe', hguar, hinside⟩ := (h.rely hrely).does hsafe does
    exact ⟨hsafe', hguar, ih w' hinside⟩

theorem Owned.execute {work : Act JobState} (hwork : Work identity false work) (h : Owned i f identity w) :
    Kept i (fun _ w' => Holds i f w') (executeJob i work) w := by
  intro w₁ h₁ hsafe₁ _
  have howned := (owned_stage i f identity).rely _ _ h₁ hsafe₁ h
  have henters : Inside i f identity false
      { w₁ with inside := Function.update w₁.inside i true, entered := w₁.entered ++ [i] } :=
    ⟨howned.held, Function.update_self .., howned.unproved, howned.owner, fun _ => howned.running⟩
  have hsafe : Safe { w₁ with inside := Function.update w₁.inside i true, entered := w₁.entered ++ [i] } := by
    refine ⟨hsafe₁.file, fun j hj => ?_, hsafe₁.owned, fun _ hnone => ?_, fun p hp hfinal => absurd hfinal (howned.unproved p hp),
      hsafe₁.stopped, fun p hp hnever => absurd (.inr hnever) (howned.unproved p hp)⟩
    · by_cases hji : j = i
      · exact ⟨f, hji ▸ howned.held⟩
      · exact hsafe₁.locked j ((Function.update_of_ne hji ..).symm.trans hj)
    · have howner := howned.owner
      rw [hnone] at howner
      cases howner
  refine ⟨hsafe, ?_, ?_⟩
  · exact Guar.of_held howned.held hsafe₁ rfl rfl (fun j hj => Function.update_of_ne hj ..) rfl rfl id fun _ => id
  refine (henters.work hwork).ensure (Rely.refl i) (fun _ w₂ w₃ hrely _ hholds => hholds.rely hrely)
    fun r w₂ hsafe₂ hinside => ?_
  obtain ⟨published, hinside⟩ := hinside
  intro w₃ h₃ hsafe₃ _
  have hinside₃ := hinside.rely h₃
  have hleaves : Holds i f { w₃ with inside := Function.update w₃.inside i false } :=
    ⟨hinside₃.held, Function.update_self ..⟩
  refine ⟨⟨hsafe₃.file, fun j hj => ?_, hsafe₃.owned, hsafe₃.recorded, fun p hp hfinal => absurd hfinal (hinside₃.unproved p hp),
    hsafe₃.stopped, hsafe₃.never⟩, ?_, fun w₄ h₄ _ => ⟨rfl, hleaves.rely h₄⟩⟩
  · by_cases hji : j = i
    · rw [hji] at hj
      exact absurd ((Function.update_self i false w₃.inside).symm.trans hj) Bool.false_ne_true
    · exact hsafe₃.locked j ((Function.update_of_ne hji ..).symm.trans hj)
  · exact Guar.of_held hinside₃.held hsafe₃ rfl rfl (fun j hj => Function.update_of_ne hj ..) rfl rfl id fun _ => id

theorem Holds.afterFailure (h : Holds i f w) (engine : String) (now : ℕ) (e : Raised) :
    Kept i (fun _ w' => Holds i f w') (afterFailure engine now e) w := by
  have hstatus (status : JobStatus) {w : World} (h : Holds i f w) := (holds_stage i f).writeStatus h status now
  cases e with
  | jobCancelled =>
    refine h.terminalize.bind (Rely.refl i) (fun terminalized w₁ hsafe₁ h₁ => ?_) fun e w' _ h' => h'.2
    obtain ⟨⟨b, hb, hcancelled⟩, hholds₁⟩ := h₁
    cases hb
    refine kept_read fun w₂ h₂ hsafe₂ => ?_
    have hholds₂ := hholds₁.rely h₂
    cases hresult : w₂.dir.result with
    | none =>
      refine kept_read fun w₃ h₃ hsafe₃ => ?_
      refine (hstatus _ (hholds₂.rely h₃)).bind (Rely.refl i) (fun _ w₄ _ h₄ => ?_) fun e w' _ h' => h'.2
      refine (h₄.2.writeResult rfl).bind (Rely.refl i) (fun _ w₅ _ h₅ => ?_) fun e w' _ h' => h'.2
      exact fun w₆ h₆ _ => h₅.2.rely h₆
    | some state =>
      dsimp only
      split
      · exact fun w₃ h₃ _ => hholds₂.rely h₃
      · rename_i hterminalized
        -- the result is the one just made terminal
        have hstate : terminal state = true := by
          have hwritten := hcancelled (by simpa using hterminalized)
          obtain hsame | ⟨-, hover⟩ := (h₂.under f hholds₁.held).1
          · rw [hsame, hwritten] at hresult
            cases hresult
            rfl
          · rw [hover] at hresult
            cases hresult
            rfl
        refine kept_read fun w₃ h₃ hsafe₃ => ?_
        refine (hstatus _ (hholds₂.rely h₃)).bind (Rely.refl i) (fun _ w₄ _ h₄ => ?_) fun e w' _ h' => h'.2
        refine (h₄.2.writeResult hstate).bind (Rely.refl i) (fun _ w₅ _ h₅ => ?_) fun e w' _ h' => h'.2
        exact fun w₆ h₆ _ => h₅.2.rely h₆
  | _ =>
    refine (hstatus _ h).bind (Rely.refl i) (fun _ w₁ _ h₁ => ?_) fun e w' _ h' => h'.2
    refine (h₁.2.writeResult rfl).bind (Rely.refl i) (fun _ w₂ _ h₂ => ?_) fun e w' _ h' => h'.2
    exact fun w₃ h₃ _ => h₂.2.rely h₃

variable {work : Act JobState}

theorem Cleared.runOwned (hwork : Work identity false work) (h : Cleared i f w) (engine : String) (now : ℕ) :
    Kept i (fun _ w' => Holds i f w') (runOwned i identity engine work now) w := by
  refine (h.recordOwner identity).bind (Rely.refl i) (fun _ w₁ hsafe₁ h₁ => ?_) fun e w' _ h' => h'.2
  have howned := h₁.1 rfl
  refine kept_read fun w₂ h₂ hsafe₂ => ?_
  have howned₂ := (owned_stage i f identity).rely _ _ h₂ hsafe₂ howned
  refine Task.Keeps.bind (Q := fun r w' => r = .ok () ∧ Owned i f identity w') (Rely.refl i) ?_ (fun _ w₃ hsafe₃ h₃ => ?_)
    fun e w' _ h' => by cases h'.1
  · cases w₂.dir.status with
    | none => exact fun w₃ h₃ hsafe₃ => ⟨rfl, (owned_stage i f identity).rely _ _ h₃ hsafe₃ howned₂⟩
    | some status => exact (owned_stage i f identity).writeStatus howned₂ _ now
  · refine Task.Keeps.handle (Q := fun _ w' => Holds i f w') (Rely.refl i) ?_ (fun _ _ _ h => h)
      fun e w' _ h' => h'.afterFailure engine now e
    refine (h₃.2.execute hwork).bind (Rely.refl i) (fun _ w₄ _ h₄ => ?_) fun _ _ _ h => h
    exact fun w₅ h₅ _ => h₄.rely h₅

theorem Holds.cancelBeforeExecution (h : Holds i f w) (now : ℕ) :
    Kept i (fun _ w' => Holds i f w') (cancelBeforeExecution now) w := by
  refine h.terminalize.bind (Rely.refl i) (fun _ w₁ _ h₁ => ?_) fun e w' _ h' => h'.2
  refine kept_read fun w₂ h₂ _ => ?_
  refine ((holds_stage i f).writeStatus (h₁.2.rely h₂) _ now).bind (Rely.refl i) (fun _ w₃ _ h₃ => ?_) fun e w' _ h' => h'.2
  exact fun w₄ h₄ _ => h₃.2.rely h₄

theorem Holds.runLocked (hwork : Work identity false work) (h : Holds i f w) (engine : String) (now : ℕ) :
    Kept i (fun _ w' => Holds i f w') (runLocked i identity engine work now) w := by
  refine kept_read fun w₁ h₁ hsafe₁ => ?_
  have hholds₁ := h.rely h₁
  cases hover : w₁.dir.result.filter terminal with
  | some state => exact fun w₂ h₂ _ => hholds₁.rely h₂
  | none =>
    have hrunning : w₁.dir.result.any terminal = false := by
      cases hresult : w₁.dir.result with
      | none => rfl
      | some state =>
        rw [hresult] at hover
        cases hstate : terminal state with
        | true =>
          rw [Option.filter_some, hstate] at hover
          cases hover
        | false => exact hstate
    refine kept_isCancelled (fun w₂ h₂ _ _ => (hholds₁.rely h₂).cancelBeforeExecution now) fun w₂ h₂ hsafe₂ hcancelled hreceipt => ?_
    refine Cleared.runOwned hwork ⟨hholds₁.rely h₂, fun p hp hfinal => ?_, ?_⟩ engine now
    · rw [(h₂.under f hholds₁.held).2.2] at hp
      obtain hmarked | hmarked | hterminal := (hsafe₁.fenced p hp hfinal).1
      · rw [hcancelled] at hmarked
        cases hmarked
      · rw [hreceipt] at hmarked
        cases hmarked
      · rw [hrunning] at hterminal
        cases hterminal
    · refine h₂.running hholds₁.held fun hover => ?_
      rw [hrunning] at hover
      cases hover

theorem Free.takeLock (hwork : Work identity false work) (h : Free i w) (engine : String) (now : ℕ) :
    Kept i (fun _ w' => Free i w') (takeLock i identity engine work now) w := by
  refine Task.Keeps.modify fun w₁ h₁ hsafe₁ _ => ?_
  have hsafe : Safe { w₁ with made := true } := hsafe₁.of_same rfl rfl rfl rfl rfl rfl rfl id
  have hfree₁ : Free i { w₁ with made := true } := ⟨(h.rely h₁).unheld, (h.rely h₁).outside⟩
  refine ⟨hsafe, fun j _ => ⟨fun _ => id, fun _ => Iff.rfl, rfl, id, id, id, fun _ => id, fun _ _ => ⟨.inl rfl, rfl, rfl⟩⟩, ?_⟩
  refine kept_openLock fun file w₂ h₂ hsafe₂ hfile => ?_
  have hfree₂ := hfree₁.rely h₂
  cases file with
  | none => exact fun w₃ h₃ _ => hfree₂.rely h₃
  | some g =>
    refine kept_tryLock (hfile g rfl) hfree₂ (fun w₃ hsafe₃ hholds₃ _ => ?_) fun w₃ hsafe₃ hfree₃ => ?_
    · refine (hholds₃.runLocked hwork engine now).ensure (Rely.refl i) (fun _ _ _ hrely _ hfree => hfree.rely hrely)
        fun r w₄ _ hholds₄ => ?_
      exact (kept_unlock hholds₄).mono fun _ _ _ h => ⟨h.1, h.2.1⟩
    · refine kept_read fun w₄ h₄ _ => ?_
      have hfree₄ := hfree₃.rely h₄
      cases w₄.dir.result with
      | none => exact fun w₅ h₅ _ => hfree₄.rely h₅
      | some state => exact fun w₅ h₅ _ => hfree₄.rely h₅

theorem Free.runPolar (hwork : Work identity false work) (h : Free i w) (jobId : String) (message : Message) (engine : String)
    (now : ℕ) : Kept i (fun _ w' => Free i w') (runPolar jobId i message identity engine work now) w := by
  unfold Execution.runPolar
  split
  · exact h.takeLock hwork engine now
  · split
    · exact fun w₁ h₁ _ => h.rely h₁
    · refine kept_read fun w₁ h₁ _ => ?_
      have hfree₁ := h.rely h₁
      split
      · refine kept_isCancelled (fun w₂ h₂ _ _ => ?_) fun w₂ h₂ _ _ _ => ?_
        · exact fun w₃ h₃ _ => (hfree₁.rely h₂).rely h₃
        · exact fun w₃ h₃ _ => (hfree₁.rely h₂).rely h₃
      · split
        · exact fun w₂ h₂ _ => hfree₁.rely h₂
        · exact hfree₁.takeLock hwork engine now

end Delivery

/-! ## An inspection -/

section Inspection
variable {identity : NamespaceIdentity} {fence : Fence} {basis : Basis}

def Recorded (r : Except Raised StopProof) (w : World) : Prop := ∀ p, r = .ok p → Final p → p ∈ w.proofs

theorem Recorded.rely {r : Except Raised StopProof} (h : Recorded r w) (hrely : Rely i w w') : Recorded r w' :=
  fun p hp hfinal => hrely.proofs p (h p hp hfinal)

theorem recorded_of_open {p : StopProof} (hstopped : p.executionStopped = false) (hbasis : p.ownershipBasis = none) :
    Recorded (.ok p) w := by
  intro p' hp hfinal
  cases hp
  obtain hstop | hnever := hfinal
  · rw [hstopped] at hstop
    cases hstop
  · rw [hbasis] at hnever
    cases hnever

theorem Holds.inspectProcesses (h : Holds i f w) (hfenced : Fenced w)
    (howner : w.dir.owner = none ∨ w.dir.owner = some identity)
    (hbasis : basis = .neverStartedCancellationFence → w.dir.owner = none) :
    Kept i (fun r w' => Holds i f w' ∧ Recorded r w') (inspectProcesses identity fence basis) w := by
  intro w₁ h₁ hsafe₁ _
  have hholds := h.rely h₁
  have howner₁ := (h₁.under f h.held).2.1
  dsimp only
  generalize hproof : ({ executionStopped := w₁.processes identity = 0, producerStopped := true, namespaceVerified := true, remaining := some (w₁.processes identity), error := if w₁.processes identity = 0 then none else some "Job child processes remain alive", fence := some fence, ownershipBasis := some basis } : StopProof) = proof
  have hstopped : proof.executionStopped = true → w₁.processes identity = 0 := by
    rw [← hproof]
    exact of_decide_eq_true
  have hnever : proof.ownershipBasis = some .neverStartedCancellationFence → basis = .neverStartedCancellationFence := by
    rw [← hproof]
    exact Option.some.inj
  have hsafe : Safe { w₁ with proofs := w₁.proofs ++ [proof] } := by
    refine ⟨hsafe₁.file, hsafe₁.locked, hsafe₁.owned, hsafe₁.recorded, fun p hp hfinal => ?_, fun p hp hstop => ?_,
      fun p hp hfinal => ?_⟩
    · obtain hold | hnew := List.mem_append.mp hp
      · exact hsafe₁.fenced p hold hfinal
      · exact ⟨h₁.fenced hfenced, hholds.nobody_inside hsafe₁⟩
    · obtain hold | hnew := List.mem_append.mp hp
      · exact hsafe₁.stopped p hold hstop
      · rw [List.mem_singleton.mp hnew] at hstop
        intro other
        by_contra hother
        have hsame := hsafe₁.owned other hother
        rw [howner₁] at hsame
        obtain hnone | hidentity := howner
        · rw [hnone] at hsame
          cases hsame
        · rw [hidentity] at hsame
          cases hsame
          exact hother (hstopped hstop)
    · obtain hold | hnew := List.mem_append.mp hp
      · exact hsafe₁.never p hold hfinal
      · rw [List.mem_singleton.mp hnew] at hfinal
        by_contra hentered
        exact hsafe₁.recorded hentered (howner₁.trans (hbasis (hnever hfinal)))
  refine ⟨hsafe, ?_, fun w₂ h₂ _ => ⟨?_, ?_⟩⟩
  · exact Guar.of_held hholds.held hsafe₁ rfl rfl (fun _ _ => rfl) rfl rfl id fun _ hp => List.mem_append_left _ hp
  · exact Holds.rely (w := { w₁ with proofs := w₁.proofs ++ [proof] }) ⟨hholds.held, hholds.outside⟩ h₂
  · rintro p hp -
    cases hp
    exact h₂.proofs proof (List.mem_append_right _ List.mem_cons_self)

theorem Holds.inspectLocked (h : Holds i f w) (hfenced : Fenced w) :
    Kept i (fun r w' => Holds i f w' ∧ Recorded r w') (inspectLocked identity fence) w := by
  refine kept_read fun w₁ h₁ hsafe₁ => ?_
  have hholds₁ := h.rely h₁
  have hfenced₁ := h₁.fenced hfenced
  cases howner : w₁.dir.owner with
  | some owner =>
    dsimp only
    split
    · exact fun w₂ h₂ _ => ⟨hholds₁.rely h₂, recorded_of_open rfl rfl⟩
    · rename_i hsame
      rw [not_not] at hsame
      exact hholds₁.inspectProcesses hfenced₁ (.inr (howner.trans (congrArg some hsame))) fun hbasis => by cases hbasis
  | none =>
    refine kept_read fun w₂ h₂ hsafe₂ => ?_
    split
    · exact fun w₃ h₃ _ => ⟨(hholds₁.rely h₂).rely h₃, fun p hp => by cases hp⟩
    · refine kept_read fun w₃ h₃ hsafe₃ => ?_
      have h₂₃ := h₂.trans h₃
      have hnone : w₃.dir.owner = none := (h₂₃.under f hholds₁.held).2.1.trans howner
      dsimp only
      split
      · exact fun w₄ h₄ _ => ⟨(hholds₁.rely h₂₃).rely h₄, recorded_of_open rfl rfl⟩
      · exact (hholds₁.rely h₂₃).inspectProcesses (h₂₃.fenced hfenced₁) (.inl hnone) fun _ => hnone

theorem Free.inspectFenced (h : Free i w) (hfenced : Fenced w) :
    Kept i (fun r w' => Free i w' ∧ Recorded r w') (inspectFenced i identity fence) w := by
  refine Task.Keeps.handle (Q := fun r w' => Free i w' ∧ Recorded r w') (Rely.refl i) ?_ (fun _ _ _ h => h)
    fun e w₁ _ h₁ w₂ h₂ _ => ⟨h₁.1.rely h₂, recorded_of_open rfl rfl⟩
  refine kept_openLock fun file w₁ h₁ _ hfile => ?_
  have hfree₁ := h.rely h₁
  cases file with
  | none => exact fun w₂ h₂ _ => ⟨hfree₁.rely h₂, fun p hp => by cases hp⟩
  | some g =>
    refine kept_tryLock (hfile g rfl) hfree₁ (fun w₂ _ hholds₂ hfenced₂ => ?_) fun w₂ _ hfree₂ => ?_
    · refine (hholds₂.inspectLocked (hfenced₂ (h₁.fenced hfenced))).ensure (Rely.refl i)
        (fun _ _ _ hrely _ hQ => ⟨hQ.1.rely hrely, hQ.2.rely hrely⟩) fun r w₃ _ hQ => ?_
      exact (kept_unlock hQ.1).mono fun _ _ _ hfree =>
        ⟨hfree.1, hfree.2.1, fun p hp hfinal => hfree.2.2 p (hQ.2 p hp hfinal)⟩
    · exact fun w₃ h₃ _ => ⟨hfree₂.rely h₃, recorded_of_open rfl rfl⟩

theorem Free.executionStopProof (h : Free i w) (identity : NamespaceIdentity) :
    Kept i (fun r w' => Free i w' ∧ Recorded r w') (executionStopProof i identity) w := by
  refine kept_isCancelled (fun w₁ h₁ _ hfenced => (h.rely h₁).inspectFenced hfenced) fun w₁ h₁ _ _ _ => ?_
  refine kept_read fun w₂ h₂ _ => ?_
  have hfree₂ := (h.rely h₁).rely h₂
  split
  · rename_i hover
    exact hfree₂.inspectFenced (.inr (.inr hover))
  · exact fun w₃ h₃ _ => ⟨hfree₂.rely h₃, recorded_of_open rfl rfl⟩

end Inspection

/-! ## All of them -/

theorem rely_mapDir {g : JobDir → JobDir} (hsafe : Safe w) (hlock : (g w.dir).lock = w.dir.lock)
    (howner : (g w.dir).owner = w.dir.owner) (hcancelled : w.dir.cancelled = true → (g w.dir).cancelled = true)
    (hresult : Terminalized w (w.mapDir g)) : Safe (w.mapDir g) ∧ ∀ j, Rely j w (w.mapDir g) := by
  have hfenced (h : Fenced w) : Fenced (w.mapDir g) := by
    obtain hmarked | hreceipt | hover := h
    · exact .inl (hcancelled hmarked)
    · exact .inr (.inl hreceipt)
    · obtain hsame | ⟨hmarked, -⟩ := hresult
      · exact .inr (.inr (hsame.symm ▸ hover))
      · exact .inl hmarked
  refine ⟨hsafe.mapDir hlock howner hfenced, fun j => ?_⟩
  exact ⟨fun g hg => hlock.trans hg, fun _ => Iff.rfl, rfl, hcancelled, id, hfenced, fun _ => id,
    fun _ _ => ⟨hresult, howner, rfl⟩⟩

theorem Free.mapDir {g : JobDir → JobDir} (h : Free i w) : Free i (w.mapDir g) := ⟨h.unheld, h.outside⟩

theorem Free.writeStatus (h : Free i w) (status : JobStatus) (now : ℕ) :
    Kept i (fun r w' => r = .ok () ∧ Free i w' ∧ (w.dir.cancelled = true → w'.dir.cancelled = true))
      (writeStatus status now) w := by
  refine kept_read fun w₁ h₁ _ => ?_
  intro w₂ h₂ hsafe₂ _
  obtain ⟨hsafe, hrely⟩ := rely_mapDir (g := fun d => { d with status := some (mergeStatus w₁.dir.status status now) })
    hsafe₂ rfl rfl id (.inl rfl)
  exact ⟨hsafe, fun j _ => hrely j, fun w₃ h₃ _ => ⟨rfl, ((h.rely h₁).rely h₂).mapDir.rely h₃,
    fun hcancelled => h₃.cancelled (h₂.cancelled (h₁.cancelled hcancelled))⟩⟩

theorem Free.markCancelled (h : Free i w) :
    Kept i (fun r w' => r = .ok () ∧ Free i w' ∧ w'.dir.cancelled = true) markCancelled w := by
  intro w₁ h₁ hsafe₁ _
  obtain ⟨hsafe, hrely⟩ := rely_mapDir (g := fun d => { d with cancelled := true }) hsafe₁ rfl rfl (fun _ => rfl) (.inl rfl)
  exact ⟨hsafe, fun j _ => hrely j, fun w₂ h₂ _ => ⟨rfl, (h.rely h₁).mapDir.rely h₂, h₂.cancelled rfl⟩⟩

theorem Free.terminalize (h : Free i w) (hcancelled : w.dir.cancelled = true) :
    Kept i (fun r w' => (∃ b, r = .ok b) ∧ Free i w') terminalizeCancelledResult w := by
  refine kept_read fun w₁ h₁ _ => ?_
  have hfree₁ := h.rely h₁
  cases w₁.dir.result with
  | none => exact fun w₂ h₂ _ => ⟨⟨false, rfl⟩, hfree₁.rely h₂⟩
  | some state =>
    dsimp only
    split
    · exact fun w₂ h₂ _ => ⟨⟨false, rfl⟩, hfree₁.rely h₂⟩
    · intro w₂ h₂ hsafe₂ _
      obtain ⟨hsafe, hrely⟩ := rely_mapDir (g := fun d => { d with result := some .cancelled }) hsafe₂ rfl rfl id
        (.inr ⟨h₂.cancelled (h₁.cancelled hcancelled), rfl⟩)
      exact ⟨hsafe, fun j _ => hrely j, fun w₃ h₃ _ => ⟨⟨true, rfl⟩, (hfree₁.rely h₂).mapDir.rely h₃⟩⟩

theorem Free.fenceStableSubmission (h : Free i w) (now : ℕ) :
    Kept i (fun _ w' => Free i w') (fenceStableSubmission now) w := by
  refine kept_read fun w₁ h₁ _ => kept_read fun w₂ h₂ _ => ?_
  have hfree₂ := (h.rely h₁).rely h₂
  refine Task.Keeps.bind (Q := fun _ w' => Free i w') (Rely.refl i) ?_ (fun _ w₃ _ hfree₃ => ?_) fun _ _ _ h => h
  · split
    · refine kept_read fun w₃ h₃ _ => ?_
      have hfree₃ := hfree₂.rely h₃
      split
      · exact fun w₄ h₄ _ => hfree₃.rely h₄
      · refine kept_read fun w₄ h₄ _ => ?_
        have hfree₄ := hfree₃.rely h₄
        split
        · exact fun w₅ h₅ _ => hfree₄.rely h₅
        · intro w₅ h₅ hsafe₅ _
          obtain ⟨hsafe, hrely⟩ := rely_mapDir (g := fun d => { d with notStarted := true }) hsafe₅ rfl rfl id (.inl rfl)
          exact ⟨hsafe, fun j _ => hrely j, ((hfree₄.rely h₅).mapDir.writeStatus _ now).mono fun _ _ _ h => h.2.1⟩
    · refine kept_isCancelled (fun w₃ h₃ _ _ w₄ h₄ _ => (hfree₂.rely h₃).rely h₄)
        fun w₃ h₃ _ _ _ w₄ h₄ _ => (hfree₂.rely h₃).rely h₄
    · exact fun w₃ h₃ _ => hfree₂.rely h₃
  · refine hfree₃.markCancelled.bind (Rely.refl i) (fun _ w₄ _ h₄ => ?_) fun _ _ _ h => h.2.1
    intro w₅ h₅ hsafe₅ _
    have hrely : ∀ j, Rely j w₅ { w₅ with cancelReceipt := true } := fun j =>
      ⟨fun _ => id, fun _ => Iff.rfl, rfl, id, fun _ => rfl, fun _ => .inr (.inl rfl), fun _ => id,
        fun _ _ => ⟨.inl rfl, rfl, rfl⟩⟩
    exact ⟨hsafe₅.of_same rfl rfl rfl rfl rfl rfl rfl fun _ => .inr (.inl rfl), fun j _ => hrely j,
      fun w₆ h₆ _ => ((h₄.2.1.rely h₅).rely (hrely i)).rely h₆⟩

theorem Free.cancel (h : Free i w) (stable : Bool) (now : ℕ) :
    Kept i (fun _ w' => Free i w') (cancel stable now) w := by
  refine Task.Keeps.bind (Q := fun _ w' => Free i w') (Rely.refl i) ?_ (fun _ w₁ _ hfree₁ => ?_) fun _ _ _ h => h
  · split
    · exact h.fenceStableSubmission now
    · exact fun w₁ h₁ _ => h.rely h₁
  refine kept_read fun w₂ h₂ _ => ?_
  have hfree₂ := hfree₁.rely h₂
  split
  · exact fun w₃ h₃ _ => hfree₂.rely h₃
  refine hfree₂.markCancelled.bind (Rely.refl i) (fun _ w₃ _ h₃ => ?_) fun _ _ _ h => h.2.1
  refine kept_read fun w₄ h₄ _ => ?_
  refine ((h₃.2.1.rely h₄).writeStatus _ now).bind (Rely.refl i) (fun _ w₅ _ h₅ => ?_) fun _ _ _ h => h.2.1
  refine (h₅.2.1.terminalize (h₅.2.2 (h₄.cancelled h₃.2.2))).bind (Rely.refl i) (fun _ w₆ _ h₆ => ?_) fun _ _ _ h => h.2
  exact fun w₇ h₇ _ => h₆.2.rely h₇

theorem Free.stripJobDir (h : Free i w) : Kept i (fun _ w' => Free i w') (stripJobDir i) w := by
  refine kept_read fun w₁ h₁ _ => ?_
  have hfree₁ := h.rely h₁
  split
  · refine kept_openLock fun file w₂ h₂ _ hfile => ?_
    have hfree₂ := hfree₁.rely h₂
    cases file with
    | none => exact fun w₃ h₃ _ => hfree₂.rely h₃
    | some g =>
      refine kept_tryLock (hfile g rfl) hfree₂ (fun w₃ _ hholds₃ _ => ?_) fun w₃ _ hfree₃ w₄ h₄ _ => hfree₃.rely h₄
      refine Task.Keeps.ensure (Q := fun _ w' => Holds i g w') (Rely.refl i) (fun _ _ _ hrely _ hfree => hfree.rely hrely) ?_
        fun r w₄ _ hholds₄ => (kept_unlock hholds₄).mono fun _ _ _ h => ⟨h.1, h.2.1⟩
      refine kept_read fun w₄ h₄ _ => ?_
      have hholds₄ := hholds₃.rely h₄
      split
      · exact fun w₅ h₅ _ => hholds₄.rely h₅
      · refine kept_read fun w₅ h₅ _ => ?_
        have hholds₅ := hholds₄.rely h₅
        split
        · exact fun w₆ h₆ _ => hholds₅.rely h₆
        · exact fun w₆ h₆ _ => hholds₅.rely h₆
  · exact fun w₂ h₂ _ => hfree₁.rely h₂

theorem Safe.dies (h : Safe w) (i : Actor) : Safe (Execution.dies i w) ∧ ∀ j, j ≠ i → Rely j w (Execution.dies i w) := by
  have hheld {g : ℕ} {j : Actor} (hj : j ≠ i) : (Execution.dies i w).held g = some j ↔ w.held g = some j := by
    show (if w.held g = some i then none else w.held g) = some j ↔ w.held g = some j
    split
    · rename_i hi
      rw [hi]
      exact iff_of_false (fun hnone => by cases hnone) fun hsame => hj (Option.some.inj hsame).symm
    · rfl
  have hinside {j : Actor} (hj : j ≠ i) : (Execution.dies i w).inside j = w.inside j := Function.update_of_ne hj ..
  have houtside : (Execution.dies i w).inside i = false := by
    show Function.update w.inside i false i = false
    exact Function.update_self ..
  have hreleased (g : ℕ) : (Execution.dies i w).held g ≠ some i := by
    show (if w.held g = some i then none else w.held g) ≠ some i
    split
    · exact fun hnone => by cases hnone
    · assumption
  refine ⟨⟨fun g j hg => ?_, fun j hj => ?_, h.owned, h.recorded, fun p hp hfinal => ⟨(h.fenced p hp hfinal).1, fun j => ?_⟩,
    h.stopped, h.never⟩, fun j hj => ⟨fun _ => id, fun g => hheld hj, hinside hj, id, id, id, fun _ => id, fun _ _ => ⟨.inl rfl, rfl, rfl⟩⟩⟩
  · have hji : j ≠ i := fun heq => hreleased g (heq ▸ hg)
    exact h.file g j ((hheld hji).mp hg)
  · have hji : j ≠ i := fun heq => by
      rw [heq, houtside] at hj
      cases hj
    obtain ⟨g, hg⟩ := h.locked j ((hinside hji).symm.trans hj)
    exact ⟨g, (hheld hji).mpr hg⟩
  · by_cases hji : j = i
    · rw [hji]
      exact houtside
    · exact (hinside hji).trans ((h.fenced p hp hfinal).2 j)

theorem Safe.around (h : Safe w) (hchanges : Around w w') : Safe w' ∧ ∀ j, Rely j w w' := by
  cases hchanges with
  | @processes identity alive n =>
    refine ⟨⟨h.file, h.locked, fun other hother => ?_, h.recorded, h.fenced, fun p hp hstopped => ?_, h.never⟩, fun j =>
      ⟨fun _ => id, fun _ => Iff.rfl, rfl, id, id, id, fun _ => id, fun _ _ => ⟨.inl rfl, rfl, rfl⟩⟩⟩
    · by_cases hsame : other = identity
      · rw [hsame]
        exact h.owned identity alive
      · exact h.owned other fun hzero => hother ((Function.update_of_ne hsame ..).trans hzero)
    · exact absurd (h.stopped p hp hstopped identity) alive

def StaysThere (_ : Actor) : Call → Prop
  | .delete _ => False
  | _ => True

def Answers (i : Actor) (r : Except Raised Outcome) (w : World) : Prop :=
  Free i w ∧ ∀ n p, i = .inspector n → r = .ok (.proof p) → Final p → p ∈ w.proofs

theorem Answers.rely {r : Except Raised Outcome} (h : Answers i r w) (hrely : Rely i w w') : Answers i r w' :=
  ⟨h.1.rely hrely, fun n p hi hp hfinal => hrely.proofs p (h.2 n p hi hp hfinal)⟩

theorem Free.answers {r : Except Raised Outcome} (h : Free i w) (hi : ∀ n, i ≠ .inspector n) : Answers i r w :=
  ⟨h, fun n _ hn => absurd hn (hi n)⟩

theorem terms (jobId : String) : Actors.Terms (company jobId StaysThere) (fun _ => True) Safe Rely Free Answers where
  refl := Rely.refl
  trans _ _ _ _ h h' := h.trans h'
  waits _ _ _ hrely h := h.rely hrely
  lasts _ _ _ _ hrely _ h := h.rely hrely
  dies i _ h := h.dies i
  around _ _ h hchanges := h.around hchanges
  keeps i c w hstarts hsafe hfree := by
    obtain ⟨hmakes, hstays⟩ := hstarts
    cases hmakes with
    | deliver n works =>
      exact (hfree.runPolar works jobId _ _ _).mono fun r w' _ h => h.answers fun m hm => by cases hm
    | cancel n stable now =>
      exact (hfree.cancel stable now).mono fun r w' _ h => h.answers fun m hm => by cases hm
    | inspect n identity =>
      refine (hfree.executionStopProof identity).bind (Rely.refl _) (fun proof w₁ _ h₁ w₂ h₂ _ => ?_) fun e w₁ _ h₁ => ?_
      · refine ⟨h₁.1.rely h₂, fun m p hm hp hfinal => ?_⟩
        cases hp
        exact h₂.proofs proof (h₁.2 proof rfl hfinal)
      · exact ⟨h₁.1, fun m p hm hp => by cases hp⟩
    | strip n =>
      exact hfree.stripJobDir.mono fun r w' _ h => h.answers fun m hm => by cases hm
    | delete n order => exact hstays.elim

/-- Any files may be there, but nobody is at work and nothing has been done. -/
def Fresh (a : Actors Actor Call World Raised Outcome) : Prop :=
  a.Idle ∧ (∀ f, a.shared.held f = none) ∧ (∀ i, a.shared.inside i = false) ∧ (∀ identity, a.shared.processes identity = 0) ∧
    a.shared.entered = [] ∧ a.shared.proofs = []

theorem Fresh.safe {a : Actors Actor Call World Raised Outcome} (h : Fresh a) : Safe a.shared := by
  obtain ⟨-, hheld, hinside, hprocesses, hentered, hproofs⟩ := h
  refine ⟨fun f i hf => ?_, fun i hi => ?_, fun identity hidentity => absurd (hprocesses identity) hidentity,
    fun h => absurd hentered h, ?_, ?_, fun _ _ _ => hentered⟩
  · rw [hheld] at hf
    cases hf
  · rw [hinside] at hi
    cases hi
  · rw [hproofs]
    exact fun p hp => absurd hp List.not_mem_nil
  · rw [hproofs]
    exact fun p hp => absurd hp List.not_mem_nil

abbrev Runs (jobId : String) (a : Actors Actor Call World Raised Outcome) : Prop :=
  Reachable Fresh (Actors.Step (company jobId StaysThere)) a

theorem sound_of_runs {jobId : String} {a : Actors Actor Call World Raised Outcome} (h : Runs jobId a) :
    Actors.Sound (fun _ => True) Safe Rely Free Answers a := by
  obtain ⟨a₀, h₀, hrun⟩ := h
  refine Actors.sound_of_reachable (terms jobId) (fun a₀ h₀ => ?_)
    ⟨a₀, h₀, Relation.ReflTransGen.mono (fun _ _ hstep => ⟨hstep, trivial⟩) _ _ hrun⟩
  refine ⟨h₀.1, h₀.safe, fun i => ⟨fun f hf => ?_, h₀.2.2.1 i⟩⟩
  rw [h₀.2.1 f] at hf
  cases hf

section Example

def here : NamespaceIdentity := { bootId := "boot", pidNamespace := "pid:[4026531836]", uid := 1000 }

def cancelledWaiting : World :=
  { made := true, dir := { request := some "polar", cancelled := true, status := some { state := .pending }, notStarted := true } }

def inspected : Actors Actor Call World Raised Outcome :=
  (List.replicate 9 (.inspector 0)).foldl Actors.turn
    (Actors.begin (company "job" StaysThere) { shared := cancelledWaiting } (.inspector 0) (.inspect here))

theorem inspected_runs : Runs "job" inspected := by
  have hmay : (company "job" StaysThere).starts (.inspector 0) (.inspect here) := ⟨.inspect 0 here, trivial⟩
  have hfresh : Fresh { shared := cancelledWaiting } :=
    ⟨⟨fun _ => rfl, fun _ => rfl, rfl⟩, fun _ => rfl, fun _ => rfl, fun _ => rfl, rfl, rfl⟩
  have hbegun := Actors.reachable_begin (P := fun _ => True) (.start hfresh) rfl hmay trivial
  have hrun := Actors.reachable_turns (P := fun _ => True) hbegun (List.replicate 9 (.inspector 0)) fun _ _ => trivial
  exact Actors.reachable_of_allowed (P := fun _ => True) hrun

end Example

end XFoilFoam.Execution
