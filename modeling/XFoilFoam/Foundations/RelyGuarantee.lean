import XFoilFoam.Foundations.Task

/-! Programs that share a state and rely on what the others leave alone. -/
namespace XFoilFoam
set_option autoImplicit false

namespace Task
variable {σ ε α β : Type}

/-- `finally`: the cleanup comes after the program, whichever way that ends. -/
def ensure : Task σ ε α → Task σ ε Unit → Task σ ε α
  | done a, cleanup => cleanup.bind fun _ => done a
  | raised e, cleanup => cleanup.bind fun _ => raised e
  | act effect next, cleanup => act effect fun s => (next s).ensure cleanup

theorem run_ensure {t : Task σ ε α} {cleanup : Task σ ε Unit} {s s' s'' : σ} {r : Except ε α} {o : Except ε Unit}
    (h : t.run s = (r, s')) (hcleanup : cleanup.run s' = (o, s'')) :
    (t.ensure cleanup).run s = (o.bind fun _ => r, s'') := by
  induction t generalizing s with
  | done a =>
    cases h
    rw [ensure, run_bind, hcleanup]
    cases o <;> rfl
  | raised e =>
    cases h
    rw [ensure, run_bind, hcleanup]
    cases o <;> rfl
  | act effect next ih => exact ih s h

theorem Always.ensure {I : σ → Prop} {Q Q' : Except ε α → σ → Prop} {t : Task σ ε α} {cleanup : Task σ ε Unit} {s : σ}
    (h : t.Always I Q s)
    (hcleanup : ∀ r s', I s' → Q r s' →
      cleanup.Always I (fun o s'' => ∀ r', r' = o.bind (fun _ => r) → Q' r' s'') s') : (t.ensure cleanup).Always I Q' s := by
  induction t generalizing s with
  | done a =>
    refine (hcleanup (.ok a) s h.1 h.2).bind (fun _ s' hI hQ => ⟨hI, hQ _ rfl⟩) ?_
    exact fun e s' _ hQ => hQ _ rfl
  | raised e =>
    refine (hcleanup (.error e) s h.1 h.2).bind (fun _ s' hI hQ => ⟨hI, hQ _ rfl⟩) ?_
    exact fun e' s' _ hQ => hQ _ rfl
  | act effect next ih => exact ⟨h.1, ih s h.2⟩

/-- Others may act as `rely` says before each action.  Every action keeps the invariant and is one that the others expect,
unless it leads where no run goes. -/
def Keeps (allowed I : σ → Prop) (rely guar : σ → σ → Prop) (Q : Except ε α → σ → Prop) : Task σ ε α → σ → Prop
  | done a, s => ∀ s', rely s s' → I s' → Q (.ok a) s'
  | raised e, s => ∀ s', rely s s' → I s' → Q (.error e) s'
  | act effect next, s => ∀ s', rely s s' → I s' → allowed (effect s') →
    I (effect s') ∧ guar s' (effect s') ∧ (next s').Keeps allowed I rely guar Q (effect s')

section Keeps
variable {allowed I : σ → Prop} {rely guar : σ → σ → Prop} {s s' : σ}

theorem Keeps.stable {Q : Except ε α → σ → Prop} {t : Task σ ε α}
    (htrans : ∀ s₁ s₂ s₃, rely s₁ s₂ → rely s₂ s₃ → rely s₁ s₃) (h : t.Keeps allowed I rely guar Q s) (hs : rely s s') :
    t.Keeps allowed I rely guar Q s' := by
  cases t with
  | done a => exact fun s'' hs'' => h s'' (htrans _ _ _ hs hs'')
  | raised e => exact fun s'' hs'' => h s'' (htrans _ _ _ hs hs'')
  | act effect next => exact fun s'' hs'' => h s'' (htrans _ _ _ hs hs'')

theorem Keeps.later {Q : Except ε α → σ → Prop} {t : Task σ ε α} (hrefl : ∀ s, rely s s)
    (h : ∀ s', rely s s' → I s' → t.Keeps allowed I rely guar Q s') : t.Keeps allowed I rely guar Q s := by
  cases t with
  | done a => exact fun s' hs hI => h s' hs hI s' (hrefl s') hI
  | raised e => exact fun s' hs hI => h s' hs hI s' (hrefl s') hI
  | act effect next => exact fun s' hs hI => h s' hs hI s' (hrefl s') hI

theorem Keeps.mono {Q Q' : Except ε α → σ → Prop} {t : Task σ ε α} (h : t.Keeps allowed I rely guar Q s)
    (hQ : ∀ r s', I s' → Q r s' → Q' r s') : t.Keeps allowed I rely guar Q' s := by
  induction t generalizing s with
  | done a => exact fun s' hs hI => hQ _ _ hI (h s' hs hI)
  | raised e => exact fun s' hs hI => hQ _ _ hI (h s' hs hI)
  | act effect next ih =>
    intro s' hs hI hallowed
    obtain ⟨hI', hguar, hnext⟩ := h s' hs hI hallowed
    exact ⟨hI', hguar, ih s' hnext⟩

theorem Keeps.expected {guar' : σ → σ → Prop} {Q : Except ε α → σ → Prop} {t : Task σ ε α} (h : t.Keeps allowed I rely guar Q s)
    (hguar : ∀ s s', guar s s' → guar' s s') : t.Keeps allowed I rely guar' Q s := by
  induction t generalizing s with
  | done a => exact h
  | raised e => exact h
  | act effect next ih =>
    intro s' hs hI hallowed
    obtain ⟨hI', hguar', hnext⟩ := h s' hs hI hallowed
    exact ⟨hI', hguar _ _ hguar', ih s' hnext⟩

theorem Keeps.bind {Q : Except ε α → σ → Prop} {Q' : Except ε β → σ → Prop} {t : Task σ ε α} {k : α → Task σ ε β}
    (hrefl : ∀ s, rely s s) (h : t.Keeps allowed I rely guar Q s)
    (hok : ∀ a s', I s' → Q (.ok a) s' → (k a).Keeps allowed I rely guar Q' s')
    (herror : ∀ e s', I s' → Q (.error e) s' → Q' (.error e) s') : (t.bind k).Keeps allowed I rely guar Q' s := by
  induction t generalizing s with
  | done a => exact Keeps.later hrefl fun s' hs hI => hok a s' hI (h s' hs hI)
  | raised e => exact fun s' hs hI => herror e s' hI (h s' hs hI)
  | act effect next ih =>
    intro s' hs hI hallowed
    obtain ⟨hI', hguar, hnext⟩ := h s' hs hI hallowed
    exact ⟨hI', hguar, ih s' hnext⟩

theorem Keeps.handle {Q Q' : Except ε α → σ → Prop} {t : Task σ ε α} {k : ε → Task σ ε α} (hrefl : ∀ s, rely s s)
    (h : t.Keeps allowed I rely guar Q s) (hok : ∀ a s', I s' → Q (.ok a) s' → Q' (.ok a) s')
    (herror : ∀ e s', I s' → Q (.error e) s' → (k e).Keeps allowed I rely guar Q' s') :
    (t.handle k).Keeps allowed I rely guar Q' s := by
  induction t generalizing s with
  | done a => exact fun s' hs hI => hok a s' hI (h s' hs hI)
  | raised e => exact Keeps.later hrefl fun s' hs hI => herror e s' hI (h s' hs hI)
  | act effect next ih =>
    intro s' hs hI hallowed
    obtain ⟨hI', hguar, hnext⟩ := h s' hs hI hallowed
    exact ⟨hI', hguar, ih s' hnext⟩

theorem Keeps.ensure {Q Q' : Except ε α → σ → Prop} {t : Task σ ε α} {cleanup : Task σ ε Unit} (hrefl : ∀ s, rely s s)
    (hlasts : ∀ r s s', rely s s' → I s' → Q' r s → Q' r s') (h : t.Keeps allowed I rely guar Q s)
    (hcleanup : ∀ r s', I s' → Q r s' → cleanup.Keeps allowed I rely guar (fun o s'' => o = .ok () ∧ Q' r s'') s') :
    (t.ensure cleanup).Keeps allowed I rely guar Q' s := by
  induction t generalizing s with
  | done a =>
    refine Keeps.later hrefl fun s' hs hI => ?_
    exact (hcleanup (.ok a) s' hI (h s' hs hI)).bind hrefl
      (fun _ s₁ _ hQ s₂ hs₂ hI₂ => hlasts _ s₁ s₂ hs₂ hI₂ hQ.2) fun e _ _ hQ => by cases hQ.1
  | raised e =>
    refine Keeps.later hrefl fun s' hs hI => ?_
    exact (hcleanup (.error e) s' hI (h s' hs hI)).bind hrefl
      (fun _ s₁ _ hQ s₂ hs₂ hI₂ => hlasts _ s₁ s₂ hs₂ hI₂ hQ.2) fun e _ _ hQ => by cases hQ.1
  | act effect next ih =>
    intro s' hs hI hallowed
    obtain ⟨hI', hguar, hnext⟩ := h s' hs hI hallowed
    exact ⟨hI', hguar, ih s' hnext⟩

theorem Keeps.read {Q : Except ε β → σ → Prop} {f : σ → α} {k : α → Task σ ε β} (hguar : ∀ s, guar s s)
    (h : ∀ s', rely s s' → I s' → (k (f s')).Keeps allowed I rely guar Q s') :
    ((read f : Task σ ε α).bind k).Keeps allowed I rely guar Q s :=
  fun s' hs hI _ => ⟨hI, hguar s', h s' hs hI⟩

theorem Keeps.modify {Q : Except ε β → σ → Prop} {f : σ → σ} {k : Unit → Task σ ε β}
    (h : ∀ s', rely s s' → I s' → allowed (f s') →
      I (f s') ∧ guar s' (f s') ∧ (k ()).Keeps allowed I rely guar Q (f s')) :
    ((modify f : Task σ ε Unit).bind k).Keeps allowed I rely guar Q s := h

theorem Keeps.update {Q : Except ε β → σ → Prop} {f : σ → α × σ} {k : α → Task σ ε β}
    (h : ∀ s', rely s s' → I s' → allowed (f s').2 →
      I (f s').2 ∧ guar s' (f s').2 ∧ (k (f s').1).Keeps allowed I rely guar Q (f s').2) :
    ((update f : Task σ ε α).bind k).Keeps allowed I rely guar Q s := h

end Keeps

/-- Whatever it is answered, every action is one that `may` allows, and the answer is as `Q` says. -/
def Acts (may : σ → σ → Prop) (Q : Except ε α → Prop) : Task σ ε α → Prop
  | done a => Q (.ok a)
  | raised e => Q (.error e)
  | act effect next => ∀ s, may s (effect s) ∧ (next s).Acts may Q

section Acts
variable {may : σ → σ → Prop}

theorem Acts.mono {may' : σ → σ → Prop} {Q Q' : Except ε α → Prop} {t : Task σ ε α} (h : t.Acts may Q)
    (hmay : ∀ s s', may s s' → may' s s') (hQ : ∀ r, Q r → Q' r) : t.Acts may' Q' := by
  induction t with
  | done a => exact hQ _ h
  | raised e => exact hQ _ h
  | act effect next ih => exact fun s => ⟨hmay _ _ (h s).1, ih s (h s).2⟩

theorem Acts.bind {Q : Except ε α → Prop} {Q' : Except ε β → Prop} {t : Task σ ε α} {k : α → Task σ ε β}
    (h : t.Acts may Q) (hok : ∀ a, Q (.ok a) → (k a).Acts may Q') (herror : ∀ e, Q (.error e) → Q' (.error e)) :
    (t.bind k).Acts may Q' := by
  induction t with
  | done a => exact hok a h
  | raised e => exact herror e h
  | act effect next ih => exact fun s => ⟨(h s).1, ih s (h s).2⟩

theorem Acts.handle {Q Q' : Except ε α → Prop} {t : Task σ ε α} {k : ε → Task σ ε α} (h : t.Acts may Q)
    (hok : ∀ a, Q (.ok a) → Q' (.ok a)) (herror : ∀ e, Q (.error e) → (k e).Acts may Q') : (t.handle k).Acts may Q' := by
  induction t with
  | done a => exact hok a h
  | raised e => exact herror e h
  | act effect next ih => exact fun s => ⟨(h s).1, ih s (h s).2⟩

theorem Acts.ensure {Q : Except ε α → Prop} {t : Task σ ε α} {cleanup : Task σ ε Unit} (h : t.Acts may Q)
    (hcleanup : cleanup.Acts may fun r => r = .ok ()) : (t.ensure cleanup).Acts may Q := by
  induction t with
  | done a => exact hcleanup.bind (fun _ _ => h) fun e he => by cases he
  | raised e => exact hcleanup.bind (fun _ _ => h) fun e he => by cases he
  | act effect next ih => exact fun s => ⟨(h s).1, ih s (h s).2⟩

theorem Acts.read {Q : Except ε β → Prop} {f : σ → α} {k : α → Task σ ε β} (hmay : ∀ s, may s s)
    (h : ∀ a, (k a).Acts may Q) : ((read f : Task σ ε α).bind k).Acts may Q := fun s => ⟨hmay s, h (f s)⟩

theorem Acts.modify {Q : Except ε β → Prop} {f : σ → σ} {k : Unit → Task σ ε β} (hmay : ∀ s, may s (f s))
    (h : (k ()).Acts may Q) : ((modify f : Task σ ε Unit).bind k).Acts may Q := fun s => ⟨hmay s, h⟩

theorem Acts.update {Q : Except ε β → Prop} {f : σ → α × σ} {k : α → Task σ ε β} (hmay : ∀ s, may s (f s).2)
    (h : ∀ a, (k a).Acts may Q) : ((update f : Task σ ε α).bind k).Acts may Q := fun s => ⟨hmay s, h (f s).1⟩

theorem Acts.each {f : β → Task σ ε Unit} (h : ∀ b, (f b).Acts may fun r => r = .ok ()) (bs : List β) :
    (each f bs).Acts may fun r => r = .ok () := by
  induction bs with
  | nil => exact rfl
  | cons b bs ih => exact (h b).bind (fun _ _ => ih) fun e he => by cases he

theorem Acts.keeps {allowed I P : σ → Prop} {rely guar : σ → σ → Prop} {Q : Except ε α → Prop} {t : Task σ ε α} {s : σ}
    (h : t.Acts may Q) (hrely : ∀ s s', rely s s' → I s' → P s → P s')
    (hmay : ∀ s s', I s → P s → may s s' → I s' ∧ guar s s' ∧ P s') (hP : P s) :
    t.Keeps allowed I rely guar (fun r s' => Q r ∧ P s') s := by
  induction t generalizing s with
  | done a => exact fun s' hs hI => ⟨h, hrely s s' hs hI hP⟩
  | raised e => exact fun s' hs hI => ⟨h, hrely s s' hs hI hP⟩
  | act effect next ih =>
    intro s' hs hI _
    obtain ⟨hI', hguar, hP'⟩ := hmay s' (effect s') hI (hrely s s' hs hI hP) (h s').1
    exact ⟨hI', hguar, ih s' (h s').2 hP'⟩

end Acts

end Task

/-! ## Actors -/

/-- Actors on one shared state, each with one call in its life. -/
structure Actors (ι κ σ ε α : Type) where
  shared : σ
  calls : ι → Option κ := fun _ => none
  rest : ι → Option (Task σ ε α) := fun _ => none
  returned : List (ι × Except ε α) := []

/-- What a system of actors runs, who may start what, what a death changes, and what changes by itself. -/
structure Company (ι κ σ ε α : Type) where
  program : ι → κ → Task σ ε α
  starts : ι → κ → Prop
  dies : ι → σ → σ
  around : σ → σ → Prop

namespace Actors
variable {ι κ σ ε α : Type} [DecidableEq ι] {company : Company ι κ σ ε α} {a a' : Actors ι κ σ ε α}

/-- One actor starts, acts once, answers or dies, or the surroundings change; whatever comes next. -/
inductive Step (company : Company ι κ σ ε α) (a : Actors ι κ σ ε α) : Actors ι κ σ ε α → Prop where
  | start (i : ι) (c : κ) (fresh : a.calls i = none) (may : company.starts i c) :
    Step company a { a with
      calls := Function.update a.calls i (some c), rest := Function.update a.rest i (some (company.program i c)) }
  | act {i : ι} {effect next} (busy : a.rest i = some (.act effect next)) :
    Step company a { a with shared := effect a.shared, rest := Function.update a.rest i (some (next a.shared)) }
  | done {i : ι} {answer : α} (busy : a.rest i = some (.done answer)) :
    Step company a { a with rest := Function.update a.rest i none, returned := a.returned ++ [(i, .ok answer)] }
  | raised {i : ι} {e : ε} (busy : a.rest i = some (.raised e)) :
    Step company a { a with rest := Function.update a.rest i none, returned := a.returned ++ [(i, .error e)] }
  | crash {i : ι} (busy : (a.rest i).isSome) :
    Step company a { a with shared := company.dies i a.shared, rest := Function.update a.rest i none }
  | around {s : σ} (changes : company.around a.shared s) : Step company a { a with shared := s }

/-- The terms the actors work on: what each relies on, and what is true of one that has not started. -/
structure Terms (company : Company ι κ σ ε α) (allowed I : σ → Prop) (rely : ι → σ → σ → Prop) (unborn : ι → σ → Prop)
    (Q : ι → Except ε α → σ → Prop) : Prop where
  refl : ∀ i s, rely i s s
  trans : ∀ i s₁ s₂ s₃, rely i s₁ s₂ → rely i s₂ s₃ → rely i s₁ s₃
  keeps : ∀ i c s, company.starts i c → I s → unborn i s →
    (company.program i c).Keeps allowed I (rely i) (fun s s' => ∀ j, j ≠ i → rely j s s') (Q i) s
  dies : ∀ i s, I s → I (company.dies i s) ∧ ∀ j, j ≠ i → rely j s (company.dies i s)
  around : ∀ s s', I s → company.around s s' → I s' ∧ ∀ j, rely j s s'
  waits : ∀ i s s', rely i s s' → unborn i s → unborn i s'
  lasts : ∀ i r s s', rely i s s' → I s' → Q i r s → Q i r s'

/-- What holds between any two steps. -/
structure Sound (allowed I : σ → Prop) (rely : ι → σ → σ → Prop) (unborn : ι → σ → Prop)
    (Q : ι → Except ε α → σ → Prop) (a : Actors ι κ σ ε α) : Prop where
  invariant : I a.shared
  running : ∀ i t, a.rest i = some t →
    a.calls i ≠ none ∧ t.Keeps allowed I (rely i) (fun s s' => ∀ j, j ≠ i → rely j s s') (Q i) a.shared
  returned : ∀ i r, (i, r) ∈ a.returned → a.calls i ≠ none ∧ a.rest i = none ∧ Q i r a.shared
  waiting : ∀ i, a.calls i = none → unborn i a.shared

section Sound
variable {allowed I : σ → Prop} {rely : ι → σ → σ → Prop} {unborn : ι → σ → Prop} {Q : ι → Except ε α → σ → Prop}

theorem rest_of_update {i j : ι} {t : Task σ ε α} {o : Option (Task σ ε α)} (h : Function.update a.rest i o j = some t) :
    j = i ∧ o = some t ∨ j ≠ i ∧ a.rest j = some t := by
  by_cases hij : j = i
  · subst hij
    rw [Function.update_self] at h
    exact .inl ⟨rfl, h⟩
  · rw [Function.update_of_ne hij] at h
    exact .inr ⟨hij, h⟩

theorem Sound.answers {i : ι} {t : Task σ ε α} {r : Except ε α} (h : Sound allowed I rely unborn Q a)
    (busy : a.rest i = some t) (hQ : Q i r a.shared) : Sound allowed I rely unborn Q
      { a with rest := Function.update a.rest i none, returned := a.returned ++ [(i, r)] } := by
  refine ⟨h.invariant, fun j t' hj => ?_, fun j r' hj => ?_, h.waiting⟩
  · obtain ⟨-, hnone⟩ | ⟨-, hrest⟩ := rest_of_update hj
    · cases hnone
    · exact h.running j t' hrest
  · obtain hold | hnew := List.mem_append.mp hj
    · obtain ⟨hcalls, hrest, hQ'⟩ := h.returned j r' hold
      refine ⟨hcalls, ?_, hQ'⟩
      by_cases hij : j = i
      · rw [hij]
        exact Function.update_self ..
      · exact (Function.update_of_ne hij ..).trans hrest
    · rw [List.mem_singleton, Prod.mk.injEq] at hnew
      obtain ⟨rfl, rfl⟩ := hnew
      exact ⟨(h.running j t busy).1, Function.update_self .., hQ⟩

theorem Sound.moves {i : ι} {s : σ} {o : Option (Task σ ε α)} (terms : Terms company allowed I rely unborn Q)
    (h : Sound allowed I rely unborn Q a) (busy : (a.rest i).isSome) (hI : I s) (hothers : ∀ j, j ≠ i → rely j a.shared s)
    (hrest : ∀ t, o = some t → t.Keeps allowed I (rely i) (fun s s' => ∀ j, j ≠ i → rely j s s') (Q i) s) :
    Sound allowed I rely unborn Q { a with shared := s, rest := Function.update a.rest i o } := by
  obtain ⟨t, hbusy⟩ := Option.isSome_iff_exists.mp busy
  have hcalls := (h.running i t hbusy).1
  refine ⟨hI, fun j t' hj => ?_, fun j r hj => ?_, fun j hj => ?_⟩
  · obtain ⟨rfl, hnew⟩ | ⟨hij, hold⟩ := rest_of_update hj
    · exact ⟨hcalls, hrest t' hnew⟩
    · obtain ⟨hcalls', hkeeps⟩ := h.running j t' hold
      exact ⟨hcalls', hkeeps.stable (terms.trans j) (hothers j hij)⟩
  · obtain ⟨hcalls', hnone, hQ⟩ := h.returned j r hj
    have hij : j ≠ i := fun heq => by
      rw [heq, hbusy] at hnone
      cases hnone
    exact ⟨hcalls', (Function.update_of_ne hij ..).trans hnone, terms.lasts j r _ _ (hothers j hij) hI hQ⟩
  · have hij : j ≠ i := fun heq => hcalls (heq ▸ hj)
    exact terms.waits j _ _ (hothers j hij) (h.waiting j hj)

theorem Sound.step (terms : Terms company allowed I rely unborn Q) (h : Sound allowed I rely unborn Q a)
    (hstep : Step company a a') (hallowed : allowed a'.shared) : Sound allowed I rely unborn Q a' := by
  cases hstep with
  | start i c fresh may =>
    refine ⟨h.invariant, fun j t hj => ?_, fun j r hj => ?_, fun j hj => ?_⟩
    · obtain ⟨rfl, hnew⟩ | ⟨hij, hold⟩ := rest_of_update hj
      · cases hnew
        exact ⟨fun hnone => Option.some_ne_none c ((Function.update_self j (some c) a.calls).symm.trans hnone),
          terms.keeps j c _ may h.invariant (h.waiting j fresh)⟩
      · obtain ⟨hcalls, hkeeps⟩ := h.running j t hold
        exact ⟨fun hnone => hcalls ((Function.update_of_ne hij ..).symm.trans hnone), hkeeps⟩
    · obtain ⟨hcalls, hrest, hQ⟩ := h.returned j r hj
      have hij : j ≠ i := fun heq => hcalls (heq ▸ fresh)
      exact ⟨fun hnone => hcalls ((Function.update_of_ne hij ..).symm.trans hnone),
        (Function.update_of_ne hij ..).trans hrest, hQ⟩
    · have hij : j ≠ i := by
        rintro rfl
        exact Option.some_ne_none c ((Function.update_self j (some c) a.calls).symm.trans hj)
      exact h.waiting j ((Function.update_of_ne hij ..).symm.trans hj)
  | @act i effect next busy =>
    obtain ⟨hcalls, hkeeps⟩ := h.running i _ busy
    obtain ⟨hI, hothers, hnext⟩ := hkeeps a.shared (terms.refl i _) h.invariant hallowed
    refine h.moves terms (by rw [busy]; rfl) hI hothers fun t ht => ?_
    cases ht
    exact hnext
  | done busy =>
    exact h.answers busy ((h.running _ _ busy).2 _ (terms.refl _ _) h.invariant)
  | raised busy =>
    exact h.answers busy ((h.running _ _ busy).2 _ (terms.refl _ _) h.invariant)
  | @crash i busy =>
    obtain ⟨hI, hothers⟩ := terms.dies i _ h.invariant
    exact h.moves terms busy hI hothers fun t ht => by cases ht
  | @around s changes =>
    obtain ⟨hI, hall⟩ := terms.around _ s h.invariant changes
    refine ⟨hI, fun j t hj => ?_, fun j r hj => ?_, fun j hj => terms.waits j _ _ (hall j) (h.waiting j hj)⟩
    · obtain ⟨hcalls, hkeeps⟩ := h.running j t hj
      exact ⟨hcalls, hkeeps.stable (terms.trans j) (hall j)⟩
    · obtain ⟨hcalls, hrest, hQ⟩ := h.returned j r hj
      exact ⟨hcalls, hrest, terms.lasts j r _ _ (hall j) hI hQ⟩

theorem Sound.others (terms : Terms company allowed I rely unborn Q) (h : Sound allowed I rely unborn Q a)
    (hstep : Step company a a') (hallowed : allowed a'.shared) : (∀ i, rely i a.shared a'.shared) ∨
      ∃ i, ∀ j, j ≠ i → rely j a.shared a'.shared := by
  cases hstep with
  | start | done | raised => exact .inl fun i => terms.refl i _
  | @act i effect next busy =>
    obtain ⟨-, hothers, -⟩ := (h.running i _ busy).2 a.shared (terms.refl i _) h.invariant hallowed
    exact .inr ⟨i, hothers⟩
  | @crash i busy => exact .inr ⟨i, (terms.dies i _ h.invariant).2⟩
  | around changes => exact .inl (terms.around _ _ h.invariant changes).2

def Idle (a : Actors ι κ σ ε α) : Prop := (∀ i, a.calls i = none) ∧ (∀ i, a.rest i = none) ∧ a.returned = []

theorem sound_of_reachable {init : Actors ι κ σ ε α → Prop} (terms : Terms company allowed I rely unborn Q)
    (hinit : ∀ a, init a → Idle a ∧ I a.shared ∧ ∀ i, unborn i a.shared)
    (h : Reachable init (fun a a' => Step company a a' ∧ allowed a'.shared) a) : Sound allowed I rely unborn Q a := by
  refine h.invariant (fun a₀ h₀ => ?_) fun _ _ hsound hstep => hsound.step terms hstep.1 hstep.2
  obtain ⟨⟨hcalls, hrest, hreturned⟩, hI, hunborn⟩ := hinit a₀ h₀
  refine ⟨hI, fun i t hi => ?_, fun i r hi => ?_, fun i _ => hunborn i⟩
  · rw [hrest] at hi
    cases hi
  · rw [hreturned] at hi
    cases hi

end Sound

/-! ## Schedules -/

def turn (a : Actors ι κ σ ε α) (i : ι) : Actors ι κ σ ε α :=
  match a.rest i with
  | none => a
  | some (.act effect next) => { a with shared := effect a.shared, rest := Function.update a.rest i (some (next a.shared)) }
  | some (.done answer) => { a with rest := Function.update a.rest i none, returned := a.returned ++ [(i, .ok answer)] }
  | some (.raised e) => { a with rest := Function.update a.rest i none, returned := a.returned ++ [(i, .error e)] }

theorem turn_step (company : Company ι κ σ ε α) (a : Actors ι κ σ ε α) (i : ι) : a.turn i = a ∨ Step company a (a.turn i) := by
  unfold turn
  split
  · exact .inl rfl
  · next busy => exact .inr (.act busy)
  · next busy => exact .inr (.done busy)
  · next busy => exact .inr (.raised busy)

def begin (company : Company ι κ σ ε α) (a : Actors ι κ σ ε α) (i : ι) (c : κ) : Actors ι κ σ ε α :=
  { a with calls := Function.update a.calls i (some c), rest := Function.update a.rest i (some (company.program i c)) }

theorem reachable_turns {init : Actors ι κ σ ε α → Prop} {P : σ → Prop}
    (h : Reachable init (fun a a' => Step company a a' ∧ P a'.shared) a) (schedule : List ι)
    (hallowed : ∀ n < schedule.length, P ((schedule.take (n + 1)).foldl turn a).shared) :
    Reachable init (fun a a' => Step company a a' ∧ P a'.shared) (schedule.foldl turn a) := by
  induction schedule generalizing a with
  | nil => exact h
  | cons i schedule ih =>
    refine ih ?_ fun n hn => hallowed (n + 1) (Nat.succ_lt_succ hn)
    obtain hsame | hstep := turn_step company a i
    · rw [hsame]
      exact h
    · exact h.next ⟨hstep, hallowed 0 (Nat.succ_pos _)⟩

theorem reachable_begin {init : Actors ι κ σ ε α → Prop} {P : σ → Prop}
    (h : Reachable init (fun a a' => Step company a a' ∧ P a'.shared) a) {i : ι} {c : κ}
    (fresh : a.calls i = none) (may : company.starts i c) (hallowed : P a.shared) :
    Reachable init (fun a a' => Step company a a' ∧ P a'.shared) (a.begin company i c) :=
  h.next ⟨.start i c fresh may, hallowed⟩

theorem reachable_of_allowed {init : Actors ι κ σ ε α → Prop} {P : σ → Prop}
    (h : Reachable init (fun a a' => Step company a a' ∧ P a'.shared) a) : Reachable init (Step company) a := by
  obtain ⟨a₀, h₀, hrun⟩ := h
  exact ⟨a₀, h₀, Relation.ReflTransGen.mono (fun _ _ hstep => hstep.1) _ _ hrun⟩

end Actors

end XFoilFoam
