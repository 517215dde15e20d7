import XFoilFoam.Foundations.Runs
import Mathlib.Logic.Function.Basic
import Mathlib.Data.List.Basic

/-! Programs of atomic actions on a shared state: run alone, cut short, or interleaved with others. -/
namespace XFoilFoam
set_option autoImplicit false

/-- A program that ends, raises, or acts on the state and goes on with what the state was. -/
inductive Task (σ ε α : Type) where
  | done (a : α)
  | raised (e : ε)
  | act (effect : σ → σ) (next : σ → Task σ ε α)

namespace Task
variable {σ ε α β : Type}

def bind : Task σ ε α → (α → Task σ ε β) → Task σ ε β
  | done a, k => k a
  | raised e, _ => raised e
  | act effect next, k => act effect fun s => (next s).bind k

instance : Monad (Task σ ε) where
  pure := done
  bind := bind

/-- `except`: what was raised is handled. -/
def handle : Task σ ε α → (ε → Task σ ε α) → Task σ ε α
  | done a, _ => done a
  | raised e, h => h e
  | act effect next, h => act effect fun s => (next s).handle h

def read (f : σ → α) : Task σ ε α := act id fun s => done (f s)

def modify (f : σ → σ) : Task σ ε Unit := act f fun _ => done ()

def update (f : σ → α × σ) : Task σ ε α := act (fun s => (f s).2) fun s => done (f s).1

def each (f : β → Task σ ε Unit) : List β → Task σ ε Unit
  | [] => done ()
  | b :: bs => (f b).bind fun _ => each f bs

def collect (f : β → Task σ ε α) : List β → Task σ ε (List α)
  | [] => done []
  | b :: bs => (f b).bind fun a => (collect f bs).bind fun as => done (a :: as)

@[simp] theorem pure_eq (a : α) : (pure a : Task σ ε α) = done a := rfl

@[simp] theorem bind_eq (t : Task σ ε α) (k : α → Task σ ε β) : t >>= k = t.bind k := rfl

/-! ## Alone -/

def run : Task σ ε α → σ → Except ε α × σ
  | done a, s => (.ok a, s)
  | raised e, s => (.error e, s)
  | act effect next, s => (next s).run (effect s)

@[simp] theorem run_done (a : α) (s : σ) : (done a : Task σ ε α).run s = (.ok a, s) := rfl

@[simp] theorem run_raised (e : ε) (s : σ) : (raised e : Task σ ε α).run s = (.error e, s) := rfl

@[simp] theorem run_read (f : σ → α) (s : σ) : (read f : Task σ ε α).run s = (.ok (f s), s) := rfl

@[simp] theorem run_modify (f : σ → σ) (s : σ) : (modify f : Task σ ε Unit).run s = (.ok (), f s) := rfl

@[simp] theorem run_update (f : σ → α × σ) (s : σ) :
    (update f : Task σ ε α).run s = (.ok (f s).1, (f s).2) := rfl

theorem run_bind (t : Task σ ε α) (k : α → Task σ ε β) (s : σ) :
    (t.bind k).run s =
      match t.run s with
      | (.ok a, s') => (k a).run s'
      | (.error e, s') => (.error e, s') := by
  induction t generalizing s with
  | done a => rfl
  | raised e => rfl
  | act effect next ih => exact ih s (effect s)

theorem run_bind_ok {t : Task σ ε α} {s s' : σ} {a : α} (h : t.run s = (.ok a, s')) (k : α → Task σ ε β) :
    (t.bind k).run s = (k a).run s' := by
  rw [run_bind, h]

theorem run_handle_ok {t : Task σ ε α} {s s' : σ} {a : α} (h : t.run s = (.ok a, s')) (k : ε → Task σ ε α) :
    (t.handle k).run s = (.ok a, s') := by
  induction t generalizing s with
  | done b => exact h
  | raised e => cases h
  | act effect next ih => exact ih s h

theorem run_each_modify (f : β → σ → σ) (bs : List β) (s : σ) :
    (each (fun b => (modify (f b) : Task σ ε Unit)) bs).run s = (.ok (), bs.foldl (fun s b => f b s) s) := by
  induction bs generalizing s with
  | nil => rfl
  | cons b bs ih => exact ih (f b s)

theorem run_collect {f : β → Task σ ε α} {g : β → α} {s : σ} {bs : List β}
    (h : ∀ b ∈ bs, (f b).run s = (.ok (g b), s)) : (collect f bs).run s = (.ok (bs.map g), s) := by
  induction bs with
  | nil => rfl
  | cons b bs ih =>
    rw [collect, run_bind_ok (h b List.mem_cons_self), run_bind_ok (ih fun b' hb' => h b' (List.mem_cons_of_mem b hb'))]
    rfl

theorem run_each {f : β → Task σ ε Unit} {P : σ → Prop} {bs : List β} {s : σ} (hs : P s)
    (h : ∀ b ∈ bs, ∀ s, P s → ∃ s', (f b).run s = (.ok (), s') ∧ P s') :
    ∃ s', (each f bs).run s = (.ok (), s') ∧ P s' := by
  induction bs generalizing s with
  | nil => exact ⟨s, rfl, hs⟩
  | cons b bs ih =>
    obtain ⟨s', hrun, hs'⟩ := h b List.mem_cons_self s hs
    obtain ⟨s'', hrest, hs''⟩ := ih hs' fun b' hb' => h b' (List.mem_cons_of_mem b hb')
    exact ⟨s'', by rw [each, run_bind_ok hrun, hrest], hs''⟩

/-! ## Among others

What a program returns is settled by the states it meets at its own actions; what the others do in between shows only there. -/

inductive Sees : Task σ ε α → List σ → Except ε α → Prop where
  | done (a : α) : Sees (done a) [] (.ok a)
  | raised (e : ε) : Sees (raised e) [] (.error e)
  | act {effect next r seen} (s : σ) (rest : Sees (next s) seen r) : Sees (act effect next) (s :: seen) r

theorem sees_bind {t : Task σ ε α} {k : α → Task σ ε β} {seen : List σ} {r : Except ε β}
    (h : Sees (t.bind k) seen r) :
    (∃ a before after, seen = before ++ after ∧ Sees t before (.ok a) ∧ Sees (k a) after r) ∨
      ∃ e, r = .error e ∧ Sees t seen (.error e) := by
  induction t generalizing seen with
  | done a => exact .inl ⟨a, [], seen, rfl, .done a, h⟩
  | raised e =>
    cases h
    exact .inr ⟨e, rfl, .raised e⟩
  | act effect next ih =>
    cases h with
    | act s rest =>
      obtain ⟨a, before, after, rfl, hbefore, hafter⟩ | ⟨e, rfl, herror⟩ := ih s rest
      · exact .inl ⟨a, s :: before, after, rfl, .act s hbefore, hafter⟩
      · exact .inr ⟨e, rfl, .act s herror⟩

theorem sees_bind_ok {t : Task σ ε α} {k : α → Task σ ε β} {seen : List σ} {b : β}
    (h : Sees (t.bind k) seen (.ok b)) :
    ∃ a before after, seen = before ++ after ∧ Sees t before (.ok a) ∧ Sees (k a) after (.ok b) := by
  obtain h | ⟨e, hr, -⟩ := sees_bind h
  · exact h
  · cases hr

theorem sees_handle {t : Task σ ε α} {k : ε → Task σ ε α} {seen : List σ} {r : Except ε α}
    (h : Sees (t.handle k) seen r) :
    (∃ a, r = .ok a ∧ Sees t seen (.ok a)) ∨
      ∃ e before after, seen = before ++ after ∧ Sees t before (.error e) ∧ Sees (k e) after r := by
  induction t generalizing seen with
  | done a =>
    cases h
    exact .inl ⟨a, rfl, .done a⟩
  | raised e => exact .inr ⟨e, [], seen, rfl, .raised e, h⟩
  | act effect next ih =>
    cases h with
    | act s rest =>
      obtain ⟨a, rfl, hok⟩ | ⟨e, before, after, rfl, hbefore, hafter⟩ := ih s rest
      · exact .inl ⟨a, rfl, .act s hok⟩
      · exact .inr ⟨e, s :: before, after, rfl, .act s hbefore, hafter⟩

theorem sees_read {f : σ → α} {seen : List σ} {a : α} (h : Sees (read f : Task σ ε α) seen (.ok a)) :
    ∃ s, seen = [s] ∧ a = f s := by
  cases h with
  | act s rest =>
    cases rest
    exact ⟨s, rfl, rfl⟩

theorem sees_done {a b : α} {seen : List σ} (h : Sees (done a : Task σ ε α) seen (.ok b)) : seen = [] ∧ a = b := by
  cases h
  exact ⟨rfl, rfl⟩

theorem sees_each {f : β → Task σ ε Unit} {bs : List β} {seen : List σ} (h : Sees (each f bs) seen (.ok ())) :
    ∀ b ∈ bs, ∃ part, part.Sublist seen ∧ Sees (f b) part (.ok ()) := by
  induction bs generalizing seen with
  | nil => exact fun _ hb => absurd hb List.not_mem_nil
  | cons b bs ih =>
    obtain ⟨_, before, after, rfl, hbefore, hafter⟩ := sees_bind_ok h
    intro b' hb'
    obtain rfl | hb' := List.mem_cons.mp hb'
    · exact ⟨before, List.sublist_append_left _ _, hbefore⟩
    · obtain ⟨part, hpart, hsees⟩ := ih hafter b' hb'
      exact ⟨part, hpart.trans (List.sublist_append_right _ _), hsees⟩

/-! ## Cut short

A program may die between any two of its actions.  A crash invariant holds wherever that can happen. -/

/-- A run from one state to another: `none` is a run that was cut short. -/
inductive Reaches : Task σ ε α → σ → σ → Option (Except ε α) → Prop where
  | cut (t : Task σ ε α) (s : σ) : Reaches t s s none
  | done (a : α) (s : σ) : Reaches (done a) s s (some (.ok a))
  | raised (e : ε) (s : σ) : Reaches (raised e) s s (some (.error e))
  | act {effect next s s' o} (rest : Reaches (next s) (effect s) s' o) : Reaches (act effect next) s s' o

theorem reaches_run (t : Task σ ε α) (s : σ) : Reaches t s (t.run s).2 (some (t.run s).1) := by
  induction t generalizing s with
  | done a => exact .done a s
  | raised e => exact .raised e s
  | act effect next ih => exact .act (ih s (effect s))

/-- The invariant holds between any two actions, and the postcondition at the end. -/
def Always (I : σ → Prop) (Q : Except ε α → σ → Prop) : Task σ ε α → σ → Prop
  | done a, s => I s ∧ Q (.ok a) s
  | raised e, s => I s ∧ Q (.error e) s
  | act effect next, s => I s ∧ (next s).Always I Q (effect s)

section Always
variable {I : σ → Prop} {s s' : σ}

theorem Always.now {Q : Except ε α → σ → Prop} {t : Task σ ε α} (h : t.Always I Q s) : I s := by
  cases t <;> exact h.1

theorem Always.reaches {Q : Except ε α → σ → Prop} {t : Task σ ε α} {o : Option (Except ε α)} (h : t.Always I Q s)
    (hr : Reaches t s s' o) : I s' ∧ ∀ r, o = some r → Q r s' := by
  induction hr with
  | cut t s => exact ⟨h.now, fun _ ho => by cases ho⟩
  | done a s => exact ⟨h.1, fun _ ho => by cases ho; exact h.2⟩
  | raised e s => exact ⟨h.1, fun _ ho => by cases ho; exact h.2⟩
  | act _ ih => exact ih h.2

theorem Always.mono {Q Q' : Except ε α → σ → Prop} {t : Task σ ε α} (h : t.Always I Q s)
    (hQ : ∀ r s', I s' → Q r s' → Q' r s') : t.Always I Q' s := by
  induction t generalizing s with
  | done a => exact ⟨h.1, hQ _ _ h.1 h.2⟩
  | raised e => exact ⟨h.1, hQ _ _ h.1 h.2⟩
  | act effect next ih => exact ⟨h.1, ih s h.2⟩

theorem Always.bind {Q : Except ε α → σ → Prop} {Q' : Except ε β → σ → Prop} {t : Task σ ε α}
    {k : α → Task σ ε β} (h : t.Always I Q s) (hok : ∀ a s', I s' → Q (.ok a) s' → (k a).Always I Q' s')
    (herror : ∀ e s', I s' → Q (.error e) s' → Q' (.error e) s') : (t.bind k).Always I Q' s := by
  induction t generalizing s with
  | done a => exact hok a s h.1 h.2
  | raised e => exact ⟨h.1, herror e s h.1 h.2⟩
  | act effect next ih => exact ⟨h.1, ih s h.2⟩

theorem Always.read {f : σ → α} {k : α → Task σ ε β} {Q : Except ε β → σ → Prop} (hI : I s)
    (h : (k (f s)).Always I Q s) : ((read f : Task σ ε α).bind k).Always I Q s := ⟨hI, h⟩

theorem Always.modify {f : σ → σ} {k : Unit → Task σ ε β} {Q : Except ε β → σ → Prop} (hI : I s)
    (h : (k ()).Always I Q (f s)) : ((modify f : Task σ ε Unit).bind k).Always I Q s := ⟨hI, h⟩

/-- What does not change the part of the state that the invariant is about. -/
def Spares {γ : Type} (core : σ → γ) (t : Task σ ε α) : Prop :=
  ∀ s, t.Always (fun s' => core s' = core s) (fun _ s' => core s' = core s) s

theorem spares_done {γ : Type} (core : σ → γ) (a : α) : (done a : Task σ ε α).Spares core := fun _ => ⟨rfl, rfl⟩

theorem spares_raised {γ : Type} (core : σ → γ) (e : ε) : (raised e : Task σ ε α).Spares core := fun _ => ⟨rfl, rfl⟩

theorem spares_read {γ : Type} (core : σ → γ) (f : σ → α) : (read f : Task σ ε α).Spares core :=
  fun _ => ⟨rfl, rfl, rfl⟩

theorem spares_modify {γ : Type} {core : σ → γ} {f : σ → σ} (h : ∀ s, core (f s) = core s) :
    (modify f : Task σ ε Unit).Spares core := fun s => ⟨rfl, h s, h s⟩

theorem Always.weaken {J : σ → Prop} {Q Q' : Except ε α → σ → Prop} {t : Task σ ε α} (h : t.Always J Q s)
    (hI : ∀ s', J s' → I s') (hQ : ∀ r s', Q r s' → Q' r s') : t.Always I Q' s := by
  induction t generalizing s with
  | done a => exact ⟨hI s h.1, hQ _ _ h.2⟩
  | raised e => exact ⟨hI s h.1, hQ _ _ h.2⟩
  | act effect next ih => exact ⟨hI s h.1, ih s h.2⟩

theorem Spares.bind {γ : Type} {core : σ → γ} {t : Task σ ε α} {k : α → Task σ ε β} (h : t.Spares core)
    (hk : ∀ a, (k a).Spares core) : (t.bind k).Spares core := by
  intro s
  refine (h s).bind (fun a s' _ heq => ?_) fun _ _ _ heq => heq
  exact (hk a s').weaken (fun _ h => h.trans heq) fun _ _ h => h.trans heq

theorem Spares.always {γ : Type} {core : σ → γ} {t : Task σ ε α} (h : t.Spares core)
    (hcore : ∀ s s', core s' = core s → I s → I s') (hI : I s) : t.Always I (fun _ s' => core s' = core s) s :=
  (h s).weaken (fun s' heq => hcore s s' heq hI) fun _ _ heq => heq

end Always

end Task

/-! ## Workers -/

/-- A call in progress: what it met so far and what is left of it. -/
structure Running (κ σ ε α : Type) where
  call : κ
  seen : List σ
  rest : Task σ ε α

structure Returned (κ σ ε α : Type) where
  call : κ
  seen : List σ
  result : Except ε α

/-- Workers on one shared state; each runs one call at a time. -/
structure Pool (ι κ σ ε α : Type) where
  shared : σ
  running : ι → Option (Running κ σ ε α)
  returned : List (Returned κ σ ε α)

namespace Pool
variable {ι κ σ ε α : Type} [DecidableEq ι] {program : κ → Task σ ε α} {p p' : Pool ι κ σ ε α}

def put (p : Pool ι κ σ ε α) (i : ι) (r : Option (Running κ σ ε α)) : Pool ι κ σ ε α :=
  { p with running := Function.update p.running i r }

/-- One worker begins a call, acts once, answers, or dies; any worker may be next. -/
inductive Step (program : κ → Task σ ε α) (p : Pool ι κ σ ε α) : Pool ι κ σ ε α → Prop where
  | start (i : ι) (c : κ) (idle : p.running i = none) : Step program p (p.put i (some ⟨c, [], program c⟩))
  | act {i : ι} {c seen effect next} (busy : p.running i = some ⟨c, seen, .act effect next⟩) :
    Step program p { p.put i (some ⟨c, seen ++ [p.shared], next p.shared⟩) with shared := effect p.shared }
  | done {i : ι} {c seen a} (busy : p.running i = some ⟨c, seen, .done a⟩) :
    Step program p { p.put i none with returned := p.returned ++ [⟨c, seen, .ok a⟩] }
  | raised {i : ι} {c seen e} (busy : p.running i = some ⟨c, seen, .raised e⟩) :
    Step program p { p.put i none with returned := p.returned ++ [⟨c, seen, .error e⟩] }
  | crash (i : ι) : Step program p (p.put i none)

/-- Every call goes on as its program would on what it has met. -/
structure Follows (program : κ → Task σ ε α) (p : Pool ι κ σ ε α) : Prop where
  running : ∀ i r, p.running i = some r → ∀ later result, Task.Sees r.rest later result →
    Task.Sees (program r.call) (r.seen ++ later) result
  returned : ∀ r ∈ p.returned, Task.Sees (program r.call) r.seen r.result

theorem put_running {i j : ι} {r : Option (Running κ σ ε α)} {s : Running κ σ ε α}
    (h : (p.put i r).running j = some s) : r = some s ∨ p.running j = some s := by
  change Function.update p.running i r j = some s at h
  by_cases hij : j = i
  · subst hij
    rw [Function.update_self] at h
    exact .inl h
  · rw [Function.update_of_ne hij] at h
    exact .inr h

theorem Follows.step (h : Follows program p) (hstep : Step program p p') : Follows program p' := by
  cases hstep with
  | start i c idle =>
    refine ⟨fun j r hj later result hsees => ?_, h.returned⟩
    obtain hnew | hold := put_running hj
    · cases hnew
      exact hsees
    · exact h.running j r hold later result hsees
  | @act i c seen effect next busy =>
    refine ⟨fun j r hj later result hsees => ?_, h.returned⟩
    obtain hnew | hold := put_running hj
    · cases hnew
      rw [List.append_assoc, List.singleton_append]
      exact h.running i _ busy (p.shared :: later) result (.act p.shared hsees)
    · exact h.running j r hold later result hsees
  | @done i c seen a busy =>
    refine ⟨fun j r hj => ?_, fun r hr => ?_⟩
    · obtain hnew | hold := put_running hj
      · cases hnew
      · exact h.running j r hold
    · obtain hold | hnew := List.mem_append.mp hr
      · exact h.returned r hold
      · rw [List.mem_singleton] at hnew
        subst hnew
        have hsees := h.running i _ busy [] _ (.done a)
        rw [List.append_nil] at hsees
        exact hsees
  | @raised i c seen e busy =>
    refine ⟨fun j r hj => ?_, fun r hr => ?_⟩
    · obtain hnew | hold := put_running hj
      · cases hnew
      · exact h.running j r hold
    · obtain hold | hnew := List.mem_append.mp hr
      · exact h.returned r hold
      · rw [List.mem_singleton] at hnew
        subst hnew
        have hsees := h.running i _ busy [] _ (.raised e)
        rw [List.append_nil] at hsees
        exact hsees
  | crash i =>
    refine ⟨fun j r hj => ?_, h.returned⟩
    obtain hnew | hold := put_running hj
    · cases hnew
    · exact h.running j r hold

def Quiet (p : Pool ι κ σ ε α) : Prop := (∀ i, p.running i = none) ∧ p.returned = []

omit [DecidableEq ι] in
theorem Quiet.follows (h : Quiet p) : Follows program p := by
  refine ⟨fun i r hi => ?_, fun r hr => ?_⟩
  · rw [h.1 i] at hi
    cases hi
  · rw [h.2] at hr
    cases hr

theorem returned_sees (h : Reachable Quiet (Step program) p) {r : Returned κ σ ε α} (hr : r ∈ p.returned) :
    Task.Sees (program r.call) r.seen r.result := by
  have hfollows : Follows program p := h.invariant (fun _ => Quiet.follows) fun _ _ => Follows.step
  exact hfollows.returned r hr

end Pool

end XFoilFoam
