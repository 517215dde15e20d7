import Mathlib.Data.List.Induction
import Mathlib.Data.List.Perm.Basic

/-! Lists mapped through a function that may throw or fail. -/
namespace XFoilFoam
set_option autoImplicit false

variable {α β ε : Type}

theorem bind_eq_ok {x : Except ε α} {f : α → Except ε β} {b : β} :
    x.bind f = .ok b ↔ ∃ a, x = .ok a ∧ f a = .ok b := by
  cases x with
  | error e => simp [Except.bind]
  | ok a => simp [Except.bind]

theorem map_eq_ok {x : Except ε α} {f : α → β} {b : β} : x.map f = .ok b ↔ ∃ a, x = .ok a ∧ f a = b := by
  cases x with
  | error e => simp [Except.map]
  | ok a => simp [Except.map]

theorem toOption_eq_some {x : Except ε α} {a : α} : x.toOption = some a ↔ x = .ok a := by
  cases x with
  | error e => simp [Except.toOption]
  | ok b => simp [Except.toOption]

theorem foldlM_concat {σ : Type} (f : σ → α → Except ε σ) (s₀ : σ) (l : List α) (a : α) :
    (l ++ [a]).foldlM f s₀ = (l.foldlM f s₀).bind fun s => f s a := by
  rw [List.foldlM_append]
  congr 1
  funext s
  rw [List.foldlM_cons]
  cases f s a <;> rfl

theorem foldlM_invariant {σ : Type} {f : σ → α → Except ε σ} {P : List α → σ → Prop} {s₀ : σ} (hstart : P [] s₀)
    (hstep : ∀ seen s a s', P seen s → f s a = .ok s' → P (seen ++ [a]) s') {l : List α} {s : σ}
    (h : l.foldlM f s₀ = .ok s) : P l s := by
  induction l using List.reverseRecOn generalizing s with
  | nil =>
    cases h
    exact hstart
  | append_singleton l a ih =>
    rw [foldlM_concat] at h
    obtain ⟨s₁, hrun, hlast⟩ := bind_eq_ok.mp h
    exact hstep l s₁ a s (ih hrun) hlast

theorem mapM_eq_ok (f : α → Except ε β) (l : List α) (k : List β) :
    l.mapM f = .ok k ↔ List.Forall₂ (fun a b => f a = .ok b) l k := by
  induction l generalizing k with
  | nil =>
    rw [List.mapM_nil]
    constructor
    · intro h
      cases h
      exact .nil
    · intro h
      cases h
      rfl
  | cons a l ih =>
    rw [List.mapM_cons]
    constructor
    · intro h
      obtain ⟨b, hb, h⟩ := bind_eq_ok.mp h
      obtain ⟨bs, hbs, h⟩ := bind_eq_ok.mp h
      cases h
      exact .cons hb ((ih bs).mp hbs)
    · intro h
      cases h with
      | cons hb hbs => exact bind_eq_ok.mpr ⟨_, hb, bind_eq_ok.mpr ⟨_, (ih _).mpr hbs, rfl⟩⟩

theorem mapM_mem {f : α → Except ε β} {l : List α} {k : List β} (h : l.mapM f = .ok k) {a : α}
    (ha : a ∈ l) : ∃ b, f a = .ok b := by
  rw [mapM_eq_ok] at h
  induction h with
  | nil => simp at ha
  | cons hb _ ih =>
    rcases List.mem_cons.mp ha with rfl | ha
    · exact ⟨_, hb⟩
    · exact ih ha

theorem mem_of_mapM_eq_ok {f : α → Except ε β} {l : List α} {k : List β} (h : l.mapM f = .ok k) {b : β} (hb : b ∈ k) :
    ∃ a ∈ l, f a = .ok b := by
  rw [mapM_eq_ok] at h
  induction h with
  | nil => cases hb
  | cons ha _ ih =>
    obtain rfl | hb := List.mem_cons.mp hb
    · exact ⟨_, List.mem_cons_self, ha⟩
    · obtain ⟨a, hmem, hfa⟩ := ih hb
      exact ⟨a, List.mem_cons_of_mem _ hmem, hfa⟩

theorem mapM_of_forall {f : α → Except ε β} {l : List α} {P : β → Prop}
    (h : ∀ a ∈ l, ∃ b, f a = .ok b ∧ P b) :
    ∃ k, l.mapM f = .ok k ∧ k.length = l.length ∧ ∀ b ∈ k, P b := by
  induction l with
  | nil => exact ⟨[], rfl, rfl, fun b hb => nomatch hb⟩
  | cons a l ih =>
    obtain ⟨b, hb, hP⟩ := h a List.mem_cons_self
    obtain ⟨k, hk, hlength, hall⟩ := ih fun a ha => h a (List.mem_cons_of_mem _ ha)
    refine ⟨b :: k, (mapM_eq_ok f _ _).mpr (.cons hb ((mapM_eq_ok f _ _).mp hk)), by simp [hlength], ?_⟩
    intro c hc
    obtain rfl | hc := List.mem_cons.mp hc
    · exact hP
    · exact hall c hc

theorem mapM_eq_some (f : α → Option β) (l : List α) (k : List β) :
    l.mapM f = some k ↔ List.Forall₂ (fun a b => f a = some b) l k := by
  induction l generalizing k with
  | nil =>
    rw [List.mapM_nil]
    constructor
    · intro h
      cases h
      exact .nil
    · intro h
      cases h
      rfl
  | cons a l ih =>
    rw [List.mapM_cons]
    constructor
    · intro h
      obtain ⟨b, hb, h⟩ := Option.bind_eq_some_iff.mp h
      obtain ⟨bs, hbs, h⟩ := Option.bind_eq_some_iff.mp h
      cases h
      exact .cons hb ((ih bs).mp hbs)
    · intro h
      cases h with
      | cons hb hbs => exact Option.bind_eq_some_iff.mpr ⟨_, hb, Option.bind_eq_some_iff.mpr ⟨_, (ih _).mpr hbs, rfl⟩⟩

theorem mem_of_mapM_eq_some {f : α → Option β} {l : List α} {k : List β} (h : l.mapM f = some k) {b : β} (hb : b ∈ k) :
    ∃ a ∈ l, f a = some b := by
  rw [mapM_eq_some] at h
  induction h with
  | nil => cases hb
  | cons ha _ ih =>
    rcases List.mem_cons.mp hb with rfl | hb
    · exact ⟨_, List.mem_cons_self, ha⟩
    · obtain ⟨a, hmem, hfa⟩ := ih hb
      exact ⟨a, List.mem_cons_of_mem _ hmem, hfa⟩

theorem mapM_eq_some_of_forall {f : α → Option β} {l : List α} (h : ∀ a ∈ l, ∃ b, f a = some b) :
    ∃ k, l.mapM f = some k := by
  induction l with
  | nil => exact ⟨[], rfl⟩
  | cons a l ih =>
    obtain ⟨b, hb⟩ := h a List.mem_cons_self
    obtain ⟨k, hk⟩ := ih fun a' ha' => h a' (List.mem_cons_of_mem _ ha')
    exact ⟨b :: k, (mapM_eq_some f _ _).mpr (.cons hb ((mapM_eq_some f _ _).mp hk))⟩

theorem mapM_sublist (f : α → Except ε β) {sub l : List α} (h : sub.Sublist l) :
    ∀ {ks k : List β}, sub.mapM f = .ok ks → l.mapM f = .ok k → ks.Sublist k := by
  simp only [mapM_eq_ok]
  induction h with
  | slnil =>
    intro ks k hs hl
    cases hs
    exact List.nil_sublist k
  | cons a _ ih =>
    intro ks k hs hl
    cases hl with
    | cons hb hbs => exact (ih hs hbs).cons _
  | cons_cons a _ ih =>
    intro ks k hs hl
    cases hs with
    | cons ha has =>
      cases hl with
      | cons hb hbs =>
        rw [ha] at hb
        cases hb
        exact (ih has hbs).cons_cons _

/-! ## Checks of every element -/

theorem forM_eq_ok {f : α → Except ε Unit} {l : List α} : l.forM f = .ok () ↔ ∀ a ∈ l, f a = .ok () := by
  induction l with
  | nil => exact iff_of_true rfl (by simp)
  | cons a l ih =>
    change (f a).bind (fun _ => l.forM f) = .ok () ↔ _
    rw [bind_eq_ok, List.forall_mem_cons, ← ih]
    constructor
    · rintro ⟨u, ha, hl⟩
      exact ⟨ha, hl⟩
    · rintro ⟨ha, hl⟩
      exact ⟨(), ha, hl⟩

theorem forM_eq_error {f : α → Except ε Unit} {l : List α} {e : ε} (h : l.forM f = .error e) :
    ∃ a ∈ l, f a = .error e := by
  induction l with
  | nil => cases h
  | cons a l ih =>
    change (f a).bind (fun _ => l.forM f) = .error e at h
    cases ha : f a with
    | error e' =>
      rw [ha] at h
      cases h
      exact ⟨a, List.mem_cons_self, ha⟩
    | ok u =>
      rw [ha] at h
      obtain ⟨b, hb, hfb⟩ := ih h
      exact ⟨b, List.mem_cons_of_mem a hb, hfb⟩

end XFoilFoam
