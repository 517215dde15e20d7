import XFoilFoam.Caches.StaleWhileRefresh
import Mathlib.Data.List.Induction

/-! One load a key, values that survive a failed load, and the number of entries, along every run of the cache. -/
namespace XFoilFoam.Caches
open KeyOrder
set_option autoImplicit false

namespace StaleWhileRefreshCache
variable {T : Type} {options : CacheOptions} {c c' : StaleWhileRefreshCache T} {key : String} {ref promise : ℕ}
  {load : Refresh}

/-! ## Objects -/

@[simp] theorem write_entries (f : CacheEntry T → CacheEntry T) : (c.write ref f).entries = c.entries := rfl

@[simp] theorem write_loads (f : CacheEntry T → CacheEntry T) : (c.write ref f).loads = c.loads := rfl

@[simp] theorem write_self (f : CacheEntry T → CacheEntry T) : (c.write ref f).objects ref = f (c.objects ref) :=
  Function.update_self ref _ _

theorem write_ne (f : CacheEntry T → CacheEntry T) {ref' : ℕ} (h : ref' ≠ ref) :
    (c.write ref f).objects ref' = c.objects ref' := Function.update_of_ne h _ _

theorem readable_of_find? (h : c.entries.find? key = some ref) :
    c.readable key = do
      let value ← (c.objects ref).value
      let asOfMs ← (c.objects ref).asOfMs
      return (value, asOfMs) := by
  simp only [readable, entryAt, h, Option.map_some, Option.bind_eq_bind, Option.bind_some]

theorem readable_of_absent (h : c.entries.find? key = none) : c.readable key = none := by
  simp only [readable, entryAt, h, Option.map_none, Option.bind_eq_bind, Option.bind_none]

/-! ## What `prune` leaves -/

theorem mem_evictable {protectedKey : String} {entry : CacheEntry T}
    (h : (key, entry) ∈ c.evictable protectedKey) :
    key ≠ protectedKey ∧ entry.refreshPromise = none ∧
      ∃ ref, c.entries.find? key = some ref ∧ c.objects ref = entry := by
  obtain ⟨hrow, hcond⟩ := List.mem_filter.mp h
  obtain ⟨⟨k, ref⟩, hmem, heq⟩ := List.mem_map.mp hrow
  cases heq
  obtain ⟨hkey, hpromise⟩ := of_decide_eq_true hcond
  exact ⟨hkey, hpromise, ref, Table.find?_of_mem hmem, rfl⟩

/-- Only the map changes; what is protected or being refreshed stays. -/
structure PrunedFrom (protectedKey : String) (c c' : StaleWhileRefreshCache T) : Prop where
  rest : c' = { c with entries := c'.entries }
  kept : ∀ key ref, c'.entries.find? key = some ref → c.entries.find? key = some ref
  spared : ∀ key ref, c.entries.find? key = some ref →
    key = protectedKey ∨ (c.objects ref).refreshPromise ≠ none → c'.entries.find? key = some ref

def Pruned (options : CacheOptions) (protectedKey : String) (c : StaleWhileRefreshCache T) : Prop :=
  c.entries.rows.length ≤ options.maxEntries ∨
    ∀ key ref, c.entries.find? key = some ref → key = protectedKey ∨ (c.objects ref).refreshPromise ≠ none

theorem PrunedFrom.refl (protectedKey : String) (c : StaleWhileRefreshCache T) : PrunedFrom protectedKey c c :=
  ⟨rfl, fun _ _ h => h, fun _ _ h _ => h⟩

theorem prunedFrom_erase {protectedKey : String} (hkey : key ≠ protectedKey)
    (hidle : ∀ ref, c.entries.find? key = some ref → (c.objects ref).refreshPromise = none)
    (h : PrunedFrom protectedKey { c with entries := c.entries.erase key } c') : PrunedFrom protectedKey c c' := by
  refine ⟨h.rest, fun k ref hfind => ?_, fun k ref hfind hprotected => h.spared k ref ?_ hprotected⟩
  · have hkept := h.kept k ref hfind
    rw [Table.find?_erase] at hkept
    split at hkept
    · cases hkept
    · exact hkept
  · rw [Table.find?_erase, if_neg, hfind]
    rintro rfl
    obtain heq | hbusy := hprotected
    · exact hkey heq
    · exact hbusy (hidle ref hfind)

theorem pruneLoop_spec (protectedKey : String) (turns : ℕ) (c : StaleWhileRefreshCache T)
    (hturns : c.entries.rows.length ≤ turns) :
    PrunedFrom protectedKey c (pruneLoop options protectedKey turns c) ∧
      Pruned options protectedKey (pruneLoop options protectedKey turns c) := by
  induction turns generalizing c with
  | zero => exact ⟨.refl protectedKey c, .inl (hturns.trans (Nat.zero_le _))⟩
  | succ turns ih =>
    rw [pruneLoop]
    split
    · next hover =>
      cases hcandidate : (sortBy (fun e => e.2.lastAccessMs) (c.evictable protectedKey)).head? with
      | none =>
        refine ⟨.refl protectedKey c, .inr fun key ref hfind => ?_⟩
        by_contra hidle
        rw [not_or, not_not] at hidle
        -- an idle entry under another key would have been a candidate
        have hmem : (key, c.objects ref) ∈ c.evictable protectedKey :=
          List.mem_filter.mpr ⟨List.mem_map.mpr ⟨(key, ref), Table.mem_of_find? hfind, rfl⟩, by simpa using hidle⟩
        rw [List.head?_eq_none_iff] at hcandidate
        have hsorted := (mem_sortBy fun e : String × CacheEntry T => e.2.lastAccessMs).mpr hmem
        rw [hcandidate] at hsorted
        cases hsorted
      | some candidate =>
        obtain ⟨key, entry⟩ := candidate
        have hmem := (mem_sortBy _).mp (List.mem_of_head? hcandidate)
        obtain ⟨hkey, hpromise, ref, hfind, hobject⟩ := mem_evictable hmem
        have hshorter := Table.length_erase hfind
        obtain ⟨hfrom, hpruned⟩ := ih { c with entries := c.entries.erase key } (by
          change (c.entries.erase key).rows.length ≤ turns
          omega)
        refine ⟨prunedFrom_erase hkey (fun ref' hfind' => ?_) hfrom, hpruned⟩
        rw [hfind] at hfind'
        cases hfind'
        rw [hobject, hpromise]
    · next hfits => exact ⟨.refl protectedKey c, .inl (not_lt.mp hfits)⟩

theorem prune_from (protectedKey : String) (c : StaleWhileRefreshCache T) :
    PrunedFrom protectedKey c (prune options protectedKey c) :=
  (pruneLoop_spec protectedKey _ c le_rfl).1

theorem prune_pruned (protectedKey : String) (c : StaleWhileRefreshCache T) :
    Pruned options protectedKey (prune options protectedKey c) :=
  (pruneLoop_spec protectedKey _ c le_rfl).2

/-! ## How map, objects and loads hang together -/

structure Wired (c : StaleWhileRefreshCache T) : Prop where
  allocated : ∀ key ref, c.entries.find? key = some ref → ref < c.allocated
  apart : ∀ key key' ref, c.entries.find? key = some ref → c.entries.find? key' = some ref → key = key'
  waits : ∀ promise load, c.loads.find? promise = some load →
    c.entries.find? load.key = some load.entry ∧ (c.objects load.entry).refreshPromise = some promise
  pends : ∀ key ref promise, c.entries.find? key = some ref → (c.objects ref).refreshPromise = some promise →
    c.loads.find? promise = some ⟨key, ref⟩
  numbered : ∀ promise load, c.loads.find? promise = some load → promise ≤ c.refreshes

theorem wired_empty : Wired ({} : StaleWhileRefreshCache T) := by
  refine ⟨?_, ?_, ?_, ?_, ?_⟩ <;> intros <;> simp_all

/-- What a call changes without starting a load: counters, times of access, objects not in the map. -/
structure SameWiring (c c' : StaleWhileRefreshCache T) : Prop where
  entries : c'.entries = c.entries
  loads : c'.loads = c.loads
  allocated : c.allocated ≤ c'.allocated
  refreshes : c.refreshes ≤ c'.refreshes
  promises : ∀ ref < c.allocated, (c'.objects ref).refreshPromise = (c.objects ref).refreshPromise
  values : ∀ ref < c.allocated,
    (c'.objects ref).value = (c.objects ref).value ∧ (c'.objects ref).asOfMs = (c.objects ref).asOfMs

theorem SameWiring.refl (c : StaleWhileRefreshCache T) : SameWiring c c :=
  ⟨rfl, rfl, le_rfl, le_rfl, fun _ _ => rfl, fun _ _ => ⟨rfl, rfl⟩⟩

theorem SameWiring.trans {c₁ c₂ c₃ : StaleWhileRefreshCache T} (h : SameWiring c₁ c₂) (h' : SameWiring c₂ c₃) :
    SameWiring c₁ c₃ := by
  refine ⟨h'.entries.trans h.entries, h'.loads.trans h.loads, h.allocated.trans h'.allocated,
    h.refreshes.trans h'.refreshes, fun ref href => ?_, fun ref href => ?_⟩
  · rw [h'.promises ref (href.trans_le h.allocated), h.promises ref href]
  · obtain ⟨hvalue, hasOf⟩ := h'.values ref (href.trans_le h.allocated)
    rw [hvalue, hasOf]
    exact h.values ref href

theorem sameWiring_touch (c : StaleWhileRefreshCache T) (ref : ℕ) (now : ℤ) :
    SameWiring c (c.write ref fun entry => { entry with lastAccessMs := now }) := by
  refine ⟨rfl, rfl, le_rfl, le_rfl, fun ref' _ => ?_, fun ref' _ => ?_⟩ <;>
    by_cases href : ref' = ref
  · subst href
    rw [write_self]
  · rw [write_ne _ href]
  · subst href
    rw [write_self]
    exact ⟨rfl, rfl⟩
  · rw [write_ne _ href]
    exact ⟨rfl, rfl⟩

theorem sameWiring_counters (c : StaleWhileRefreshCache T) (hits misses staleHits : ℕ) {refreshes : ℕ}
    (h : c.refreshes ≤ refreshes) :
    SameWiring c { c with hits := hits, misses := misses, staleHits := staleHits, refreshes := refreshes } :=
  ⟨rfl, rfl, le_rfl, h, fun _ _ => rfl, fun _ _ => ⟨rfl, rfl⟩⟩

theorem SameWiring.wired (h : SameWiring c c') (hc : Wired c) : Wired c' := by
  obtain ⟨hentries, hloads, hallocated, hrefreshes, hpromises, -⟩ := h
  refine ⟨?_, ?_, ?_, ?_, ?_⟩
  · intro key ref hfind
    rw [hentries] at hfind
    exact (hc.allocated key ref hfind).trans_le hallocated
  · rw [hentries]
    exact hc.apart
  · intro promise load hfind
    rw [hloads] at hfind
    obtain ⟨hentry, hpromise⟩ := hc.waits promise load hfind
    rw [hentries, hpromises _ (hc.allocated _ _ hentry)]
    exact ⟨hentry, hpromise⟩
  · intro key ref promise hfind hpromise
    rw [hentries] at hfind
    rw [hpromises _ (hc.allocated _ _ hfind)] at hpromise
    rw [hloads]
    exact hc.pends key ref promise hfind hpromise
  · intro promise load hfind
    rw [hloads] at hfind
    exact (hc.numbered promise load hfind).trans hrefreshes

theorem SameWiring.readable (h : SameWiring c c') (hc : Wired c) (key : String) :
    c'.readable key = c.readable key := by
  cases hfind : c.entries.find? key with
  | none => rw [readable_of_absent hfind, readable_of_absent (by rw [h.entries, hfind])]
  | some ref =>
    obtain ⟨hvalue, hasOf⟩ := h.values ref (hc.allocated key ref hfind)
    rw [readable_of_find? hfind, readable_of_find? (by rw [h.entries, hfind]), hvalue, hasOf]

theorem Wired.shrink {entries : Table String ℕ} (hc : Wired c)
    (hkept : ∀ key ref, entries.find? key = some ref → c.entries.find? key = some ref)
    (hspared : ∀ key ref, c.entries.find? key = some ref → (c.objects ref).refreshPromise ≠ none →
      entries.find? key = some ref) : Wired { c with entries := entries } := by
  refine ⟨?_, ?_, ?_, ?_, hc.numbered⟩
  · exact fun key ref hfind => hc.allocated key ref (hkept key ref hfind)
  · exact fun key key' ref hfind hfind' => hc.apart key key' ref (hkept key ref hfind) (hkept key' ref hfind')
  · intro promise load hfind
    obtain ⟨hentry, hpromise⟩ := hc.waits promise load hfind
    exact ⟨hspared _ _ hentry (by rw [hpromise]; exact Option.some_ne_none _), hpromise⟩
  · exact fun key ref promise hfind hpromise => hc.pends key ref promise (hkept key ref hfind) hpromise

theorem PrunedFrom.wired {protectedKey : String} (h : PrunedFrom protectedKey c c') (hc : Wired c) : Wired c' := by
  rw [h.rest]
  exact hc.shrink h.kept fun key ref hfind hbusy => h.spared key ref hfind (.inr hbusy)

theorem PrunedFrom.readable {protectedKey : String} (h : PrunedFrom protectedKey c c')
    (hfind : c.entries.find? key = some ref)
    (hspared : key = protectedKey ∨ (c.objects ref).refreshPromise ≠ none) :
    c'.readable key = c.readable key := by
  have hfind' := h.spared key ref hfind hspared
  have hobjects : c'.objects = c.objects := by rw [h.rest]
  rw [readable_of_find? hfind, readable_of_find? hfind', hobjects]

/-! ## Marking, landing and failing -/

/-- An entry a load may start on: under its key already, or in the map under none. -/
def Startable (c : StaleWhileRefreshCache T) (key : String) (ref : ℕ) : Prop :=
  ref < c.allocated ∧ (c.objects ref).refreshPromise = none ∧
    (∀ promise load, c.loads.find? promise = some load → promise < c.refreshes) ∧
    (c.entries.find? key = some ref ∨
      c.entries.find? key = none ∧ (∀ key', c.entries.find? key' ≠ some ref) ∧ (c.objects ref).value = none)

theorem Startable.other {key' : String} {ref' : ℕ} (h : Startable c key ref) (hc : Wired c)
    (hfind : c.entries.find? key' = some ref') (hkey : key' ≠ key) : ref' ≠ ref := by
  rintro rfl
  obtain ⟨-, -, -, hown | ⟨-, hnone, -⟩⟩ := h
  · exact hkey (hc.apart key' key _ hfind hown)
  · exact hnone key' hfind

@[simp] theorem mark_entries : (c.mark key ref).entries = c.entries.set key ref := rfl

@[simp] theorem mark_loads : (c.mark key ref).loads = c.loads.set c.refreshes ⟨key, ref⟩ := rfl

theorem mark_self : (c.mark key ref).objects ref = { c.objects ref with refreshPromise := some c.refreshes } :=
  Function.update_self ref _ _

theorem mark_ne {ref' : ℕ} (h : ref' ≠ ref) : (c.mark key ref).objects ref' = c.objects ref' :=
  Function.update_of_ne h _ _

theorem Startable.mark_wired (h : Startable c key ref) (hc : Wired c) : Wired (c.mark key ref) := by
  refine ⟨?_, ?_, ?_, ?_, ?_⟩
  · intro key' ref' hfind
    rw [mark_entries, Table.find?_set] at hfind
    split at hfind
    · cases hfind
      exact h.1
    · exact hc.allocated key' ref' hfind
  · intro key₁ key₂ ref' hfind₁ hfind₂
    rw [mark_entries, Table.find?_set] at hfind₁ hfind₂
    split at hfind₁ <;> split at hfind₂
    · next hkey₁ hkey₂ => rw [hkey₁, hkey₂]
    · next hkey₂ =>
      cases hfind₁
      exact absurd rfl (h.other hc hfind₂ hkey₂)
    · next hkey₁ _ =>
      cases hfind₂
      exact absurd rfl (h.other hc hfind₁ hkey₁)
    · exact hc.apart key₁ key₂ ref' hfind₁ hfind₂
  · intro promise load hfind
    rw [mark_loads, Table.find?_set] at hfind
    split at hfind
    · next hpromise =>
      cases hfind
      rw [mark_entries, mark_self, hpromise]
      exact ⟨Table.find?_set_self _ _ _, rfl⟩
    · obtain ⟨hentry, hpromise⟩ := hc.waits promise load hfind
      have hne : load.entry ≠ ref := by
        intro heq
        rw [heq, h.2.1] at hpromise
        cases hpromise
      have hkey : load.key ≠ key := by
        rintro rfl
        obtain ⟨-, -, -, hown | ⟨hnone, -⟩⟩ := h
        · rw [hown] at hentry
          cases hentry
          exact hne rfl
        · rw [hnone] at hentry
          cases hentry
      rw [mark_entries, mark_ne hne, Table.find?_set, if_neg hkey]
      exact ⟨hentry, hpromise⟩
  · intro key' ref' promise hfind hpromise
    rw [mark_entries, Table.find?_set] at hfind
    rw [mark_loads, Table.find?_set]
    split at hfind
    · next hkey =>
      cases hfind
      rw [mark_self] at hpromise
      cases hpromise
      rw [if_pos rfl, hkey]
    · next hkey =>
      rw [mark_ne (h.other hc hfind hkey)] at hpromise
      have hload := hc.pends key' ref' promise hfind hpromise
      rw [if_neg (h.2.2.1 promise _ hload).ne, hload]
  · intro promise load hfind
    rw [mark_loads, Table.find?_set] at hfind
    split at hfind
    · next hpromise => exact hpromise.le
    · exact hc.numbered promise load hfind

theorem Startable.mark_readable (h : Startable c key ref) (hc : Wired c) (key' : String) :
    (c.mark key ref).readable key' = c.readable key' := by
  by_cases hkey : key' = key
  · subst hkey
    have hmark : (c.mark key' ref).entries.find? key' = some ref := Table.find?_set_self _ _ _
    rw [readable_of_find? hmark, mark_self]
    obtain ⟨-, -, -, hown | ⟨hnone, -, hvalue⟩⟩ := h
    · rw [readable_of_find? hown]
    · rw [readable_of_absent hnone, hvalue]
      rfl
  · have hsame : (c.mark key ref).entries.find? key' = c.entries.find? key' := by
      rw [mark_entries, Table.find?_set, if_neg hkey]
    cases hfind : c.entries.find? key' with
    | none => rw [readable_of_absent hfind, readable_of_absent (hsame.trans hfind)]
    | some ref' =>
      rw [readable_of_find? hfind, readable_of_find? (hsame.trans hfind), mark_ne (h.other hc hfind hkey)]

theorem land_object (promise : ℕ) (load : Refresh) (value : Option T) (now : ℤ) :
    (c.land promise load value now).objects load.entry =
      { value := value, asOfMs := some now, lastAccessMs := now, refreshPromise := none, lastError := none } :=
  Function.update_self load.entry _ _

theorem release_object (promise : ℕ) (load : Refresh) (error : String) :
    (c.release promise load error).objects load.entry =
      { c.objects load.entry with lastError := some error, refreshPromise := none } :=
  Function.update_self load.entry _ _

structure Settled (promise : ℕ) (load : Refresh) (c c' : StaleWhileRefreshCache T) : Prop where
  entries : ∀ key, c'.entries.find? key = c.entries.find? key
  loads : c'.loads = c.loads.erase promise
  allocated : c'.allocated = c.allocated
  refreshes : c'.refreshes = c.refreshes
  others : ∀ ref ≠ load.entry, c'.objects ref = c.objects ref
  own : (c'.objects load.entry).refreshPromise = none

theorem land_settled (hc : Wired c) (hload : c.loads.find? promise = some load) (value : Option T) (now : ℤ) :
    Settled promise load c (c.land promise load value now) := by
  refine ⟨fun key => ?_, rfl, rfl, rfl, fun ref href => Function.update_of_ne href _ _, ?_⟩
  · change (c.entries.set load.key load.entry).find? key = _
    rw [Table.find?_set]
    split
    · next hkey => rw [hkey, (hc.waits promise load hload).1]
    · rfl
  · rw [land_object]

theorem release_settled (promise : ℕ) (load : Refresh) (error : String) :
    Settled promise load c (c.release promise load error) :=
  ⟨fun _ => rfl, rfl, rfl, rfl, fun _ href => Function.update_of_ne href _ _, by rw [release_object]⟩

theorem Wired.entry_inj {promise' : ℕ} {load' : Refresh} (hc : Wired c) (h : c.loads.find? promise = some load)
    (h' : c.loads.find? promise' = some load') (heq : load'.entry = load.entry) : promise' = promise := by
  have hpromise := (hc.waits promise load h).2
  have hpromise' := (hc.waits promise' load' h').2
  rw [heq, hpromise] at hpromise'
  exact (Option.some.inj hpromise').symm

theorem Wired.key_inj {promise' : ℕ} {load' : Refresh} (hc : Wired c) (h : c.loads.find? promise = some load)
    (h' : c.loads.find? promise' = some load') (heq : load'.key = load.key) : promise' = promise := by
  refine hc.entry_inj h h' ?_
  have hentry := (hc.waits promise load h).1
  have hentry' := (hc.waits promise' load' h').1
  rw [heq, hentry] at hentry'
  exact (Option.some.inj hentry').symm

theorem Settled.wired (h : Settled promise load c c') (hc : Wired c) (hload : c.loads.find? promise = some load) :
    Wired c' := by
  obtain ⟨hentries, hloads, hallocated, hrefreshes, hothers, hown⟩ := h
  refine ⟨?_, ?_, ?_, ?_, ?_⟩
  · intro key ref hfind
    rw [hallocated]
    exact hc.allocated key ref ((hentries key).symm.trans hfind)
  · intro key key' ref hfind hfind'
    exact hc.apart key key' ref ((hentries key).symm.trans hfind) ((hentries key').symm.trans hfind')
  · intro promise' load' hfind
    rw [hloads, Table.find?_erase] at hfind
    split at hfind
    · cases hfind
    · next hne =>
      obtain ⟨hentry, hpromise⟩ := hc.waits promise' load' hfind
      rw [hentries, hothers _ fun heq => hne (hc.entry_inj hload hfind heq)]
      exact ⟨hentry, hpromise⟩
  · intro key ref promise' hfind hpromise
    rw [hentries] at hfind
    have href : ref ≠ load.entry := by
      rintro rfl
      rw [hown] at hpromise
      cases hpromise
    rw [hothers ref href] at hpromise
    have hother := hc.pends key ref promise' hfind hpromise
    rw [hloads, Table.find?_erase, if_neg, hother]
    rintro rfl
    rw [hload] at hother
    cases hother
    exact href rfl
  · intro promise' load' hfind
    rw [hloads, Table.find?_erase] at hfind
    split at hfind
    · cases hfind
    · rw [hrefreshes]
      exact hc.numbered promise' load' hfind

theorem Settled.readable (h : Settled promise load c c') (hc : Wired c) (hload : c.loads.find? promise = some load)
    (hkey : key ≠ load.key) : c'.readable key = c.readable key := by
  cases hfind : c.entries.find? key with
  | none => rw [readable_of_absent hfind, readable_of_absent ((h.entries key).trans hfind)]
  | some ref =>
    have href : ref ≠ load.entry := by
      rintro rfl
      exact hkey (hc.apart key load.key _ hfind (hc.waits promise load hload).1)
    rw [readable_of_find? hfind, readable_of_find? ((h.entries key).trans hfind), h.others ref href]

/-! ## Failures -/

theorem fail_of_value (hload : c.loads.find? promise = some load) (error : String)
    (hvalue : (c.objects load.entry).value ≠ none) :
    c.fail promise error = c.release promise load error := by
  have hsome : ¬ ((c.release promise load error).objects load.entry).value.isNone := by
    rw [release_object, Option.isNone_iff_eq_none]
    exact hvalue
  simp only [fail, hload]
  rw [if_neg hsome]

theorem fail_of_no_value (hload : c.loads.find? promise = some load) (error : String)
    (hvalue : (c.objects load.entry).value = none) :
    c.fail promise error =
      { c.release promise load error with entries := c.entries.erase load.key } := by
  have hnone : ((c.release promise load error).objects load.entry).value.isNone := by
    rw [release_object, Option.isNone_iff_eq_none]
    exact hvalue
  simp only [fail, hload]
  rw [if_pos hnone]
  rfl

theorem fail_wired (hc : Wired c) (promise : ℕ) (error : String) : Wired (c.fail promise error) := by
  cases hload : c.loads.find? promise with
  | none =>
    simp only [fail, hload]
    exact hc
  | some load =>
    have hreleased := (release_settled promise load error).wired hc hload
    by_cases hvalue : (c.objects load.entry).value = none
    · rw [fail_of_no_value hload error hvalue]
      refine hreleased.shrink (fun key ref hfind => ?_) fun key ref hfind hbusy => ?_
      · rw [Table.find?_erase] at hfind
        split at hfind
        · cases hfind
        · exact hfind
      · rw [Table.find?_erase, if_neg, ← hfind]
        · rfl
        rintro rfl
        rw [(release_settled promise load error).entries, (hc.waits promise load hload).1] at hfind
        cases hfind
        exact hbusy (release_settled promise load error).own
    · rw [fail_of_value hload error hvalue]
      exact hreleased

theorem fail_readable (hc : Wired c) (promise : ℕ) (error : String) (key : String) :
    (c.fail promise error).readable key = c.readable key := by
  cases hload : c.loads.find? promise with
  | none => simp only [fail, hload]
  | some load =>
    have hsettled := release_settled (c := c) promise load error
    have hentry := (hc.waits promise load hload).1
    by_cases hkey : key = load.key
    · subst hkey
      rw [readable_of_find? hentry]
      by_cases hvalue : (c.objects load.entry).value = none
      · rw [fail_of_no_value hload error hvalue, hvalue, readable_of_absent]
        · rfl
        · exact (Table.find?_erase _ _ _).trans (if_pos rfl)
      · rw [fail_of_value hload error hvalue, readable_of_find? ((hsettled.entries _).trans hentry), release_object]
    · rw [← hsettled.readable hc hload hkey]
      by_cases hvalue : (c.objects load.entry).value = none
      · rw [fail_of_no_value hload error hvalue]
        have hsame : (c.entries.erase load.key).find? key = c.entries.find? key := by
          rw [Table.find?_erase, if_neg hkey]
        simp only [readable, entryAt]
        rw [hsame]
        rfl
      · rw [fail_of_value hload error hvalue]

/-! ## What one event does -/

def Loads (c : StaleWhileRefreshCache T) (event : Event T) (key : String) : Prop :=
  ∃ promise value now load, event = .succeeded promise value now ∧ c.loads.find? promise = some load ∧ load.key = key

def Ends (event : Event T) (promise : ℕ) : Prop :=
  (∃ value now, event = .succeeded promise value now) ∨ ∃ error, event = .failed promise error

inductive Change (options : CacheOptions) (c : StaleWhileRefreshCache T) : Event T → StaleWhileRefreshCache T → Prop where
  | quiet {event c'} (same : SameWiring c c') (ends : ∀ promise, Ends event promise → c.loads.find? promise = none) :
    Change options c event c'
  | started {event c₁ key ref} (same : SameWiring c c₁) (later : c.refreshes < c₁.refreshes)
    (startable : Startable c₁ key ref) (ends : ∀ promise, ¬ Ends event promise) :
    Change options c event (prune options key (c₁.mark key ref))
  | landed {promise value now load} (inFlight : c.loads.find? promise = some load) :
    Change options c (.succeeded promise value now) (prune options load.key (c.land promise load value now))
  | failed {promise error load} (inFlight : c.loads.find? promise = some load) :
    Change options c (.failed promise error) (c.fail promise error)

theorem lookup_spec (hc : Wired c) (key : String) (now : ℤ) :
    SameWiring c (c.lookup key now).1 ∧ (c.lookup key now).2 < (c.lookup key now).1.allocated ∧
      (c.lookup key now).1.refreshes = c.refreshes ∧
      (c.entries.find? key = some (c.lookup key now).2 ∨
        c.entries.find? key = none ∧ (∀ key', c.entries.find? key' ≠ some (c.lookup key now).2) ∧
          ((c.lookup key now).1.objects (c.lookup key now).2).value = none) := by
  cases hfind : c.entries.find? key with
  | some ref =>
    simp only [lookup, hfind]
    exact ⟨.refl c, hc.allocated key ref hfind, trivial, .inl trivial⟩
  | none =>
    simp only [lookup, hfind]
    have hother {ref : ℕ} (href : ref < c.allocated) :
        Function.update c.objects c.allocated { lastAccessMs := now } ref = c.objects ref :=
      Function.update_of_ne href.ne _ _
    refine ⟨⟨rfl, rfl, Nat.le_succ _, le_rfl, fun ref href => ?_, fun ref href => ?_⟩, Nat.lt_succ_self _, trivial,
      .inr ⟨trivial, fun key' hfind' => ?_, ?_⟩⟩
    · exact congrArg CacheEntry.refreshPromise (hother href)
    · exact ⟨congrArg CacheEntry.value (hother href), congrArg CacheEntry.asOfMs (hother href)⟩
    · exact lt_irrefl _ (hc.allocated key' _ hfind')
    · rw [Function.update_self]

theorem startRefresh_change {event : Event T} (hc : Wired c) (hbase : SameWiring c c') (key : String) (now : ℤ)
    (start : Load) (ends : ∀ promise, ¬ Ends event promise) :
    Change options c event (startRefresh options c' key now start).1 := by
  have hc' := hbase.wired hc
  obtain ⟨hlookup, hallocated, hrefreshes, hplace⟩ := lookup_spec hc' key now
  rcases hfound : c'.lookup key now with ⟨c₁, ref⟩
  rw [hfound] at hlookup hallocated hrefreshes hplace
  have htouch := hlookup.trans (sameWiring_touch c₁ ref now)
  simp only [startRefresh, hfound]
  split
  · exact .quiet (hbase.trans htouch) fun promise hends => absurd hends (ends promise)
  · next hidle =>
    have hcounted := htouch.trans (sameWiring_counters _ c₁.hits c₁.misses c₁.staleHits (Nat.le_succ c₁.refreshes))
    cases start with
    | throws message => exact .quiet (hbase.trans hcounted) fun promise hends => absurd hends (ends promise)
    | promise =>
      refine .started (hbase.trans hcounted) ?_ ⟨hallocated, hidle, fun promise load hfind => ?_, ?_⟩ ends
      · exact Nat.lt_succ_of_le (hbase.refreshes.trans hrefreshes.ge)
      · exact Nat.lt_succ_of_le ((hlookup.wired hc').numbered promise load hfind)
      · rw [hcounted.entries]
        refine hplace.imp_right fun ⟨hnone, hfresh, hvalue⟩ => ⟨hnone, hfresh, ?_⟩
        change ((c₁.write ref fun entry => { entry with lastAccessMs := now }).objects ref).value = none
        rw [write_self]
        exact hvalue

theorem perform_change (hc : Wired c) (event : Event T) : Change options c event (perform options c event) := by
  cases event with
  | get key now startedAt start =>
    have ends : ∀ promise, ¬ Ends (.get key now startedAt start : Event T) promise := by
      rintro promise (⟨value, now', h⟩ | ⟨error, h⟩) <;> cases h
    simp only [perform, get]
    split
    · next ref value asOfMs hfind hread =>
      have htouch := (sameWiring_counters c (c.hits + 1) c.misses c.staleHits le_rfl).trans (sameWiring_touch _ ref now)
      split
      · exact startRefresh_change hc
          (htouch.trans (sameWiring_counters _ (c.hits + 1) c.misses (c.staleHits + 1) le_rfl)) key startedAt start ends
      · exact .quiet htouch fun promise hends => absurd hends (ends promise)
    · exact startRefresh_change hc (sameWiring_counters c c.hits (c.misses + 1) c.staleHits le_rfl) key startedAt start
        ends
  | warm key now startedAt start =>
    have ends : ∀ promise, ¬ Ends (.warm key now startedAt start : Event T) promise := by
      rintro promise (⟨value, now', h⟩ | ⟨error, h⟩) <;> cases h
    simp only [perform, warm]
    split
    · exact .quiet (.refl c) fun promise hends => absurd hends (ends promise)
    · exact startRefresh_change hc (.refl c) key startedAt start ends
  | succeeded promise value now =>
    simp only [perform, succeed]
    split
    · next hnone =>
      refine .quiet (.refl c) fun promise' hends => ?_
      obtain ⟨value', now', h⟩ | ⟨error, h⟩ := hends
      · cases h
        exact hnone
      · cases h
    · next load hload => exact .landed hload
  | failed promise error =>
    cases hload : c.loads.find? promise with
    | none =>
      simp only [perform, fail, hload]
      refine .quiet (.refl c) fun promise' hends => ?_
      obtain ⟨value', now', h⟩ | ⟨error', h⟩ := hends
      · cases h
      · cases h
        exact hload
    | some load => exact .failed hload

theorem Change.wired {event : Event T} (h : Change options c event c') (hc : Wired c) : Wired c' := by
  cases h with
  | quiet same _ => exact same.wired hc
  | @started _ c₁ key ref same _ startable _ =>
    exact (prune_from key _).wired (startable.mark_wired (same.wired hc))
  | @landed promise value now load inFlight =>
    exact (prune_from load.key _).wired ((land_settled hc inFlight value now).wired hc inFlight)
  | @failed promise error load _ => exact fail_wired hc promise error

theorem PrunedFrom.loads {protectedKey : String} (h : PrunedFrom protectedKey c c') : c'.loads = c.loads := by
  rw [h.rest]

theorem fail_loads (hload : c.loads.find? promise = some load) (error : String) :
    (c.fail promise error).loads = c.loads.erase promise := by
  by_cases hvalue : (c.objects load.entry).value = none
  · rw [fail_of_no_value hload error hvalue]
    rfl
  · rw [fail_of_value hload error hvalue]
    rfl

theorem not_ends_of_ne {event : Event T} {promise' : ℕ} (h : Ends event promise') (hne : promise ≠ promise') :
    ¬ Ends event promise := by
  obtain ⟨value, now, rfl⟩ | ⟨error, rfl⟩ := h <;>
    rintro (⟨value', now', heq⟩ | ⟨error', heq⟩) <;> cases heq <;> exact hne rfl

theorem Change.load_kept {event : Event T} (h : Change options c event c') (hafter : c'.loads.find? promise = some load)
    (hold : promise ≤ c.refreshes) : c.loads.find? promise = some load ∧ ¬ Ends event promise := by
  cases h with
  | quiet same ends =>
    rw [same.loads] at hafter
    refine ⟨hafter, fun hends => ?_⟩
    rw [ends promise hends] at hafter
    cases hafter
  | @started _ c₁ key ref same later startable ends =>
    rw [(prune_from key _).loads, mark_loads, Table.find?_set, if_neg (hold.trans_lt later).ne, same.loads] at hafter
    exact ⟨hafter, ends promise⟩
  | @landed promise' value now load' inFlight =>
    rw [(prune_from load'.key _).loads] at hafter
    change (c.loads.erase promise').find? promise = some load at hafter
    rw [Table.find?_erase] at hafter
    split at hafter
    · cases hafter
    · next hne => exact ⟨hafter, not_ends_of_ne (.inl ⟨value, now, rfl⟩) hne⟩
  | @failed promise' error load' inFlight =>
    rw [fail_loads inFlight, Table.find?_erase] at hafter
    split at hafter
    · cases hafter
    · next hne => exact ⟨hafter, not_ends_of_ne (.inr ⟨error, rfl⟩) hne⟩

theorem PrunedFrom.readable_of_some {protectedKey : String} {x : T × ℤ} (h : PrunedFrom protectedKey c c')
    (hx : c'.readable key = some x) : c.readable key = some x := by
  cases hfind : c'.entries.find? key with
  | none =>
    rw [readable_of_absent hfind] at hx
    cases hx
  | some ref =>
    have hobjects : c'.objects = c.objects := by rw [h.rest]
    rw [readable_of_find? hfind, hobjects] at hx
    rw [readable_of_find? (h.kept key ref hfind)]
    exact hx

theorem land_readable (hc : Wired c) (hload : c.loads.find? promise = some load) (value : Option T) (now : ℤ) :
    (prune options load.key (c.land promise load value now)).readable load.key = value.map fun v => (v, now) := by
  have hsettled := land_settled hc hload value now
  have hentry := (hsettled.entries load.key).trans (hc.waits promise load hload).1
  rw [(prune_from load.key _).readable hentry (.inl rfl), readable_of_find? hentry, land_object]
  cases value <;> rfl

theorem Change.readable_of_some {event : Event T} {x : T × ℤ} (h : Change options c event c') (hc : Wired c)
    (hx : c'.readable key = some x) :
    (¬ Loads c event key ∧ c.readable key = some x) ∨
      ∃ promise load, event = .succeeded promise (some x.1) x.2 ∧ c.loads.find? promise = some load ∧
        load.key = key := by
  cases h with
  | quiet same ends =>
    rw [same.readable hc] at hx
    refine .inl ⟨?_, hx⟩
    rintro ⟨promise, value, now, load, rfl, hload, -⟩
    rw [ends promise (.inl ⟨value, now, rfl⟩)] at hload
    cases hload
  | @started _ c₁ key' ref same _ startable ends =>
    have hmarked := (prune_from key' _).readable_of_some hx
    rw [startable.mark_readable (same.wired hc), same.readable hc] at hmarked
    refine .inl ⟨?_, hmarked⟩
    rintro ⟨promise, value, now, load, rfl, -⟩
    exact ends promise (.inl ⟨value, now, rfl⟩)
  | @landed promise value now load inFlight =>
    by_cases hkey : key = load.key
    · subst hkey
      rw [land_readable hc inFlight] at hx
      obtain ⟨v, rfl, rfl⟩ := Option.map_eq_some_iff.mp hx
      exact .inr ⟨promise, load, rfl, inFlight, rfl⟩
    · have hlanded := (prune_from load.key _).readable_of_some hx
      rw [(land_settled hc inFlight value now).readable hc inFlight hkey] at hlanded
      refine .inl ⟨?_, hlanded⟩
      rintro ⟨promise', value', now', load', heq, hload', rfl⟩
      cases heq
      rw [inFlight] at hload'
      cases hload'
      exact hkey rfl
  | @failed promise error load inFlight =>
    rw [fail_readable hc] at hx
    refine .inl ⟨?_, hx⟩
    rintro ⟨promise', value, now, load', heq, -⟩
    cases heq

theorem Change.readable_of_refreshing {event : Event T} (h : Change options c event c') (hc : Wired c)
    (hload : c.loads.find? promise = some load) (hends : ¬ Ends event promise) :
    c'.readable load.key = c.readable load.key := by
  obtain ⟨hentry, hpromise⟩ := hc.waits promise load hload
  cases h with
  | quiet same _ => exact same.readable hc load.key
  | @started _ c₁ key ref same later startable _ =>
    have hc₁ := same.wired hc
    have hmarked := startable.mark_wired hc₁
    have hkept : (c₁.mark key ref).loads.find? promise = some load := by
      rw [mark_loads, Table.find?_set, if_neg ((hc.numbered promise load hload).trans_lt later).ne, same.loads, hload]
    obtain ⟨hentry', hpromise'⟩ := hmarked.waits promise load hkept
    rw [(prune_from key _).readable hentry' (.inr (by rw [hpromise']; exact Option.some_ne_none _)),
      startable.mark_readable hc₁, same.readable hc]
  | @landed promise' value now load' inFlight =>
    have hsettled := land_settled hc inFlight value now
    have hne : promise ≠ promise' := by
      rintro rfl
      exact hends (.inl ⟨value, now, rfl⟩)
    have hkept : (c.land promise' load' value now).loads.find? promise = some load := by
      rw [hsettled.loads, Table.find?_erase, if_neg hne, hload]
    obtain ⟨hentry', hpromise'⟩ := (hsettled.wired hc inFlight).waits promise load hkept
    rw [(prune_from load'.key _).readable hentry' (.inr (by rw [hpromise']; exact Option.some_ne_none _)),
      hsettled.readable hc inFlight fun hkey => hne (hc.key_inj inFlight hload hkey)]
  | @failed promise' error load' _ => exact fail_readable hc promise' error load.key

theorem Change.refreshes_le {event : Event T} (h : Change options c event c') : c.refreshes ≤ c'.refreshes := by
  cases h with
  | quiet same _ => exact same.refreshes
  | @started _ c₁ key ref _ later _ _ =>
    rw [(prune_from key _).rest]
    exact later.le
  | @landed _ _ _ load _ =>
    rw [(prune_from load.key _).rest]
    exact le_rfl
  | @failed promise error load inFlight =>
    by_cases hvalue : (c.objects load.entry).value = none
    · rw [fail_of_no_value inFlight error hvalue]
      exact le_rfl
    · rw [fail_of_value inFlight error hvalue]
      exact le_rfl

/-! ## The number of entries -/

/-- A failure that ends the last load leaves no more entries than the map may hold: entries that went over the limit while
they were being refreshed are not pruned here. -/
def FitsFailure (options : CacheOptions) (c : StaleWhileRefreshCache T) : Event T → Prop
  | .failed promise _ => ∀ load, c.loads.rows = [(promise, load)] →
    c.stats.size ≤ options.maxEntries + if (c.objects load.entry).value = none then 1 else 0
  | _ => True

theorem fail_size (hc : Wired c) (hload : c.loads.find? promise = some load) (error : String) :
    (c.fail promise error).stats.size ≤ options.maxEntries ↔
      c.stats.size ≤ options.maxEntries + if (c.objects load.entry).value = none then 1 else 0 := by
  by_cases hvalue : (c.objects load.entry).value = none
  · have herase := Table.length_erase (hc.waits promise load hload).1
    rw [fail_of_no_value hload error hvalue, if_pos hvalue]
    simp only [stats]
    omega
  · rw [fail_of_value hload error hvalue, if_neg hvalue]
    rfl

theorem Change.size_le {event : Event T} (h : Change options c event c') (hc : Wired c) (hidle : c'.loads.rows = [])
    (hbefore : c.loads.rows = [] → c.stats.size ≤ options.maxEntries) (hfits : FitsFailure options c event) :
    c'.stats.size ≤ options.maxEntries := by
  cases h with
  | quiet same _ =>
    rw [same.loads] at hidle
    have hsize := hbefore hidle
    simp only [stats] at hsize ⊢
    rw [same.entries]
    exact hsize
  | @started _ c₁ key ref _ _ _ _ =>
    rw [(prune_from key _).loads] at hidle
    exact absurd hidle (Table.set_ne_empty _ _ _)
  | @landed promise value now load inFlight =>
    have hwired := (@prune_from _ options load.key _).wired
      ((land_settled hc inFlight value now).wired hc inFlight)
    obtain hsize | honly := @prune_pruned _ options load.key (c.land promise load value now)
    · exact hsize
    · have hone : (prune options load.key (c.land promise load value now)).entries.rows.length ≤ 1 := by
        refine Table.length_le_one (k := load.key) fun row hrow => ?_
        obtain ⟨key, ref⟩ := row
        obtain hkey | hbusy := honly key ref (Table.find?_of_mem hrow)
        · exact hkey
        · obtain ⟨promise', hpromise'⟩ := Option.ne_none_iff_exists'.mp hbusy
          have hpending := hwired.pends key ref promise' (Table.find?_of_mem hrow) hpromise'
          have hmem := Table.mem_of_find? hpending
          rw [hidle] at hmem
          cases hmem
      exact hone.trans options.maxEntries_pos
  | @failed promise error load inFlight =>
    rw [fail_loads inFlight] at hidle
    exact (fail_size hc inFlight error).mpr (hfits load (Table.rows_of_erase_empty inFlight hidle))

/-! ## Runs -/

theorem execute_wired (options : CacheOptions) (events : List (Event T)) : Wired (execute options events) := by
  induction events using List.reverseRecOn with
  | nil => exact wired_empty
  | append_singleton events event ih =>
    rw [execute_concat]
    exact (perform_change ih event).wired ih

/-- The value of the last load of a key that succeeded, and when it came. -/
inductive LastLoaded (options : CacheOptions) (key : String) (x : T × ℤ) : List (Event T) → Prop where
  | here {events promise load} (inFlight : (execute options events).loads.find? promise = some load)
    (key_eq : load.key = key) : LastLoaded options key x (events ++ [.succeeded promise (some x.1) x.2])
  | later {events event} (loaded : LastLoaded options key x events)
    (other : ¬ Loads (execute options events) event key) : LastLoaded options key x (events ++ [event])

theorem readable_lastLoaded {x : T × ℤ} (events : List (Event T)) (hx : (execute options events).readable key = some x) :
    LastLoaded options key x events := by
  induction events using List.reverseRecOn with
  | nil => cases hx
  | append_singleton events event ih =>
    have hc := execute_wired options events
    rw [execute_concat] at hx
    obtain ⟨hother, hread⟩ | ⟨promise, load, rfl, hload, hkey⟩ := (perform_change hc event).readable_of_some hc hx
    · exact .later (ih hread) hother
    · exact .here hload hkey

theorem execute_readable (before between : List (Event T))
    (hbefore : (execute options before).loads.find? promise = some load)
    (hafter : (execute options (before ++ between)).loads.find? promise = some load) :
    (execute options (before ++ between)).readable load.key = (execute options before).readable load.key := by
  have hnumber : ∀ more : List (Event T), promise ≤ (execute options (before ++ more)).refreshes := by
    intro more
    induction more using List.reverseRecOn with
    | nil =>
      rw [List.append_nil]
      exact (execute_wired options before).numbered promise load hbefore
    | append_singleton more event ih =>
      rw [← List.append_assoc, execute_concat]
      exact ih.trans (perform_change (execute_wired options _) event).refreshes_le
  induction between using List.reverseRecOn with
  | nil => rw [List.append_nil]
  | append_singleton between event ih =>
    have hc := execute_wired options (before ++ between)
    rw [← List.append_assoc, execute_concat] at hafter ⊢
    have hchange : Change options _ event _ := perform_change hc event
    obtain ⟨hload, hends⟩ := hchange.load_kept hafter (hnumber between)
    rw [hchange.readable_of_refreshing hc hload hends]
    exact ih hload

/-- Single flight, values that survive a failure, and the limit on the entries whenever nothing is in flight. -/
structure Upholds (options : CacheOptions) (events : List (Event T)) : Prop where
  singleFlight : ∀ run, run <+: events → ∀ promise promise' load load',
    (execute options run).loads.find? promise = some load → (execute options run).loads.find? promise' = some load' →
    load.key = load'.key → promise = promise'
  keepsLastLoaded : ∀ before between promise load error, before ++ between ++ [.failed promise error] <+: events →
    (execute options before).loads.find? promise = some load →
    (execute options (before ++ between)).loads.find? promise = some load → ∀ x,
    (execute options before).readable load.key = some x →
    LastLoaded options load.key x (before ++ between) ∧
      (execute options (before ++ between ++ [.failed promise error])).readable load.key = some x
  keepsOthers : ∀ run promise error, run ++ [.failed promise error] <+: events → ∀ key,
    (execute options (run ++ [.failed promise error])).readable key = (execute options run).readable key
  bounded : ∀ run, run <+: events → (execute options run).loads.rows = [] →
    (execute options run).stats.size ≤ options.maxEntries

theorem execute_bounded (events : List (Event T))
    (hfits : ∀ run event, run ++ [event] <+: events → FitsFailure options (execute options run) event)
    (hidle : (execute options events).loads.rows = []) : (execute options events).stats.size ≤ options.maxEntries := by
  induction events using List.reverseRecOn with
  | nil => exact Nat.zero_le _
  | append_singleton events event ih =>
    have hc := execute_wired options events
    rw [execute_concat] at hidle ⊢
    refine (perform_change hc event).size_le hc hidle (ih fun run event' hrun => hfits run event' ?_)
      (hfits events event (List.prefix_refl _))
    exact hrun.trans (List.prefix_append _ _)

/-- Every run loads a key once at a time and keeps its values; it keeps to the limit exactly when no failure that ends the last
load in flight finds too many entries. -/
theorem upholds_iff (options : CacheOptions) (events : List (Event T)) :
    Upholds options events ↔
      ∀ run event, run ++ [event] <+: events → FitsFailure options (execute options run) event := by
  constructor
  · intro h run event hrun
    cases event with
    | failed promise error =>
      intro load hrows
      have hload : (execute options run).loads.find? promise = some load :=
        Table.find?_of_mem (by rw [hrows]; exact List.mem_singleton_self _)
      have hc := execute_wired options run
      have hidle : (execute options (run ++ [.failed promise error])).loads.rows = [] := by
        rw [execute_concat]
        change ((execute options run).fail promise error).loads.rows = []
        rw [fail_loads hload]
        simp [Table.erase, hrows]
      have hsize := h.bounded _ hrun hidle
      rw [execute_concat] at hsize
      exact (fail_size hc hload error).mp hsize
    | get key now startedAt start => trivial
    | warm key now startedAt start => trivial
    | succeeded promise value now => trivial
  · intro hfits
    refine ⟨?_, ?_, ?_, ?_⟩
    · intro run _ promise promise' load load' hload hload' hkey
      exact (execute_wired options run).key_inj hload' hload hkey
    · intro before between promise load error _ hbefore hafter x hx
      have hread := (execute_readable before between hbefore hafter).trans hx
      refine ⟨readable_lastLoaded _ hread, ?_⟩
      rw [execute_concat]
      exact (fail_readable (execute_wired options _) promise error load.key).trans hread
    · intro run promise error _ key
      rw [execute_concat]
      exact fail_readable (execute_wired options run) promise error key
    · intro run hrun hidle
      exact execute_bounded run (fun run' event hrun' => hfits run' event (hrun'.trans hrun)) hidle

def oneEntry : CacheOptions := ⟨10, 1, by decide, by decide⟩

def failedRefresh : List (Event ℕ) :=
  [.get "a" 0 0 .promise, .succeeded 1 (some 7) 0, .get "a" 20 20 .promise, .get "b" 21 21 .promise,
    .succeeded 3 (some 8) 22, .failed 2 "refresh unavailable"]

theorem two_entries_left : ¬ Upholds oneEntry failedRefresh := by
  intro h
  have hsize := h.bounded failedRefresh (List.prefix_refl _) (by decide +kernel)
  revert hsize
  decide +kernel

end StaleWhileRefreshCache

end XFoilFoam.Caches
