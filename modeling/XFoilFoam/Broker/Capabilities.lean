import XFoilFoam.Broker.Ledger
import Mathlib.Order.Nat

/-! The capabilities that calls have returned, where no call replaces an entry it has not decided on. -/
namespace XFoilFoam.Broker
set_option autoImplicit false

variable {Identity : Type} {valid : Identity → Url → Bool} {w w' : World Identity}

/-! ## What every entry says, and what every call relies on -/

/-- A capability is in the entries that are good for one, and is one of their evidence. -/
def Entry.Shaped (valid : Identity → Url → Bool) (entry : Entry Identity) : Prop :=
  ∀ u, entry.uploadUrl = some u → (entry.state = .issued ∨ entry.state = .registered) ∧ valid entry.identity u = true

def Shaped (valid : Identity → Url → Bool) (w : World Identity) : Prop := ∀ entry, w.ledger = some entry → entry.Shaped valid

def Accounted (u : Url) (w : World Identity) : Prop :=
  u ∈ w.cancelled ∨ u ∈ w.settled ∨ ∃ entry, w.ledger = some entry ∧ entry.uploadUrl = some u

def epochOf (w : World Identity) : ℕ := (w.ledger.map fun entry => entry.sessionEpoch).getD 0

theorem epochOf_some {entry : Entry Identity} (h : w.ledger = some entry) : epochOf w = entry.sessionEpoch := by
  rw [epochOf, h, Option.map_some, Option.getD_some]

theorem shaped_of_none {entry : Entry Identity} (h : entry.uploadUrl = none) : entry.Shaped valid := by
  intro u hu
  rw [h] at hu
  cases hu

theorem epochOf_le_getD (w : World Identity) : epochOf w ≤ (w.ledger.map fun entry => entry.sessionEpoch).getD 1 := by
  rw [epochOf]
  cases w.ledger with
  | none => exact Nat.zero_le 1
  | some entry => exact le_rfl

def Seen (w : World Identity) : Prop := w.unseen = []

structure Rely (w w' : World Identity) : Prop where
  accounted : ∀ u, Accounted u w → Accounted u w'
  epoch : epochOf w ≤ epochOf w'
  cancelled : ∀ u ∈ w.cancelled, u ∈ w'.cancelled

theorem Rely.refl (w : World Identity) : Rely w w := ⟨fun _ => id, le_rfl, fun _ => id⟩

theorem Rely.trans {w'' : World Identity} (h : Rely w w') (h' : Rely w' w'') : Rely w w'' :=
  ⟨fun u hu => h'.accounted u (h.accounted u hu), h.epoch.trans h'.epoch, fun u hu => h'.cancelled u (h.cancelled u hu)⟩

def Returns (r : Except Raised Outcome) (w : World Identity) : Prop := ∀ u expiry, r = .ok (.session u expiry) → Accounted u w

theorem returns_of {r : Except Raised Outcome} (hr : ∀ u expiry, r ≠ .ok (.session u expiry)) : Returns r w :=
  fun u expiry h => absurd h (hr u expiry)

variable [DecidableEq Identity]

abbrev Kept {α : Type} (valid : Identity → Url → Bool) (Q : Except Raised α → World Identity → Prop) (t : Act Identity α)
    (w : World Identity) : Prop :=
  t.Keeps Seen (Shaped valid) Rely Rely Q w

/-! ## The writes -/

section Writes
variable {α : Type} {Q : Except Raised α → World Identity → Prop} {seen payload : Entry Identity}

omit [DecidableEq Identity] in
theorem kept_read {k : Option (Entry Identity) → Act Identity α}
    (h : ∀ w', Rely w w' → Shaped valid w' → Kept valid Q (k w'.ledger) w') : Kept valid Q (readLedger.bind k) w :=
  Task.Keeps.read Rely.refl h

theorem ledger_of_seen (h : (if w.ledger = some seen then w.unseen else w.unseen ++ [w.ledger]) = []) : w.ledger = some seen := by
  by_contra hother
  rw [if_neg hother] at h
  exact List.append_ne_nil_of_right_ne_nil _ (List.cons_ne_nil _ _) h

theorem kept_write {k : Unit → Act Identity α} (hshaped : payload.Shaped valid)
    (hepoch : seen.sessionEpoch ≤ payload.sessionEpoch)
    (hkeeps : ∀ w', Rely w w' → seen.Shaped valid → ∀ u, seen.uploadUrl = some u → u ∈ w'.cancelled ∨ payload.uploadUrl = some u)
    (hk : ∀ w', w'.ledger = some payload → Kept valid Q (k ()) w') :
    Kept valid Q ((writeLedger seen payload).bind k) w := by
  refine Task.Keeps.modify fun w₁ h₁ hshaped₁ hallowed => ?_
  have hseen := ledger_of_seen hallowed
  refine ⟨fun entry hentry => ?_, ⟨fun u hu => ?_, ?_, fun _ => id⟩, hk _ rfl⟩
  · cases hentry
    exact hshaped
  · obtain hcancelled | hsettled | ⟨entry, hentry, hurl⟩ := hu
    · exact .inl hcancelled
    · exact .inr (.inl hsettled)
    · rw [hseen] at hentry
      cases hentry
      obtain hcancelled | hkept := hkeeps w₁ h₁ (hshaped₁ seen hseen) u hurl
      · exact .inl hcancelled
      · exact .inr (.inr ⟨payload, rfl, hkept⟩)
  · rw [epochOf_some hseen]
    exact hepoch

theorem kept_writeSettled {k : Unit → Act Identity α} (hnone : payload.uploadUrl = none)
    (hepoch : seen.sessionEpoch ≤ payload.sessionEpoch) (hk : ∀ w', Kept valid Q (k ()) w') :
    Kept valid Q ((writeSettled seen payload).bind k) w := by
  refine Task.Keeps.modify fun w₁ h₁ hshaped₁ hallowed => ?_
  have hseen := ledger_of_seen hallowed
  refine ⟨fun entry hentry u hu => ?_, ⟨fun u hu => ?_, ?_, fun _ => id⟩, hk _⟩
  · cases hentry
    rw [hnone] at hu
    cases hu
  · obtain hcancelled | hsettled | ⟨entry, hentry, hurl⟩ := hu
    · exact .inl hcancelled
    · exact .inr (.inl (List.mem_append_left _ hsettled))
    · rw [hseen] at hentry
      cases hentry
      exact .inr (.inl (List.mem_append_right _ (Option.mem_toList.mpr hurl)))
  · rw [epochOf_some hseen]
    exact hepoch

end Writes

/-! ## The calls -/

section Calls
variable {identity : Identity} {s : Surroundings} {seen : Entry Identity} {epoch : ℕ}

theorem kept_request (hnone : seen.uploadUrl = none) (hepoch : seen.sessionEpoch ≤ epoch) :
    Kept valid Returns (requestSession valid identity s epoch seen) w := by
  have hbare {seen : Entry Identity} (hseen : seen.uploadUrl = none) (payload : Entry Identity) (w' : World Identity)
      (u : Url) (hu : seen.uploadUrl = some u) : u ∈ w'.cancelled ∨ payload.uploadUrl = some u := by
    rw [hseen] at hu
    cases hu
  refine kept_write (shaped_of_none rfl) hepoch (fun w' _ _ => hbare hnone _ w') fun w₁ _ => ?_
  cases s.creation with
  | fails reason =>
    refine kept_write (shaped_of_none rfl) (Nat.le_refl _) (fun w' _ _ => hbare rfl _ w') fun w₂ _ => ?_
    exact fun w₃ _ _ => returns_of fun _ _ h => by cases h
  | answers =>
    refine Task.Keeps.update fun w₂ _ hshaped₂ _ => ⟨hshaped₂, ⟨fun _ => id, le_rfl, fun _ => id⟩, ?_⟩
    dsimp only
    split
    · refine kept_write (shaped_of_none rfl) (Nat.le_refl _) (fun w' _ _ => hbare rfl _ w') fun w₃ _ => ?_
      exact fun w₄ _ _ => returns_of fun _ _ h => by cases h
    · rename_i hvalid
      refine kept_write (fun u hu => ?_) le_rfl (fun w' _ _ => hbare rfl _ w') fun w₃ hledger => ?_
      · cases hu
        exact ⟨.inl rfl, by simpa using hvalid⟩
      · rintro w₄ h₄ - u expiry hr
        cases hr
        exact h₄.accounted _ (.inr (.inr ⟨_, hledger, rfl⟩))

theorem kept_inspect {replay : Option (Url × ℕ)} (hnone : replay = none → seen.uploadUrl = none)
    (hreplay : ∀ url expiry, replay = some (url, expiry) → Accounted url w) (hepoch : seen.sessionEpoch ≤ epochOf w) :
    Kept valid Returns (inspectObject valid identity s replay seen) w := by
  unfold inspectObject
  split
  · exact fun w₁ _ _ => returns_of fun _ _ h => by cases h
  refine kept_read fun w₁ h₁ _ => ?_
  have hepoch₁ : seen.sessionEpoch ≤ (w₁.ledger.map fun entry => entry.sessionEpoch).getD 1 :=
    hepoch.trans (h₁.epoch.trans (epochOf_le_getD w₁))
  dsimp only
  split
  · rename_i url expiry _
    rintro w₂ h₂ - u expiry' hr
    cases hr
    exact h₂.accounted _ (h₁.accounted _ (hreplay _ _ rfl))
  · exact fun w₂ _ _ => returns_of fun _ _ h => by cases h
  · refine kept_write (shaped_of_none rfl) hepoch₁ (fun w' _ _ u hu => ?_) fun w₂ _ w₃ _ _ => returns_of fun _ _ h => by cases h
    rw [hnone rfl] at hu
    cases hu
  · exact fun w₂ _ _ => returns_of fun _ _ h => by cases h
  · exact kept_writeSettled rfl hepoch₁ fun w₂ w₃ _ _ => returns_of fun _ _ h => by cases h
  · exact kept_request (hnone rfl) hepoch₁

theorem kept_createLedger {payload : Entry Identity} (hnone : payload.uploadUrl = none) :
    Kept valid (fun r w' => r = .ok () → payload.sessionEpoch ≤ epochOf w') (createLedger payload) w := by
  refine Task.Keeps.update fun w₁ _ hshaped₁ _ => ?_
  cases hledger : w₁.ledger with
  | none =>
    have hepoch : epochOf w₁ = 0 := by
      rw [epochOf, hledger]
      rfl
    refine ⟨fun entry hentry => ?_, ⟨fun u hu => ?_, hepoch.trans_le (Nat.zero_le _), fun _ => id⟩,
      fun w₂ h₂ _ _ => h₂.epoch⟩
    · cases hentry
      exact shaped_of_none hnone
    · obtain hcancelled | hsettled | ⟨entry, hentry, -⟩ := hu
      · exact .inl hcancelled
      · exact .inr (.inl hsettled)
      · rw [hledger] at hentry
        cases hentry
  | some found =>
    refine ⟨hshaped₁, Rely.refl w₁, kept_read fun w₂ _ _ => ?_⟩
    split
    · exact fun _ _ _ h => by cases h
    · rename_i hsame
      rw [not_not] at hsame
      exact fun w₃ h₃ _ _ => (epochOf_some hsame).ge.trans h₃.epoch

theorem kept_create : Kept valid Returns (createBrokeredUploadSession valid identity s) w := by
  refine kept_read fun w₁ h₁ hshaped₁ => ?_
  have hraised (w : World Identity) (e : Raised) : Kept valid Returns (.raised e : Act Identity Outcome) w :=
    fun _ _ _ => returns_of fun _ _ h => by cases h
  have hverified (w : World Identity) (generation : ℤ) :
      Kept valid Returns (.done (.verified generation) : Act Identity Outcome) w :=
    fun _ _ _ => returns_of fun _ _ h => by cases h
  cases hledger : w₁.ledger with
  | none =>
    refine (kept_createLedger rfl).bind Rely.refl (fun _ w₂ _ hepoch => ?_) fun e _ _ _ => returns_of fun _ _ h => by cases h
    exact kept_inspect (fun _ => rfl) (fun _ _ h => by cases h) (hepoch rfl)
  | some intent =>
    have hepoch := epochOf_some hledger
    have hbare (hstate : intent.state ≠ .issued ∧ intent.state ≠ .registered) : intent.uploadUrl = none := by
      by_contra hurl
      obtain ⟨u, hu⟩ := Option.ne_none_iff_exists'.mp hurl
      obtain ⟨hissued | hregistered, -⟩ := hshaped₁ intent hledger u hu
      · exact hstate.1 hissued
      · exact hstate.2 hregistered
    dsimp only
    split
    · exact hraised _ _
    cases hstate : intent.state with
    | issued | registered =>
      dsimp only
      cases hcapability : intent.capability valid identity with
      | none => exact hraised _ _
      | some capability =>
        refine kept_inspect (fun h => by cases h) (fun url expiry h => ?_) hepoch.ge
        cases h
        refine .inr (.inr ⟨intent, hledger, ?_⟩)
        unfold Entry.capability at hcapability
        split at hcapability
        · rename_i url' expiry' hurl hexpiry
          split at hcapability
          · cases hcapability
            exact hurl
          · cases hcapability
        · cases hcapability
    | settled =>
      dsimp only
      split
      · exact hraised _ _
      · split
        · exact hraised _ _
        · exact hverified _ _
    | cancelled | retryable =>
      have hnone := hbare (by rw [hstate]; decide)
      refine kept_write (shaped_of_none rfl) (Nat.le_succ _) (fun w' _ _ u hu => ?_) fun w₂ hledger₂ => ?_
      · rw [hnone] at hu
        cases hu
      · exact kept_inspect (fun _ => rfl) (fun _ _ h => by cases h) (epochOf_some hledger₂).ge
    | creating | providerRequesting | creationUncertain => exact hraised _ _

theorem kept_settle {final : Bool} {generation : Option ℤ} {now : ℕ} :
    Kept valid Returns (settleIntent identity final generation now) w := by
  refine kept_read fun w₁ _ hshaped₁ => ?_
  have hraised (w : World Identity) (e : Raised) : Kept valid Returns (.raised e : Act Identity Outcome) w :=
    fun _ _ _ => returns_of fun _ _ h => by cases h
  have hdone (w : World Identity) : Kept valid Returns (.done .settled : Act Identity Outcome) w :=
    fun _ _ _ => returns_of fun _ _ h => by cases h
  cases hledger : w₁.ledger with
  | none => exact hraised _ _
  | some payload =>
    dsimp only
    split
    · exact hraised _ _
    rename_i hidentity
    rw [not_not] at hidentity
    split
    · exact hraised _ _
    split
    · split
      · rename_i url expiry hurl _
        refine kept_write (fun u hu => ?_) le_rfl (fun w' _ _ u hu => .inr (hurl.symm.trans hu)) fun w₂ _ => hdone w₂
        cases hu
        refine ⟨.inr rfl, ?_⟩
        rw [← hidentity]
        exact (hshaped₁ payload hledger url hurl).2
      · exact hraised _ _
    · split
      · exact hraised _ _
      · exact kept_writeSettled rfl le_rfl fun w₂ => hdone w₂

theorem kept_cancel {supplied : Option Url} {deletion : Deletion} {now : ℕ} :
    Kept valid Returns (cancelByIdentity valid identity supplied deletion now) w := by
  refine kept_read fun w₁ _ hshaped₁ => ?_
  have hraised (w : World Identity) (e : Raised) : Kept valid Returns (.raised e : Act Identity Outcome) w :=
    fun _ _ _ => returns_of fun _ _ h => by cases h
  have hdone (w : World Identity) (code : ℕ) : Kept valid Returns (.done (.cancellation code) : Act Identity Outcome) w :=
    fun _ _ _ => returns_of fun _ _ h => by cases h
  cases hledger : w₁.ledger with
  | none => exact hdone _ _
  | some payload =>
    dsimp only
    split
    · exact hraised _ _
    split
    · exact hdone _ _
    · exact hdone _ _
    · exact hraised _ _
    · exact hraised _ _
    · refine Task.Keeps.bind (Q := fun r w' => ∀ code, r = .ok code → ∀ u, payload.uploadUrl = some u → u ∈ w'.cancelled)
        Rely.refl ?_ (fun code w₂ _ hcancelled => ?_) fun e _ _ _ => returns_of fun _ _ h => by cases h
      · split
        · rename_i hnone
          rintro w₂ - - code - u hu
          rw [hu] at hnone
          cases hnone
        · rename_i url hurl
          split
          · exact fun _ _ _ _ h => by cases h
          · unfold cancelSession
            split
            · exact fun _ _ _ _ h => by cases h
            · split
              · exact fun _ _ _ _ h => by cases h
              · split
                · refine Task.Keeps.modify fun w₂ _ hshaped₂ _ => ⟨hshaped₂, ⟨fun u hu => ?_, le_rfl, fun _ hu => List.mem_append_left _ hu⟩, ?_⟩
                  · exact hu.imp (List.mem_append_left _) id
                  · rintro w₃ h₃ - code - u hu
                    rw [hu] at hurl
                    cases hurl
                    exact h₃.cancelled _ (List.mem_append_right _ List.mem_cons_self)
                · exact fun _ _ _ _ h => by cases h
      · refine kept_write (shaped_of_none rfl) le_rfl (fun w' h' _ u hu => .inl (h'.cancelled _ (hcancelled code rfl u hu))) fun w₃ _ => ?_
        exact hdone w₃ code

end Calls

/-! ## Runs -/

theorem terms (valid : Identity → Url → Bool) :
    Actors.Terms (broker valid) Seen (Shaped valid) (fun _ => Rely) (fun _ _ => True) fun _ => Returns where
  refl _ := Rely.refl
  trans _ _ _ _ h h' := h.trans h'
  waits _ _ _ _ h := h
  lasts _ _ _ _ hrely _ h u expiry hr := hrely.accounted u (h u expiry hr)
  dies _ w h := ⟨h, fun _ _ => Rely.refl w⟩
  around _ _ _ hchanges := hchanges.elim
  keeps i c w _ _ _ := by
    cases c with
    | create => exact kept_create.expected fun _ _ h _ _ => h
    | settle => exact kept_settle.expected fun _ _ h _ _ => h
    | cancel => exact kept_cancel.expected fun _ _ h _ _ => h

def Unused (a : Actors ℕ (Call Identity) (World Identity) Raised Outcome) : Prop := a.Idle ∧ a.shared.ledger = none

abbrev RunsSeen (valid : Identity → Url → Bool) : Actors ℕ (Call Identity) (World Identity) Raised Outcome → Prop :=
  Reachable Unused fun a a' => Actors.Step (broker valid) a a' ∧ Seen a'.shared

/-- A capability that was returned and is neither cancelled at the provider nor settled. -/
structure Live (a : Actors ℕ (Call Identity) (World Identity) Raised Outcome) (u : Url) : Prop where
  returned : ∃ i expiry, (i, .ok (.session u expiry)) ∈ a.returned
  uncancelled : u ∉ a.shared.cancelled
  unsettled : u ∉ a.shared.settled

theorem cancelByIdentity_recorded {entry : Entry Identity} {u : Url} (hledger : w.ledger = some entry)
    (hshaped : entry.Shaped valid) (hurl : entry.uploadUrl = some u) (now : ℕ) {code : ℕ}
    (hcode : code ∈ [200, 204, 404, 410, 499]) :
    ∃ w', (cancelByIdentity valid entry.identity none (.status code) now).run w = (.ok (.cancellation code), w') ∧
      u ∈ w'.cancelled := by
  obtain ⟨hstate, hvalid⟩ := hshaped u hurl
  have hsession : (cancelSession valid entry.identity (.status code) u).run w =
      (.ok code, { w with cancelled := w.cancelled ++ [u] }) := by
    rw [cancelSession, hvalid, if_neg (by decide), if_pos hcode]
    rfl
  rw [cancelByIdentity, Task.bind_eq, Task.run_bind_ok (show Task.run readLedger w = (.ok w.ledger, w) from rfl), hledger]
  dsimp only
  rw [if_neg (not_not.mpr rfl), hurl]
  have hlast : u ∈ w.cancelled ++ [u] := List.mem_append_right _ List.mem_cons_self
  obtain hissued | hregistered := hstate
  · rw [hissued]
    exact ⟨_, Task.run_bind_ok hsession _, hlast⟩
  · rw [hregistered]
    exact ⟨_, Task.run_bind_ok hsession _, hlast⟩

theorem live_capability_recorded (valid : Identity → Url → Bool)
    (a : Actors ℕ (Call Identity) (World Identity) Raised Outcome) (h : RunsSeen valid a) :
    (∀ a', Actors.Step (broker valid) a a' → Seen a'.shared → epochOf a.shared ≤ epochOf a'.shared) ∧
    (∀ u, Live a u → ∃ entry, a.shared.ledger = some entry ∧ entry.uploadUrl = some u ∧
      ∀ now code, code ∈ [200, 204, 404, 410, 499] →
        ∃ w', (cancelByIdentity valid entry.identity none (.status code) now).run a.shared = (.ok (.cancellation code), w') ∧
          u ∈ w'.cancelled) ∧
    ∀ u v, Live a u → Live a v → u = v := by
  have hsound := Actors.sound_of_reachable (terms valid) (fun a₀ h₀ => ⟨h₀.1, fun entry hentry => ?_, fun _ => trivial⟩) h
  · have hrecorded (u : Url) (hlive : Live a u) : ∃ entry, a.shared.ledger = some entry ∧ entry.uploadUrl = some u := by
      obtain ⟨i, expiry, hreturned⟩ := hlive.returned
      obtain hcancelled | hsettled | hentry := (hsound.returned i _ hreturned).2.2 u expiry rfl
      · exact absurd hcancelled hlive.uncancelled
      · exact absurd hsettled hlive.unsettled
      · exact hentry
    refine ⟨fun a' hstep hseen => ?_, fun u hlive => ?_, fun u v hu hv => ?_⟩
    · obtain hall | ⟨i, hothers⟩ := hsound.others (terms valid) hstep hseen
      · exact (hall 0).epoch
      · exact (hothers (i + 1) (Nat.succ_ne_self i)).epoch
    · obtain ⟨entry, hledger, hurl⟩ := hrecorded u hlive
      exact ⟨entry, hledger, hurl, fun now code hcode =>
        cancelByIdentity_recorded hledger (hsound.invariant entry hledger) hurl now hcode⟩
    · obtain ⟨entry, hledger, hurl⟩ := hrecorded u hu
      obtain ⟨entry', hledger', hurl'⟩ := hrecorded v hv
      rw [hledger] at hledger'
      cases hledger'
      rw [hurl] at hurl'
      exact Option.some.inj hurl'
  · rw [h₀.2] at hentry
    cases hentry

section Example

def accepting (_ : Unit) (_ : Url) : Bool := true

def creation : Call Unit := .create () { now := fun _ => 0 }

def unused : Actors ℕ (Call Unit) (World Unit) Raised Outcome := { shared := {} }

theorem unused_unused : Unused unused := ⟨⟨fun _ => rfl, fun _ => rfl, rfl⟩, rfl⟩

def created : Actors ℕ (Call Unit) (World Unit) Raised Outcome :=
  (List.replicate 7 0).foldl Actors.turn (Actors.begin (broker accepting) unused 0 creation)

theorem created_runs : RunsSeen accepting created := by
  have hmay : (broker accepting).starts 0 creation := trivial
  have hbegun := Actors.reachable_begin (P := Seen) (.start unused_unused) rfl hmay rfl
  refine Actors.reachable_turns hbegun _ fun n hn => List.isEmpty_iff.mp ?_
  revert n
  decide +kernel

theorem created_recorded : ∃ entry, created.shared.ledger = some entry ∧ entry.uploadUrl = some 0 := by
  have hlive : Live created 0 := ⟨⟨0, 0, List.mem_cons_self⟩, List.not_mem_nil, List.not_mem_nil⟩
  obtain ⟨entry, hledger, hurl, -⟩ := (live_capability_recorded accepting created created_runs).2.1 0 hlive
  exact ⟨entry, hledger, hurl⟩

def createdTwice : Actors ℕ (Call Unit) (World Unit) Raised Outcome :=
  let cancelling := Actors.begin (broker accepting) created 1 (.cancel () none (.status 499) 0)
  let cancelled := (List.replicate 4 1).foldl Actors.turn cancelling
  let first := (List.replicate 1 2).foldl Actors.turn (Actors.begin (broker accepting) cancelled 2 creation)
  let second := (List.replicate 7 3).foldl Actors.turn (Actors.begin (broker accepting) first 3 creation)
  (List.replicate 6 2).foldl Actors.turn second

theorem createdTwice_reachable : Reachable Unused (Actors.Step (broker accepting)) createdTwice := by
  have hmay (i : ℕ) (c : Call Unit) : (broker accepting).starts i c := trivial
  have hcreating := Actors.reachable_begin (P := fun _ => True) (.start unused_unused) rfl (hmay 0 creation) trivial
  have hcreated := Actors.reachable_turns (P := fun _ => True) hcreating (List.replicate 7 0) fun _ _ => trivial
  have hcancelling := Actors.reachable_begin (P := fun _ => True) hcreated rfl (hmay 1 (.cancel () none (.status 499) 0)) trivial
  have hcancelled := Actors.reachable_turns (P := fun _ => True) hcancelling (List.replicate 4 1) fun _ _ => trivial
  have hreading := Actors.reachable_begin (P := fun _ => True) hcancelled rfl (hmay 2 creation) trivial
  have hread := Actors.reachable_turns (P := fun _ => True) hreading (List.replicate 1 2) fun _ _ => trivial
  have hagain := Actors.reachable_begin (P := fun _ => True) hread rfl (hmay 3 creation) trivial
  have hissued := Actors.reachable_turns (P := fun _ => True) hagain (List.replicate 7 3) fun _ _ => trivial
  have hlast := Actors.reachable_turns (P := fun _ => True) hissued (List.replicate 6 2) fun _ _ => trivial
  exact Actors.reachable_of_allowed (P := fun _ => True) hlast

/-- Two capabilities that nobody has cancelled, and the ledger has lost the first of them. -/
theorem two_live_capabilities : ∃ a, Reachable Unused (Actors.Step (broker accepting)) a ∧ Live a 1 ∧ Live a 2 ∧
    ∀ entry, a.shared.ledger = some entry → entry.uploadUrl ≠ some 1 := by
  have hfirst : (3, .ok (.session 1 0)) ∈ createdTwice.returned := List.mem_of_getElem? (i := 2) rfl
  have hsecond : (2, .ok (.session 2 0)) ∈ createdTwice.returned := List.mem_of_getElem? (i := 3) rfl
  have hcancelled : createdTwice.shared.cancelled = [0] := rfl
  have hsettled : createdTwice.shared.settled = [] := rfl
  have hledger : createdTwice.shared.ledger.bind (fun entry => entry.uploadUrl) = some 2 := rfl
  have hlive {u : Url} {i : ℕ} (hreturned : (i, .ok (.session u 0)) ∈ createdTwice.returned) (hu : u ≠ 0) : Live createdTwice u := by
    refine ⟨⟨i, 0, hreturned⟩, ?_, ?_⟩
    · rw [hcancelled]
      exact fun hmem => hu (List.mem_singleton.mp hmem)
    · rw [hsettled]
      exact List.not_mem_nil
  refine ⟨createdTwice, createdTwice_reachable, hlive hfirst (by decide), hlive hsecond (by decide), fun entry hentry hurl => ?_⟩
  rw [hentry, Option.bind_some, hurl] at hledger
  cases hledger

end Example

end XFoilFoam.Broker
