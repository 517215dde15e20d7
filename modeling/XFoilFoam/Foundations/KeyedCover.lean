import Mathlib.Data.List.Nodup
import Mathlib.Data.List.Perm.Basic

/-! Lists read through a key, where one list is a part twice and another part once. -/
namespace XFoilFoam.KeyedCover
set_option autoImplicit false

variable {α β κ : Type} [DecidableEq κ]

def withKey (key : α → κ) (k : κ) (items : List α) : List α := items.filter fun item => key item = k

theorem withKey_append (key : α → κ) (k : κ) (items more : List α) :
    withKey key k (items ++ more) = withKey key k items ++ withKey key k more := List.filter_append items more

theorem withKey_perm {key : α → κ} {k : κ} {items more : List α} (h : items.Perm more) :
    (withKey key k items).Perm (withKey key k more) := h.filter _

theorem withKey_eq_nil {key : α → κ} {k : κ} {items : List α} (h : k ∉ items.map key) :
    withKey key k items = [] := by
  rw [withKey, List.filter_eq_nil_iff]
  intro item hitem hkey
  exact h (List.mem_map.mpr ⟨item, hitem, of_decide_eq_true hkey⟩)

theorem withKey_of_mem {key : α → κ} {items : List α} (hnodup : (items.map key).Nodup) {item : α}
    (hitem : item ∈ items) : withKey key (key item) items = [item] := by
  induction items with
  | nil => simp at hitem
  | cons first rest ih =>
    rw [List.map_cons, List.nodup_cons] at hnodup
    obtain rfl | hrest := List.mem_cons.mp hitem
    · have hnone : withKey key (key item) rest = [] := withKey_eq_nil hnodup.1
      rw [withKey, List.filter_cons_of_pos (by simp)]
      exact congrArg (item :: ·) hnone
    · have hne : key first ≠ key item := fun heq =>
        hnodup.1 (heq ▸ List.mem_map_of_mem hrest)
      rw [withKey, List.filter_cons_of_neg (by simpa using hne)]
      exact ih hnodup.2 hrest

/-- The items are the paired ones twice and the single ones once, and the walls are those of the single ones. -/
structure Cover (key : α → κ) (wallKey : β → κ) (wall : α → β) (items : List α) (walls : List β)
    (paired single : List α) : Prop where
  twice : items.Perm (paired ++ paired ++ single)
  keys : ((paired ++ single).map key).Nodup
  walled : walls.Perm (single.map wall)
  wall_key : ∀ item, wallKey (wall item) = key item

namespace Cover
variable {key : α → κ} {wallKey : β → κ} {wall : α → β} {items : List α} {walls : List β} {paired single : List α}

omit [DecidableEq κ] in
theorem mem_iff (h : Cover key wallKey wall items walls paired single) {item : α} :
    item ∈ items ↔ item ∈ paired ∨ item ∈ single := by
  rw [h.twice.mem_iff]
  simp only [List.mem_append, or_self]

omit [DecidableEq κ] in
theorem wall_keys (h : Cover key wallKey wall items walls paired single) :
    (single.map wall).map wallKey = single.map key := by
  rw [List.map_map]
  exact List.map_congr_left fun item _ => h.wall_key item

theorem shared_or_walled (h : Cover key wallKey wall items walls paired single) {item : α} (hitem : item ∈ items) :
    (withKey key (key item) items = [item, item] ∧ withKey wallKey (key item) walls = []) ∨
      (withKey key (key item) items = [item] ∧ withKey wallKey (key item) walls = [wall item]) := by
  have hkeys := h.keys
  rw [List.map_append, List.nodup_append'] at hkeys
  obtain ⟨hpaired, hsingle, hdisjoint⟩ := hkeys
  have hcount : (withKey key (key item) items).Perm (withKey key (key item) (paired ++ paired ++ single)) :=
    withKey_perm h.twice
  have hwalls : (withKey wallKey (key item) walls).Perm (withKey wallKey (key item) (single.map wall)) :=
    withKey_perm h.walled
  rw [withKey_append, withKey_append] at hcount
  obtain hmem | hmem := h.mem_iff.mp hitem
  · have habsent : key item ∉ single.map key := hdisjoint (List.mem_map_of_mem hmem)
    rw [withKey_of_mem hpaired hmem, withKey_eq_nil habsent] at hcount
    have hnone : withKey wallKey (key item) (single.map wall) = [] :=
      withKey_eq_nil (by rwa [h.wall_keys])
    rw [hnone] at hwalls
    exact .inl ⟨List.perm_replicate (n := 2).mp hcount, hwalls.eq_nil⟩
  · have habsent : key item ∉ paired.map key := fun hpair => hdisjoint hpair (List.mem_map_of_mem hmem)
    rw [withKey_eq_nil habsent, withKey_of_mem hsingle hmem] at hcount
    have hone : withKey wallKey (wallKey (wall item)) (single.map wall) = [wall item] :=
      withKey_of_mem (by rwa [h.wall_keys]) (List.mem_map_of_mem hmem)
    rw [h.wall_key item] at hone
    rw [hone] at hwalls
    exact .inr ⟨List.perm_singleton.mp hcount, List.perm_singleton.mp hwalls⟩

omit [DecidableEq κ] in
theorem wall_of_item (h : Cover key wallKey wall items walls paired single) {stands : β} (hstands : stands ∈ walls) :
    ∃ item ∈ items, stands = wall item := by
  obtain ⟨item, hitem, hwall⟩ := List.mem_map.mp (h.walled.mem_iff.mp hstands)
  exact ⟨item, h.mem_iff.mpr (.inr hitem), hwall.symm⟩

end Cover

end XFoilFoam.KeyedCover
