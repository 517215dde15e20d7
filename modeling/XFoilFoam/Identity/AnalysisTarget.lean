import XFoilFoam.Foundations.JsonText
import Mathlib.Data.List.Lex

/-! `canonicalAnalysisJson` of `packages/db/src/analysis-target.ts` as a string: the identity of targets,
recipes and evidence signatures.  The tokens of `JsValue.canonicalAnalysisJson` are what this string
spells out. -/
namespace XFoilFoam.JsValue
set_option autoImplicit false

variable {F : Type} [Binary64 F] (N : JsonNumbers F)

/-- `localeCompare` as a total preorder: keys may compare equal without being equal. -/
structure TotalKeyOrder extends KeyOrder where
  total : ∀ a b, le a b = true ∨ le b a = true
  trans : ∀ a b c, le a b = true → le b c = true → le a c = true

/-- `canonicalAnalysisJson`: entries sorted by key, then printed. -/
def canonicalAnalysisText (order : KeyOrder) (v : JsValue F) : Except String (List Char) :=
  if v.isJson then .ok (stringify N (v.canonical order))
  else .error "Analysis identity requires finite, explicit JSON values"

/-! ## Tokens and text -/

/-- Tokens spelled out; a comma stands before a token that follows a finished value. -/
def renderTokens : Bool → List (JsonToken F) → List Char
  | _, [] => []
  | _, .closeArr :: ts => ']' :: renderTokens true ts
  | _, .closeObj :: ts => '\x7d' :: renderTokens true ts
  | follows, .null :: ts => (if follows then [','] else []) ++ "null".toList ++ renderTokens true ts
  | follows, .bool b :: ts =>
    (if follows then [','] else []) ++ (if b then "true".toList else "false".toList) ++
      renderTokens true ts
  | follows, .num x :: ts => (if follows then [','] else []) ++ N.text x ++ renderTokens true ts
  | follows, .str s :: ts => (if follows then [','] else []) ++ quote s ++ renderTokens true ts
  | follows, .key s :: ts =>
    (if follows then [','] else []) ++ quote s ++ ':' :: renderTokens false ts
  | follows, .openArr :: ts => (if follows then [','] else []) ++ '[' :: renderTokens false ts
  | follows, .openObj :: ts => (if follows then [','] else []) ++ '\x7b' :: renderTokens false ts

theorem renderTokens_tokens (v : JsValue F) (hjson : v.isJson = true) (follows : Bool)
    (ts : List (JsonToken F)) :
    renderTokens N follows (v.tokens ++ ts) =
      (if follows then [','] else []) ++ stringify N v ++ renderTokens N true ts := by
  induction v using inductValue generalizing follows ts with
  | undefined => simp [isJson] at hjson
  | null => simp [tokens, renderTokens, stringify]
  | bool b => simp [tokens, renderTokens, stringify]
  | num x => simp [tokens, renderTokens, stringify]
  | str s => simp [tokens, renderTokens, stringify]
  | arr xs ih =>
    rw [isJson, isJsonList_iff] at hjson
    have hlist : ∀ (b : Bool), renderTokens N b (tokensList xs ++ ts) =
        (if b ∧ xs ≠ [] then [','] else []) ++ joinComma (xs.map (stringify N)) ++
          ']' :: renderTokens N true ts := by
      induction xs with
      | nil => intro b; simp [tokensList, renderTokens, joinComma]
      | cons x xs ihxs =>
        intro b
        have hx := ih x List.mem_cons_self (hjson x List.mem_cons_self) b (tokensList xs ++ ts)
        have hxs := ihxs (fun y hy => ih y (List.mem_cons_of_mem _ hy))
          (fun y hy => hjson y (List.mem_cons_of_mem _ hy)) true
        rw [tokensList, List.append_assoc, hx, hxs]
        cases xs <;> simp [joinComma]
    rw [tokens, List.cons_append, renderTokens, hlist, stringify, stringifyAll_eq]
    simp
  | obj fields ih =>
    rw [isJson, isJsonFields_iff] at hjson
    have hlist : ∀ (b : Bool), renderTokens N b (tokensFields fields ++ ts) =
        (if b ∧ fields ≠ [] then [','] else []) ++
          joinComma (fields.map (fun f => quote f.1 ++ ':' :: stringify N f.2)) ++
          '\x7d' :: renderTokens N true ts := by
      induction fields with
      | nil => intro b; simp [tokensFields, renderTokens, joinComma]
      | cons field fields ihfields =>
        intro b
        obtain ⟨key, x⟩ := field
        have hx := ih (key, x) List.mem_cons_self (hjson _ List.mem_cons_self) false
          (tokensFields fields ++ ts)
        have hfields := ihfields (fun y hy => ih y (List.mem_cons_of_mem _ hy))
          (fun y hy => hjson y (List.mem_cons_of_mem _ hy)) true
        rw [tokensFields, List.cons_append, List.append_assoc, renderTokens]
        simp only at hx
        rw [hx, hfields]
        cases fields <;> simp [joinComma]
    rw [tokens, List.cons_append, renderTokens, hlist, stringify, stringifyFields_eq]
    simp

/-! ## Equal values -/

mutual
/-- Equality of JSON values: numbers by `===`, objects without regard to the order of their keys. -/
def SameJson : JsValue F → JsValue F → Prop
  | null, null => True
  | bool a, bool b => a = b
  | num x, num y => Binary64.eq x y = true
  | str s, str t => s = t
  | arr xs, arr ys => SameAll xs ys
  | obj fields, obj fields' => fields.length = fields'.length ∧ SameFields fields fields'
  | _, _ => False
def SameAll : List (JsValue F) → List (JsValue F) → Prop
  | [], [] => True
  | x :: xs, y :: ys => SameJson x y ∧ SameAll xs ys
  | _, _ => False
/-- Every field has its value, or an equal one, under its key on the other side. -/
def SameFields : List (String × JsValue F) → List (String × JsValue F) → Prop
  | [], _ => True
  | (key, x) :: fields, fields' => (∃ y, (key, y) ∈ fields' ∧ SameJson x y) ∧ SameFields fields fields'
end

theorem sameAll_iff (xs ys : List (JsValue F)) : SameAll xs ys ↔ List.Forall₂ SameJson xs ys := by
  induction xs generalizing ys with
  | nil => cases ys <;> simp [SameAll]
  | cons x xs ih => cases ys <;> simp [SameAll, ih]

theorem sameFields_iff (fields fields' : List (String × JsValue F)) :
    SameFields fields fields' ↔ ∀ f ∈ fields, ∃ y, (f.1, y) ∈ fields' ∧ SameJson f.2 y := by
  induction fields with
  | nil => simp [SameFields]
  | cons field fields ih => simp [SameFields, ih]

mutual
def KeysSeparated (order : KeyOrder) : JsValue F → Prop
  | arr xs => KeysSeparatedAll order xs
  | obj fields =>
    (∀ f ∈ fields, ∀ g ∈ fields, order.le f.1 g.1 = true → order.le g.1 f.1 = true → f.1 = g.1) ∧
      KeysSeparatedFields order fields
  | undefined => True
  | null => True
  | bool _ => True
  | num _ => True
  | str _ => True
def KeysSeparatedAll (order : KeyOrder) : List (JsValue F) → Prop
  | [] => True
  | x :: xs => KeysSeparated order x ∧ KeysSeparatedAll order xs
def KeysSeparatedFields (order : KeyOrder) : List (String × JsValue F) → Prop
  | [] => True
  | (_, x) :: fields => KeysSeparated order x ∧ KeysSeparatedFields order fields
end

variable (order : KeyOrder)

omit [Binary64 F] in
theorem keysSeparatedAll_iff (xs : List (JsValue F)) :
    KeysSeparatedAll order xs ↔ ∀ x ∈ xs, KeysSeparated order x := by
  induction xs with
  | nil => simp [KeysSeparatedAll]
  | cons x xs ih => simp [KeysSeparatedAll, ih]

omit [Binary64 F] in
theorem keysSeparatedFields_iff (fields : List (String × JsValue F)) :
    KeysSeparatedFields order fields ↔ ∀ f ∈ fields, KeysSeparated order f.2 := by
  induction fields with
  | nil => simp [KeysSeparatedFields]
  | cons field fields ih => simp [KeysSeparatedFields, ih]

omit [Binary64 F] in
theorem canonicalFields_map (fields : List (String × JsValue F)) :
    canonicalFields order fields = fields.map (fun f => (f.1, canonical order f.2)) := by
  induction fields with
  | nil => simp [canonicalFields]
  | cons field fields ih => simp [canonicalFields, ih]

def sortFields {α : Type} (fields : List (String × α)) : List (String × α) :=
  fields.insertionSort (fun x y => order.le x.1 y.1 = true)

theorem sortFields_map {α β : Type} (fields : List (String × α)) (f : α → β) :
    sortFields order (fields.map (fun x => (x.1, f x.2))) =
      (sortFields order fields).map (fun x => (x.1, f x.2)) := by
  symm
  apply List.map_insertionSort
  intro x _ y _
  exact Iff.rfl

omit [Binary64 F] in
theorem canonical_obj (fields : List (String × JsValue F)) :
    canonical order (obj fields) =
      obj ((sortFields order fields).map (fun f => (f.1, canonical order f.2))) := by
  rw [canonical, canonicalFields_map, ← sortFields_map]
  rfl

theorem mem_sortFields {α : Type} (fields : List (String × α)) (f : String × α) :
    f ∈ sortFields order fields ↔ f ∈ fields := List.mem_insertionSort _

theorem length_sortFields {α : Type} (fields : List (String × α)) :
    (sortFields order fields).length = fields.length := List.length_insertionSort _ _

theorem nodup_sortFields {α : Type} (fields : List (String × α)) :
    ((sortFields order fields).map Prod.fst).Nodup ↔ (fields.map Prod.fst).Nodup :=
  ((List.perm_insertionSort _ fields).map Prod.fst).nodup_iff

/-! ## Canonical values -/

theorem isJson_canonical (v : JsValue F) : (canonical order v).isJson = v.isJson := by
  induction v using inductValue with
  | undefined => simp [canonical]
  | null => simp [canonical]
  | bool b => simp [canonical]
  | num x => simp [canonical]
  | str s => simp [canonical]
  | arr xs ih =>
    rw [canonical, canonicalList_map, isJson, isJson, Bool.eq_iff_iff, isJsonList_iff, isJsonList_iff]
    simp only [List.forall_mem_map]
    exact forall₂_congr (fun x hx => by rw [ih x hx])
  | obj fields ih =>
    rw [canonical_obj, isJson, isJson, Bool.eq_iff_iff, isJsonFields_iff, isJsonFields_iff]
    simp only [List.forall_mem_map, mem_sortFields]
    exact forall₂_congr (fun f hf => by rw [ih f hf])

omit [Binary64 F] in
theorem distinctKeys_canonical (v : JsValue F) (hkeys : v.distinctKeys) :
    (canonical order v).distinctKeys := by
  induction v using inductValue with
  | undefined => simp [canonical, distinctKeys]
  | null => simp [canonical, distinctKeys]
  | bool b => simp [canonical, distinctKeys]
  | num x => simp [canonical, distinctKeys]
  | str s => simp [canonical, distinctKeys]
  | arr xs ih =>
    rw [distinctKeys, distinctKeysAll_iff] at hkeys
    rw [canonical, canonicalList_map, distinctKeys, distinctKeysAll_iff, List.forall_mem_map]
    exact fun x hx => ih x hx (hkeys x hx)
  | obj fields ih =>
    rw [distinctKeys, distinctKeysFields_iff] at hkeys
    rw [canonical_obj, distinctKeys, distinctKeysFields_iff, List.map_map]
    refine ⟨(nodup_sortFields order fields).mpr hkeys.1, ?_⟩
    simp only [List.forall_mem_map, mem_sortFields]
    exact fun f hf => ih f hf (hkeys.2 f hf)

theorem canonicalAnalysisText_eq (v : JsValue F) :
    canonicalAnalysisText N order v =
      (canonicalAnalysisJson order v).map (renderTokens N false) := by
  unfold canonicalAnalysisText canonicalAnalysisJson
  split
  · next hjson =>
    have hrender := renderTokens_tokens N (canonical order v) (by rw [isJson_canonical]; exact hjson)
      false []
    rw [List.append_nil] at hrender
    rw [Except.map, hrender, renderTokens]
    simp
  · rfl

def normal (v : JsValue F) : JsValue F := readBack N (canonical order v)

theorem normal_arr (xs : List (JsValue F)) : normal N order (arr xs) = arr (xs.map (normal N order)) := by
  rw [normal, canonical, canonicalList_map, readBack, readBackAll_eq, List.map_map]
  rfl

theorem normal_obj (fields : List (String × JsValue F)) :
    normal N order (obj fields) =
      obj ((sortFields order fields).map (fun f => (f.1, normal N order f.2))) := by
  rw [normal, canonical_obj, readBack, readBackFields_eq, List.map_map]
  rfl

theorem parse_canonical (v : JsValue F) (hjson : v.isJson = true) (hkeys : v.distinctKeys) :
    parse N (stringify N (canonical order v)) = some (normal N order v) :=
  parse_stringify N _ (by rw [isJson_canonical]; exact hjson) (distinctKeys_canonical order v hkeys)

theorem same_normal (v : JsValue F) (hjson : v.isJson = true) : SameJson (normal N order v) v := by
  induction v using inductValue with
  | undefined => simp [isJson] at hjson
  | null => simp [normal, canonical, readBack, SameJson]
  | bool b => simp [normal, canonical, readBack, SameJson]
  | num x =>
    rw [isJson] at hjson
    obtain ⟨y, hread, hfinite, htext⟩ := N.read_text x hjson
    rw [normal, canonical, readBack, hread, Option.getD_some, SameJson]
    exact (N.text_eq_iff y x hfinite hjson).mp htext
  | str s => simp [normal, canonical, readBack, SameJson]
  | arr xs ih =>
    rw [isJson, isJsonList_iff] at hjson
    rw [normal_arr, SameJson, sameAll_iff, List.forall₂_map_left_iff, List.forall₂_same]
    exact fun x hx => ih x hx (hjson x hx)
  | obj fields ih =>
    rw [isJson, isJsonFields_iff] at hjson
    rw [normal_obj, SameJson, sameFields_iff, List.length_map, length_sortFields]
    refine ⟨rfl, ?_⟩
    simp only [List.forall_mem_map, mem_sortFields]
    exact fun f hf => ⟨f.2, hf, ih f hf (hjson f hf)⟩

theorem forall₂_of_mem {α β : Type} {R S : α → β → Prop} {xs : List α} {ys : List β}
    (h : List.Forall₂ R xs ys) (himp : ∀ x ∈ xs, ∀ y ∈ ys, R x y → S x y) :
    List.Forall₂ S xs ys := by
  induction h with
  | nil => exact .nil
  | cons hxy _ ih =>
    refine .cons (himp _ List.mem_cons_self _ List.mem_cons_self hxy) (ih ?_)
    exact fun x hx y hy => himp x (List.mem_cons_of_mem _ hx) y (List.mem_cons_of_mem _ hy)

theorem same_of_normal_eq (v w : JsValue F) (hjson : v.isJson = true) (hjson' : w.isJson = true)
    (h : normal N order v = normal N order w) : SameJson v w := by
  induction v using inductValue generalizing w with
  | undefined => simp [isJson] at hjson
  | null => cases w <;> simp_all [normal, canonical, readBack, SameJson]
  | bool b => cases w <;> simp_all [normal, canonical, readBack, SameJson]
  | num x =>
    cases w with
    | num y =>
      rw [isJson] at hjson hjson'
      obtain ⟨x', hread, -, htext⟩ := N.read_text x hjson
      obtain ⟨y', hread', -, htext'⟩ := N.read_text y hjson'
      simp only [normal, canonical, readBack, hread, hread', Option.getD_some, num.injEq] at h
      rw [SameJson, ← N.text_eq_iff x y hjson hjson', ← htext, ← htext', h]
    | _ => simp [normal, canonical, readBack] at h
  | str s => cases w <;> simp_all [normal, canonical, readBack, SameJson]
  | arr xs ih =>
    cases w with
    | arr ys =>
      rw [isJson, isJsonList_iff] at hjson hjson'
      rw [normal_arr, normal_arr, arr.injEq] at h
      have hpairs : List.Forall₂ (fun x y => normal N order x = normal N order y) xs ys := by
        have heq : List.Forall₂ Eq (xs.map (normal N order)) (ys.map (normal N order)) := by
          rw [h, List.forall₂_eq_eq_eq]
        rw [List.forall₂_map_left_iff, List.forall₂_map_right_iff] at heq
        exact heq
      rw [SameJson, sameAll_iff]
      exact forall₂_of_mem hpairs
        (fun x hx y hy hxy => ih x hx y (hjson x hx) (hjson' y hy) hxy)
    | _ => simp [normal, canonical, readBack] at h
  | obj fields ih =>
    cases w with
    | obj fields' =>
      rw [isJson, isJsonFields_iff] at hjson hjson'
      rw [normal_obj, normal_obj, obj.injEq] at h
      rw [SameJson, sameFields_iff]
      constructor
      · simpa [length_sortFields] using congrArg List.length h
      · intro f hf
        have hmem : (f.1, normal N order f.2) ∈
            (sortFields order fields').map (fun g => (g.1, normal N order g.2)) := by
          rw [← h]
          exact List.mem_map.mpr ⟨f, (mem_sortFields order fields f).mpr hf, rfl⟩
        obtain ⟨g, hg, heq⟩ := List.mem_map.mp hmem
        rw [mem_sortFields] at hg
        obtain ⟨hkey, hvalue⟩ := Prod.mk.inj heq
        refine ⟨g.2, ?_, ih f hf g.2 (hjson f hf) (hjson' g hg) hvalue.symm⟩
        rw [← hkey]
        exact hg
    | _ => simp [normal, canonical, readBack] at h

include N order in
theorem sameJson_refl (v : JsValue F) (hjson : v.isJson = true) : SameJson v v :=
  same_of_normal_eq N order v v hjson hjson rfl

/-! ## One text for one value -/

def entries (fields : List (String × JsValue F)) : List (String × List Char) :=
  fields.map (fun f => (f.1, stringify N (canonical order f.2)))

theorem stringify_canonical_obj (fields : List (String × JsValue F)) :
    stringify N (canonical order (obj fields)) =
      '\x7b' :: (joinComma ((sortFields order (entries N order fields)).map
        (fun e => quote e.1 ++ ':' :: e.2)) ++ ['\x7d']) := by
  have hsort := sortFields_map order fields (fun x => stringify N (canonical order x))
  rw [canonical_obj, stringify, stringifyFields_eq, entries, hsort, List.map_map, List.map_map]
  rfl

section Total
variable (order : TotalKeyOrder)

theorem sortFields_pairwise {α : Type} (fields : List (String × α)) :
    (sortFields order.toKeyOrder fields).Pairwise (fun x y => order.le x.1 y.1 = true) := by
  have htotal : Std.Total (fun x y : String × α => order.le x.1 y.1 = true) :=
    ⟨fun x y => order.total x.1 y.1⟩
  have htrans : IsTrans (String × α) (fun x y => order.le x.1 y.1 = true) :=
    ⟨fun x y z => order.trans x.1 y.1 z.1⟩
  exact List.pairwise_insertionSort _ fields

theorem sortFields_eq_of_perm {α : Type} {fields fields' : List (String × α)}
    (hperm : fields.Perm fields') (hnodup : (fields.map Prod.fst).Nodup)
    (hseparated : ∀ f ∈ fields, ∀ g ∈ fields, order.le f.1 g.1 = true → order.le g.1 f.1 = true →
      f.1 = g.1) :
    sortFields order.toKeyOrder fields = sortFields order.toKeyOrder fields' := by
  apply List.Perm.eq_of_pairwise _ (sortFields_pairwise order fields) (sortFields_pairwise order fields')
  · exact (List.perm_insertionSort _ fields).trans
      (hperm.trans (List.perm_insertionSort _ fields').symm)
  · intro f g hf hg hfg hgf
    rw [mem_sortFields] at hf hg
    have hg' : g ∈ fields := hperm.mem_iff.mpr hg
    exact List.inj_on_of_nodup_map hnodup hf hg' (hseparated f hf g hg' hfg hgf)

/-- Entries under distinct keys that all occur on the other side, in equal number, are the same
entries. -/
theorem perm_of_entries_subset {α : Type} {fields fields' : List (String × α)}
    (hnodup : (fields.map Prod.fst).Nodup) (hlength : fields.length = fields'.length)
    (hsubset : fields ⊆ fields') : fields.Perm fields' :=
  (List.subperm_of_subset hnodup.of_map hsubset).perm_of_length_le hlength.ge

theorem stringify_canonical_eq (v w : JsValue F) (hjson : v.isJson = true) (hjson' : w.isJson = true)
    (hkeys : v.distinctKeys) (hseparated : v.KeysSeparated order.toKeyOrder) (h : SameJson v w) :
    stringify N (canonical order.toKeyOrder v) = stringify N (canonical order.toKeyOrder w) := by
  induction v using inductValue generalizing w with
  | undefined => simp [isJson] at hjson
  | null => cases w <;> simp_all [SameJson]
  | bool b => cases w <;> simp_all [SameJson]
  | num x =>
    cases w with
    | num y =>
      rw [isJson] at hjson hjson'
      rw [SameJson, ← N.text_eq_iff x y hjson hjson'] at h
      rw [canonical, canonical, stringify, stringify, h]
    | _ => simp [SameJson] at h
  | str s => cases w <;> simp_all [SameJson]
  | arr xs ih =>
    cases w with
    | arr ys =>
      rw [isJson, isJsonList_iff] at hjson hjson'
      rw [distinctKeys, distinctKeysAll_iff] at hkeys
      rw [KeysSeparated, keysSeparatedAll_iff] at hseparated
      rw [SameJson, sameAll_iff] at h
      have hpairs := forall₂_of_mem h (fun x hx y hy hxy =>
        ih x hx y (hjson x hx) (hjson' y hy) (hkeys x hx) (hseparated x hx) hxy)
      have htexts : (xs.map (canonical order.toKeyOrder)).map (stringify N) =
          (ys.map (canonical order.toKeyOrder)).map (stringify N) := by
        rw [← List.forall₂_eq_eq_eq, List.map_map, List.map_map, List.forall₂_map_left_iff,
          List.forall₂_map_right_iff]
        exact hpairs
      rw [canonical, canonical, canonicalList_map, canonicalList_map, stringify, stringify,
        stringifyAll_eq, stringifyAll_eq, htexts]
    | _ => simp [SameJson] at h
  | obj fields ih =>
    cases w with
    | obj fields' =>
      rw [isJson, isJsonFields_iff] at hjson hjson'
      rw [distinctKeys, distinctKeysFields_iff] at hkeys
      rw [KeysSeparated, keysSeparatedFields_iff] at hseparated
      rw [SameJson, sameFields_iff] at h
      have hnodup : ((entries N order.toKeyOrder fields).map Prod.fst).Nodup := by
        rw [entries, List.map_map]
        exact hkeys.1
      have hsubset : entries N order.toKeyOrder fields ⊆ entries N order.toKeyOrder fields' := by
        intro entry hentry
        obtain ⟨f, hf, rfl⟩ := List.mem_map.mp hentry
        obtain ⟨y, hy, hsame⟩ := h.2 f hf
        have htext := ih f hf y (hjson f hf) (hjson' _ hy) (hkeys.2 f hf) (hseparated.2 f hf) hsame
        refine List.mem_map.mpr ⟨(f.1, y), hy, ?_⟩
        rw [htext]
      have hperm := perm_of_entries_subset hnodup (by simpa [entries] using h.1) hsubset
      have hsorted := sortFields_eq_of_perm order hperm hnodup (by
        intro e he g hg hle hge
        obtain ⟨f, hf, rfl⟩ := List.mem_map.mp he
        obtain ⟨f', hf', rfl⟩ := List.mem_map.mp hg
        exact hseparated.1 f hf f' hf' hle hge)
      rw [stringify_canonical_obj, stringify_canonical_obj, hsorted]
    | _ => simp [SameJson] at h

/-! ## Keys that compare equal -/

theorem pair_sublist_of_mem {α : Type} {a b : α} {l : List α} (ha : a ∈ l) (hb : b ∈ l) (hne : a ≠ b) :
    List.Sublist [a, b] l ∨ List.Sublist [b, a] l := by
  obtain ⟨s, t, rfl⟩ := List.append_of_mem ha
  rw [List.mem_append, List.mem_cons] at hb
  obtain hb | rfl | hb := hb
  · right
    exact (List.singleton_sublist.mpr hb).append ((List.nil_sublist t).cons_cons a)
  · exact absurd rfl hne
  · left
    exact ((List.singleton_sublist.mpr hb).cons_cons a).trans (List.sublist_append_right s _)

theorem not_both_orders {α : Type} {a b : α} {l : List α} (hnodup : l.Nodup)
    (hab : List.Sublist [a, b] l) (hba : List.Sublist [b, a] l) : False := by
  induction l with
  | nil => cases hab
  | cons x l ih =>
    rw [List.nodup_cons] at hnodup
    cases hab with
    | cons _ hab =>
      cases hba with
      | cons _ hba => exact ih hnodup.2 hab hba
      | cons_cons _ hba => exact hnodup.1 (hab.subset (by simp))
    | cons_cons _ hb =>
      cases hba with
      | cons _ hba => exact hnodup.1 (hba.subset (by simp))
      | cons_cons _ ha => exact hnodup.1 (ha.subset (by simp))

theorem pair_sublist_sortFields {α : Type} {f g : String × α} {fields : List (String × α)}
    (hle : order.le f.1 g.1 = true) (h : List.Sublist [f, g] fields) :
    List.Sublist [f.1, g.1] ((sortFields order.toKeyOrder fields).map Prod.fst) := by
  have htotal : Std.Total (fun x y : String × α => order.le x.1 y.1 = true) :=
    ⟨fun x y => order.total x.1 y.1⟩
  have htrans : IsTrans (String × α) (fun x y => order.le x.1 y.1 = true) :=
    ⟨fun x y z => order.trans x.1 y.1 z.1⟩
  exact (List.pair_sublist_insertionSort
    (r := fun x y : String × α => order.le x.1 y.1 = true) hle h).map Prod.fst

theorem sort_reverse_keys_ne {α : Type} (fields : List (String × α)) {f g : String × α}
    (hf : f ∈ fields) (hg : g ∈ fields) (hfg : order.le f.1 g.1 = true)
    (hgf : order.le g.1 f.1 = true) (hne : f.1 ≠ g.1) (hnodup : (fields.map Prod.fst).Nodup) :
    (sortFields order.toKeyOrder fields.reverse).map Prod.fst ≠
      (sortFields order.toKeyOrder fields).map Prod.fst := by
  have hkeys := (nodup_sortFields order.toKeyOrder fields).mpr hnodup
  have hpair : f ≠ g := fun h => hne (by rw [h])
  intro heq
  obtain hsub | hsub := pair_sublist_of_mem hf hg hpair
  · have hback : List.Sublist [g, f] fields.reverse := by simpa using hsub.reverse
    have h₁ := pair_sublist_sortFields order hfg hsub
    have h₂ := pair_sublist_sortFields order hgf hback
    rw [heq] at h₂
    exact not_both_orders hkeys h₁ h₂
  · have hback : List.Sublist [f, g] fields.reverse := by simpa using hsub.reverse
    have h₁ := pair_sublist_sortFields order hgf hsub
    have h₂ := pair_sublist_sortFields order hfg hback
    rw [heq] at h₂
    exact not_both_orders hkeys h₁ h₂

theorem exists_other_text (v : JsValue F) (hjson : v.isJson = true) (hkeys : v.distinctKeys)
    (hties : ¬ v.KeysSeparated order.toKeyOrder) :
    ∃ w : JsValue F, w.isJson = true ∧ w.distinctKeys ∧ SameJson v w ∧
      normal N order.toKeyOrder w ≠ normal N order.toKeyOrder v := by
  induction v using inductValue with
  | undefined => exact absurd trivial hties
  | null => exact absurd trivial hties
  | bool b => exact absurd trivial hties
  | num x => exact absurd trivial hties
  | str s => exact absurd trivial hties
  | arr xs ih =>
    rw [isJson, isJsonList_iff] at hjson
    rw [distinctKeys, distinctKeysAll_iff] at hkeys
    rw [KeysSeparated, keysSeparatedAll_iff] at hties
    push Not at hties
    obtain ⟨x, hx, hx'⟩ := hties
    obtain ⟨y, hy, hykeys, hsame, hother⟩ := ih x hx (hjson x hx) (hkeys x hx) hx'
    obtain ⟨s, t, rfl⟩ := List.append_of_mem hx
    simp only [List.forall_mem_append, List.forall_mem_cons] at hjson hkeys
    refine ⟨arr (s ++ y :: t), ?_, ?_, ?_, ?_⟩
    · rw [isJson, isJsonList_iff]
      simp only [List.forall_mem_append, List.forall_mem_cons]
      exact ⟨hjson.1, hy, hjson.2.2⟩
    · rw [distinctKeys, distinctKeysAll_iff]
      simp only [List.forall_mem_append, List.forall_mem_cons]
      exact ⟨hkeys.1, hykeys, hkeys.2.2⟩
    · have hself : ∀ l : List (JsValue F), (∀ z ∈ l, z.isJson = true) → List.Forall₂ SameJson l l :=
        fun l hl => List.forall₂_same.mpr (fun z hz => sameJson_refl N order.toKeyOrder z (hl z hz))
      rw [SameJson, sameAll_iff]
      exact List.rel_append (hself s hjson.1) (.cons hsame (hself t hjson.2.2))
    · rw [normal_arr, normal_arr]
      simp [hother]
  | obj fields ih =>
    rw [isJson, isJsonFields_iff] at hjson
    rw [distinctKeys, distinctKeysFields_iff] at hkeys
    have hself : ∀ f ∈ fields, SameJson f.2 f.2 :=
      fun f hf => sameJson_refl N order.toKeyOrder f.2 (hjson f hf)
    by_cases hown : ∀ f ∈ fields, ∀ g ∈ fields, order.le f.1 g.1 = true →
        order.le g.1 f.1 = true → f.1 = g.1
    · -- The keys here are separated, so one of the values holds the tie.
      have hinner : ¬ ∀ f ∈ fields, KeysSeparated order.toKeyOrder f.2 := by
        intro hall
        apply hties
        rw [KeysSeparated, keysSeparatedFields_iff]
        exact ⟨hown, hall⟩
      push Not at hinner
      obtain ⟨⟨key, x⟩, hx, hx'⟩ := hinner
      obtain ⟨y, hy, hykeys, hsame, hother⟩ := ih _ hx (hjson _ hx) (hkeys.2 _ hx) hx'
      obtain ⟨s, t, rfl⟩ := List.append_of_mem hx
      have hnormal : (key, normal N order.toKeyOrder x) ∈
          (sortFields order.toKeyOrder (s ++ (key, x) :: t)).map
            (fun f => (f.1, normal N order.toKeyOrder f.2)) :=
        List.mem_map.mpr ⟨(key, x), (mem_sortFields _ _ _).mpr hx, rfl⟩
      have hnormal' : (key, normal N order.toKeyOrder y) ∈
          (sortFields order.toKeyOrder (s ++ (key, y) :: t)).map
            (fun f => (f.1, normal N order.toKeyOrder f.2)) :=
        List.mem_map.mpr ⟨(key, y), (mem_sortFields _ _ _).mpr (by simp), rfl⟩
      have hunique : (((sortFields order.toKeyOrder (s ++ (key, x) :: t)).map
          (fun f => (f.1, normal N order.toKeyOrder f.2))).map Prod.fst).Nodup := by
        rw [List.map_map]
        exact (nodup_sortFields order.toKeyOrder _).mpr hkeys.1
      refine ⟨obj (s ++ (key, y) :: t), ?_, ?_, ?_, ?_⟩
      · rw [isJson, isJsonFields_iff]
        simp only [List.forall_mem_append, List.forall_mem_cons] at hjson ⊢
        exact ⟨hjson.1, hy, hjson.2.2⟩
      · rw [distinctKeys, distinctKeysFields_iff]
        simp only [List.forall_mem_append, List.forall_mem_cons, List.map_append,
          List.map_cons] at hkeys ⊢
        exact ⟨hkeys.1, hkeys.2.1, hykeys, hkeys.2.2.2⟩
      · rw [SameJson, sameFields_iff]
        refine ⟨by simp, ?_⟩
        intro f hf
        rw [List.mem_append, List.mem_cons] at hf
        obtain hf | rfl | hf := hf
        · exact ⟨f.2, by simp [hf], hself f (by simp [hf])⟩
        · exact ⟨y, by simp, hsame⟩
        · exact ⟨f.2, by simp [hf], hself f (by simp [hf])⟩
      · rw [normal_obj, normal_obj]
        intro heq
        rw [obj.inj heq] at hnormal'
        exact hother (Prod.mk.inj (List.inj_on_of_nodup_map hunique hnormal' hnormal rfl)).2
    · push Not at hown
      obtain ⟨f, hf, g, hg, hfg, hgf, hne⟩ := hown
      refine ⟨obj fields.reverse, ?_, ?_, ?_, ?_⟩
      · rw [isJson, isJsonFields_iff]
        exact fun z hz => hjson z (List.mem_reverse.mp hz)
      · rw [distinctKeys, distinctKeysFields_iff, List.map_reverse, List.nodup_reverse]
        exact ⟨hkeys.1, fun z hz => hkeys.2 z (List.mem_reverse.mp hz)⟩
      · rw [SameJson, sameFields_iff, List.length_reverse]
        exact ⟨rfl, fun z hz => ⟨z.2, List.mem_reverse.mpr hz, hself z hz⟩⟩
      · rw [normal_obj, normal_obj]
        intro heq
        apply sort_reverse_keys_ne order fields hf hg hfg hgf hne hkeys.1
        have hlists := obj.inj heq
        have hmaps := congrArg (List.map Prod.fst) hlists
        rw [List.map_map, List.map_map] at hmaps
        exact hmaps

/-- The canonical text is the identity of a value, for every value whose keys are told apart by the
comparison and for no other: equal values have one text, parsing the text gives an equal value, and
values with one text are equal. -/
theorem canonical_identity_iff (v : JsValue F) (hjson : v.isJson = true) (hkeys : v.distinctKeys) :
    ((∀ w : JsValue F, w.isJson = true → w.distinctKeys → SameJson v w →
        canonicalAnalysisText N order.toKeyOrder w = canonicalAnalysisText N order.toKeyOrder v) ∧
      (∃ text, canonicalAnalysisText N order.toKeyOrder v = .ok text ∧
        ∃ w, parse N text = some w ∧ SameJson w v) ∧
      (∀ w : JsValue F, w.isJson = true → w.distinctKeys →
        canonicalAnalysisText N order.toKeyOrder w = canonicalAnalysisText N order.toKeyOrder v →
        SameJson w v)) ↔
      v.KeysSeparated order.toKeyOrder := by
  have htext : ∀ w : JsValue F, w.isJson = true → canonicalAnalysisText N order.toKeyOrder w =
      .ok (stringify N (w.canonical order.toKeyOrder)) := by
    intro w hw
    rw [canonicalAnalysisText, if_pos hw]
  have hnormal : ∀ w : JsValue F, w.isJson = true → w.distinctKeys →
      canonicalAnalysisText N order.toKeyOrder w = canonicalAnalysisText N order.toKeyOrder v →
      normal N order.toKeyOrder w = normal N order.toKeyOrder v := by
    intro w hw hwkeys heq
    rw [htext w hw, htext v hjson, Except.ok.injEq] at heq
    have hparse := parse_canonical N order.toKeyOrder w hw hwkeys
    rw [heq, parse_canonical N order.toKeyOrder v hjson hkeys, Option.some.injEq] at hparse
    exact hparse.symm
  constructor
  · rintro ⟨hone, -, -⟩
    by_contra hties
    obtain ⟨w, hw, hwkeys, hsame, hother⟩ := exists_other_text N order v hjson hkeys hties
    exact hother (hnormal w hw hwkeys (hone w hw hwkeys hsame))
  · intro hseparated
    refine ⟨?_, ?_, ?_⟩
    · intro w hw hwkeys hsame
      rw [htext w hw, htext v hjson,
        stringify_canonical_eq N order v w hjson hw hkeys hseparated hsame]
    · exact ⟨_, htext v hjson, _, parse_canonical N order.toKeyOrder v hjson hkeys,
        same_normal N order.toKeyOrder v hjson⟩
    · intro w hw hwkeys heq
      exact same_of_normal_eq N order.toKeyOrder w v hw hjson (hnormal w hw hwkeys heq)

end Total

/-! ## Canonically equivalent keys -/

/-- The letters of a key with one accented letter decomposed, as a collation reads canonically
equivalent texts. -/
def decomposed (key : String) : List ℕ :=
  key.toList.flatMap (fun c => if c.toNat = 0xe9 then [0x65, 0x301] else [c.toNat])

def decomposedOrder : TotalKeyOrder where
  le a b := decide (decomposed a ≤ decomposed b)
  refl a := decide_eq_true le_rfl
  total a b := by simpa using le_total (decomposed a) (decomposed b)
  trans a b c hab hbc := by
    simp only [decide_eq_true_eq] at hab hbc ⊢
    exact hab.trans hbc

def composedKey : String := String.ofList [Char.ofNat 0xe9]
def combiningKey : String := String.ofList ['e', Char.ofNat 0x301]

theorem canonical_identity_separated :
    ∃ text, canonicalAnalysisText exactJsonNumbers decomposedOrder.toKeyOrder
        (obj [("b", num (.fin 2)), ("a", num (.fin 1))]) = .ok text ∧
      ∃ w, parse exactJsonNumbers text = some w ∧
        SameJson w (obj [("b", num (.fin 2)), ("a", num (.fin 1))]) :=
  ((canonical_identity_iff exactJsonNumbers decomposedOrder
    (obj [("b", num (.fin 2)), ("a", num (.fin 1))]) (by decide)
    (by simp [distinctKeys, distinctKeysFields])).mpr
    (by
      have hab : decomposedOrder.le "a" "b" = true := by decide
      have hba : decomposedOrder.le "b" "a" = false := by decide
      simp [KeysSeparated, KeysSeparatedFields, hab, hba])).2.1

/-- Two orders of one object whose two keys compare equal: one value, two texts. -/
theorem canonical_text_depends_on_order :
    SameJson (obj [(composedKey, bool true), (combiningKey, bool false)] : JsValue ExactNum)
        (obj [(combiningKey, bool false), (composedKey, bool true)]) ∧
      canonicalAnalysisText exactJsonNumbers decomposedOrder.toKeyOrder
          (obj [(composedKey, bool true), (combiningKey, bool false)]) ≠
        canonicalAnalysisText exactJsonNumbers decomposedOrder.toKeyOrder
          (obj [(combiningKey, bool false), (composedKey, bool true)]) := by
  constructor
  · rw [SameJson, sameFields_iff]
    refine ⟨rfl, ?_⟩
    intro f hf
    refine ⟨f.2, (List.Perm.swap _ _ _).mem_iff.mp hf, ?_⟩
    have hbool : ∃ b, f.2 = bool b := by
      obtain rfl | hf := List.mem_cons.mp hf
      · exact ⟨true, rfl⟩
      · rw [List.mem_singleton] at hf
        exact ⟨false, by rw [hf]⟩
    obtain ⟨b, hb⟩ := hbool
    rw [hb, SameJson]
  · decide +kernel

end XFoilFoam.JsValue
