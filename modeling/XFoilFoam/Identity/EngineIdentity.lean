import XFoilFoam.Remote.Report

/-! `engineIdentityKey`, `engineNumericalCompatibilityKey` and `sameEngineIdentity` of
`packages/engine-client/src/engine-identity.ts`: which engines are the same solver, and which values
join one polar. -/
namespace XFoilFoam.Remote
set_option autoImplicit false

/-! ## Keys -/

def engineNumericalCompatibilityKey (engine : EngineIdentity) : String :=
  engine.family ++ ":" ++ engine.distribution ++ ":" ++ engine.version ++ ":numerics-" ++
    engine.numericsRevision

def sameEngineIdentity (left right : EngineIdentity) : Bool :=
  engineIdentityKey left == engineIdentityKey right

def SameNumerics (a b : EngineIdentity) : Prop :=
  a.family = b.family ∧ a.distribution = b.distribution ∧ a.version = b.version ∧
    a.numericsRevision = b.numericsRevision

/-! ## Pieces between colons -/

def pieces (text : String) : List (List Char) := text.toList.splitOn ':'

theorem pieces_inj {x y : String} (h : pieces x = pieces y) : x = y := by
  have hjoin : ∀ text : List Char, [':'].intercalate (text.splitOn ':') = text :=
    fun text => List.intercalate_splitOn ':'
  apply String.toList_inj.mp
  rw [← hjoin x.toList, ← hjoin y.toList]
  exact congrArg _ h

theorem pieces_ne_nil (text : String) : pieces text ≠ [] := List.splitOn_ne_nil _ _

theorem pieces_colon (x y : String) : pieces (x ++ ":" ++ y) = pieces x ++ pieces y := by
  have hlist : (x ++ ":" ++ y).toList = x.toList ++ ':' :: y.toList := by simp
  unfold pieces
  rw [hlist, List.splitOn_append_cons_self]

def revisionText (engine : EngineIdentity) : String := "numerics-" ++ engine.numericsRevision

def keyPieces (engine : EngineIdentity) : List (List Char) :=
  pieces engine.family ++ pieces engine.distribution ++ pieces engine.version ++
    pieces (revisionText engine)

def division (engine : EngineIdentity) : ℕ × ℕ × ℕ :=
  ((pieces engine.family).length, (pieces engine.distribution).length, (pieces engine.version).length)

theorem pieces_compatibilityKey (engine : EngineIdentity) :
    pieces (engineNumericalCompatibilityKey engine) = keyPieces engine := by
  have hkey : engineNumericalCompatibilityKey engine =
      engine.family ++ ":" ++ engine.distribution ++ ":" ++ engine.version ++ ":" ++
        revisionText engine := by
    apply String.toList_inj.mp
    simp [engineNumericalCompatibilityKey, revisionText]
  rw [hkey, pieces_colon, pieces_colon, pieces_colon, keyPieces]

theorem engineIdentityKey_eq (engine : EngineIdentity) :
    engineIdentityKey engine =
      engineNumericalCompatibilityKey engine ++ ":" ++ ("adapter-" ++ toString engine.adapterContractVersion) := by
  apply String.toList_inj.mp
  simp [engineIdentityKey, engineNumericalCompatibilityKey]

theorem compatibilityKey_eq_iff (a b : EngineIdentity) :
    engineNumericalCompatibilityKey a = engineNumericalCompatibilityKey b ↔ keyPieces a = keyPieces b := by
  rw [← pieces_compatibilityKey, ← pieces_compatibilityKey]
  exact ⟨congrArg pieces, pieces_inj⟩

/-! ## Accepted identities -/

/-- `isEngineIdentity` accepts a value with these fields. -/
def Accepted (engine : EngineIdentity) : Prop := ∃ value, engineIdentity? value = some engine

theorem Accepted.adapter {engine : EngineIdentity} (h : Accepted engine) :
    0 < engine.adapterContractVersion := by
  obtain ⟨value, hvalue⟩ := h
  simp only [engineIdentity?, Option.bind_eq_bind, Option.bind_eq_some_iff] at hvalue
  obtain ⟨family, -, distribution, -, version, -, revision, -, adapter, -, h⟩ := hvalue
  split at h
  · next hpos =>
    cases h
    exact hpos
  · cases h

theorem toString_natCast (n : ℕ) : (toString (n : ℤ)).toList = Nat.toDigits 10 n := by
  have hrepr : toString (n : ℤ) = Nat.repr n := rfl
  rw [hrepr, Nat.repr_eq_ofList_toDigits, String.toList_ofList]

theorem adapterText_inj {m n : ℤ} (hm : 0 < m) (hn : 0 < n)
    (h : "adapter-" ++ toString m = "adapter-" ++ toString n) : m = n := by
  obtain ⟨i, rfl⟩ := Int.eq_ofNat_of_zero_le hm.le
  obtain ⟨j, rfl⟩ := Int.eq_ofNat_of_zero_le hn.le
  have hlist := congrArg String.toList h
  rw [String.toList_append, String.toList_append] at hlist
  have hdigits := List.append_cancel_left hlist
  rw [toString_natCast, toString_natCast] at hdigits
  have hnat : i = j := by
    rw [← Nat.ofDigitChars_ten_toDigits (n := i), hdigits, Nat.ofDigitChars_ten_toDigits]
  rw [hnat]

theorem pieces_adapterText {n : ℤ} (hn : 0 < n) :
    pieces ("adapter-" ++ toString n) = [("adapter-" ++ toString n).toList] := by
  obtain ⟨i, rfl⟩ := Int.eq_ofNat_of_zero_le hn.le
  apply List.splitOn_eq_singleton
  intro hmem
  rw [String.toList_append, List.mem_append] at hmem
  obtain hmem | hmem := hmem
  · exact absurd hmem (by decide)
  · rw [toString_natCast] at hmem
    exact absurd (Nat.isDigit_of_mem_toDigits (by decide) (by decide) hmem) (by decide)

theorem sameEngineIdentity_iff {a b : EngineIdentity} (ha : Accepted a) (hb : Accepted b) :
    sameEngineIdentity a b = true ↔
      keyPieces a = keyPieces b ∧ a.adapterContractVersion = b.adapterContractVersion := by
  have hkey : ∀ {engine : EngineIdentity}, Accepted engine → pieces (engineIdentityKey engine) =
      keyPieces engine ++ [("adapter-" ++ toString engine.adapterContractVersion).toList] := by
    intro engine h
    rw [engineIdentityKey_eq, pieces_colon, pieces_compatibilityKey, pieces_adapterText h.adapter]
  rw [sameEngineIdentity, beq_iff_eq]
  constructor
  · intro h
    have hpieces := congrArg pieces h
    rw [hkey ha, hkey hb] at hpieces
    obtain ⟨hfields, hlast⟩ := List.append_inj' hpieces rfl
    have htext := String.toList_inj.mp (List.cons.inj hlast).1
    exact ⟨hfields, adapterText_inj ha.adapter hb.adapter htext⟩
  · rintro ⟨hfields, hadapter⟩
    apply pieces_inj
    rw [hkey ha, hkey hb, hfields, hadapter]

/-! ## When the keys name the fields -/

/-- The same pieces, divided differently among the fields. -/
def Redivided (a b : EngineIdentity) : Prop := keyPieces a = keyPieces b ∧ division a ≠ division b

theorem sameNumerics_iff (a b : EngineIdentity) :
    SameNumerics a b ↔ keyPieces a = keyPieces b ∧ division a = division b := by
  constructor
  · rintro ⟨h₁, h₂, h₃, h₄⟩
    simp [keyPieces, division, revisionText, h₁, h₂, h₃, h₄]
  · rintro ⟨hpieces, hdivision⟩
    simp only [division, Prod.mk.injEq] at hdivision
    obtain ⟨hfamily, hdistribution, hversion⟩ := hdivision
    simp only [keyPieces, List.append_assoc] at hpieces
    obtain ⟨h₁, hpieces⟩ := List.append_inj hpieces hfamily
    obtain ⟨h₂, hpieces⟩ := List.append_inj hpieces hdistribution
    obtain ⟨h₃, h₄⟩ := List.append_inj hpieces hversion
    have hrevision := congrArg String.toList (pieces_inj h₄)
    rw [revisionText, revisionText, String.toList_append, String.toList_append] at hrevision
    exact ⟨pieces_inj h₁, pieces_inj h₂, pieces_inj h₃,
      String.toList_inj.mp (List.append_cancel_left hrevision)⟩

theorem eq_iff_sameNumerics (a b : EngineIdentity) :
    a = b ↔ SameNumerics a b ∧ a.adapterContractVersion = b.adapterContractVersion := by
  obtain ⟨f, d, v, n, k⟩ := a
  obtain ⟨f', d', v', n', k'⟩ := b
  simp [SameNumerics, and_assoc]

theorem not_redivided_of_no_colon {a : EngineIdentity}
    (h : ∀ text ∈ [a.family, a.distribution, a.version, a.numericsRevision], ':' ∉ text.toList)
    (b : EngineIdentity) : ¬Redivided a b := by
  have hone : ∀ {text : String}, ':' ∉ text.toList → (pieces text).length = 1 := by
    intro text htext
    rw [pieces, List.splitOn_eq_singleton htext, List.length_singleton]
  have hrevision : ':' ∉ (revisionText a).toList := by
    rw [revisionText, String.toList_append, List.mem_append]
    rintro (hmem | hmem)
    · exact absurd hmem (by decide)
    · exact h a.numericsRevision (by simp) hmem
  have hf := hone (h a.family (by simp))
  have hd := hone (h a.distribution (by simp))
  have hv := hone (h a.version (by simp))
  have hr := hone hrevision
  rintro ⟨hpieces, hdivision⟩
  have hlength := congrArg List.length hpieces
  simp only [keyPieces, List.length_append] at hlength
  have hpos : ∀ text : String, 0 < (pieces text).length := fun text =>
    List.length_pos_of_ne_nil (pieces_ne_nil text)
  have hf' := hpos b.family
  have hd' := hpos b.distribution
  have hv' := hpos b.version
  have hr' := hpos (revisionText b)
  apply hdivision
  simp only [division, Prod.mk.injEq]
  omega

/-- The two keys name the fields exactly unless the same pieces between colons are divided
differently among family, distribution, version and revision. -/
theorem engine_keys_injective_iff {a b : EngineIdentity} (ha : Accepted a) (hb : Accepted b) :
    ((sameEngineIdentity a b = true ↔ a = b) ∧
      (engineNumericalCompatibilityKey a = engineNumericalCompatibilityKey b ↔ SameNumerics a b)) ↔
    ¬Redivided a b := by
  rw [sameEngineIdentity_iff ha hb, compatibilityKey_eq_iff, eq_iff_sameNumerics, sameNumerics_iff,
    Redivided]
  constructor
  · rintro ⟨-, hnumerics⟩ ⟨hpieces, hdivision⟩
    exact hdivision (hnumerics.mp hpieces).2
  · intro h
    have hsame : keyPieces a = keyPieces b → division a = division b := fun hpieces =>
      by_contra fun hne => h ⟨hpieces, hne⟩
    constructor
    · constructor
      · rintro ⟨hpieces, hadapter⟩
        exact ⟨⟨hpieces, hsame hpieces⟩, hadapter⟩
      · rintro ⟨⟨hpieces, -⟩, hadapter⟩
        exact ⟨hpieces, hadapter⟩
    · exact ⟨fun hpieces => ⟨hpieces, hsame hpieces⟩, fun hnumerics => hnumerics.1⟩

def engineValue (family distribution : String) : Json :=
  .obj [("family", .str family), ("distribution", .str distribution), ("version", .str "14"),
    ("numerics_revision", .str "1"), ("adapter_contract_version", .num (.fin 1))]

theorem engineValue_accepted_openfoam : Accepted ⟨"openfoam", "foundation", "14", "1", 1⟩ :=
  ⟨engineValue "openfoam" "foundation", by decide +kernel⟩

theorem engine_keys_injective_openfoam :
    (sameEngineIdentity ⟨"openfoam", "foundation", "14", "1", 1⟩ ⟨"openfoam", "foundation", "14", "1", 1⟩ = true ↔
      (⟨"openfoam", "foundation", "14", "1", 1⟩ : EngineIdentity) = ⟨"openfoam", "foundation", "14", "1", 1⟩) ∧
    ¬Redivided ⟨"openfoam", "foundation", "14", "1", 1⟩ ⟨"openfoam", "foundation", "14", "1", 1⟩ := by
  have hnot := not_redivided_of_no_colon (a := ⟨"openfoam", "foundation", "14", "1", 1⟩) (by decide)
    ⟨"openfoam", "foundation", "14", "1", 1⟩
  exact ⟨((engine_keys_injective_iff engineValue_accepted_openfoam engineValue_accepted_openfoam).mpr
    hnot).1, hnot⟩

/-- Two accepted values of different families with one key. -/
theorem moved_colon_same_identity :
    engineIdentity? (engineValue "a:b" "c") = some ⟨"a:b", "c", "14", "1", 1⟩ ∧
      engineIdentity? (engineValue "a" "b:c") = some ⟨"a", "b:c", "14", "1", 1⟩ ∧
      sameEngineIdentity ⟨"a:b", "c", "14", "1", 1⟩ ⟨"a", "b:c", "14", "1", 1⟩ = true ∧
      engineNumericalCompatibilityKey ⟨"a:b", "c", "14", "1", 1⟩ =
        engineNumericalCompatibilityKey ⟨"a", "b:c", "14", "1", 1⟩ ∧
      ("a:b" : String) ≠ "a" := by
  decide +kernel

end XFoilFoam.Remote
