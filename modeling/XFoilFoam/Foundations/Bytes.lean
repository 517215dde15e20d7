import Mathlib.Data.List.Lex
import Mathlib.Data.Nat.Notation
import Mathlib.Tactic.Common

/-! Strings as sequences of UTF-16 code units, the UTF-8 bytes they are hashed as, and streams of records
whose fields end in a byte that the field itself does not have. -/
namespace XFoilFoam
set_option autoImplicit false

/-! ## Code units -/

/-- A string of the language: any sequence of code units, lone surrogates included. -/
abbrev JsString := List UInt16

/-- A literal of the source, all of it ASCII. -/
def unitsOf (s : String) : JsString := s.toList.map (fun c => UInt16.ofNat c.toNat)

def isHighSurrogate (u : UInt16) : Bool := decide (0xd800 ≤ u.toNat) && decide (u.toNat < 0xdc00)
def isLowSurrogate (u : UInt16) : Bool := decide (0xdc00 ≤ u.toNat) && decide (u.toNat < 0xe000)

/-- The scalar value of a unit that stands alone; a lone surrogate is replaced. -/
def unitScalar (u : UInt16) : Char :=
  if isHighSurrogate u || isLowSurrogate u then Char.ofNat 0xfffd else Char.ofNat u.toNat

/-- The scalar values of a string, pairs of surrogates combined. -/
def scalars : JsString → List Char
  | [] => []
  | [u] => [unitScalar u]
  | u :: v :: rest =>
    if isHighSurrogate u && isLowSurrogate v then
      Char.ofNat (0x10000 + 0x400 * (u.toNat - 0xd800) + (v.toNat - 0xdc00)) :: scalars rest
    else unitScalar u :: scalars (v :: rest)

def charBytes (cs : List Char) : List UInt8 := cs.flatMap String.utf8EncodeChar

/-- `Buffer.from(text, "utf8")`. -/
def utf8 (s : JsString) : List UInt8 := charBytes (scalars s)

theorem charBytes_inj {cs cs' : List Char} (h : charBytes cs = charBytes cs') : cs = cs' := by
  have hbytes : cs.utf8Encode = cs'.utf8Encode := by
    rw [List.utf8Encode, List.utf8Encode]
    exact congrArg List.toByteArray h
  have hdecode := List.utf8Decode?_utf8Encode (l := cs)
  rw [hbytes, List.utf8Decode?_utf8Encode, Option.some.injEq] at hdecode
  exact (Array.toList_inj.mpr hdecode).symm

theorem ofNat_ne_zero {n : ℕ} (h : n % 256 ≠ 0) : (0 : UInt8) ≠ UInt8.ofNat n := by
  intro heq
  have hnat := congrArg UInt8.toNat heq
  rw [UInt8.toNat_ofNat'] at hnat
  exact h hnat.symm

theorem zero_notMem_utf8EncodeChar {c : Char} (hc : c.toNat ≠ 0) :
    (0 : UInt8) ∉ String.utf8EncodeChar c := by
  have hval : c.val.toNat ≠ 0 := hc
  unfold String.utf8EncodeChar
  simp only
  split
  · simp only [List.mem_singleton]
    exact ofNat_ne_zero (by omega)
  split
  · simp only [List.mem_cons, List.not_mem_nil, or_false, not_or]
    exact ⟨ofNat_ne_zero (by omega), ofNat_ne_zero (by omega)⟩
  split
  · simp only [List.mem_cons, List.not_mem_nil, or_false, not_or]
    exact ⟨ofNat_ne_zero (by omega), ofNat_ne_zero (by omega), ofNat_ne_zero (by omega)⟩
  · simp only [List.mem_cons, List.not_mem_nil, or_false, not_or]
    exact ⟨ofNat_ne_zero (by omega), ofNat_ne_zero (by omega), ofNat_ne_zero (by omega),
      ofNat_ne_zero (by omega)⟩

theorem zero_notMem_charBytes {cs : List Char} (h : ∀ c ∈ cs, c.toNat ≠ 0) :
    (0 : UInt8) ∉ charBytes cs := by
  intro hmem
  obtain ⟨c, hc, hbyte⟩ := List.mem_flatMap.mp hmem
  exact zero_notMem_utf8EncodeChar (h c hc) hbyte

theorem toNat_ofNat_valid {n : ℕ} (h : n.isValidChar) : (Char.ofNat n).toNat = n := by
  rw [Char.ofNat, dif_pos h]
  exact UInt32.toNat_ofNatLT

theorem unitScalar_toNat {u : UInt16} (hhigh : isHighSurrogate u = false)
    (hlow : isLowSurrogate u = false) : (unitScalar u).toNat = u.toNat := by
  have hlt : u.toNat < 65536 := u.toNat_lt
  have hvalid : u.toNat.isValidChar := by
    simp only [isHighSurrogate, isLowSurrogate, Bool.and_eq_false_iff, decide_eq_false_iff_not] at hhigh hlow
    unfold Nat.isValidChar
    omega
  rw [unitScalar, hhigh, hlow]
  exact toNat_ofNat_valid hvalid

theorem unitScalar_ne_zero {u : UInt16} (hu : u ≠ 0) : (unitScalar u).toNat ≠ 0 := by
  by_cases hsurrogate : (isHighSurrogate u || isLowSurrogate u) = true
  · rw [unitScalar, if_pos hsurrogate]
    decide
  · rw [Bool.not_eq_true, Bool.or_eq_false_iff] at hsurrogate
    rw [unitScalar_toNat hsurrogate.1 hsurrogate.2]
    exact fun h => hu (UInt16.toNat_inj.mp h)

theorem scalars_ne_zero (s : JsString) (h : (0 : UInt16) ∉ s) : ∀ c ∈ scalars s, c.toNat ≠ 0 := by
  induction s using scalars.induct with
  | case1 => simp [scalars]
  | case2 u =>
    simp only [scalars, List.mem_singleton, forall_eq]
    exact unitScalar_ne_zero (fun hu => h (by simp [hu]))
  | case3 u v rest hpair ih =>
    have hrest : (0 : UInt16) ∉ rest := fun hmem => h (by simp [hmem])
    rw [scalars, if_pos hpair, List.forall_mem_cons]
    refine ⟨?_, ih hrest⟩
    have hvalid : Nat.isValidChar (0x10000 + 0x400 * (u.toNat - 0xd800) + (v.toNat - 0xdc00)) := by
      simp only [isHighSurrogate, isLowSurrogate, Bool.and_eq_true, decide_eq_true_eq] at hpair
      unfold Nat.isValidChar
      omega
    rw [toNat_ofNat_valid hvalid]
    omega
  | case4 u v rest hpair ih =>
    have hrest : (0 : UInt16) ∉ v :: rest := fun hmem => h (List.mem_cons_of_mem _ hmem)
    rw [scalars, if_neg hpair, List.forall_mem_cons]
    exact ⟨unitScalar_ne_zero (fun hu => h (by simp [hu])), ih hrest⟩

theorem zero_notMem_utf8 (s : JsString) (h : (0 : UInt16) ∉ s) : (0 : UInt8) ∉ utf8 s :=
  zero_notMem_charBytes (scalars_ne_zero s h)

theorem scalars_eq_map (s : JsString)
    (h : ∀ u ∈ s, isHighSurrogate u = false ∧ isLowSurrogate u = false) :
    scalars s = s.map unitScalar := by
  induction s using scalars.induct with
  | case1 => rfl
  | case2 u => rfl
  | case3 u v rest hpair ih =>
    have hu := (h u List.mem_cons_self).1
    rw [hu] at hpair
    cases hpair
  | case4 u v rest hpair ih =>
    rw [scalars, if_neg hpair, ih (fun w hw => h w (List.mem_cons_of_mem _ hw))]
    rfl

theorem utf8_inj {s t : JsString}
    (hs : ∀ u ∈ s, isHighSurrogate u = false ∧ isLowSurrogate u = false)
    (ht : ∀ u ∈ t, isHighSurrogate u = false ∧ isLowSurrogate u = false) (h : utf8 s = utf8 t) :
    s = t := by
  have hchars := charBytes_inj h
  rw [scalars_eq_map s hs, scalars_eq_map t ht] at hchars
  have hunits := congrArg (List.map Char.toNat) hchars
  rw [List.map_map, List.map_map] at hunits
  have hback : ∀ l : JsString,
      (∀ u ∈ l, isHighSurrogate u = false ∧ isLowSurrogate u = false) →
      l.map (Char.toNat ∘ unitScalar) = l.map UInt16.toNat :=
    fun l hl => List.map_congr_left (fun u hu => unitScalar_toNat (hl u hu).1 (hl u hu).2)
  rw [hback s hs, hback t ht] at hunits
  exact List.map_injective_iff.mpr (fun _ _ => UInt16.toNat_inj.mp) hunits

theorem notMem_charBytes_ascii {cs : List Char} {b : UInt8}
    (h : ∀ c ∈ cs, c.toNat < 128 ∧ c.toNat ≠ b.toNat) : b ∉ charBytes cs := by
  intro hmem
  obtain ⟨c, hc, hbyte⟩ := List.mem_flatMap.mp hmem
  obtain ⟨hascii, hne⟩ := h c hc
  have hval : c.val.toNat < 128 := hascii
  unfold String.utf8EncodeChar at hbyte
  rw [if_pos (by omega), List.mem_singleton] at hbyte
  apply hne
  rw [hbyte, UInt8.toNat_ofNat']
  exact (Nat.mod_eq_of_lt (by omega)).symm

/-! ## Records -/

section Records
variable {α : Type}

theorem append_end_inj {z : α} {x y r r' : List α} (hx : z ∉ x) (hy : z ∉ y)
    (h : x ++ z :: r = y ++ z :: r') : x = y ∧ r = r' := by
  induction x generalizing y with
  | nil =>
    cases y with
    | nil => exact ⟨rfl, (List.cons.inj h).2⟩
    | cons b y => exact absurd (by rw [(List.cons.inj h).1]; exact List.mem_cons_self) hy
  | cons a x ih =>
    cases y with
    | nil => exact absurd (by rw [← (List.cons.inj h).1]; exact List.mem_cons_self) hx
    | cons b y =>
      obtain ⟨hab, htail⟩ := List.cons.inj h
      obtain ⟨hxy, hr⟩ := ih (fun hmem => hx (List.mem_cons_of_mem _ hmem))
        (fun hmem => hy (List.mem_cons_of_mem _ hmem)) htail
      exact ⟨by rw [hab, hxy], hr⟩

/-- Three fields, the first two ended by `z`, the last by `n`. -/
def record (z n : α) (fields : List α × List α × List α) : List α :=
  fields.1 ++ z :: (fields.2.1 ++ z :: (fields.2.2 ++ [n]))

theorem records_inj {z n : α} (rows rows' : List (List α × List α × List α))
    (hrows : ∀ f ∈ rows, z ∉ f.1 ∧ z ∉ f.2.1 ∧ n ∉ f.2.2)
    (hrows' : ∀ f ∈ rows', z ∉ f.1 ∧ z ∉ f.2.1 ∧ n ∉ f.2.2)
    (h : rows.flatMap (record z n) = rows'.flatMap (record z n)) : rows = rows' := by
  induction rows generalizing rows' with
  | nil =>
    cases rows' with
    | nil => rfl
    | cons f rows' => simp [record] at h
  | cons f rows ih =>
    cases rows' with
    | nil => simp [record] at h
    | cons g rows' =>
      obtain ⟨hf, hrest⟩ := List.forall_mem_cons.mp hrows
      obtain ⟨hg, hrest'⟩ := List.forall_mem_cons.mp hrows'
      simp only [List.flatMap_cons, record, List.append_assoc, List.cons_append,
        List.nil_append] at h
      obtain ⟨hfirst, hafter⟩ := append_end_inj hf.1 hg.1 h
      obtain ⟨hsecond, hlast⟩ := append_end_inj hf.2.1 hg.2.1 hafter
      obtain ⟨hthird, hstream⟩ := append_end_inj hf.2.2 hg.2.2 hlast
      obtain ⟨f₁, f₂, f₃⟩ := f
      obtain ⟨g₁, g₂, g₃⟩ := g
      simp only at hfirst hsecond hthird
      rw [hfirst, hsecond, hthird, ih rows' hrest hrest' hstream]

end Records

end XFoilFoam
