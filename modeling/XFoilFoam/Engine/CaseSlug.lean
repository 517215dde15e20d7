import XFoilFoam.Engine.Request
import XFoilFoam.Foundations.Bytes
import XFoilFoam.Foundations.Decimal

/-! `CaseSpec.slug` of `src/airfoilfoam/models.py`, the name of a case's directory: three numbers in the
general format with six significant digits, `.` and `-` replaced by letters. -/
namespace XFoilFoam.Engine
open Decimal
set_option autoImplicit false

/-! ## The text -/

/-- `str.replace` of one character by another. -/
def replaceChar (old new : Char) (text : List Char) : List Char :=
  text.map fun c => if c = old then new else c

/-- `f"{value:g}"`. -/
def formatG (value : ℚ) : List Char := generalText 6 value

def CaseSpec.label (spec : CaseSpec) : List Char :=
  'c' :: formatG spec.chord ++ '_' :: 'u' :: formatG spec.speed ++ '_' :: 'a' :: formatG spec.aoaDeg

def CaseSpec.slug (spec : CaseSpec) : String :=
  String.ofList (replaceChar '-' 'm' (replaceChar '.' 'p' spec.label))

/-! ## What a slug names -/

theorem replaceChar_inj {old new : Char} {x y : List Char} (hx : new ∉ x) (hy : new ∉ y)
    (h : replaceChar old new x = replaceChar old new y) : x = y := by
  induction x generalizing y with
  | nil => exact (List.map_eq_nil_iff.mp h.symm).symm
  | cons a x ih =>
    cases y with
    | nil => exact absurd h (by simp [replaceChar])
    | cons b y =>
      simp only [List.mem_cons, not_or] at hx hy
      simp only [replaceChar, List.map_cons, List.cons.injEq] at h
      have hab : a = b := by
        have hhead := h.1
        split_ifs at hhead with ha hb hb
        · exact ha.trans hb.symm
        · exact absurd hhead hy.1
        · exact absurd hhead.symm hx.1
        · exact hhead
      rw [hab, ih hx.2 hy.2 h.2]

theorem not_mem_formatG {c : Char} (hdigit : c.isDigit = false) (hother : c ∉ ['.', '-', '+', 'e'])
    (value : ℚ) : c ∉ formatG value := by
  intro hc
  obtain h | h := mem_generalText hc
  · exact Bool.false_ne_true (hdigit.symm.trans h)
  · exact hother h

theorem not_mem_label {c : Char} (hdigit : c.isDigit = false) (hother : c ∉ ['.', '-', '+', 'e'])
    (hmark : c ∉ ['c', 'u', 'a', '_']) (spec : CaseSpec) : c ∉ spec.label := by
  have h := not_mem_formatG hdigit hother
  simp only [List.mem_cons, List.not_mem_nil, or_false, not_or] at hmark
  simp [CaseSpec.label, h, hmark]

theorem label_of_slug {a b : CaseSpec} (h : a.slug = b.slug) : a.label = b.label := by
  have hchars := String.ofList_injective h
  have hp : ∀ spec : CaseSpec, 'p' ∉ spec.label := not_mem_label (by decide) (by decide) (by decide)
  have hm : ∀ spec : CaseSpec, 'm' ∉ replaceChar '.' 'p' spec.label := by
    intro spec hmem
    obtain ⟨c, hc, hcm⟩ := List.mem_map.mp hmem
    split_ifs at hcm with hdot
    · exact absurd hcm (by decide)
    · subst hcm
      exact not_mem_label (by decide) (by decide) (by decide) spec hc
  exact replaceChar_inj (hp a) (hp b) (replaceChar_inj (hm a) (hm b) hchars)

theorem slug_eq_iff (a b : CaseSpec) :
    a.slug = b.slug ↔
      significant 6 a.chord = significant 6 b.chord ∧ significant 6 a.speed = significant 6 b.speed ∧
        significant 6 a.aoaDeg = significant 6 b.aoaDeg := by
  simp only [← generalText_eq_iff]
  constructor
  · intro h
    have hlabel := label_of_slug h
    have hmark : ∀ value : ℚ, '_' ∉ formatG value := not_mem_formatG (by decide) (by decide)
    simp only [CaseSpec.label, List.cons_append, List.append_assoc, List.cons.injEq, true_and] at hlabel
    obtain ⟨hchord, hrest⟩ := append_end_inj (hmark _) (hmark _) hlabel
    obtain ⟨hspeed, hlast⟩ := append_end_inj (hmark _) (hmark _) (List.cons.inj hrest).2
    exact ⟨hchord, hspeed, (List.cons.inj hlast).2⟩
  · rintro ⟨hchord, hspeed, haoa⟩
    simp only [CaseSpec.slug, CaseSpec.label, formatG, hchord, hspeed, haoa]

/-! ## The cases of a request -/

/-- Different numbers stay different when they are rounded to six significant digits. -/
def ApartAtSixDigits (values : List ℚ) : Prop :=
  ∀ x ∈ values, ∀ y ∈ values, x ≠ y → significant 6 x ≠ significant 6 y

def closeChords : PolarRequest where
  chordLengths := [1, 1 + 1 / 2 ^ 30]
  speeds := [10]
  aoa := ⟨some [0], none, none, none, .inl rfl, by decide⟩
  warmStart := false
  resources := ⟨none, none, none, none, .auto⟩
  chords_ne := by decide
  speeds_ne := by decide
  chords_pos := by decide +kernel
  speeds_pos := by decide +kernel

end XFoilFoam.Engine
