import XFoilFoam.Engine.RansHold
import XFoilFoam.Foundations.PosixPath
import Mathlib.Data.List.TakeWhile

/-! The two solver dictionaries as `openfoam/rans_hold.py` reads and rewrites them: `Path.read_text`, `root_entry` and
`hold_dictionaries`. -/
namespace XFoilFoam.HoldContinuation
open Engine
set_option autoImplicit false

/-! ## Files as text -/

def universalNewlines : List Char → List Char
  | [] => []
  | '\r' :: '\n' :: rest => '\n' :: universalNewlines rest
  | c :: rest => (if c = '\r' then '\n' else c) :: universalNewlines rest

theorem universalNewlines_of_notMem {text : List Char} (h : '\r' ∉ text) : universalNewlines text = text := by
  fun_induction universalNewlines text with
  | case1 => rfl
  | case2 rest ih => exact absurd List.mem_cons_self h
  | case3 c rest hpair ih =>
    rw [List.mem_cons, not_or] at h
    rw [if_neg (Ne.symm h.1), ih h.2]

theorem universalNewlines_append {line rest : List Char} (h : '\r' ∉ line) :
    universalNewlines (line ++ rest) = line ++ universalNewlines rest := by
  induction line with
  | nil => rfl
  | cons c line ih =>
    rw [List.mem_cons, not_or] at h
    rw [List.cons_append, universalNewlines, if_neg (Ne.symm h.1), ih h.2, List.cons_append]
    exact fun rest' hc => absurd hc.symm h.1

theorem universalNewlines_crlf (rest : List Char) :
    universalNewlines ('\r' :: '\n' :: rest) = '\n' :: universalNewlines rest := rfl

theorem notMem_universalNewlines (text : List Char) : '\r' ∉ universalNewlines text := by
  fun_induction universalNewlines text with
  | case1 => exact List.not_mem_nil
  | case2 rest ih => exact List.not_mem_cons_of_ne_of_not_mem (by decide) ih
  | case3 c rest hpair ih =>
    refine List.not_mem_cons_of_ne_of_not_mem ?_ ih
    split
    · decide
    · next hc => exact Ne.symm hc

/-- `Path.read_text`. -/
def readText (file : ByteArray) : Option (List Char) :=
  file.utf8Decode?.map fun text => universalNewlines text.toList

def textBytes (text : List Char) : ByteArray := (String.ofList text).toByteArray

theorem readText_textBytes {text : List Char} (h : '\r' ∉ text) : readText (textBytes text) = some text := by
  rw [readText, textBytes, String.toByteArray_ofList, List.utf8Decode?_utf8Encode, Option.map_some]
  exact congrArg some (universalNewlines_of_notMem h)

theorem notMem_of_readText {file : ByteArray} {text : List Char} (h : readText file = some text) : '\r' ∉ text := by
  obtain ⟨decoded, -, rfl⟩ := Option.map_eq_some_iff.mp h
  exact notMem_universalNewlines _

/-! ## `root_entry` -/

theorem mem_intercalate_newline {parts : List (List Char)} {c : Char} (hc : c ≠ '\n') :
    c ∈ ['\n'].intercalate parts ↔ ∃ part ∈ parts, c ∈ part := by
  induction parts with
  | nil => simp
  | cons part parts ih =>
    cases parts with
    | nil => simp
    | cons second rest =>
      rw [List.intercalate_cons_cons, List.mem_append, List.mem_append, ih, List.mem_singleton]
      simp [hc]

def blank (c : Char) : Bool := c == ' ' || c == '\t'

/-- `[^;\r\n]`, within a line. -/
def inValue (c : Char) : Bool := c != ';' && c != '\r'

/-- A match of the pattern at the start of a line: its value, and what stands after the semicolon. -/
def entryLine (name line : List Char) : Option (List Char × List Char) :=
  if name.isPrefixOf line then
    match (line.drop name.length).takeWhile inValue, (line.drop name.length).dropWhile inValue with
    | first :: second :: value, ';' :: tail =>
      if blank first then some (strip (first :: second :: value), tail) else none
    | _, _ => none
  else none

theorem entryLine_eq_some {name line : List Char} {entry : List Char × List Char} :
    entryLine name line = some entry ↔
      ∃ first second value, blank first = true ∧ (∀ c ∈ first :: second :: value, inValue c = true) ∧
        line = name ++ (first :: second :: value) ++ ';' :: entry.2 ∧ strip (first :: second :: value) = entry.1 := by
  obtain ⟨v, tail⟩ := entry
  constructor
  · intro h
    unfold entryLine at h
    split at h
    · next hname =>
      obtain ⟨rest, rfl⟩ := List.isPrefixOf_iff_prefix.mp hname
      rw [List.drop_left] at h
      split at h
      · next first second value tail' htake hdrop =>
        split at h
        · next hblank =>
          cases h
          refine ⟨first, second, value, hblank, ?_, ?_, rfl⟩
          · intro c hc
            rw [← htake] at hc
            exact List.mem_takeWhile_imp hc
          · rw [List.append_assoc, ← htake, ← hdrop, List.takeWhile_append_dropWhile]
        · cases h
      · cases h
    · cases h
  · rintro ⟨first, second, value, hblank, hvalue, rfl, rfl⟩
    have hstop : inValue ';' = false := rfl
    have htake : ((first :: second :: value) ++ ';' :: tail).takeWhile inValue = first :: second :: value := by
      rw [List.takeWhile_append_of_pos hvalue, List.takeWhile_cons_of_neg (by rw [hstop]; exact Bool.false_ne_true),
        List.append_nil]
    have hdrop : ((first :: second :: value) ++ ';' :: tail).dropWhile inValue = ';' :: tail := by
      rw [List.dropWhile_append_of_pos hvalue, List.dropWhile_cons_of_neg (by rw [hstop]; exact Bool.false_ne_true)]
    rw [entryLine, List.append_assoc, if_pos (List.isPrefixOf_iff_prefix.mpr (List.prefix_append _ _)), List.drop_left,
      htake, hdrop]
    exact if_pos hblank

/-- The line after `re.sub`. -/
def setLine (name value line : List Char) : List Char :=
  match entryLine name line with
  | some (_, tail) => name ++ (' ' :: value) ++ ';' :: tail
  | none => line

def lines (text : List Char) : List (List Char) := text.splitOn '\n'

inductive HoldError (ε : Type) where
  | infrastructureError (text : String)
  | valueError (number : List Char)
  | python (error : PyError)
  | outside (error : ε)

variable {ε : Type}

def rootEntry (text : List Char) (name : String) : Except (HoldError ε) (List Char) :=
  match (lines text).filterMap (entryLine name.toList) with
  | [(value, _)] => .ok value
  | _ => .error (.infrastructureError ("RANS hold requires one generated root " ++ name ++ " entry"))

/-- `root_entry(text, name, value)`. -/
def setRootEntry (text : List Char) (name : String) (value : List Char) : Except (HoldError ε) (List Char) :=
  match (lines text).filterMap (entryLine name.toList) with
  | [_] => .ok (['\n'].intercalate ((lines text).map (setLine name.toList value)))
  | _ => .error (.infrastructureError ("RANS hold requires one generated root " ++ name ++ " entry"))

def Plain (word : List Char) : Prop := ∀ c ∈ word, inValue c = true ∧ blank c = false ∧ pySpace c = false

theorem entryLine_unique {name other line : List Char} (hname : Plain name) (hother : Plain other) {entry entry'}
    (h : entryLine name line = some entry) (h' : entryLine other line = some entry') : name = other := by
  obtain ⟨first, second, value, hblank, -, hline, -⟩ := entryLine_eq_some.mp h
  obtain ⟨first', second', value', hblank', -, hline', -⟩ := entryLine_eq_some.mp h'
  have hhead : ∀ {word : List Char} {c : Char} {rest : List Char}, Plain word → blank c = true →
      (word ++ c :: rest).takeWhile (fun c => !blank c) = word := by
    intro word c rest hword hc
    rw [List.takeWhile_append_of_pos (fun c hc => by rw [(hword c hc).2.1]; rfl),
      List.takeWhile_cons_of_neg (by rw [hc]; exact Bool.false_ne_true), List.append_nil]
  rw [List.append_assoc, List.cons_append] at hline hline'
  rw [← @hhead name _ _ hname hblank, ← hline, hline', hhead hother hblank']

theorem strip_plain {word : List Char} (h : Plain word) : strip (' ' :: word) = word := by
  have hdrop : ∀ {letters : List Char}, (∀ c ∈ letters, pySpace c = false) → letters.dropWhile pySpace = letters := by
    intro letters hletters
    cases letters with
    | nil => rfl
    | cons c letters => exact List.dropWhile_cons_of_neg (by rw [hletters c List.mem_cons_self]; exact Bool.false_ne_true)
  have hspace : pySpace ' ' = true := rfl
  rw [strip, List.dropWhile_cons_of_pos hspace, hdrop fun c hc => (h c hc).2.2,
    hdrop fun c hc => (h c (List.mem_reverse.mp hc)).2.2, List.reverse_reverse]

theorem entryLine_setLine {name value line : List Char} (hvalue : Plain value) (hne : value ≠ []) :
    entryLine name (setLine name value line) = (entryLine name line).map fun entry => (value, entry.2) := by
  cases hline : entryLine name line with
  | none => simp only [setLine, hline, Option.map_none]
  | some entry =>
    obtain ⟨second, rest, rfl⟩ := List.exists_cons_of_ne_nil hne
    simp only [setLine, hline, Option.map_some]
    refine entryLine_eq_some.mpr ⟨' ', second, rest, rfl, ?_, rfl, strip_plain hvalue⟩
    intro c hc
    obtain rfl | hc := List.mem_cons.mp hc
    · rfl
    · exact (hvalue c hc).1

theorem entryLine_setLine_of_ne {name other value line : List Char} (hname : Plain name) (hother : Plain other)
    (hvalue : Plain value) (hvalueNe : value ≠ []) (hne : name ≠ other) :
    entryLine other (setLine name value line) = entryLine other line := by
  cases hline : entryLine name line with
  | none => simp only [setLine, hline]
  | some entry =>
    have hset : entryLine name (setLine name value line) = some (value, entry.2) := by
      rw [entryLine_setLine hvalue hvalueNe, hline, Option.map_some]
    have habsent : ∀ {text : List Char} {found}, entryLine name text = some found → entryLine other text = none :=
      fun hfound => Option.eq_none_iff_forall_not_mem.mpr fun _ h' => hne (entryLine_unique hname hother hfound h')
    rw [habsent hset, habsent hline]

theorem mem_setLine {name value line : List Char} {c : Char} (h : c ∈ setLine name value line) :
    c ∈ name ∨ c ∈ value ∨ c ∈ line ∨ c = ' ' ∨ c = ';' := by
  cases hline : entryLine name line with
  | none =>
    simp only [setLine, hline] at h
    exact .inr (.inr (.inl h))
  | some entry =>
    obtain ⟨first, second, rest, -, -, heq, -⟩ := entryLine_eq_some.mp hline
    have htail : c ∈ entry.2 → c ∈ line := fun hc => by
      rw [heq]
      exact List.mem_append_right _ (List.mem_cons_of_mem _ hc)
    simp only [setLine, hline, List.mem_append, List.mem_cons] at h
    tauto

variable {text text' value : List Char} {name : String}

theorem setRootEntry_eq_ok (h : setRootEntry text name value = (.ok text' : Except (HoldError ε) _)) :
    (∃ entry, (lines text).filterMap (entryLine name.toList) = [entry]) ∧
      text' = ['\n'].intercalate ((lines text).map (setLine name.toList value)) := by
  unfold setRootEntry at h
  split at h
  · next entry hentry =>
    cases h
    exact ⟨⟨entry, hentry⟩, rfl⟩
  · cases h

theorem lines_setRootEntry (hname : Plain name.toList) (hvalue : Plain value)
    (h : setRootEntry text name value = (.ok text' : Except (HoldError ε) _)) :
    lines text' = (lines text).map (setLine name.toList value) := by
  have hplain : ∀ {word : List Char}, Plain word → '\n' ∉ word := fun hword hc => by
    have hspace := (hword _ hc).2.2
    exact absurd hspace (by decide)
  rw [(setRootEntry_eq_ok h).2]
  refine List.splitOn_intercalate _ ?_ fun hnil => List.splitOn_ne_nil _ _ (List.map_eq_nil_iff.mp hnil)
  intro line hline hc
  obtain ⟨before, hbefore, rfl⟩ := List.mem_map.mp hline
  obtain hc | hc | hc | hc | hc := mem_setLine hc
  · exact hplain hname hc
  · exact hplain hvalue hc
  · exact notMem_of_mem_splitOn hbefore hc
  · exact absurd hc (by decide)
  · exact absurd hc (by decide)

theorem rootEntry_setRootEntry (hname : Plain name.toList) (hvalue : Plain value) (hne : value ≠ [])
    (h : setRootEntry text name value = (.ok text' : Except (HoldError ε) _)) :
    rootEntry text' name = (.ok value : Except (HoldError ε) _) := by
  obtain ⟨⟨entry, hentry⟩, -⟩ := setRootEntry_eq_ok h
  have hread : (lines text').filterMap (entryLine name.toList) = [(value, entry.2)] := by
    rw [lines_setRootEntry hname hvalue h, List.filterMap_map]
    calc (lines text).filterMap (entryLine name.toList ∘ setLine name.toList value)
        = (lines text).filterMap fun line => (entryLine name.toList line).map fun entry => (value, entry.2) := by
          exact List.filterMap_congr fun line _ => entryLine_setLine hvalue hne
      _ = ((lines text).filterMap (entryLine name.toList)).map fun entry => (value, entry.2) := by
          rw [List.map_filterMap]
      _ = [(value, entry.2)] := by rw [hentry, List.map_singleton]
  rw [rootEntry, hread]

theorem rootEntry_setRootEntry_of_ne {other : String} (hname : Plain name.toList) (hother : Plain other.toList)
    (hvalue : Plain value) (hvalueNe : value ≠ []) (hne : name.toList ≠ other.toList)
    (h : setRootEntry text name value = (.ok text' : Except (HoldError ε) _)) :
    rootEntry text' other = (rootEntry text other : Except (HoldError ε) _) := by
  have hread : (lines text').filterMap (entryLine other.toList) = (lines text).filterMap (entryLine other.toList) := by
    rw [lines_setRootEntry hname hvalue h, List.filterMap_map]
    exact List.filterMap_congr fun line _ => entryLine_setLine_of_ne hname hother hvalue hvalueNe hne
  rw [rootEntry, rootEntry, hread]

theorem notMem_setRootEntry (hname : Plain name.toList) (hvalue : Plain value) (htext : '\r' ∉ text)
    (h : setRootEntry text name value = (.ok text' : Except (HoldError ε) _)) : '\r' ∉ text' := by
  have hplain : ∀ {word : List Char}, Plain word → '\r' ∉ word := fun hword hc => by
    have hspace := (hword _ hc).2.2
    exact absurd hspace (by decide)
  rw [(setRootEntry_eq_ok h).2, mem_intercalate_newline (by decide)]
  rintro ⟨line, hline, hc⟩
  obtain ⟨before, hbefore, rfl⟩ := List.mem_map.mp hline
  obtain hc | hc | hc | hc | hc := mem_setLine hc
  · exact hplain hname hc
  · exact hplain hvalue hc
  · refine htext ?_
    rw [← @List.intercalate_splitOn _ text _ _ '\n', mem_intercalate_newline (by decide)]
    exact ⟨before, hbefore, hc⟩
  · exact absurd hc (by decide)
  · exact absurd hc (by decide)

/-! ## `hold_dictionaries` -/

/-- `str` of an integer. -/
def decimal (n : ℤ) : List Char :=
  if n < 0 then '-' :: Nat.toDigits 10 n.natAbs else Nat.toDigits 10 n.natAbs

theorem plain_decimal (n : ℤ) : Plain (decimal n) := by
  have hdigits : Plain (Nat.toDigits 10 n.natAbs) := by
    intro c hc
    have hdigit := digits_isDigit n.natAbs c hc
    have hne (other : Char) (hother : other.isDigit = false) : c ≠ other := by
      rintro rfl
      rw [hdigit] at hother
      cases hother
    refine ⟨?_, ?_, (not_space_of_isDigit hdigit).1⟩
    · simp [inValue, hne ';' rfl, hne '\r' rfl]
    · simp [blank, hne ' ' rfl, hne '\t' rfl]
  unfold decimal
  split
  · intro c hc
    obtain rfl | hc := List.mem_cons.mp hc
    · decide
    · exact hdigits c hc
  · exact hdigits

theorem decimal_ne_nil (n : ℤ) : decimal n ≠ [] := by
  unfold decimal
  split
  · exact List.cons_ne_nil _ _
  · exact Nat.toDigits_ne_nil

/-- The matcher's table of `\w`. -/
abbrev WordChars := Char → Bool

/-- What follows a match of `\bname\s*\x7b`. -/
def blockHead (word : WordChars) (name : List Char) (before : Option Char) (text : List Char) : Option (List Char) :=
  if before.elim false word then none
  else if name.isPrefixOf text then
    match (text.drop name.length).dropWhile pySpace with
    | '\x7b' :: body => some body
    | _ => none
  else none

/-- `re.search` of a block's head. -/
def hasBlock (word : WordChars) (name : List Char) : Option Char → List Char → Bool
  | _, [] => false
  | before, c :: rest => (blockHead word name before (c :: rest)).isSome || hasBlock word name (some c) rest

/-- What follows a residual control without inner braces. -/
def flatControl (word : WordChars) (before : Option Char) (text : List Char) : Option (List Char) :=
  (blockHead word "residualControl".toList before text).bind fun body =>
    match body.dropWhile fun c => c != '\x7b' && c != '\x7d' with
    | '\x7d' :: after => some after
    | _ => none

/-- `re.subn`: `skip` more characters belong to the last match. -/
def clearControls (word : WordChars) : ℕ → Option Char → List Char → List Char × ℕ
  | _, _, [] => ([], 0)
  | skip + 1, _, c :: rest => clearControls word skip (some c) rest
  | 0, before, c :: rest =>
    match flatControl word before (c :: rest) with
    | some after =>
      let cleared := clearControls word (rest.length - after.length) (some c) rest
      ("residualControl \x7b\x7d".toList ++ cleared.1, cleared.2 + 1)
    | none =>
      let cleared := clearControls word 0 (some c) rest
      (c :: cleared.1, cleared.2)

def holdEntries (stop steps : ℤ) : List (String × List Char) :=
  [("startFrom", "latestTime".toList), ("stopAt", "endTime".toList), ("endTime", decimal stop),
    ("writeControl", "runTime".toList), ("writeInterval", decimal steps), ("purgeWrite", "3".toList)]

def setRootEntries (text : List Char) (entries : List (String × List Char)) : Except (HoldError ε) (List Char) :=
  entries.foldlM (fun text entry => setRootEntry text entry.1 entry.2) text

def holdDictionaries (word : WordChars) (control solution : List Char) (stop steps : ℤ) :
    Except (HoldError ε) (List Char × List Char) :=
  if !hasBlock word "SIMPLE".toList none solution || hasBlock word "PIMPLE".toList none solution then
    .error (.infrastructureError "RANS hold requires a steady SIMPLE dictionary")
  else
    let (updatedSolution, count) := clearControls word 0 none solution
    if count ≠ 1 then .error (.infrastructureError "RANS hold requires one flat generated residual control")
    else (setRootEntries control (holdEntries stop steps)).map fun updatedControl => (updatedControl, updatedSolution)

theorem setRootEntries_spec {entries : List (String × List Char)}
    (hplain : ∀ entry ∈ entries, Plain entry.1.toList ∧ Plain entry.2 ∧ entry.2 ≠ [])
    (hdistinct : (entries.map fun entry => entry.1.toList).Nodup) (htext : '\r' ∉ text)
    (h : setRootEntries text entries = (.ok text' : Except (HoldError ε) _)) :
    '\r' ∉ text' ∧ (∀ entry ∈ entries, rootEntry text' entry.1 = (.ok entry.2 : Except (HoldError ε) _)) ∧
      ∀ other : String, Plain other.toList → other.toList ∉ entries.map (fun entry => entry.1.toList) →
        rootEntry text' other = (rootEntry text other : Except (HoldError ε) _) := by
  induction entries generalizing text with
  | nil =>
    cases h
    exact ⟨htext, fun _ hentry => absurd hentry List.not_mem_nil, fun _ _ _ => rfl⟩
  | cons entry entries ih =>
    obtain ⟨hname, hvalue, hne⟩ := hplain entry List.mem_cons_self
    rw [List.map_cons, List.nodup_cons] at hdistinct
    rw [setRootEntries, List.foldlM_cons] at h
    cases hset : (setRootEntry text entry.1 entry.2 : Except (HoldError ε) _) with
    | error e =>
      rw [hset] at h
      cases h
    | ok next =>
      rw [hset] at h
      obtain ⟨hcr, hread, hstay⟩ := ih (fun entry' hentry' => hplain entry' (List.mem_cons_of_mem _ hentry')) hdistinct.2
        (notMem_setRootEntry hname hvalue htext hset) h
      refine ⟨hcr, ?_, ?_⟩
      · intro entry' hentry'
        obtain rfl | hentry' := List.mem_cons.mp hentry'
        · rw [hstay _ hname hdistinct.1]
          exact rootEntry_setRootEntry hname hvalue hne hset
        · exact hread entry' hentry'
      · intro other hother hnotMem
        rw [List.map_cons, List.mem_cons, not_or] at hnotMem
        rw [hstay other hother hnotMem.2]
        exact rootEntry_setRootEntry_of_ne hname hother hvalue hne (Ne.symm hnotMem.1) hset

theorem holdDictionaries_endTime {word : WordChars} {control solution : List Char} {stop steps : ℤ}
    {updated : List Char × List Char} (hcontrol : '\r' ∉ control)
    (h : holdDictionaries word control solution stop steps = (.ok updated : Except (HoldError ε) _)) :
    '\r' ∉ updated.1 ∧ rootEntry updated.1 "endTime" = (.ok (decimal stop) : Except (HoldError ε) _) := by
  have hplain : ∀ entry ∈ holdEntries stop steps, Plain entry.1.toList ∧ Plain entry.2 ∧ entry.2 ≠ [] := by
    have hword : ∀ {letters : List Char}, (letters.all fun c => inValue c && !blank c && !pySpace c) = true → Plain letters := by
      intro letters hall c hc
      have hc := List.all_eq_true.mp hall c hc
      simpa [and_assoc] using hc
    simp only [holdEntries, List.forall_mem_cons]
    refine ⟨⟨hword (by decide), hword (by decide), by decide⟩, ⟨hword (by decide), hword (by decide), by decide⟩,
      ⟨hword (by decide), plain_decimal _, decimal_ne_nil _⟩, ⟨hword (by decide), hword (by decide), by decide⟩,
      ⟨hword (by decide), plain_decimal _, decimal_ne_nil _⟩, ⟨hword (by decide), hword (by decide), by decide⟩, ?_⟩
    exact fun _ hentry => absurd hentry List.not_mem_nil
  have hdistinct : ((holdEntries stop steps).map fun entry => entry.1.toList).Nodup := by
    show (["startFrom", "stopAt", "endTime", "writeControl", "writeInterval", "purgeWrite"].map String.toList).Nodup
    decide
  unfold holdDictionaries at h
  split at h
  · cases h
  · dsimp only at h
    split at h
    · cases h
    · cases hset : (setRootEntries control (holdEntries stop steps) : Except (HoldError ε) _) with
      | error e =>
        rw [hset] at h
        cases h
      | ok text =>
        rw [hset] at h
        cases h
        obtain ⟨hcr, hread, -⟩ := setRootEntries_spec hplain hdistinct hcontrol hset
        exact ⟨hcr, hread ("endTime", decimal stop) (by simp [holdEntries])⟩

end XFoilFoam.HoldContinuation
