import XFoilFoam.Foundations.CanonicalJson

/-! JSON as text: `JSON.stringify` without white space and `JSON.parse`, on the characters of a string.
How a number is printed and read is a parameter with its laws. -/
namespace XFoilFoam
set_option autoImplicit false

/-! ## Numbers -/

def isNumeric (c : Char) : Bool :=
  c.isDigit || c == '-' || c == '+' || c == '.' || c == 'e' || c == 'E'

/-- `Number.prototype.toString` on finite numbers and the reading of a JSON number literal.  The text
names the number up to the sign of zero, and reading gives a number with that text. -/
structure JsonNumbers (F : Type) [Binary64 F] where
  text : F → List Char
  read : List Char → Option F
  text_ne : ∀ x, Binary64.isFinite x = true → text x ≠ []
  text_numeric : ∀ x, Binary64.isFinite x = true → ∀ c ∈ text x, isNumeric c = true
  text_eq_iff : ∀ x y, Binary64.isFinite x = true → Binary64.isFinite y = true →
    (text x = text y ↔ Binary64.eq x y = true)
  read_text : ∀ x, Binary64.isFinite x = true →
    ∃ y, read (text x) = some y ∧ Binary64.isFinite y = true ∧ text y = text x

def magnitudeText (n d : ℕ) : List Char :=
  Nat.toDigits 10 n ++ if d = 1 then [] else 'e' :: Nat.toDigits 10 d

def ratText (q : ℚ) : List Char :=
  if q.num < 0 then '-' :: magnitudeText q.num.natAbs q.den else magnitudeText q.num.natAbs q.den

def readMagnitude (s : List Char) : ℚ :=
  let numerator := Nat.ofDigitChars 10 (s.takeWhile Char.isDigit) 0
  match s.dropWhile Char.isDigit with
  | [] => numerator
  | _ :: denominator => numerator / Nat.ofDigitChars 10 denominator 0

def readRat (s : List Char) : ℚ :=
  if s.head? = some '-' then -readMagnitude s.tail else readMagnitude s

theorem toDigits_isDigit (n : ℕ) : ∀ c ∈ Nat.toDigits 10 n, c.isDigit = true :=
  fun _ hc => Nat.isDigit_of_mem_toDigits (by decide) (by decide) hc

theorem readMagnitude_text (n d : ℕ) : readMagnitude (magnitudeText n d) = n / d := by
  have he : Char.isDigit 'e' = false := by decide
  rw [readMagnitude, magnitudeText, List.takeWhile_append_of_pos (toDigits_isDigit n),
    List.dropWhile_append_of_pos (toDigits_isDigit n)]
  by_cases hd : d = 1
  · simp [hd, Nat.ofDigitChars_ten_toDigits]
  · simp [hd, he, Nat.ofDigitChars_ten_toDigits]

theorem magnitudeText_head (n d : ℕ) : ∃ c s, magnitudeText n d = c :: s ∧ c.isDigit = true := by
  cases hdigits : Nat.toDigits 10 n with
  | nil => exact absurd hdigits Nat.toDigits_ne_nil
  | cons c s =>
    refine ⟨c, _, by rw [magnitudeText, hdigits, List.cons_append], ?_⟩
    exact toDigits_isDigit n c (by rw [hdigits]; exact List.mem_cons_self)

theorem readRat_text (q : ℚ) : readRat (ratText q) = q := by
  have hmagnitude := readMagnitude_text q.num.natAbs q.den
  have hq : (q.num : ℚ) / q.den = q := Rat.num_div_den q
  unfold ratText
  split
  · next hsign =>
    have habs : ((q.num.natAbs : ℕ) : ℚ) = -(q.num : ℚ) := by
      rw [Nat.cast_natAbs, abs_of_neg hsign, Int.cast_neg]
    rw [readRat, List.head?_cons, if_pos rfl, List.tail_cons, hmagnitude, habs, neg_div, neg_neg, hq]
  · next hsign =>
    have habs : ((q.num.natAbs : ℕ) : ℚ) = (q.num : ℚ) := by
      rw [Nat.cast_natAbs, abs_of_nonneg (not_lt.mp hsign)]
    obtain ⟨c, s, htext, hc⟩ := magnitudeText_head q.num.natAbs q.den
    have hhead : ¬ (magnitudeText q.num.natAbs q.den).head? = some '-' := by
      rw [htext, List.head?_cons, Option.some.injEq]
      rintro rfl
      exact absurd hc (by decide)
    rw [readRat, if_neg hhead, hmagnitude, habs, hq]

theorem ratText_numeric (q : ℚ) : ∀ c ∈ ratText q, isNumeric c = true := by
  have hmagnitude : ∀ n d, ∀ c ∈ magnitudeText n d, isNumeric c = true := by
    intro n d c hc
    have hdigit : ∀ m, c ∈ Nat.toDigits 10 m → isNumeric c = true := by
      intro m hm
      simp [isNumeric, toDigits_isDigit m c hm]
    rw [magnitudeText, List.mem_append] at hc
    obtain hc | hc := hc
    · exact hdigit n hc
    · split at hc
      · cases hc
      · obtain rfl | hc := List.mem_cons.mp hc
        · decide
        · exact hdigit d hc
  intro c hc
  unfold ratText at hc
  split at hc
  · obtain rfl | hc := List.mem_cons.mp hc
    · decide
    · exact hmagnitude _ _ c hc
  · exact hmagnitude _ _ c hc

theorem ratText_ne_nil (q : ℚ) : ratText q ≠ [] := by
  obtain ⟨c, s, htext, -⟩ := magnitudeText_head q.num.natAbs q.den
  unfold ratText
  split <;> simp [htext]

def exactText : ExactNum → List Char
  | .fin q => ratText q
  | _ => []

def exactJsonNumbers : JsonNumbers ExactNum where
  text := exactText
  read s := some (.fin (readRat s))
  text_ne x hx := by
    cases x with
    | fin q => exact ratText_ne_nil q
    | _ => cases hx
  text_numeric x hx := by
    cases x with
    | fin q => exact ratText_numeric q
    | _ => cases hx
  text_eq_iff x y hx hy := by
    cases x with
    | fin p =>
      cases y with
      | fin q =>
        constructor
        · intro h
          have htext : ratText p = ratText q := h
          have hpq : p = q := by rw [← readRat_text p, ← readRat_text q, htext]
          rw [hpq]
          exact decide_eq_true rfl
        · intro h
          rw [of_decide_eq_true h]
      | _ => cases hy
    | _ => cases hx
  read_text x hx := by
    cases x with
    | fin q => exact ⟨.fin q, by rw [exactText, readRat_text], rfl, rfl⟩
    | _ => cases hx

/-! ## Strings -/

/-- A hexadecimal digit, as `JSON.stringify` writes it. -/
def hexDigit (d : ℕ) : Char := if d < 10 then Char.ofNat (48 + d) else Char.ofNat (87 + d)

/-- `QuoteJSONString` of one character. -/
def quoteChar (c : Char) : List Char :=
  if c = '"' then ['\\', '"']
  else if c = '\\' then ['\\', '\\']
  else if c.toNat = 8 then ['\\', 'b']
  else if c.toNat = 9 then ['\\', 't']
  else if c.toNat = 10 then ['\\', 'n']
  else if c.toNat = 12 then ['\\', 'f']
  else if c.toNat = 13 then ['\\', 'r']
  else if c.toNat < 32 then ['\\', 'u', '0', '0', hexDigit (c.toNat / 16), hexDigit (c.toNat % 16)]
  else [c]

def quoteChars : List Char → List Char
  | [] => ['"']
  | c :: cs => quoteChar c ++ quoteChars cs

/-- `JSON.stringify` of a string. -/
def quote (s : String) : List Char := '"' :: quoteChars s.toList

def hexValue (c : Char) : Option ℕ :=
  if decide ('0' ≤ c) && decide (c ≤ '9') then some (c.toNat - 48)
  else if decide ('a' ≤ c) && decide (c ≤ 'f') then some (c.toNat - 87)
  else if decide ('A' ≤ c) && decide (c ≤ 'F') then some (c.toNat - 55)
  else none

def readHex4 : List Char → Option (ℕ × List Char)
  | a :: b :: c :: d :: rest => do
    let a ← hexValue a
    let b ← hexValue b
    let c ← hexValue c
    let d ← hexValue d
    return (4096 * a + 256 * b + 16 * c + d, rest)
  | _ => none

/-- The character of `\u` escapes: one code unit, or a surrogate pair.  A string of characters has no
lone surrogate. -/
def readUnicode (s : List Char) : Option (Char × List Char) := do
  let (unit, rest) ← readHex4 s
  if 0xd800 ≤ unit ∧ unit < 0xdc00 then
    match rest with
    | '\\' :: 'u' :: rest =>
      let (low, rest) ← readHex4 rest
      if 0xdc00 ≤ low ∧ low < 0xe000 then
        return (Char.ofNat (0x10000 + 0x400 * (unit - 0xd800) + (low - 0xdc00)), rest)
      else none
    | _ => none
  else if 0xdc00 ≤ unit ∧ unit < 0xe000 then none
  else return (Char.ofNat unit, rest)

def readEscape : List Char → Option (Char × List Char)
  | [] => none
  | e :: rest =>
    if e = '"' ∨ e = '\\' ∨ e = '/' then some (e, rest)
    else if e = 'b' then some (Char.ofNat 8, rest)
    else if e = 't' then some (Char.ofNat 9, rest)
    else if e = 'n' then some (Char.ofNat 10, rest)
    else if e = 'f' then some (Char.ofNat 12, rest)
    else if e = 'r' then some (Char.ofNat 13, rest)
    else if e = 'u' then readUnicode rest
    else none

def parseChars : ℕ → List Char → Option (List Char × List Char)
  | 0, _ => none
  | _ + 1, [] => none
  | n + 1, c :: rest =>
    if c = '"' then some ([], rest)
    else if c = '\\' then
      (readEscape rest).bind fun e => (parseChars n e.2).map fun r => (e.1 :: r.1, r.2)
    else if c.toNat < 32 then none
    else (parseChars n rest).map fun r => (c :: r.1, r.2)

theorem hexValue_hexDigit : ∀ d, d < 16 → hexValue (hexDigit d) = some d := by decide

theorem parseChars_escape (n : ℕ) (c : Char) {s rest : List Char}
    (h : readEscape s = some (c, rest)) :
    parseChars (n + 1) ('\\' :: s) = (parseChars n rest).map (fun r => (c :: r.1, r.2)) := by
  have hne : ¬ ('\\' : Char) = '"' := by decide
  rw [parseChars, if_neg hne, if_pos rfl, h, Option.bind_some]

theorem readUnicode_control (k : ℕ) (hk : k < 32) (rest : List Char) :
    readUnicode ('0' :: '0' :: hexDigit (k / 16) :: hexDigit (k % 16) :: rest) =
      some (Char.ofNat k, rest) := by
  have hzero : hexValue '0' = some 0 := by decide
  have hhigh := hexValue_hexDigit (k / 16) (by omega)
  have hlow := hexValue_hexDigit (k % 16) (by omega)
  have hread : readHex4 ('0' :: '0' :: hexDigit (k / 16) :: hexDigit (k % 16) :: rest) =
      some (k, rest) := by
    simp only [readHex4, hzero, hhigh, hlow, Option.bind_eq_bind, Option.bind_some, Option.pure_def,
      Option.some.injEq, Prod.mk.injEq, and_true]
    omega
  have hhighUnit : ¬ (0xd800 ≤ k ∧ k < 0xdc00) := by omega
  have hlowUnit : ¬ (0xdc00 ≤ k ∧ k < 0xe000) := by omega
  simp only [readUnicode, hread, Option.bind_eq_bind, Option.bind_some, if_neg hhighUnit,
    if_neg hlowUnit, Option.pure_def]

theorem parseChars_quoteChar (n : ℕ) (c : Char) (rest : List Char) :
    parseChars (n + 1) (quoteChar c ++ rest) =
      (parseChars n rest).map (fun r => (c :: r.1, r.2)) := by
  have hof : ∀ k, c.toNat = k → Char.ofNat k = c := by
    rintro _ rfl
    exact Char.ofNat_toNat c
  unfold quoteChar
  split
  · next h => subst h; exact parseChars_escape n _ (by simp [readEscape])
  split
  · next h => subst h; exact parseChars_escape n _ (by simp [readEscape])
  split
  · next h => exact parseChars_escape n _ (by simpa [readEscape] using hof 8 h)
  split
  · next h => exact parseChars_escape n _ (by simpa [readEscape] using hof 9 h)
  split
  · next h => exact parseChars_escape n _ (by simpa [readEscape] using hof 10 h)
  split
  · next h => exact parseChars_escape n _ (by simpa [readEscape] using hof 12 h)
  split
  · next h => exact parseChars_escape n _ (by simpa [readEscape] using hof 13 h)
  split
  · next h =>
    have hread := readUnicode_control c.toNat h rest
    rw [Char.ofNat_toNat] at hread
    exact parseChars_escape n _ (by simpa [readEscape] using hread)
  · next hquote hslash _ _ _ _ _ hcontrol =>
    rw [List.singleton_append, parseChars, if_neg hquote, if_neg hslash, if_neg hcontrol]

theorem parseChars_quoteChars (cs rest : List Char) (n : ℕ) (hn : cs.length ≤ n) :
    parseChars (n + 1) (quoteChars cs ++ rest) = some (cs, rest) := by
  induction cs generalizing n with
  | nil => simp [quoteChars, parseChars]
  | cons c cs ih =>
    obtain ⟨n, rfl⟩ : ∃ m, n = m + 1 := ⟨n - 1, by simp at hn; omega⟩
    have hle : cs.length ≤ n := by simpa using hn
    rw [quoteChars, List.append_assoc, parseChars_quoteChar, ih n hle]
    rfl

/-! ## Values -/

def isJsonSpace (c : Char) : Bool := c == ' ' || c == '\t' || c == '\n' || c == '\r'

def skipSpace (s : List Char) : List Char := s.dropWhile isJsonSpace

/-- `join(",")`. -/
def joinComma : List (List Char) → List Char
  | [] => []
  | [t] => t
  | t :: u :: ts => t ++ ',' :: joinComma (u :: ts)

/-- An assignment to an object: the key keeps its first place and takes the last value. -/
def setField {α : Type} (fields : List (String × α)) (field : String × α) : List (String × α) :=
  if field.1 ∈ fields.map Prod.fst then
    fields.map (fun f => if f.1 = field.1 then field else f)
  else fields ++ [field]

def assignFields {α : Type} (fields : List (String × α)) : List (String × α) :=
  fields.foldl setField []

theorem foldl_setField {α : Type} (fields done : List (String × α))
    (hnodup : ((done ++ fields).map Prod.fst).Nodup) :
    fields.foldl setField done = done ++ fields := by
  induction fields generalizing done with
  | nil => simp
  | cons field fields ih =>
    have hnew : field.1 ∉ done.map Prod.fst := by
      rw [List.map_append, List.map_cons, List.nodup_append] at hnodup
      intro hmem
      exact hnodup.2.2 _ hmem _ List.mem_cons_self rfl
    have hassoc : done ++ field :: fields = (done ++ [field]) ++ fields := by simp
    rw [hassoc] at hnodup ⊢
    rw [List.foldl_cons, setField, if_neg hnew]
    exact ih _ hnodup

theorem assignFields_eq {α : Type} (fields : List (String × α))
    (hnodup : (fields.map Prod.fst).Nodup) : assignFields fields = fields := by
  have h := foldl_setField fields [] (by simpa using hnodup)
  simpa [assignFields] using h

namespace JsValue
variable {F : Type} [Binary64 F] (N : JsonNumbers F)

mutual
/-- `JSON.stringify` of a JSON value. -/
def stringify : JsValue F → List Char
  | undefined => []
  | null => "null".toList
  | bool b => if b then "true".toList else "false".toList
  | num x => N.text x
  | str s => quote s
  | arr xs => '[' :: (joinComma (stringifyAll xs) ++ [']'])
  | obj fields => '\x7b' :: (joinComma (stringifyFields fields) ++ ['\x7d'])
def stringifyAll : List (JsValue F) → List (List Char)
  | [] => []
  | x :: xs => stringify x :: stringifyAll xs
def stringifyFields : List (String × JsValue F) → List (List Char)
  | [] => []
  | (key, x) :: fields => (quote key ++ ':' :: stringify x) :: stringifyFields fields
end

/-- A literal's remaining letters and what follows. -/
def afterLetters : List Char → List Char → Option (List Char)
  | [], s => some s
  | c :: cs, d :: s => if c = d then afterLetters cs s else none
  | _ :: _, [] => none

def parseNumber (s : List Char) : Option (JsValue F × List Char) :=
  (N.read (s.takeWhile isNumeric)).map fun x => (num x, s.dropWhile isNumeric)

mutual
/-- A value at the start of the text and what follows it; the first argument bounds the nesting. -/
def parseValue : ℕ → List Char → Option (JsValue F × List Char)
  | 0, _ => none
  | n + 1, s =>
    match skipSpace s with
    | [] => none
    | c :: rest =>
      if c = '"' then (parseChars n rest).map fun r => (str (String.ofList r.1), r.2)
      else if c = '[' then
        if (skipSpace rest).head? = some ']' then some (arr [], (skipSpace rest).tail)
        else (parseElements n rest).map fun r => (arr r.1, r.2)
      else if c = '\x7b' then
        if (skipSpace rest).head? = some '\x7d' then some (obj [], (skipSpace rest).tail)
        else (parseMembers n rest).map fun r => (obj (assignFields r.1), r.2)
      else if c = 'n' then (afterLetters "ull".toList rest).map fun r => (null, r)
      else if c = 't' then (afterLetters "rue".toList rest).map fun r => (bool true, r)
      else if c = 'f' then (afterLetters "alse".toList rest).map fun r => (bool false, r)
      else parseNumber N (c :: rest)
def parseElements : ℕ → List Char → Option (List (JsValue F) × List Char)
  | 0, _ => none
  | n + 1, s =>
    (parseValue n s).bind fun v =>
      match skipSpace v.2 with
      | [] => none
      | c :: rest =>
        if c = ',' then (parseElements n rest).map fun r => (v.1 :: r.1, r.2)
        else if c = ']' then some ([v.1], rest)
        else none
def parseMembers : ℕ → List Char → Option (List (String × JsValue F) × List Char)
  | 0, _ => none
  | n + 1, s =>
    match skipSpace s with
    | [] => none
    | q :: rest =>
      if q = '"' then
        (parseChars n rest).bind fun key =>
          match skipSpace key.2 with
          | [] => none
          | colon :: rest =>
            if colon = ':' then
              (parseValue n rest).bind fun v =>
                match skipSpace v.2 with
                | [] => none
                | c :: rest =>
                  if c = ',' then
                    (parseMembers n rest).map fun r => ((String.ofList key.1, v.1) :: r.1, r.2)
                  else if c = '\x7d' then some ([(String.ofList key.1, v.1)], rest)
                  else none
            else none
      else none
end

/-- `JSON.parse`; `none` where it throws. -/
def parse (s : List Char) : Option (JsValue F) :=
  (parseValue N (s.length + 1) s).bind fun v => if skipSpace v.2 = [] then some v.1 else none

@[elab_as_elim] theorem inductValue {G : Type} {P : JsValue G → Prop} (undefined : P .undefined)
    (null : P .null) (bool : ∀ b, P (.bool b)) (num : ∀ x, P (.num x)) (str : ∀ s, P (.str s))
    (arr : ∀ xs : List (JsValue G), (∀ x ∈ xs, P x) → P (.arr xs))
    (obj : ∀ fields : List (String × JsValue G), (∀ f ∈ fields, P f.2) → P (.obj fields))
    (v : JsValue G) : P v :=
  @JsValue.rec G P (fun xs => ∀ x ∈ xs, P x) (fun fields => ∀ f ∈ fields, P f.2) (fun f => P f.2)
    undefined null bool num str arr obj
    (fun _ h => absurd h List.not_mem_nil)
    (fun _ _ hx hxs => List.forall_mem_cons.mpr ⟨hx, hxs⟩)
    (fun _ h => absurd h List.not_mem_nil)
    (fun _ _ hf hfields => List.forall_mem_cons.mpr ⟨hf, hfields⟩)
    (fun _ _ h => h) v

/-! ## Reading back -/

mutual
def readBack : JsValue F → JsValue F
  | num x => num ((N.read (N.text x)).getD x)
  | arr xs => arr (readBackAll xs)
  | obj fields => obj (readBackFields fields)
  | undefined => undefined
  | null => null
  | bool b => bool b
  | str s => str s
def readBackAll : List (JsValue F) → List (JsValue F)
  | [] => []
  | x :: xs => readBack x :: readBackAll xs
def readBackFields : List (String × JsValue F) → List (String × JsValue F)
  | [] => []
  | (key, x) :: fields => (key, readBack x) :: readBackFields fields
end

mutual
def distinctKeys : JsValue F → Prop
  | arr xs => distinctKeysAll xs
  | obj fields => (fields.map Prod.fst).Nodup ∧ distinctKeysFields fields
  | undefined => True
  | null => True
  | bool _ => True
  | num _ => True
  | str _ => True
def distinctKeysAll : List (JsValue F) → Prop
  | [] => True
  | x :: xs => distinctKeys x ∧ distinctKeysAll xs
def distinctKeysFields : List (String × JsValue F) → Prop
  | [] => True
  | (_, x) :: fields => distinctKeys x ∧ distinctKeysFields fields
end

theorem readBackAll_eq (xs : List (JsValue F)) : readBackAll N xs = xs.map (readBack N) := by
  induction xs with
  | nil => simp [readBackAll]
  | cons x xs ih => simp [readBackAll, ih]

theorem readBackFields_eq (fields : List (String × JsValue F)) :
    readBackFields N fields = fields.map (fun f => (f.1, readBack N f.2)) := by
  induction fields with
  | nil => simp [readBackFields]
  | cons field fields ih => simp [readBackFields, ih]

theorem stringifyAll_eq (xs : List (JsValue F)) : stringifyAll N xs = xs.map (stringify N) := by
  induction xs with
  | nil => simp [stringifyAll]
  | cons x xs ih => simp [stringifyAll, ih]

theorem stringifyFields_eq (fields : List (String × JsValue F)) :
    stringifyFields N fields = fields.map (fun f => quote f.1 ++ ':' :: stringify N f.2) := by
  induction fields with
  | nil => simp [stringifyFields]
  | cons field fields ih => simp [stringifyFields, ih]

omit [Binary64 F] in
theorem distinctKeysAll_iff (xs : List (JsValue F)) :
    distinctKeysAll xs ↔ ∀ x ∈ xs, distinctKeys x := by
  induction xs with
  | nil => simp [distinctKeysAll]
  | cons x xs ih => simp [distinctKeysAll, ih]

omit [Binary64 F] in
theorem distinctKeysFields_iff (fields : List (String × JsValue F)) :
    distinctKeysFields fields ↔ ∀ f ∈ fields, distinctKeys f.2 := by
  induction fields with
  | nil => simp [distinctKeysFields]
  | cons field fields ih => simp [distinctKeysFields, ih]

theorem isJsonList_iff (xs : List (JsValue F)) : isJsonList xs = true ↔ ∀ x ∈ xs, isJson x = true := by
  induction xs with
  | nil => simp [isJsonList]
  | cons x xs ih => simp [isJsonList, ih]

theorem isJsonFields_iff (fields : List (String × JsValue F)) :
    isJsonFields fields = true ↔ ∀ f ∈ fields, isJson f.2 = true := by
  induction fields with
  | nil => simp [isJsonFields]
  | cons field fields ih => simp [isJsonFields, ih]

/-! ## Parsing what was printed -/

/-- What can follow a value: nothing that would prolong a number. -/
def Stops (s : List Char) : Prop := ∀ c, s.head? = some c → isNumeric c = false

theorem stringify_head (v : JsValue F) (hjson : v.isJson = true) :
    ∃ c t, stringify N v = c :: t ∧ isJsonSpace c = false ∧ c ≠ ']' := by
  cases v with
  | undefined => simp [isJson] at hjson
  | null => exact ⟨'n', _, rfl, by decide, by decide⟩
  | bool b =>
    cases b with
    | false => exact ⟨'f', _, rfl, by decide, by decide⟩
    | true => exact ⟨'t', _, rfl, by decide, by decide⟩
  | num x =>
    rw [isJson] at hjson
    cases htext : N.text x with
    | nil => exact absurd htext (N.text_ne x hjson)
    | cons c t =>
      have hc : isNumeric c = true := N.text_numeric x hjson c (by rw [htext]; exact List.mem_cons_self)
      refine ⟨c, t, by rw [stringify, htext], ?_, ?_⟩
      · rw [Bool.eq_false_iff]
        intro hspace
        simp only [isJsonSpace, Bool.or_eq_true, beq_iff_eq] at hspace
        obtain ((h | h) | h) | h := hspace <;> subst h <;> exact absurd hc (by decide)
      · intro h
        subst h
        exact absurd hc (by decide)
  | str s => exact ⟨'"', _, rfl, by decide, by decide⟩
  | arr xs => exact ⟨'[', _, by rw [stringify], by decide, by decide⟩
  | obj fields => exact ⟨'\x7b', _, by rw [stringify], by decide, by decide⟩

theorem skipSpace_cons {c : Char} (hc : isJsonSpace c = false) (s : List Char) :
    skipSpace (c :: s) = c :: s := by
  simp [skipSpace, hc]

theorem length_quoteChars (cs : List Char) : cs.length + 1 ≤ (quoteChars cs).length := by
  induction cs with
  | nil => simp [quoteChars]
  | cons c cs ih =>
    have hchar : 1 ≤ (quoteChar c).length := by
      unfold quoteChar
      repeat' split
      all_goals simp
    rw [quoteChars, List.length_append, List.length_cons]
    omega

theorem parseNumber_text (x : F) (hx : Binary64.isFinite x = true) {rest : List Char}
    (hrest : Stops rest) :
    parseNumber N (N.text x ++ rest) = some (readBack N (num x), rest) := by
  have htake : (N.text x ++ rest).takeWhile isNumeric = N.text x := by
    rw [List.takeWhile_append_of_pos (N.text_numeric x hx)]
    cases rest with
    | nil => simp
    | cons c rest => simp [hrest c rfl]
  have hdrop : (N.text x ++ rest).dropWhile isNumeric = rest := by
    rw [List.dropWhile_append_of_pos (N.text_numeric x hx)]
    cases rest with
    | nil => simp
    | cons c rest => simp [hrest c rfl]
  obtain ⟨y, hread, -, -⟩ := N.read_text x hx
  rw [parseNumber, htake, hdrop, hread, Option.map_some, readBack, hread, Option.getD_some]

/-- A value is read back from its text in front of whatever cannot prolong it. -/
def ReadsBack (v : JsValue F) : Prop :=
  ∀ (n : ℕ) (rest : List Char), (stringify N v).length ≤ n → Stops rest →
    parseValue N n (stringify N v ++ rest) = some (readBack N v, rest)

theorem stops_cons {c : Char} (hc : isNumeric c = false) (s : List Char) : Stops (c :: s) := by
  intro d hd
  cases hd
  exact hc

theorem parseElements_joined (xs : List (JsValue F)) (hne : xs ≠ [])
    (hread : ∀ x ∈ xs, ReadsBack N x) (n : ℕ) (rest : List Char)
    (hn : (joinComma (xs.map (stringify N))).length + 1 ≤ n) :
    parseElements N n (joinComma (xs.map (stringify N)) ++ ']' :: rest) =
      some (xs.map (readBack N), rest) := by
  induction xs generalizing n with
  | nil => exact absurd rfl hne
  | cons x xs ih =>
    obtain ⟨n, rfl⟩ : ∃ m, n = m + 1 := ⟨n - 1, by omega⟩
    have hx := hread x List.mem_cons_self
    cases xs with
    | nil =>
      simp only [List.map_cons, List.map_nil, joinComma] at hn ⊢
      have hvalue := hx n (']' :: rest) (by omega) (stops_cons (by decide) rest)
      rw [parseElements, hvalue, Option.bind_some, skipSpace_cons (by decide)]
      simp
    | cons y ys =>
      have hys := ih (by simp) (fun z hz => hread z (List.mem_cons_of_mem _ hz))
      simp only [List.map_cons, joinComma, List.append_assoc, List.cons_append, List.length_append,
        List.length_cons] at hn hys ⊢
      have hvalue := hx n (',' :: (joinComma (stringify N y :: ys.map (stringify N)) ++ ']' :: rest))
        (by omega) (stops_cons (by decide) _)
      rw [parseElements, hvalue, Option.bind_some, skipSpace_cons (by decide)]
      simp only [if_true]
      rw [hys n (by omega)]
      rfl

theorem parseMembers_member (key : String) (x : JsValue F) (hx : ReadsBack N x) (n : ℕ) (c : Char)
    (rest : List Char) (hspace : isJsonSpace c = false) (hnumeric : isNumeric c = false)
    (hn : (quote key ++ ':' :: stringify N x).length ≤ n) :
    parseMembers N (n + 1) (quote key ++ ':' :: stringify N x ++ c :: rest) =
      if c = ',' then (parseMembers N n rest).map fun r => ((key, readBack N x) :: r.1, r.2)
      else if c = '\x7d' then some ([(key, readBack N x)], rest)
      else none := by
  have hlength := length_quoteChars key.toList
  simp only [quote, List.length_append, List.length_cons] at hn
  obtain ⟨m, rfl⟩ : ∃ m, n = m + 1 := ⟨n - 1, by omega⟩
  have hkey := parseChars_quoteChars key.toList (':' :: (stringify N x ++ c :: rest)) m (by omega)
  have hvalue := hx (m + 1) (c :: rest) (by omega) (stops_cons hnumeric rest)
  simp only [quote, List.cons_append, List.append_assoc]
  rw [parseMembers, skipSpace_cons (by decide)]
  simp only [if_true]
  rw [hkey, Option.bind_some, skipSpace_cons (by decide)]
  simp only [if_true]
  rw [hvalue, Option.bind_some, skipSpace_cons hspace, String.ofList_toList]

theorem parseMembers_joined (fields : List (String × JsValue F)) (hne : fields ≠ [])
    (hread : ∀ f ∈ fields, ReadsBack N f.2) (n : ℕ) (rest : List Char)
    (hn : (joinComma (fields.map (fun f => quote f.1 ++ ':' :: stringify N f.2))).length + 1 ≤ n) :
    parseMembers N n
        (joinComma (fields.map (fun f => quote f.1 ++ ':' :: stringify N f.2)) ++ '\x7d' :: rest) =
      some (fields.map (fun f => (f.1, readBack N f.2)), rest) := by
  induction fields generalizing n with
  | nil => exact absurd rfl hne
  | cons field fields ih =>
    obtain ⟨n, rfl⟩ : ∃ m, n = m + 1 := ⟨n - 1, by omega⟩
    have hfield := hread field List.mem_cons_self
    cases fields with
    | nil =>
      simp only [List.map_cons, List.map_nil, joinComma] at hn ⊢
      rw [parseMembers_member N field.1 field.2 hfield n '\x7d' rest (by decide) (by decide) (by omega)]
      simp
    | cons next fields =>
      have hnext := ih (by simp) (fun z hz => hread z (List.mem_cons_of_mem _ hz))
      simp only [List.map_cons, joinComma] at hn hnext ⊢
      rw [List.length_append, List.length_cons] at hn
      rw [List.append_assoc, List.cons_append, parseMembers_member N field.1 field.2 hfield n ','
        _ (by decide) (by decide) (by omega), if_pos rfl, hnext n (by omega)]
      rfl

theorem joinComma_cons (c : Char) (t : List Char) (ts : List (List Char)) :
    ∃ s, joinComma ((c :: t) :: ts) = c :: s := by
  cases ts with
  | nil => exact ⟨t, rfl⟩
  | cons u ts => exact ⟨_, rfl⟩

theorem parseValue_numeric (n : ℕ) {c : Char} (hc : isNumeric c = true) (s : List Char) :
    parseValue N (n + 1) (c :: s) = parseNumber N (c :: s) := by
  have hother : ∀ d, isNumeric d = false → c ≠ d := by
    rintro d hd rfl
    rw [hc] at hd
    cases hd
  have hspace : isJsonSpace c = false := by
    simp [isJsonSpace, hother ' ' (by decide), hother '\t' (by decide), hother '\n' (by decide),
      hother '\r' (by decide)]
  rw [parseValue, skipSpace_cons hspace]
  simp only [hother '"' (by decide), hother '[' (by decide), hother '\x7b' (by decide),
    hother 'n' (by decide), hother 't' (by decide), hother 'f' (by decide), if_false]

theorem readsBack (v : JsValue F) (hjson : v.isJson = true) (hkeys : v.distinctKeys) :
    ReadsBack N v := by
  induction v using inductValue with
  | undefined => simp [isJson] at hjson
  | null =>
    intro n rest hn _
    obtain ⟨n, rfl⟩ : ∃ m, n = m + 1 := ⟨n - 1, by simp [stringify] at hn; omega⟩
    rfl
  | bool b =>
    intro n rest hn _
    cases b with
    | false =>
      obtain ⟨n, rfl⟩ : ∃ m, n = m + 1 := ⟨n - 1, by simp [stringify] at hn; omega⟩
      rfl
    | true =>
      obtain ⟨n, rfl⟩ : ∃ m, n = m + 1 := ⟨n - 1, by simp [stringify] at hn; omega⟩
      rfl
  | num x =>
    intro n rest hn hrest
    rw [isJson] at hjson
    rw [stringify] at hn ⊢
    cases htext : N.text x with
    | nil => exact absurd htext (N.text_ne x hjson)
    | cons c t =>
      obtain ⟨n, rfl⟩ : ∃ m, n = m + 1 := ⟨n - 1, by rw [htext, List.length_cons] at hn; omega⟩
      have hc : isNumeric c = true := N.text_numeric x hjson c (by rw [htext]; exact List.mem_cons_self)
      have hnumber := parseNumber_text N x hjson hrest
      rw [htext] at hnumber
      rw [List.cons_append, parseValue_numeric N n hc]
      exact hnumber
  | str s =>
    intro n rest hn _
    have hlength := length_quoteChars s.toList
    simp only [stringify, quote, List.length_cons] at hn ⊢
    obtain ⟨n, rfl⟩ : ∃ m, n = m + 2 := ⟨n - 2, by omega⟩
    have hchars := parseChars_quoteChars s.toList rest n (by omega)
    rw [List.cons_append, parseValue, skipSpace_cons (by decide)]
    simp only [if_true]
    rw [hchars, Option.map_some, String.ofList_toList, readBack]
  | arr xs ih =>
    intro n rest hn _
    rw [isJson, isJsonList_iff] at hjson
    rw [distinctKeys, distinctKeysAll_iff] at hkeys
    have hread : ∀ x ∈ xs, ReadsBack N x := fun x hx => ih x hx (hjson x hx) (hkeys x hx)
    simp only [stringify, stringifyAll_eq, List.length_cons, List.length_append, List.length_nil] at hn ⊢
    obtain ⟨n, rfl⟩ : ∃ m, n = m + 1 := ⟨n - 1, by omega⟩
    rw [List.cons_append, List.append_assoc, parseValue, skipSpace_cons (by decide)]
    simp only [if_false, Char.reduceEq, if_true, List.singleton_append]
    cases xs with
    | nil => simp [joinComma, skipSpace_cons, readBack, readBackAll, isJsonSpace]
    | cons x xs =>
      obtain ⟨c, t, hhead, hspace, hclose⟩ := stringify_head N x (hjson x List.mem_cons_self)
      obtain ⟨s, hs⟩ := joinComma_cons c t (xs.map (stringify N))
      have helements := parseElements_joined N (x :: xs) (by simp) hread n rest (by omega)
      rw [List.map_cons, hhead, hs, List.cons_append] at helements ⊢
      have hopen : ¬ (skipSpace (c :: (s ++ ']' :: rest))).head? = some ']' := by
        rw [skipSpace_cons hspace]
        simpa using hclose
      rw [if_neg hopen, helements, Option.map_some, readBack, readBackAll_eq]
  | obj fields ih =>
    intro n rest hn _
    rw [isJson, isJsonFields_iff] at hjson
    rw [distinctKeys, distinctKeysFields_iff] at hkeys
    have hread : ∀ f ∈ fields, ReadsBack N f.2 := fun f hf => ih f hf (hjson f hf) (hkeys.2 f hf)
    simp only [stringify, stringifyFields_eq, List.length_cons, List.length_append,
      List.length_nil] at hn ⊢
    obtain ⟨n, rfl⟩ : ∃ m, n = m + 1 := ⟨n - 1, by omega⟩
    rw [List.cons_append, List.append_assoc, parseValue, skipSpace_cons (by decide)]
    simp only [if_false, Char.reduceEq, if_true, List.singleton_append]
    cases fields with
    | nil => simp [joinComma, skipSpace_cons, readBack, readBackFields, isJsonSpace]
    | cons field fields =>
      obtain ⟨s, hs⟩ := joinComma_cons '"'
        (quoteChars field.1.toList ++ ':' :: stringify N field.2)
        (fields.map (fun f => quote f.1 ++ ':' :: stringify N f.2))
      have hmembers := parseMembers_joined N (field :: fields) (by simp) hread n rest (by omega)
      have hassigned : assignFields ((field :: fields).map (fun f => (f.1, readBack N f.2))) =
          (field :: fields).map (fun f => (f.1, readBack N f.2)) := by
        apply assignFields_eq
        rw [List.map_map]
        exact hkeys.1
      rw [List.map_cons, quote, List.cons_append, hs, List.cons_append] at hmembers ⊢
      have hopen : ¬ (skipSpace ('"' :: (s ++ '\x7d' :: rest))).head? = some '\x7d' := by
        rw [skipSpace_cons (by decide)]
        simp
      rw [if_neg hopen, hmembers, Option.map_some, hassigned, readBack, readBackFields_eq]

theorem parse_stringify (v : JsValue F) (hjson : v.isJson = true) (hkeys : v.distinctKeys) :
    parse N (stringify N v) = some (readBack N v) := by
  have h := readsBack N v hjson hkeys ((stringify N v).length + 1) [] (by omega)
    (by intro c hc; cases hc)
  rw [List.append_nil] at h
  rw [parse, h, Option.bind_some]
  rfl

end JsValue

end XFoilFoam
