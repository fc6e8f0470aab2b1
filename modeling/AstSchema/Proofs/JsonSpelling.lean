import Mathlib.Data.List.Forall2
import AstSchema.Json.Reading

/-!
# Spellings of JSON values

A value has many spellings. The blanks around it are free, every character of a string may be
written as it is or escaped, and a record may be an object or an array. Here the spellings are
described as relations between values and texts, without a look at how they are read.

A reader reads back when it takes each spelling of a value, with any blanks in front of it, for
the value and leaves exactly what follows. `ReadsBack` has to be proved of a reader once; then the
reader of a list reads back because the reader of its elements does. What the separators
contribute is the same for arrays and objects: `joined` is the inside of brackets from any element
on, in the form in which a reader meets it.
-/

namespace AstSchema.Json

/-! ## Spellings -/

/-- A run of the blanks that may stand between tokens. -/
def Blanks (cs : List Char) : Prop := ∀ c ∈ cs, c ∈ [' ', '\t', '\n', '\r']

theorem blanks_nil : Blanks [] := fun _ h ↦ absurd h List.not_mem_nil

/-- A spelling with blanks around it. -/
def Padded (Spelling : List Char → Prop) (cs : List Char) : Prop :=
  ∃ before token after, Blanks before ∧ Spelling token ∧ Blanks after ∧
    cs = before ++ (token ++ after)

theorem Padded.of_spelling {Spelling : List Char → Prop} {cs : List Char} (h : Spelling cs) :
    Padded Spelling cs :=
  ⟨[], cs, [], blanks_nil, h, blanks_nil, by simp⟩

/-- The characters for a hexadecimal digit. -/
def hexSpellings (n : Nat) : List Char := [n.digitChar, n.digitChar.toUpper]

/-- The escape of a 16-bit unit. -/
inductive UnitSpelling (n : Nat) : List Char → Prop
  | intro {a b c d : Char} : a ∈ hexSpellings (n / 0x1000) → b ∈ hexSpellings (n / 0x100 % 16) →
      c ∈ hexSpellings (n / 16 % 16) → d ∈ hexSpellings (n % 16) →
      UnitSpelling n ['\\', 'u', a, b, c, d]

/-- The 16-bit units of a character: itself or a surrogate pair. -/
def units (c : Char) : List Nat :=
  if c.toNat < 0x10000 then [c.toNat]
  else [0xD800 + (c.toNat - 0x10000) / 0x400, 0xDC00 + (c.toNat - 0x10000) % 0x400]

/-- The letters that stand for a character behind a backslash. -/
def shortEscapes : List (Char × Char) :=
  [('"', '"'), ('\\', '\\'), ('/', '/'), ('b', '\x08'), ('f', '\x0c'), ('n', '\n'), ('r', '\r'),
    ('t', '\t')]

/-- A character in a string. -/
inductive CharSpelling (c : Char) : List Char → Prop
  /-- As it is, unless it would end the string or the text would be no JSON. -/
  | literal : c ≠ '"' → c ≠ '\\' → 0x20 ≤ c.toNat → CharSpelling c [c]
  /-- By a backslash and a letter. -/
  | short {letter : Char} : (letter, c) ∈ shortEscapes → CharSpelling c ['\\', letter]
  /-- By its units. -/
  | escaped {parts : List (List Char)} : List.Forall₂ UnitSpelling (units c) parts →
      CharSpelling c parts.flatten

/-- A string. -/
def TextSpelling (s : String) (cs : List Char) : Prop :=
  ∃ parts, List.Forall₂ CharSpelling s.toList parts ∧ cs = '"' :: (parts.flatten ++ ['"'])

/-- A text without quotes, backslashes and control characters needs no escapes. -/
theorem textSpelling_of_plain {s : String}
    (h : s.toList.all (fun c ↦ c ≠ '"' ∧ c ≠ '\\' ∧ 0x20 ≤ c.toNat) = true) :
    TextSpelling s ('"' :: (s.toList ++ ['"'])) := by
  refine ⟨s.toList.map fun c ↦ [c], ?_, by rw [← List.flatMap_def, List.flatMap_singleton']⟩
  rw [List.forall₂_map_right_iff, List.forall₂_same]
  intro c hc
  obtain ⟨hquote, hslash, hcontrol⟩ := of_decide_eq_true (List.all_eq_true.mp h c hc)
  exact .literal hquote hslash hcontrol

/-- A string or `null`. -/
def OptionalSpelling : Option String → List Char → Prop
  | none => (· = ['n', 'u', 'l', 'l'])
  | some s => TextSpelling s

/-- Parts between brackets, with commas between them. Where there are none, there may be blanks. -/
def Enclosed (opening closing : Char) (parts : List (List Char)) (cs : List Char) : Prop :=
  ∃ blanks, Blanks blanks ∧ cs = opening :: (blanks ++ ([','].intercalate parts ++ [closing]))

/-- An array of values of one kind. -/
def ListSpelling {α : Type} (Spelling : α → List Char → Prop) (as : List α) (cs : List Char) :
    Prop :=
  ∃ parts, List.Forall₂ (fun a ↦ Padded (Spelling a)) as parts ∧ Enclosed '[' ']' parts cs

/-- A member of an object. -/
def MemberSpelling (name : String) (Spelling : List Char → Prop) (cs : List Char) : Prop :=
  ∃ key value, Padded (TextSpelling name) key ∧ Padded Spelling value ∧ cs = key ++ ':' :: value

/-- A record with members of different kinds, of which some may be left out. -/
inductive RecordSpelling {κ : Type} (order : List κ) (name : κ → String) (IsDefault : κ → Prop)
    (Spelling : κ → List Char → Prop) : List Char → Prop
  /-- An object with the members in any order. -/
  | object {keys omitted : List κ} {parts : List (List Char)} {cs : List Char} :
      (keys ++ omitted).Perm order → (∀ key ∈ omitted, IsDefault key) →
      List.Forall₂ (fun key ↦ MemberSpelling (name key) (Spelling key)) keys parts →
      Enclosed '\x7b' '\x7d' parts cs → RecordSpelling order name IsDefault Spelling cs
  /-- An array with the members in their order. Only the last ones can be left out. -/
  | array {keys omitted : List κ} {parts : List (List Char)} {cs : List Char} :
      keys ++ omitted = order → (∀ key ∈ omitted, IsDefault key) →
      List.Forall₂ (fun key ↦ Padded (Spelling key)) keys parts →
      Enclosed '[' ']' parts cs → RecordSpelling order name IsDefault Spelling cs

/-! ## Blanks -/

/-- Blanks in front of a text are skipped with those that it starts with. -/
theorem skipBlanks_append {blanks : List Char} (h : Blanks blanks) (cs : List Char) :
    skipBlanks (blanks ++ cs) = skipBlanks cs := by
  refine List.dropWhile_append_of_pos fun c hc ↦ ?_
  have hblank := h c hc
  simp only [List.mem_cons, List.not_mem_nil, or_false] at hblank
  rcases hblank with rfl | rfl | rfl | rfl <;> rfl

/-- Behind blanks, a text starts with its first character that is none. -/
theorem skipBlanks_append_cons {blanks : List Char} (h : Blanks blanks) {c : Char}
    (hc : isBlank c = false) (cs : List Char) : skipBlanks (blanks ++ c :: cs) = c :: cs := by
  rw [skipBlanks_append h]
  simp [skipBlanks, hc]

/-- The text starts like a string, an array, an object or `null`. -/
def StartsValue (cs : List Char) : Prop :=
  ∃ c rest, cs = c :: rest ∧ c ∈ ['"', '[', '\x7b', 'n']

theorem StartsValue.append {cs : List Char} (h : StartsValue cs) (rest : List Char) :
    StartsValue (cs ++ rest) := by
  obtain ⟨c, tail, rfl, hc⟩ := h
  exact ⟨c, tail ++ rest, rfl, hc⟩

/-! ## Strings -/

theorem hexDigit?_of_mem {n : Nat} (hn : n < 16) {c : Char} (hc : c ∈ hexSpellings n) :
    hexDigit? c = some n := by
  have hall : ∀ n < 16, (hexSpellings n).all (hexDigit? · == some n) = true := by decide
  exact eq_of_beq (List.all_eq_true.mp (hall n hn) c hc)

/-- Four digits are read as the unit that they spell. -/
theorem readHex_of_spelling {n : Nat} {cs : List Char} (hn : n < 0x10000) (h : UnitSpelling n cs)
    (rest : List Char) :
    ∃ digits, cs = '\\' :: 'u' :: digits ∧ readHex (digits ++ rest) = .ok (n, rest) := by
  obtain ⟨ha, hb, hc, hd⟩ := h
  refine ⟨_, rfl, ?_⟩
  simp only [List.cons_append, List.nil_append, readHex,
    hexDigit?_of_mem (by omega) ha, hexDigit?_of_mem (by omega) hb,
    hexDigit?_of_mem (by omega) hc, hexDigit?_of_mem (by omega) hd]
  rw [show ((n / 0x1000 * 16 + n / 0x100 % 16) * 16 + n / 16 % 16) * 16 + n % 16 = n by omega]

/-- No character is half a surrogate pair. -/
theorem not_surrogate (c : Char) : isLeading c.toNat = false ∧ isTrailing c.toNat = false := by
  have hvalid : c.toNat < 0xD800 ∨ 0xDFFF < c.toNat ∧ c.toNat < 0x110000 := c.valid
  simp only [isLeading, isTrailing, Bool.and_eq_false_iff, decide_eq_false_iff_not]
  omega

/-- The halves of a surrogate pair are told from each other. -/
theorem isLeading_isTrailing {n : Nat} (h : n < 0x100000) :
    isLeading (0xD800 + n / 0x400) = true ∧ isTrailing (0xD800 + n / 0x400) = false ∧
      isTrailing (0xDC00 + n % 0x400) = true := by
  simp only [isTrailing, isLeading, Bool.and_eq_false_iff, Bool.and_eq_true,
    decide_eq_false_iff_not, decide_eq_true_eq]
  omega

/-- A surrogate pair stands for the character that it was made from. -/
theorem pairChar_eq {c : Char} (h : 0x10000 ≤ c.toNat) :
    pairChar (0xD800 + (c.toNat - 0x10000) / 0x400) (0xDC00 + (c.toNat - 0x10000) % 0x400) = c := by
  have hsum : (0xD800 + (c.toNat - 0x10000) / 0x400 - 0xD800) * 0x400 +
      (0xDC00 + (c.toNat - 0x10000) % 0x400 - 0xDC00) + 0x10000 = c.toNat := by omega
  rw [pairChar, hsum, Char.ofNat_toNat]

/-- The units of a character are read as the character, be they one or two. -/
theorem readUnit_of_spelling {c : Char} {parts : List (List Char)}
    (h : List.Forall₂ UnitSpelling (units c) parts) (rest : List Char) :
    ∃ digits, parts.flatten = '\\' :: 'u' :: digits ∧
      readUnit (digits ++ rest) = .ok (c, rest) := by
  rw [units] at h
  split at h
  · next hsmall =>
    obtain ⟨_, _, hunit, hnil, rfl⟩ := List.forall₂_cons_left_iff.mp h
    obtain rfl := List.forall₂_nil_left_iff.mp hnil
    obtain ⟨digits, rfl, hread⟩ := readHex_of_spelling hsmall hunit rest
    obtain ⟨hleading, htrailing⟩ := not_surrogate c
    refine ⟨digits, by simp, ?_⟩
    simp [readUnit, hread, hleading, htrailing]
  · next hlarge =>
    obtain ⟨_, _, hfirst, hpair, rfl⟩ := List.forall₂_cons_left_iff.mp h
    obtain ⟨_, _, hsecond, hnil, rfl⟩ := List.forall₂_cons_left_iff.mp hpair
    obtain rfl := List.forall₂_nil_left_iff.mp hnil
    have hscalar : c.toNat < 0xD800 ∨ 0xDFFF < c.toNat ∧ c.toNat < 0x110000 := c.valid
    obtain ⟨hleading, hnottrailing, htrailing⟩ :=
      isLeading_isTrailing (show c.toNat - 0x10000 < 0x100000 by omega)
    -- The second half is read behind the first one, so it belongs to the rest of the first.
    obtain ⟨digits', rfl, hread'⟩ := readHex_of_spelling (by omega) hsecond rest
    obtain ⟨digits, rfl, hread⟩ :=
      readHex_of_spelling (by omega) hfirst ('\\' :: 'u' :: (digits' ++ rest))
    refine ⟨digits ++ '\\' :: 'u' :: digits', by simp, ?_⟩
    rw [List.append_assoc, List.cons_append, List.cons_append]
    simp only [readUnit, hread, hnottrailing, hleading, readTrailing, hread', htrailing, if_true,
      Bool.false_eq_true, if_false]
    rw [pairChar_eq (by omega)]

/-- What follows a backslash is read, and then what follows that. -/
theorem readChars_escape {c : Char} {cs rest rest' ds : List Char}
    (hescape : readEscape cs = .ok (c, rest)) (hrest : readChars rest = .ok (ds, rest')) :
    readChars ('\\' :: cs) = .ok (c :: ds, rest') := by
  rw [readChars, if_neg (by decide), if_pos rfl]
  -- The match remembers its equation for the sake of termination, which forbids rewriting in it.
  split
  · next heq => rw [hescape] at heq; cases heq
  · next heq =>
    rw [hescape] at heq
    cases heq
    rw [hrest]

/-- A character is read from each of its spellings, and then what follows it. -/
theorem readChars_of_spelling {c : Char} {part rest rest' cs : List Char}
    (h : CharSpelling c part) (hrest : readChars rest = .ok (cs, rest')) :
    readChars (part ++ rest) = .ok (c :: cs, rest') := by
  cases h with
  | literal hquote hslash hcontrol =>
    rw [List.singleton_append, readChars]
    simp [hquote, hslash, Nat.not_lt.mpr hcontrol, hrest]
  | @short letter hletter =>
    have hshort : ∀ pair ∈ shortEscapes, shortEscape? pair.1 = some pair.2 := by decide
    refine readChars_escape ?_ hrest
    show readEscape (letter :: rest) = _
    simp only [readEscape, hshort _ hletter]
  | escaped hunits =>
    obtain ⟨digits, hflat, hread⟩ := readUnit_of_spelling hunits rest
    rw [hflat]
    exact readChars_escape hread hrest

/-- The characters of a string are read up to its closing quote. -/
theorem readChars_of_spellings {cs : List Char} {parts : List (List Char)}
    (h : List.Forall₂ CharSpelling cs parts) (rest : List Char) :
    readChars (parts.flatten ++ '"' :: rest) = .ok (cs, rest) := by
  induction h with
  | nil => rw [List.flatten_nil, List.nil_append, readChars, if_pos rfl]
  | cons hpart _ ih =>
    rw [List.flatten_cons, List.append_assoc]
    exact readChars_of_spelling hpart ih

/-! ## Brackets -/

/-- What stands between a bracket, or a value and the next value. -/
def separator (first : Bool) : List Char := if first then [] else [',']

/-- The inside of brackets from some part on: every part but the very first has a comma in front
of it. -/
def joined : Bool → List (List Char) → List Char
  | _, [] => []
  | first, part :: parts => separator first ++ part ++ joined false parts

theorem intercalate_eq_joined (parts : List (List Char)) :
    [','].intercalate parts = joined true parts := by
  have hbehind (part : List Char) (parts : List (List Char)) :
      [','].intercalate (part :: parts) = part ++ joined false parts := by
    induction parts generalizing part with
    | nil => simp [joined]
    | cons next parts ih =>
      rw [List.intercalate_cons_cons, ih]
      simp [joined, separator]
  cases parts with
  | nil => rfl
  | cons part parts => exact hbehind part parts

/-- The next element starts at the first character behind the separator that is no blank. -/
theorem nextElement?_of_cons {index : Nat} {blanks before : List Char} (hblanks : Blanks blanks)
    (hbefore : Blanks before) {c : Char} (hblank : isBlank c = false) (hbracket : c ≠ ']')
    (rest : List Char) :
    nextElement? index (blanks ++ (separator (index == 0) ++ (before ++ c :: rest))) =
      .ok (some (c :: rest)) := by
  have hskip := skipBlanks_append_cons hbefore hblank rest
  cases index with
  | zero =>
    show nextElement? 0 (blanks ++ (before ++ c :: rest)) = _
    rw [nextElement?, skipBlanks_append hblanks, hskip]
    dsimp only
    rw [if_neg hbracket, if_pos rfl]
  | succ index =>
    show nextElement? (index + 1) (blanks ++ ',' :: (before ++ c :: rest)) = _
    rw [nextElement?, skipBlanks_append_cons hblanks rfl]
    dsimp only
    rw [if_neg (by decide), if_neg (by simp), if_pos rfl, hskip]
    dsimp only
    rw [if_neg hbracket]

theorem nextElement?_of_startsValue {index : Nat} {blanks before cs : List Char}
    (hblanks : Blanks blanks) (hbefore : Blanks before) (h : StartsValue cs) :
    nextElement? index (blanks ++ (separator (index == 0) ++ (before ++ cs))) = .ok (some cs) := by
  obtain ⟨c, rest, rfl, hc⟩ := h
  have hfirst : isBlank c = false ∧ c ≠ ']' := by
    simp only [List.mem_cons, List.not_mem_nil, or_false] at hc
    rcases hc with rfl | rfl | rfl | rfl <;> decide
  exact nextElement?_of_cons hblanks hbefore hfirst.1 hfirst.2 rest

theorem nextElement?_bracket {index : Nat} {blanks : List Char} (hblanks : Blanks blanks)
    (rest : List Char) : nextElement? index (blanks ++ ']' :: rest) = .ok none := by
  rw [nextElement?, skipBlanks_append_cons hblanks rfl]
  rfl

theorem endArray_bracket {blanks : List Char} (hblanks : Blanks blanks) (rest : List Char) :
    endArray (blanks ++ ']' :: rest) = .ok rest := by
  rw [endArray, skipBlanks_append_cons hblanks rfl]
  rfl

theorem nextKey?_quote {first : Bool} {blanks before : List Char} (hblanks : Blanks blanks)
    (hbefore : Blanks before) (rest : List Char) :
    nextKey? first (blanks ++ (separator first ++ (before ++ '"' :: rest))) = .ok (some rest) := by
  have hskip := skipBlanks_append_cons hbefore (show isBlank '"' = false from rfl) rest
  cases first with
  | true =>
    show nextKey? true (blanks ++ (before ++ '"' :: rest)) = _
    rw [nextKey?, skipBlanks_append hblanks, hskip]
    rfl
  | false =>
    show nextKey? false (blanks ++ ',' :: (before ++ '"' :: rest)) = _
    rw [nextKey?, skipBlanks_append_cons hblanks rfl]
    dsimp only
    rw [if_neg (by decide), if_neg (by simp), if_pos rfl, hskip]
    rfl

theorem nextKey?_brace {first : Bool} {blanks : List Char} (hblanks : Blanks blanks)
    (rest : List Char) : nextKey? first (blanks ++ '\x7d' :: rest) = .ok none := by
  rw [nextKey?, skipBlanks_append_cons hblanks rfl]
  rfl

theorem readColon_colon {blanks : List Char} (hblanks : Blanks blanks) (rest : List Char) :
    readColon (blanks ++ ':' :: rest) = .ok rest := by
  rw [readColon, skipBlanks_append_cons hblanks rfl]
  rfl

theorem behindKey_brace {blanks : List Char} (hblanks : Blanks blanks) (rest : List Char) :
    behindKey (blanks ++ '\x7d' :: rest) = rest := by
  rw [behindKey, skipBlanks_append_cons hblanks rfl]
  rfl

/-- The text from an opening bracket on. -/
theorem Enclosed.exists_append_eq {opening closing : Char} {parts : List (List Char)}
    {cs : List Char} (h : Enclosed opening closing parts cs) (rest : List Char) :
    ∃ blanks, Blanks blanks ∧
      cs ++ rest = opening :: (blanks ++ (joined true parts ++ closing :: rest)) := by
  obtain ⟨blanks, hblanks, rfl⟩ := h
  exact ⟨blanks, hblanks, by simp [intercalate_eq_joined]⟩

theorem RecordSpelling.startsValue {κ : Type} {order : List κ} {name : κ → String}
    {IsDefault : κ → Prop} {Spelling : κ → List Char → Prop} {cs : List Char}
    (h : RecordSpelling order name IsDefault Spelling cs) : StartsValue cs := by
  rcases h with ⟨-, -, -, _, -, rfl⟩ | ⟨-, -, -, _, -, rfl⟩
  · exact ⟨_, _, rfl, by decide⟩
  · exact ⟨_, _, rfl, by decide⟩

/-- A member of an object is read up to its value. -/
theorem MemberSpelling.exists_value {name : String} {Spelling : List Char → Prop}
    {blanks part : List Char} (h : MemberSpelling name Spelling part) {first : Bool}
    (hblanks : Blanks blanks) (rest : List Char) :
    ∃ start behind before token after,
      nextKey? first (blanks ++ (separator first ++ (part ++ rest))) = .ok (some start) ∧
        readChars start = .ok (name.toList, behind) ∧
        readColon behind = .ok (before ++ (token ++ (after ++ rest))) ∧
        Blanks before ∧ Spelling token ∧ Blanks after := by
  obtain ⟨_, _, ⟨before, _, after, hbefore, ⟨parts, hparts, rfl⟩, hafter, rfl⟩,
    ⟨before', token, after', hbefore', htoken, hafter', rfl⟩, rfl⟩ := h
  refine ⟨_, _, before', token, after', ?_, readChars_of_spellings hparts _,
    readColon_colon hafter _, hbefore', htoken, hafter'⟩
  simp only [List.append_assoc, List.cons_append, List.nil_append]
  exact nextKey?_quote hblanks hbefore _

/-! ## Reading back -/

/-- The reader takes each spelling of a value for the value, blanks in front of it or not, and
leaves what follows. -/
structure ReadsBack {α : Type} (read : List Char → Result α) (Spelling : α → List Char → Prop) :
    Prop where
  /-- No spelling can be taken for blanks or for the end of an array. -/
  startsValue {a : α} {cs : List Char} : Spelling a cs → StartsValue cs
  /-- Each spelling is read. -/
  read_eq {a : α} {blanks cs : List Char} : Blanks blanks → Spelling a cs → ∀ rest : List Char,
    read (blanks ++ (cs ++ rest)) = .ok (a, rest)

end AstSchema.Json
