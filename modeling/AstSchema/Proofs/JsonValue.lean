import AstSchema.Proofs.JsonSpelling

/-!
# JSON values and their spellings

The whole of JSON, as a relation between values and texts. A text need not be JSON, and a value has
many spellings, but no text spells two values (`Value.eq_of_padded`). So what a text says does not
depend on who reads it: every reader that takes each spelling of a value for that value gives the
same answer.

The proof compares two spellings from the left. A value is known by its first character to be of
one kind, and what follows a value, be it in an array, in an object or at the end of the text,
cannot go on with it. Only a number has no end of its own, so the text behind it has to start with
a character that no number has.
-/

namespace AstSchema.Json

/-! ## Values -/

/-- A JSON value. A number is kept as it is written, and members in their order. -/
inductive Value
  /-- The literal `null`. -/
  | null
  /-- A truth value. -/
  | boolean (b : Bool)
  /-- A number. -/
  | number (digits : List Char)
  /-- A string. -/
  | text (s : String)
  /-- An array. -/
  | array (items : List Value)
  /-- An object. -/
  | object (members : List (String × Value))

/-- The kinds of values. -/
inductive Kind
  /-- The literal `null`. -/
  | null
  /-- Truth values. -/
  | boolean
  /-- Numbers. -/
  | number
  /-- Strings. -/
  | text
  /-- Arrays. -/
  | array
  /-- Objects. -/
  | object
  deriving DecidableEq, Repr

/-- The kind of a value. -/
def Value.kind : Value → Kind
  | null => .null
  | boolean _ => .boolean
  | number _ => .number
  | text _ => .text
  | array _ => .array
  | object _ => .object

/-! ## Spellings -/

/-- One digit or more. -/
def Digits (cs : List Char) : Prop := cs ≠ [] ∧ ∀ c ∈ cs, c.isDigit = true

/-- A number: a sign or none, an integer without needless zeros, a fraction or none, and an exponent
or none. -/
inductive NumberSpelling : List Char → Prop
  | intro {sign integer fraction exponent : List Char} : sign ∈ [[], ['-']] →
      Digits integer → (integer.head? = some '0' → integer = ['0']) →
      (fraction = [] ∨ ∃ digits, Digits digits ∧ fraction = '.' :: digits) →
      (exponent = [] ∨ ∃ e ∈ ['e', 'E'], ∃ sign ∈ [[], ['+'], ['-']], ∃ digits, Digits digits ∧
        exponent = e :: (sign ++ digits)) →
      NumberSpelling (sign ++ (integer ++ (fraction ++ exponent)))

namespace Value

mutual

/-- A value. -/
def Spelling : Value → List Char → Prop
  | null, cs => cs = ['n', 'u', 'l', 'l']
  | boolean true, cs => cs = ['t', 'r', 'u', 'e']
  | boolean false, cs => cs = ['f', 'a', 'l', 's', 'e']
  | number digits, cs => cs = digits ∧ NumberSpelling digits
  | text s, cs => TextSpelling s cs
  | array items, cs => ∃ parts, Items items parts ∧ Enclosed '[' ']' parts cs
  | object members, cs => ∃ parts, Members members parts ∧ Enclosed '\x7b' '\x7d' parts cs

/-- The elements of an array, each with the blanks around it. -/
def Items : List Value → List (List Char) → Prop
  | [], parts => parts = []
  | item :: items, parts =>
    ∃ part rest, Padded item.Spelling part ∧ Items items rest ∧ parts = part :: rest

/-- The members of an object, each with the blanks around it. -/
def Members : List (String × Value) → List (List Char) → Prop
  | [], parts => parts = []
  | (name, value) :: members, parts =>
    ∃ part rest, MemberSpelling name value.Spelling part ∧ Members members rest ∧
      parts = part :: rest

end

end Value

/-! ## First characters -/

/-- The characters that values of the kind start with. -/
def Kind.leads : Kind → List Char
  | null => ['n']
  | boolean => ['t', 'f']
  | number => ['-', '0', '1', '2', '3', '4', '5', '6', '7', '8', '9']
  | text => ['"']
  | array => ['[']
  | object => ['\x7b']

/-- The first character tells the kind. -/
theorem Kind.eq_of_mem_leads {kind other : Kind} {c : Char} (h : c ∈ kind.leads)
    (h' : c ∈ other.leads) : kind = other := by
  -- A test over the list, since `decide` may otherwise go through all characters.
  have hall : ∀ c ∈ kind.leads, decide (c ∈ other.leads → kind = other) = true :=
    List.all_eq_true.mp (by cases kind <;> cases other <;> decide)
  exact of_decide_eq_true (hall c h) h'

/-- No value starts like a blank or like the end of an array. -/
theorem Kind.lead_ne {kind : Kind} {c : Char} (h : c ∈ kind.leads) :
    isBlank c = false ∧ c ≠ ']' := by
  have hall : ∀ c ∈ kind.leads, decide (isBlank c = false ∧ c ≠ ']') = true :=
    List.all_eq_true.mp (by cases kind <;> decide)
  exact of_decide_eq_true (hall c h)

theorem mem_leads_of_isDigit {c : Char} (h : c.isDigit = true) : c ∈ Kind.number.leads := by
  simp only [Char.isDigit, Bool.and_eq_true, decide_eq_true_eq, ge_iff_le] at h
  have hbound : c.toNat < 58 := Nat.lt_succ_of_le h.2
  have hall : ∀ n < 58, 48 ≤ n → Char.ofNat n ∈ Kind.number.leads := by decide
  rw [← Char.ofNat_toNat c]
  exact hall c.toNat hbound h.1

theorem NumberSpelling.exists_lead {cs : List Char} (h : NumberSpelling cs) :
    ∃ c rest, cs = c :: rest ∧ c ∈ Kind.number.leads := by
  obtain ⟨hsign, ⟨hsome, hdigits⟩, -, -, -⟩ := h
  simp only [List.mem_cons, List.not_mem_nil, or_false] at hsign
  rcases hsign with rfl | rfl
  · obtain ⟨c, integer, rfl⟩ := List.exists_cons_of_ne_nil hsome
    exact ⟨c, _, rfl, mem_leads_of_isDigit (hdigits c List.mem_cons_self)⟩
  · exact ⟨'-', _, rfl, by decide⟩

/-- A value starts with one of the characters of its kind. -/
theorem Value.Spelling.exists_lead {v : Value} {cs : List Char} (h : v.Spelling cs) :
    ∃ c rest, cs = c :: rest ∧ c ∈ v.kind.leads := by
  cases v with
  | null =>
    rw [Value.Spelling] at h
    exact ⟨_, _, h, by decide⟩
  | boolean b =>
    cases b <;> rw [Value.Spelling] at h
    · exact ⟨_, _, h, by decide⟩
    · exact ⟨_, _, h, by decide⟩
  | number digits =>
    rw [Value.Spelling] at h
    obtain ⟨rfl, hnumber⟩ := h
    exact hnumber.exists_lead
  | text s =>
    rw [Value.Spelling] at h
    obtain ⟨_, -, rfl⟩ := h
    exact ⟨_, _, rfl, List.mem_singleton_self _⟩
  | array items =>
    rw [Value.Spelling] at h
    obtain ⟨_, -, _, -, rfl⟩ := h
    exact ⟨_, _, rfl, List.mem_singleton_self _⟩
  | object members =>
    rw [Value.Spelling] at h
    obtain ⟨_, -, _, -, rfl⟩ := h
    exact ⟨_, _, rfl, List.mem_singleton_self _⟩

/-! ## What follows a value -/

/-- The characters of numbers. -/
def isNumeric (c : Char) : Bool := c.isDigit || c ∈ ['-', '+', '.', 'e', 'E']

/-- No number goes on with the text. -/
def Delimited (rest : List Char) : Prop := rest.takeWhile isNumeric = []

theorem delimited_cons {c : Char} (h : isNumeric c = false) (rest : List Char) :
    Delimited (c :: rest) := by
  rw [Delimited, List.takeWhile_cons, h]
  rfl

theorem Delimited.append {blanks rest : List Char} (hblanks : Blanks blanks)
    (h : Delimited rest) : Delimited (blanks ++ rest) := by
  cases blanks with
  | nil => exact h
  | cons c blanks =>
    have hnone : ∀ c ∈ [' ', '\t', '\n', '\r'], (!isNumeric c) = true :=
      List.all_eq_true.mp (by decide)
    exact delimited_cons (by simpa using hnone c (hblanks c List.mem_cons_self)) _

/-- Behind an element comes a comma or a bracket. -/
theorem delimited_joined (parts : List (List Char)) {closing : Char}
    (h : isNumeric closing = false) (rest : List Char) :
    Delimited (joined false parts ++ closing :: rest) := by
  cases parts with
  | nil => exact delimited_cons h rest
  | cons part parts => exact delimited_cons rfl _

theorem Digits.isNumeric {cs : List Char} (h : Digits cs) : ∀ c ∈ cs, isNumeric c = true := by
  intro c hc
  rw [Json.isNumeric, h.2 c hc, Bool.true_or]

theorem NumberSpelling.isNumeric {cs : List Char} (h : NumberSpelling cs) :
    ∀ c ∈ cs, isNumeric c = true := by
  obtain ⟨hsign, hinteger, -, hfraction, hexponent⟩ := h
  have hmarks : ∀ c ∈ ['-', '+', '.', 'e', 'E'], Json.isNumeric c = true :=
    List.all_eq_true.mp (by decide)
  simp only [List.forall_mem_append]
  refine ⟨?_, hinteger.isNumeric, ?_, ?_⟩
  · simp only [List.mem_cons, List.not_mem_nil, or_false] at hsign
    rcases hsign with rfl | rfl <;> simp [hmarks]
  · rcases hfraction with rfl | ⟨digits, hdigits, rfl⟩
    · simp
    · exact List.forall_mem_cons.mpr ⟨rfl, hdigits.isNumeric⟩
  · rcases hexponent with rfl | ⟨e, he, sign, hsign, digits, hdigits, rfl⟩
    · simp
    · simp only [List.mem_cons, List.not_mem_nil, or_false] at he hsign
      refine List.forall_mem_cons.mpr ⟨?_, List.forall_mem_append.mpr ⟨?_, hdigits.isNumeric⟩⟩
      · rcases he with rfl | rfl <;> rfl
      · rcases hsign with rfl | rfl | rfl <;> simp [hmarks]

/-- A number ends where no number goes on. -/
theorem takeWhile_number {cs rest : List Char} (h : NumberSpelling cs) (hrest : Delimited rest) :
    (cs ++ rest).takeWhile isNumeric = cs := by
  rw [List.takeWhile_append_of_pos h.isNumeric, hrest, List.append_nil]

/-! ## One value for each text -/

/-- Spellings that begin the same text are of one kind. -/
theorem Value.Spelling.kind_eq {v w : Value} {cs cs' rest rest' : List Char} (hv : v.Spelling cs)
    (hw : w.Spelling cs') (h : cs ++ rest = cs' ++ rest') : v.kind = w.kind := by
  obtain ⟨c, _, rfl, hlead⟩ := hv.exists_lead
  obtain ⟨c', _, rfl, hlead'⟩ := hw.exists_lead
  obtain rfl : c = c' := (List.cons.inj h).1
  exact Kind.eq_of_mem_leads hlead hlead'

/-- Behind blanks, a value starts where the blanks end. -/
theorem Value.Spelling.skipBlanks {v : Value} {blanks cs : List Char} (h : v.Spelling cs)
    (hblanks : Blanks blanks) (rest : List Char) :
    skipBlanks (blanks ++ (cs ++ rest)) = cs ++ rest := by
  obtain ⟨c, _, rfl, hlead⟩ := h.exists_lead
  exact skipBlanks_append_cons hblanks (Kind.lead_ne hlead).1 _

/-- A value is the next element where the blanks in front of it end. -/
theorem Value.Spelling.nextElement? {v : Value} {blanks before cs : List Char}
    (h : v.Spelling cs) (index : Nat) (hblanks : Blanks blanks) (hbefore : Blanks before)
    (rest : List Char) :
    nextElement? index (blanks ++ (separator (index == 0) ++ (before ++ (cs ++ rest)))) =
      .ok (some (cs ++ rest)) := by
  obtain ⟨c, _, rfl, hlead⟩ := h.exists_lead
  exact nextElement?_of_cons hblanks hbefore (Kind.lead_ne hlead).1 (Kind.lead_ne hlead).2 _

theorem TextSpelling.append_inj {s s' : String} {cs cs' rest rest' : List Char}
    (hs : TextSpelling s cs) (hs' : TextSpelling s' cs') (h : cs ++ rest = cs' ++ rest') :
    s = s' ∧ rest = rest' := by
  obtain ⟨parts, hparts, rfl⟩ := hs
  obtain ⟨parts', hparts', rfl⟩ := hs'
  simp only [List.cons_append, List.append_assoc, List.nil_append, List.cons.injEq, true_and] at h
  have hread := readChars_of_spellings hparts rest
  rw [h, readChars_of_spellings hparts' rest'] at hread
  simp only [Except.ok.injEq, Prod.mk.injEq, String.toList_inj] at hread
  exact ⟨hread.1.symm, hread.2.symm⟩

theorem NumberSpelling.append_inj {cs cs' rest rest' : List Char} (hn : NumberSpelling cs)
    (hn' : NumberSpelling cs') (hrest : Delimited rest) (hrest' : Delimited rest')
    (h : cs ++ rest = cs' ++ rest') : cs = cs' ∧ rest = rest' := by
  obtain rfl : cs = cs' := by
    rw [← takeWhile_number hn hrest, h, takeWhile_number hn' hrest']
  exact ⟨rfl, List.append_cancel_left h⟩

/-- The first element of an array starts where the blanks in front of it end. -/
theorem Value.Items.nextElement? {v : Value} {vs : List Value} {parts : List (List Char)}
    (h : Value.Items (v :: vs) parts) {blanks : List Char} (hblanks : Blanks blanks) (index : Nat)
    (rest : List Char) :
    ∃ cs after behind, v.Spelling cs ∧ Blanks after ∧ Value.Items vs behind ∧
      Json.nextElement? index (blanks ++ (joined (index == 0) parts ++ ']' :: rest)) =
        .ok (some (cs ++ (after ++ (joined false behind ++ ']' :: rest)))) := by
  obtain ⟨_, behind, ⟨before, cs, after, hbefore, hcs, hafter, rfl⟩, hbehind, rfl⟩ := h
  refine ⟨cs, after, behind, hcs, hafter, hbehind, ?_⟩
  rw [← hcs.nextElement? index hblanks hbefore]
  simp only [joined, List.append_assoc]

/-- The first member of an object is read up to its value. -/
theorem Value.Members.exists_value {name : String} {v : Value} {ms : List (String × Value)}
    {parts : List (List Char)} (h : Value.Members ((name, v) :: ms) parts) {blanks : List Char}
    (hblanks : Blanks blanks) (first : Bool) (rest : List Char) :
    ∃ start colon value cs after behind, v.Spelling cs ∧ Blanks after ∧ Value.Members ms behind ∧
      nextKey? first (blanks ++ (joined first parts ++ '\x7d' :: rest)) = .ok (some start) ∧
      readChars start = .ok (name.toList, colon) ∧ readColon colon = .ok value ∧
      skipBlanks value = cs ++ (after ++ (joined false behind ++ '\x7d' :: rest)) := by
  obtain ⟨_, behind, hmember, hbehind, rfl⟩ := h
  obtain ⟨start, colon, before, cs, after, hnext, hname, hcolon, hbefore, hcs, hafter⟩ :=
    @MemberSpelling.exists_value _ _ _ _ hmember first hblanks
      (joined false behind ++ '\x7d' :: rest)
  refine ⟨start, colon, _, cs, after, behind, hcs, hafter, hbehind, ?_, hname, hcolon,
    hcs.skipBlanks hbefore _⟩
  rw [← hnext]
  simp only [joined, List.append_assoc]

mutual

/-- Where spellings of two values begin the same text, and no number goes on behind them, the
values are the same and so is what is behind them. -/
theorem Value.append_inj (v : Value) {w : Value} {cs cs' rest rest' : List Char}
    (hv : v.Spelling cs) (hw : w.Spelling cs') (hrest : Delimited rest)
    (hrest' : Delimited rest') (h : cs ++ rest = cs' ++ rest') : v = w ∧ rest = rest' := by
  have hkind := hv.kind_eq hw h
  match v with
  | .null =>
    cases w <;> cases hkind
    rw [Value.Spelling] at hv hw
    rw [hv, hw] at h
    exact ⟨rfl, List.append_cancel_left h⟩
  | .boolean b =>
    cases w with
    | boolean b' =>
      cases b <;> cases b' <;> rw [Value.Spelling] at hv <;> rw [Value.Spelling] at hw <;>
        rw [hv, hw] at h
      · exact ⟨rfl, List.append_cancel_left h⟩
      · exact absurd (List.cons.inj h).1 (by decide)
      · exact absurd (List.cons.inj h).1 (by decide)
      · exact ⟨rfl, List.append_cancel_left h⟩
    | _ => cases hkind
  | .number digits =>
    cases w <;> cases hkind
    rw [Value.Spelling] at hv hw
    obtain ⟨rfl, hnumber⟩ := hv
    obtain ⟨rfl, hnumber'⟩ := hw
    obtain ⟨rfl, hbehind⟩ := hnumber.append_inj hnumber' hrest hrest' h
    exact ⟨rfl, hbehind⟩
  | .text s =>
    cases w <;> cases hkind
    rw [Value.Spelling] at hv hw
    obtain ⟨rfl, hbehind⟩ := hv.append_inj hw h
    exact ⟨rfl, hbehind⟩
  | .array items =>
    cases w <;> cases hkind
    rw [Value.Spelling] at hv hw
    obtain ⟨_, hitems, henclosed⟩ := hv
    obtain ⟨_, hitems', henclosed'⟩ := hw
    obtain ⟨_, hblanks, htext⟩ := henclosed.exists_append_eq rest
    obtain ⟨_, hblanks', htext'⟩ := henclosed'.exists_append_eq rest'
    rw [htext, htext'] at h
    obtain ⟨rfl, hbehind⟩ :=
      Value.items_append_inj items 0 hitems hitems' hblanks hblanks' (List.cons.inj h).2
    exact ⟨rfl, hbehind⟩
  | .object members =>
    cases w <;> cases hkind
    rw [Value.Spelling] at hv hw
    obtain ⟨_, hmembers, henclosed⟩ := hv
    obtain ⟨_, hmembers', henclosed'⟩ := hw
    obtain ⟨_, hblanks, htext⟩ := henclosed.exists_append_eq rest
    obtain ⟨_, hblanks', htext'⟩ := henclosed'.exists_append_eq rest'
    rw [htext, htext'] at h
    obtain ⟨rfl, hbehind⟩ :=
      Value.members_append_inj members true hmembers hmembers' hblanks hblanks'
        (List.cons.inj h).2
    exact ⟨rfl, hbehind⟩

/-- Where the insides of two arrays begin the same text, their elements are the same. -/
theorem Value.items_append_inj (vs : List Value) (index : Nat) {ws : List Value}
    {parts parts' : List (List Char)} {blanks blanks' rest rest' : List Char}
    (hvs : Value.Items vs parts) (hws : Value.Items ws parts') (hblanks : Blanks blanks)
    (hblanks' : Blanks blanks')
    (h : blanks ++ (joined (index == 0) parts ++ ']' :: rest) =
      blanks' ++ (joined (index == 0) parts' ++ ']' :: rest')) : vs = ws ∧ rest = rest' := by
  match vs, ws with
  | [], [] =>
    obtain rfl := hvs
    obtain rfl := hws
    have hend := endArray_bracket hblanks rest
    rw [show blanks ++ ']' :: rest = blanks' ++ ']' :: rest' from h, endArray_bracket hblanks']
      at hend
    exact ⟨rfl, (Except.ok.inj hend).symm⟩
  | [], w :: ws =>
    obtain rfl := hvs
    -- The reader is asked which of the two it is, an end or an element.
    obtain ⟨_, _, _, -, -, -, hnext⟩ := hws.nextElement? hblanks' index rest'
    rw [← h, show blanks ++ (joined (index == 0) [] ++ ']' :: rest) = blanks ++ ']' :: rest from
      rfl, nextElement?_bracket hblanks] at hnext
    cases hnext
  | v :: vs, [] =>
    obtain rfl := hws
    obtain ⟨_, _, _, -, -, -, hnext⟩ := hvs.nextElement? hblanks index rest
    rw [h, show blanks' ++ (joined (index == 0) [] ++ ']' :: rest') = blanks' ++ ']' :: rest' from
      rfl, nextElement?_bracket hblanks'] at hnext
    cases hnext
  | v :: vs, w :: ws =>
    obtain ⟨_, _, _, hv, hafter, hvs', hnext⟩ := hvs.nextElement? hblanks index rest
    obtain ⟨_, _, _, hw, hafter', hws', hnext'⟩ := hws.nextElement? hblanks' index rest'
    rw [h, hnext', Except.ok.injEq, Option.some.injEq] at hnext
    -- A comma or a bracket stands behind the values, perhaps after blanks, so numbers end there.
    obtain ⟨rfl, hbehind⟩ := Value.append_inj v hv hw ((delimited_joined _ rfl _).append hafter)
      ((delimited_joined _ rfl _).append hafter') hnext.symm
    obtain ⟨rfl, hrest⟩ := Value.items_append_inj vs (index + 1) hvs' hws' hafter hafter' hbehind
    exact ⟨rfl, hrest⟩

/-- Where the insides of two objects begin the same text, their members are the same. -/
theorem Value.members_append_inj (ms : List (String × Value)) (first : Bool)
    {ns : List (String × Value)} {parts parts' : List (List Char)}
    {blanks blanks' rest rest' : List Char} (hms : Value.Members ms parts)
    (hns : Value.Members ns parts') (hblanks : Blanks blanks) (hblanks' : Blanks blanks')
    (h : blanks ++ (joined first parts ++ '\x7d' :: rest) =
      blanks' ++ (joined first parts' ++ '\x7d' :: rest')) : ms = ns ∧ rest = rest' := by
  match ms, ns with
  | [], [] =>
    obtain rfl := hms
    obtain rfl := hns
    have hend := behindKey_brace hblanks rest
    rw [show blanks ++ '\x7d' :: rest = blanks' ++ '\x7d' :: rest' from h,
      behindKey_brace hblanks'] at hend
    exact ⟨rfl, hend.symm⟩
  | [], (name, w) :: ns =>
    obtain rfl := hms
    obtain ⟨_, _, _, _, _, _, -, -, -, hnext, -⟩ := hns.exists_value hblanks' first rest'
    rw [← h, show blanks ++ (joined first [] ++ '\x7d' :: rest) = blanks ++ '\x7d' :: rest from
      rfl, nextKey?_brace hblanks] at hnext
    cases hnext
  | (name, v) :: ms, [] =>
    obtain rfl := hns
    obtain ⟨_, _, _, _, _, _, -, -, -, hnext, -⟩ := hms.exists_value hblanks first rest
    rw [h, show blanks' ++ (joined first [] ++ '\x7d' :: rest') = blanks' ++ '\x7d' :: rest' from
      rfl, nextKey?_brace hblanks'] at hnext
    cases hnext
  | (name, v) :: ms, (name', w) :: ns =>
    obtain ⟨_, _, _, _, _, _, hv, hafter, hms', hnext, hname, hcolon, hskip⟩ :=
      hms.exists_value hblanks first rest
    obtain ⟨_, _, _, _, _, _, hw, hafter', hns', hnext', hname', hcolon', hskip'⟩ :=
      hns.exists_value hblanks' first rest'
    rw [h, hnext', Except.ok.injEq, Option.some.injEq] at hnext
    rw [← hnext, hname', Except.ok.injEq, Prod.mk.injEq, String.toList_inj] at hname
    obtain ⟨rfl, rfl⟩ := hname
    rw [hcolon', Except.ok.injEq] at hcolon
    rw [← hcolon, hskip'] at hskip
    obtain ⟨rfl, hbehind⟩ := Value.append_inj v hv hw ((delimited_joined _ rfl _).append hafter)
      ((delimited_joined _ rfl _).append hafter') hskip.symm
    obtain ⟨rfl, hrest⟩ := Value.members_append_inj ms false hms' hns' hafter hafter' hbehind
    exact ⟨rfl, hrest⟩

end

/-- **No text spells two values.** -/
theorem Value.eq_of_padded {v w : Value} {cs : List Char} (hv : Padded v.Spelling cs)
    (hw : Padded w.Spelling cs) : v = w := by
  obtain ⟨before, token, after, hbefore, htoken, hafter, rfl⟩ := hv
  obtain ⟨before', token', after', hbefore', htoken', hafter', h⟩ := hw
  have hskip := htoken.skipBlanks hbefore after
  rw [h, htoken'.skipBlanks hbefore'] at hskip
  have hnone {blanks : List Char} (hblanks : Blanks blanks) : Delimited blanks := by
    rw [← List.append_nil blanks]
    exact Delimited.append hblanks rfl
  exact (Value.append_inj v htoken htoken' (hnone hafter) (hnone hafter') hskip.symm).1

/-- The text spells the value and no other, so whoever reads JSON has to take it for the value. -/
def Says (text : String) (v : Value) : Prop :=
  ∀ w : Value, Padded w.Spelling text.toList ↔ w = v

theorem says_of_padded {v : Value} {text : String} (h : Padded v.Spelling text.toList) :
    Says text v := fun _ ↦
  ⟨fun hw ↦ Value.eq_of_padded hw h, fun heq ↦ heq ▸ h⟩

end AstSchema.Json
