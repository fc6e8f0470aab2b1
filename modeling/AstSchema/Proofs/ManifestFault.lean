import AstSchema.Proofs.JsonFault
import AstSchema.Proofs.ManifestSpelling

/-!
# Flawed manifests

An entry with a single flaw: a value or an element of a wrong kind, a member too many, or one too
few. Whatever else the manifest holds, in whatever order, the error names the place of the flaw.

What stands in front of the flaw is read without a fault, and what stands behind it is not read at
all, unless it is a missing member that has to be waited for. So the proof goes along with the
reader: `exists_readMembers` takes it past sound members up to the flaw, and `rejects_readList`
past sound elements up to the flawed one. Of the draft that comes out only the required members
matter (`Draft.Has`), since no other is ever missing.
-/

namespace AstSchema.Manifest

open AstSchema.Json

/-! ## Flaws -/

namespace Key

/-- The kinds of values that the member takes. -/
def kinds : Key → List Kind
  | base => [.text]
  | variants | imports | derives => [.array]
  | output | header => [.text, .null]

/-- A value that the member has in some entry. -/
def ValueSpelling (key : Key) (cs : List Char) : Prop :=
  ∃ entry : Entry, entry.ValueSpelling key cs

end Key

/-- Members with these keys, each with a value that it takes. -/
def MembersSpelling (keys : List Key) (parts : List (List Char)) : Prop :=
  List.Forall₂ (fun key ↦ MemberSpelling key.name key.ValueSpelling) keys parts

/-- An entry can have members with exactly these keys. -/
structure IsWhole (keys : List Key) : Prop where
  /-- No member occurs twice. -/
  nodup : keys.Nodup
  /-- Nothing is missing. -/
  required : ∀ key, key.isRequired = true → key ∈ keys

/-- What may be wrong with an entry. -/
inductive Flaw
  /-- A value is of a kind that its member does not take. -/
  | kind (key : Key)
  /-- An element of a list is no string. -/
  | element (key : Key) (index : Nat)
  /-- No entry has a member with this name. -/
  | unknown (name : String)
  /-- A member occurs twice. -/
  | repeated (key : Key)
  /-- A member is missing. -/
  | missing (key : Key)

namespace Flaw

/-- The path from the entry to the flaw. -/
def path : Flaw → List Segment
  | kind key => [.member key.name]
  | element key index => [.member key.name, .element index]
  | unknown name => [.member name]
  | repeated _ | missing _ => []

/-- The text of this path. -/
def pathText : Flaw → String
  | kind key => "." ++ key.name
  | element key index => "." ++ key.name ++ "[" ++ toString index ++ "]"
  | unknown name => "." ++ name
  | repeated _ | missing _ => ""

/-- The reason that is given for a member too many or too few. -/
def reason? : Flaw → Option Reason
  | kind _ | element _ _ => none
  | unknown name => some (.unknownField name (Key.all.map Key.name))
  | repeated key => some (.duplicateField key.name)
  | missing key => some (.missingField key.name)

/-- An object that would be an entry but for the flaw. -/
inductive Spelling : Flaw → List Char → Prop
  /-- A value is replaced. -/
  | kind {front back : List Key} {key : Key} {parts parts' : List (List Char)}
      {part cs : List Char} (hkeys : IsWhole (front ++ key :: back))
      (hfront : MembersSpelling front parts)
      (hpart : MemberSpelling key.name (Unlike key.kinds) part)
      (hback : MembersSpelling back parts')
      (hcs : Enclosed '\x7b' '\x7d' (parts ++ part :: parts') cs) : Spelling (.kind key) cs
  /-- An element of a list is replaced. -/
  | element {front back : List Key} {key : Key} {index : Nat} {parts parts' : List (List Char)}
      {part cs : List Char} (hkeys : IsWhole (front ++ key :: back)) (hkey : .array ∈ key.kinds)
      (hfront : MembersSpelling front parts)
      (hpart : MemberSpelling key.name
        (ReplacedSpelling TextSpelling (Unlike [.text]) index) part)
      (hback : MembersSpelling back parts')
      (hcs : Enclosed '\x7b' '\x7d' (parts ++ part :: parts') cs) :
      Spelling (.element key index) cs
  /-- A member that no entry has is added, with any value. -/
  | unknown {front back : List Key} {name : String} {parts parts' : List (List Char)}
      {part cs : List Char} (hkeys : IsWhole (front ++ back))
      (hname : name ∉ Key.all.map Key.name) (hfront : MembersSpelling front parts)
      (hpart : MemberSpelling name (Unlike []) part) (hback : MembersSpelling back parts')
      (hcs : Enclosed '\x7b' '\x7d' (parts ++ part :: parts') cs) : Spelling (.unknown name) cs
  /-- A member occurs once more. The value that stands first is one that the member takes, and the
  other may be any. -/
  | repeated {front back : List Key} {key : Key} {parts parts' : List (List Char)}
      {part cs : List Char} (hkeys : IsWhole (front ++ back)) (hkey : key ∈ front)
      (hfront : MembersSpelling front parts)
      (hpart : MemberSpelling key.name (Unlike []) part) (hback : MembersSpelling back parts')
      (hcs : Enclosed '\x7b' '\x7d' (parts ++ part :: parts') cs) : Spelling (.repeated key) cs
  /-- A member is removed. -/
  | missing {keys : List Key} {key : Key} {parts : List (List Char)} {cs : List Char}
      (hkeys : IsWhole (key :: keys)) (hkey : key.isRequired = true)
      (hparts : MembersSpelling keys parts) (hcs : Enclosed '\x7b' '\x7d' parts cs) :
      Spelling (.missing key) cs

end Flaw

/-- A manifest, written as an object, in which the entry with this index has the flaw. -/
def FlawedSpelling (flaw : Flaw) (index : Nat) (cs : List Char) : Prop :=
  ∃ part, MemberSpelling schemasName (ReplacedSpelling Entry.Spelling flaw.Spelling index) part ∧
    Enclosed '\x7b' '\x7d' [part] cs

/-! ## Sound members -/

theorem items_of_texts {texts : List String} {parts : List (List Char)}
    (h : List.Forall₂ (fun s ↦ Padded (TextSpelling s)) texts parts) :
    Value.Items (texts.map .text) parts := by
  induction h with
  | nil => rfl
  | cons hpart _ ih => exact ⟨_, _, by simpa only [Value.Spelling] using hpart, ih, rfl⟩

/-- The values of a member are of the kinds that it takes. -/
theorem Key.ValueSpelling.exists_value {key : Key} {cs : List Char} (h : key.ValueSpelling cs) :
    ∃ v : Value, v.kind ∈ key.kinds ∧ v.Spelling cs := by
  have htexts {texts : List String} (h : ListSpelling TextSpelling texts cs) :
      (Value.array (texts.map .text)).Spelling cs := by
    obtain ⟨parts, hparts, hcs⟩ := h
    rw [Value.Spelling]
    exact ⟨parts, items_of_texts hparts, hcs⟩
  have hoptional {s : Option String} (h : OptionalSpelling s cs) :
      ∃ v : Value, v.kind ∈ [Kind.text, .null] ∧ v.Spelling cs := by
    cases s with
    | none => exact ⟨.null, List.mem_cons_of_mem _ List.mem_cons_self, by rwa [Value.Spelling]⟩
    | some s => exact ⟨.text s, List.mem_cons_self, by rwa [Value.Spelling]⟩
  obtain ⟨entry, h⟩ := h
  cases key with
  | base => exact ⟨.text entry.base, List.mem_cons_self, by rwa [Value.Spelling]⟩
  | variants => exact ⟨_, List.mem_cons_self, htexts h⟩
  | imports => exact ⟨_, List.mem_cons_self, htexts h⟩
  | derives => exact ⟨_, List.mem_cons_self, htexts h⟩
  | output => exact hoptional h
  | header => exact hoptional h

/-- Every entry that is written as an object has sound members and is whole, so it is one to put a
flaw into. -/
theorem isWhole_of_spelling {entry : Entry} {keys omitted : List Key} {parts : List (List Char)}
    (hkeys : (keys ++ omitted).Perm Key.all) (homitted : ∀ key ∈ omitted, entry.IsDefault key)
    (hparts : List.Forall₂ (fun key ↦ MemberSpelling key.name (entry.ValueSpelling key)) keys
      parts) : IsWhole keys ∧ MembersSpelling keys parts := by
  have hall : (keys ++ omitted).Nodup := hkeys.nodup_iff.mpr (by decide)
  refine ⟨⟨(List.nodup_append.mp hall).1, fun key hkey ↦ ?_⟩, hparts.imp ?_⟩
  · rcases List.mem_append.mp (hkeys.mem_iff.mpr key.mem_all) with hmem | hmem
    · exact hmem
    · exact absurd hkey (by simp [(homitted key hmem).not_isRequired])
  · rintro key part ⟨name, value, hname, ⟨before, token, after, hbefore, htoken, hafter⟩, rfl⟩
    exact ⟨name, value, hname, ⟨before, token, after, hbefore, ⟨entry, htoken⟩, hafter⟩, rfl⟩

/-! ## Values of another kind -/

/-- Without a quote there is no text. -/
theorem readText_of_ne {blanks : List Char} {c : Char} (hblanks : Blanks blanks)
    (hblank : isBlank c = false) (hquote : c ≠ '"') (wanted : String) (rest : List Char) :
    readText wanted (blanks ++ c :: rest) = .error (unwanted wanted (c :: rest)) := by
  rw [readText, skipBlanks_append_cons hblanks hblank]
  dsimp only
  rw [if_neg hquote]

theorem rejects_readText (wanted : String) :
    Rejects (readText wanted) (Unlike [.text]) [] none := by
  refine .of_lead fun {blanks c} rest hblanks hblank hlead ↦ ?_
  have hquote : c ≠ '"' := fun heq ↦ hlead .text List.mem_cons_self (heq ▸ List.mem_cons_self)
  exact ⟨_, readText_of_ne hblanks hblank hquote wanted rest, matches_unwanted _ _⟩

theorem rejects_readOptional (wanted : String) :
    Rejects (readOptional wanted) (Unlike [.text, .null]) [] none := by
  refine .of_lead fun {blanks c} rest hblanks hblank hlead ↦ ?_
  have hquote : c ≠ '"' := fun heq ↦ hlead .text List.mem_cons_self (heq ▸ List.mem_cons_self)
  have hread : readText wanted (c :: rest) = .error (unwanted wanted (c :: rest)) :=
    readText_of_ne blanks_nil hblank hquote wanted rest
  refine ⟨_, ?_, matches_unwanted wanted (c :: rest)⟩
  rw [readOptional, skipBlanks_append_cons hblanks hblank]
  split
  · next heq =>
    obtain rfl := (List.cons.inj heq).1
    exact absurd List.mem_cons_self (hlead .null (by simp))
  · rw [hread]

section

variable {α : Type} {read : List Char → Result α}
  {shorter : ∀ {cs a rest}, read cs = .ok (a, rest) → rest.length < cs.length}

variable (shorter) in
theorem rejects_readList_of_unlike :
    Rejects (readList read shorter) (Unlike [.array]) [] none := by
  refine .of_lead fun {blanks c} rest hblanks hblank hlead ↦ ?_
  have hbracket : c ≠ '[' := fun heq ↦ hlead .array List.mem_cons_self (heq ▸ List.mem_cons_self)
  refine ⟨unwanted "a sequence" (c :: rest), ?_, matches_unwanted _ _⟩
  rw [readList, skipBlanks_append_cons hblanks hblank]
  dsimp only
  rw [if_neg hbracket]

/-! ## Elements -/

theorem readElements_of_error {index : Nat} {cs start : List Char} {fault : Fault}
    (hnext : nextElement? index cs = .ok (some start)) (hread : read start = .error fault) :
    readElements read shorter index cs = .error (fault.inside (.element index)) := by
  rw [readElements]
  split
  · next heq => rw [hnext] at heq; cases heq
  · next heq => rw [hnext] at heq; cases heq
  · next heq =>
    rw [hnext] at heq
    cases heq
    split
    · next heq => rw [hread] at heq; cases heq; rfl
    · next heq => rw [hread] at heq; cases heq

variable {Spelling : α → List Char → Prop} {Other : List Char → Prop} {path : List Segment}
  {reason? : Option Reason}

variable (shorter) in
/-- Behind sound elements the first one that fails is at fault. -/
theorem exists_fault_readElements (hread : ReadsBack read Spelling)
    (hother : Rejects read Other path reason?) {front : List α} {parts : List (List Char)}
    (h : List.Forall₂ (fun a ↦ Padded (Spelling a)) front parts) {part : List Char}
    (hpart : Padded Other part) (index : Nat) {blanks : List Char} (hblanks : Blanks blanks)
    (parts' : List (List Char)) (rest : List Char) :
    ∃ fault, readElements read shorter index
        (blanks ++ (joined (index == 0) (parts ++ part :: parts') ++ ']' :: rest)) = .error fault ∧
      fault.Matches (.element (index + front.length) :: path) reason? := by
  induction h generalizing index blanks with
  | nil =>
    obtain ⟨before, token, after, hbefore, htoken, -, rfl⟩ := hpart
    obtain ⟨c, tail, rfl, hblank, hbracket⟩ := hother.exists_lead htoken
    obtain ⟨fault, hfault, hmatches⟩ := hother.exists_fault blanks_nil htoken
      (after ++ (joined false parts' ++ ']' :: rest))
    refine ⟨_, ?_, hmatches.inside (.element index)⟩
    simp only [List.nil_append, joined, List.append_assoc]
    exact readElements_of_error (nextElement?_of_cons hblanks hbefore hblank hbracket _) hfault
  | @cons a part' front parts hpart' _ ih =>
    obtain ⟨before, token, after, hbefore, htoken, hafter, rfl⟩ := hpart'
    obtain ⟨fault, hfault, hmatches⟩ := ih (index + 1) hafter
    refine ⟨fault, ?_, ?_⟩
    · simp only [List.cons_append, joined, List.append_assoc]
      rw [readElements_step (nextElement?_of_startsValue hblanks hbefore
        ((hread.startsValue htoken).append _)) (hread.read_eq blanks_nil htoken _)]
      exact congrArg (Except.map _) hfault
    · rw [List.length_cons, Nat.add_comm front.length, ← Nat.add_assoc]
      exact hmatches

variable (shorter) in
/-- A list is at fault where an element is. -/
theorem rejects_readList (hread : ReadsBack read Spelling)
    (hother : Rejects read Other path reason?) (index : Nat) :
    Rejects (readList read shorter) (ReplacedSpelling Spelling Other index)
      (.element index :: path) reason? where
  exists_lead := by
    rintro cs ⟨front, parts, part, back, parts', -, -, -, -, blanks, -, rfl⟩
    exact ⟨_, _, rfl, by decide⟩
  exists_fault := by
    rintro blanks cs hblanks ⟨front, parts, part, back, parts', rfl, hfront, hpart, -, hcs⟩ rest
    obtain ⟨inner, hinner, htext⟩ := hcs.exists_append_eq rest
    obtain ⟨fault, hfault, hmatches⟩ :=
      exists_fault_readElements shorter hread hother hfront hpart 0 hinner parts' rest
    rw [Nat.zero_add] at hmatches
    refine ⟨fault, ?_, hmatches⟩
    rw [readList, htext, skipBlanks_append_cons hblanks rfl]
    dsimp only
    rw [if_pos rfl]
    exact hfault

end

theorem rejects_readTexts_of_unlike : Rejects readTexts (Unlike [.array]) [] none :=
  rejects_readList_of_unlike length_readText

theorem rejects_readTexts (index : Nat) :
    Rejects readTexts (ReplacedSpelling TextSpelling (Unlike [.text]) index) [.element index]
      none :=
  rejects_readList length_readText (readsBack_readText _) (rejects_readText _) index

/-! ## Members -/

/-- Of the members that every entry has, those that have occurred are in the draft. -/
structure Draft.Has (draft : Draft) (seen : List Key) : Prop where
  /-- The name of the category. -/
  base : draft.base.isSome = true ↔ Key.base ∈ seen
  /-- The schema lines. -/
  variants : draft.variants.isSome = true ↔ Key.variants ∈ seen

theorem Draft.has_nil : Draft.Has {} [] := ⟨by simp, by simp⟩

/-- A draft that lacks nothing but one member cannot be finished. -/
theorem Draft.Has.finish_eq_error {draft : Draft} {seen : List Key} (h : draft.Has seen) {key : Key}
    (hkey : key.isRequired = true) (hmissing : key ∉ seen)
    (hothers : ∀ other, other.isRequired = true → other ≠ key → other ∈ seen) :
    draft.finish = .error key := by
  cases key with
  | base =>
    have hbase := Option.not_isSome_iff_eq_none.mp (mt h.base.mp hmissing)
    rw [Draft.finish, hbase]
  | variants =>
    have hvariants := Option.not_isSome_iff_eq_none.mp (mt h.variants.mp hmissing)
    obtain ⟨base, hbase⟩ := Option.isSome_iff_exists.mp
      (h.base.mpr (hothers .base rfl (by decide)))
    rw [Draft.finish, hbase, hvariants]
  | output | imports | derives | header => cases hkey

theorem Draft.Has.addTo {draft : Draft} {seen : List Key} (h : draft.Has seen) (entry : Entry)
    (key : Key) : (entry.addTo draft key).Has (key :: seen) := by
  cases key <;> constructor <;> simp [Entry.addTo, h.base, h.variants]

/-- A value that a member takes is read into any draft. -/
theorem exists_readMember {key : Key} {cs : List Char} (h : key.ValueSpelling cs) {draft : Draft}
    {seen : List Key} (hdraft : draft.Has seen) {blanks : List Char} (hblanks : Blanks blanks)
    (rest : List Char) :
    ∃ draft' : Draft, draft'.Has (key :: seen) ∧
      draft.readMember key (blanks ++ (cs ++ rest)) = .ok (draft', rest) := by
  obtain ⟨entry, h⟩ := h
  exact ⟨_, hdraft.addTo entry key, Entry.readMember_of_spelling draft hblanks h rest⟩

/-- Sound members are read, whatever follows them. -/
theorem exists_readMembers {keys : List Key} {parts : List (List Char)}
    (h : MembersSpelling keys parts) {pending seen : List Key} {draft : Draft}
    (hdraft : draft.Has seen) (hnodup : (keys ++ seen).Nodup)
    (hpending : ∀ key, key ∈ pending ↔ key ∉ seen) (hpending' : pending.Nodup)
    (hlength : pending.length ≤ Key.all.length) {blanks : List Char} (hblanks : Blanks blanks)
    (parts' : List (List Char)) (rest : List Char) :
    ∃ pending' draft' blanks', (∀ key, key ∈ pending' ↔ key ∉ keys.reverse ++ seen) ∧
      draft'.Has (keys.reverse ++ seen) ∧ Blanks blanks' ∧
      readMembers pending draft (blanks ++
          (joined (pending.length == Key.all.length) (parts ++ parts') ++ '\x7d' :: rest)) =
        readMembers pending' draft' (blanks' ++
          (joined (pending'.length == Key.all.length) parts' ++ '\x7d' :: rest)) := by
  -- What has been seen grows by a key with every member, what is pending shrinks by it, and the
  -- blanks behind the member are those in front of the next comma.
  induction h generalizing pending seen draft blanks with
  | nil => exact ⟨pending, draft, blanks, hpending, hdraft, hblanks, rfl⟩
  | @cons key part keys parts hpart _ ih =>
    have hkey : key ∈ pending :=
      (hpending key).mpr fun hseen ↦ (List.nodup_cons.mp hnodup).1 (List.mem_append_right _ hseen)
    obtain ⟨_, before, token, after, hbefore, htoken, hafter, hmember⟩ :=
      readMembers_of_member hpart hblanks pending draft
        (joined false (parts ++ parts') ++ '\x7d' :: rest)
    obtain ⟨draft₁, hdraft₁, hread⟩ := exists_readMember htoken hdraft hbefore
      (after ++ (joined false (parts ++ parts') ++ '\x7d' :: rest))
    have herase : ∀ other, other ∈ pending.erase key ↔ other ∉ key :: seen := by
      intro other
      rw [hpending'.mem_erase_iff, hpending, List.mem_cons, not_or]
    obtain ⟨pending', draft', blanks', hpending₁, hdraft', hblanks', hmembers⟩ :=
      ih hdraft₁ (List.perm_middle.nodup_iff.mpr hnodup) herase (hpending'.erase key)
        (Nat.le_trans List.length_erase_le hlength) hafter
    rw [length_erase_beq hkey hlength] at hmembers
    refine ⟨pending', draft', blanks', by simpa using hpending₁, by simpa using hdraft', hblanks',
      ?_⟩
    rw [List.cons_append, joined, List.append_assoc, List.append_assoc, hmember, Key.ofName?_name]
    dsimp only
    rw [if_pos hkey, hread]
    exact hmembers

/-! ## Entries -/

/-- An object is read as an entry up to any of its members. -/
theorem exists_readEntry {front : List Key} {parts parts' : List (List Char)} {cs : List Char}
    (hfront : MembersSpelling front parts) (hnodup : front.Nodup)
    (hcs : Enclosed '\x7b' '\x7d' (parts ++ parts') cs) {blanks : List Char}
    (hblanks : Blanks blanks) (rest : List Char) :
    ∃ pending draft blanks', (∀ key, key ∈ pending ↔ key ∉ front) ∧ draft.Has front.reverse ∧
      Blanks blanks' ∧ readEntry (blanks ++ (cs ++ rest)) = readMembers pending draft
        (blanks' ++ (joined (pending.length == Key.all.length) parts' ++ '\x7d' :: rest)) := by
  obtain ⟨inner, hinner, htext⟩ := hcs.exists_append_eq rest
  obtain ⟨pending, draft, blanks', hpending, hdraft, hblanks', hmembers⟩ :=
    exists_readMembers hfront Draft.has_nil (by simpa using hnodup)
      (fun key ↦ by simp [key.mem_all]) (by decide) Nat.le.refl hinner parts' rest
  refine ⟨pending, draft, blanks', by simpa using hpending, by simpa using hdraft, hblanks', ?_⟩
  rw [readEntry, htext, skipBlanks_append_cons hblanks rfl]
  dsimp only
  rw [if_neg (by decide), if_pos rfl]
  exact hmembers

theorem readMember_of_texts {key : Key} (hkey : .array ∈ key.kinds) (draft : Draft)
    {cs : List Char} {fault : Fault} (h : readTexts cs = .error fault) :
    draft.readMember key cs = .error fault := by
  cases key with
  | variants | imports | derives => simp only [Draft.readMember, h]
  | base | output | header => exact absurd hkey (by decide)

/-- A value of a kind that its member does not take is at fault as a whole. -/
theorem rejects_readMember (draft : Draft) (key : Key) :
    Rejects (draft.readMember key) (Unlike key.kinds) [] none := by
  cases key with
  | base =>
    exact (rejects_readText "a string").of_handed_on fun h ↦ by simp only [Draft.readMember, h]
  | variants | imports | derives =>
    exact rejects_readTexts_of_unlike.of_handed_on (readMember_of_texts (by decide) draft)
  | output =>
    exact (rejects_readOptional "path string").of_handed_on fun h ↦ by
      simp only [Draft.readMember, h]
  | header =>
    exact (rejects_readOptional "a string").of_handed_on fun h ↦ by simp only [Draft.readMember, h]

/-- A list that a member has is at fault where an element is no string. -/
theorem rejects_readMember_replaced (draft : Draft) {key : Key} (hkey : .array ∈ key.kinds)
    (index : Nat) :
    Rejects (draft.readMember key) (ReplacedSpelling TextSpelling (Unlike [.text]) index)
      [.element index] none :=
  (rejects_readTexts index).of_handed_on (readMember_of_texts hkey draft)

section

variable {front : List Key} {parts parts' : List (List Char)} {part cs : List Char}
  (hfront : MembersSpelling front parts) (hnodup : front.Nodup)
  (hcs : Enclosed '\x7b' '\x7d' (parts ++ part :: parts') cs) {blanks : List Char}
  (hblanks : Blanks blanks) (rest : List Char)

include hfront hnodup hcs hblanks

/-- Behind sound members the entry is at fault where the next value is. -/
theorem exists_fault_of_value {key : Key} (hkey : key ∉ front) {Other : List Char → Prop}
    (hpart : MemberSpelling key.name Other part) {path : List Segment}
    (hother : ∀ draft : Draft, Rejects (draft.readMember key) Other path none) :
    ∃ fault, readEntry (blanks ++ (cs ++ rest)) = .error fault ∧
      fault.Matches (.member key.name :: path) none := by
  obtain ⟨pending, draft, blanks', hpending, -, hblanks', hentry⟩ :=
    exists_readEntry hfront hnodup hcs hblanks rest
  obtain ⟨_, before, token, after, hbefore, htoken, -, hmember⟩ :=
    readMembers_of_member hpart hblanks' pending draft (joined false parts' ++ '\x7d' :: rest)
  obtain ⟨fault, hfault, hmatches⟩ := (hother draft).exists_fault hbefore htoken
    (after ++ (joined false parts' ++ '\x7d' :: rest))
  refine ⟨_, ?_, hmatches.inside (.member key.name)⟩
  rw [hentry, joined, List.append_assoc, List.append_assoc, hmember, Key.ofName?_name]
  dsimp only
  rw [if_pos ((hpending key).mpr hkey), hfault]

/-- Behind sound members the entry is at fault where the next one is none of them. -/
theorem exists_fault_of_unknown {name : String} (hname : name ∉ Key.all.map Key.name)
    {Other : List Char → Prop} (hpart : MemberSpelling name Other part) :
    ∃ fault, readEntry (blanks ++ (cs ++ rest)) = .error fault ∧
      fault.Matches [.member name] (some (.unknownField name (Key.all.map Key.name))) := by
  obtain ⟨pending, draft, blanks', -, -, hblanks', hentry⟩ :=
    exists_readEntry hfront hnodup hcs hblanks rest
  obtain ⟨behind, _, _, _, -, -, -, hmember⟩ :=
    readMembers_of_member hpart hblanks' pending draft (joined false parts' ++ '\x7d' :: rest)
  have hnone : Key.ofName? name = none := by
    refine List.find?_eq_none.mpr fun key hkey heq ↦ hname ?_
    exact List.mem_map.mpr ⟨key, hkey, eq_of_beq heq⟩
  refine ⟨_, ?_, (matches_before _ (behindKey behind)).inside (.member name)⟩
  rw [hentry, joined, List.append_assoc, List.append_assoc, hmember, hnone]

/-- Behind sound members the entry is at fault where the next one is one of them. -/
theorem exists_fault_of_repeated {key : Key} (hkey : key ∈ front) {Other : List Char → Prop}
    (hpart : MemberSpelling key.name Other part) :
    ∃ fault, readEntry (blanks ++ (cs ++ rest)) = .error fault ∧
      fault.Matches [] (some (.duplicateField key.name)) := by
  obtain ⟨pending, draft, blanks', hpending, -, hblanks', hentry⟩ :=
    exists_readEntry hfront hnodup hcs hblanks rest
  obtain ⟨behind, _, _, _, -, -, -, hmember⟩ :=
    readMembers_of_member hpart hblanks' pending draft (joined false parts' ++ '\x7d' :: rest)
  refine ⟨_, ?_, matches_before _ (behindKey behind)⟩
  rw [hentry, joined, List.append_assoc, List.append_assoc, hmember, Key.ofName?_name]
  dsimp only
  rw [if_neg fun hmem ↦ (hpending key).mp hmem hkey]

end

/-- Where a member is missing the entry is at fault at its end. -/
theorem exists_fault_of_missing {keys : List Key} {key : Key} {parts : List (List Char)}
    {cs : List Char} (hkeys : IsWhole (key :: keys)) (hkey : key.isRequired = true)
    (hparts : MembersSpelling keys parts) (hcs : Enclosed '\x7b' '\x7d' parts cs)
    {blanks : List Char} (hblanks : Blanks blanks) (rest : List Char) :
    ∃ fault, readEntry (blanks ++ (cs ++ rest)) = .error fault ∧
      fault.Matches [] (some (.missingField key.name)) := by
  obtain ⟨hmissing, hnodup⟩ := List.nodup_cons.mp hkeys.nodup
  rw [← List.append_nil parts] at hcs
  obtain ⟨pending, draft, blanks', -, hdraft, hblanks', hentry⟩ :=
    exists_readEntry hparts hnodup hcs hblanks rest
  have hfinish : draft.finish = .error key := by
    refine hdraft.finish_eq_error hkey (by simpa using hmissing) fun other hother hne ↦ ?_
    exact List.mem_reverse.mpr ((List.mem_cons.mp (hkeys.required other hother)).resolve_left hne)
  refine ⟨_, ?_, matches_before _ rest⟩
  -- No other fault comes first: all members are sound, and then the object ends.
  rw [hentry, readMembers, show joined _ [] = [] from rfl, List.nil_append,
    nextKey?_brace hblanks']
  dsimp only
  rw [hfinish, behindKey_brace hblanks']

/-- A flawed entry is at fault where the flaw is. -/
theorem rejects_readEntry (flaw : Flaw) :
    Rejects readEntry flaw.Spelling flaw.path flaw.reason? where
  exists_lead h := by
    obtain ⟨parts, blanks, -, rfl⟩ : ∃ parts, Enclosed '\x7b' '\x7d' parts _ := by
      cases h with
      | kind _ _ _ _ hcs | element _ _ _ _ _ hcs | unknown _ _ _ _ _ hcs
        | repeated _ _ _ _ _ hcs | missing _ _ _ hcs => exact ⟨_, hcs⟩
    exact ⟨_, _, rfl, by decide⟩
  exists_fault := by
    intro blanks cs hblanks h rest
    have hsplit {front back : List Key} {key : Key} (h : IsWhole (front ++ key :: back)) :
        front.Nodup ∧ key ∉ front := by
      have hcons := List.perm_middle.nodup_iff.mp h.nodup
      rw [List.nodup_cons] at hcons
      exact ⟨(List.nodup_append.mp hcons.2).1, fun hmem ↦ hcons.1 (List.mem_append_left _ hmem)⟩
    cases h with
    | kind hkeys hfront hpart _ hcs =>
      obtain ⟨hnodup, hkey⟩ := hsplit hkeys
      exact exists_fault_of_value hfront hnodup hcs hblanks rest hkey hpart
        fun draft ↦ rejects_readMember draft _
    | element hkeys hlist hfront hpart _ hcs =>
      obtain ⟨hnodup, hkey⟩ := hsplit hkeys
      exact exists_fault_of_value hfront hnodup hcs hblanks rest hkey hpart
        fun draft ↦ rejects_readMember_replaced draft hlist _
    | unknown hkeys hname hfront hpart _ hcs =>
      exact exists_fault_of_unknown hfront (List.nodup_append.mp hkeys.nodup).1 hcs hblanks rest
        hname hpart
    | repeated hkeys hkey hfront hpart _ hcs =>
      exact exists_fault_of_repeated hfront (List.nodup_append.mp hkeys.nodup).1 hcs hblanks rest
        hkey hpart
    | missing hkeys hkey hparts hcs =>
      exact exists_fault_of_missing hkeys hkey hparts hcs hblanks rest

/-! ## Manifests -/

/-- A manifest is at fault where its entries are. -/
theorem exists_fault_readManifest {Other : List Char → Prop} {path : List Segment}
    {reason? : Option Reason} (hother : Rejects readEntries Other path reason?)
    {part cs : List Char} (hpart : MemberSpelling schemasName Other part)
    (hcs : Enclosed '\x7b' '\x7d' [part] cs) {blanks : List Char} (hblanks : Blanks blanks)
    (rest : List Char) :
    ∃ fault, readManifest (blanks ++ (cs ++ rest)) = .error fault ∧
      fault.Matches (.member schemasName :: path) reason? := by
  obtain ⟨inner, hinner, htext⟩ := hcs.exists_append_eq rest
  obtain ⟨start, behind, before, token, after, hnext, hname, hcolon, hbefore, htoken, -⟩ :=
    hpart.exists_value hinner ('\x7d' :: rest)
  obtain ⟨fault, hfault, hmatches⟩ :=
    hother.exists_fault hbefore htoken (after ++ '\x7d' :: rest)
  refine ⟨_, ?_, hmatches.inside (.member schemasName)⟩
  rw [readManifest, htext, skipBlanks_append_cons hblanks rfl]
  dsimp only
  rw [if_neg (by decide), if_pos rfl, joined, joined, List.append_nil, List.append_assoc,
    readObject, hnext]
  dsimp only
  rw [hname]
  dsimp only
  rw [String.ofList_toList, if_pos rfl, hcolon]
  dsimp only
  rw [hfault]

theorem pathText_flaw (flaw : Flaw) (index : Nat) :
    Json.pathText (.member schemasName :: .element index :: flaw.path) =
      "schemas[" ++ toString index ++ "]" ++ flaw.pathText := by
  rw [show "schemas[" = schemasName ++ "[" from rfl]
  cases flaw <;>
    simp [Json.pathText, Flaw.path, Flaw.pathText, Segment.leading, Segment.following,
      String.join, String.append_assoc]

/-- **The error names the flaw.** Whatever else the manifest holds, its path leads to the entry and
in there to the flaw, and a member too many or too few is named by the reason. -/
theorem ofJson_of_flawed {flaw : Flaw} {index : Nat} {text : String}
    (h : Padded (FlawedSpelling flaw index) text.toList) :
    ∃ error, ofJson text = .error error ∧
      Json.pathText error.path = "schemas[" ++ toString index ++ "]" ++ flaw.pathText ∧
      ∀ reason ∈ flaw.reason?, error.reason = reason := by
  obtain ⟨before, token, after, hbefore, ⟨part, hpart, htoken⟩, -, htext⟩ := h
  have hentries : Rejects readEntries _ (.element index :: flaw.path) flaw.reason? :=
    rejects_readList length_readEntry readsBack_readEntry (rejects_readEntry flaw) index
  obtain ⟨fault, hfault, hpath, hreason⟩ :=
    exists_fault_readManifest hentries hpart htoken hbefore after
  refine ⟨⟨fault.path, fault.reason, fault.position text.toList⟩, ?_, ?_, hreason⟩
  · rw [ofJson, htext, hfault]
  · rw [← pathText_flaw, ← hpath]

/-- A manifest whose second entry has a number among its schema lines. -/
def numberedText : String :=
  "\x7b\"schemas\": [[\"E\",[]],\x7b\"variants\":[\"A: a T\", 7],\"base\":\"F\"\x7d]\x7d"

/-- The number is at fault. -/
theorem ofJson_of_flawed_number :
    ∃ error, ofJson numberedText = .error error ∧
      Json.pathText error.path = "schemas[1].variants[1]" := by
  have hplain {s : String}
      (h : s.toList.all (fun c ↦ c ≠ '"' ∧ c ≠ '\\' ∧ 0x20 ≤ c.toNat) = true) :
      Padded (TextSpelling s) ('"' :: (s.toList ++ ['"'])) :=
    .of_spelling (textSpelling_of_plain h)
  have hnumber : Unlike [.text] ['7'] := by
    refine ⟨.number ['7'], by decide, ?_⟩
    rw [Value.Spelling]
    have hdigits : Digits ['7'] := ⟨by simp, List.forall_mem_singleton.mpr rfl⟩
    exact ⟨rfl, show NumberSpelling ([] ++ (['7'] ++ ([] ++ []))) from
      .intro (by simp) hdigits (by decide) (.inl rfl) (.inl rfl)⟩
  have hlines : ReplacedSpelling TextSpelling (Unlike [.text]) 1 _ :=
    ⟨["A: a T"], _, _, [], _, rfl, .cons (hplain (by decide)) .nil,
      ⟨[' '], _, [], by simp [Blanks], hnumber, blanks_nil, rfl⟩, .nil, [], blanks_nil, rfl⟩
  have hbase : Key.ValueSpelling .base _ :=
    ⟨{ base := "F", variants := [] }, textSpelling_of_plain (by decide)⟩
  have hkeys : IsWhole ([] ++ .variants :: [.base]) :=
    ⟨by decide, fun key ↦ by cases key <;> decide⟩
  have hsecond : (Flaw.element .variants 1).Spelling _ :=
    .element hkeys (by decide) .nil ⟨_, _, hplain (by decide), .of_spelling hlines, rfl⟩
      (.cons ⟨_, _, hplain (by decide), .of_spelling hbase, rfl⟩ .nil) ⟨[], blanks_nil, rfl⟩
  have hfirst : Entry.Spelling { base := "E", variants := [] } _ :=
    .array (show [.base, .variants] ++ [.output, .imports, .derives, .header] = Key.all from rfl)
      (by simp [Entry.IsDefault])
      (.cons (hplain (by decide)) (.cons (.of_spelling ⟨[], .nil, [], blanks_nil, rfl⟩) .nil))
      ⟨[], blanks_nil, rfl⟩
  have hentries : ReplacedSpelling Entry.Spelling (Flaw.element .variants 1).Spelling 1 _ :=
    ⟨[_], _, _, [], _, rfl, .cons (.of_spelling hfirst) .nil, .of_spelling hsecond, .nil, [],
      blanks_nil, rfl⟩
  have hmanifest : Padded (FlawedSpelling (.element .variants 1) 1) numberedText.toList :=
    ⟨[], _, [], blanks_nil,
      ⟨_, ⟨_, _, hplain (by decide), ⟨[' '], _, [], by simp [Blanks], hentries, blanks_nil, rfl⟩,
        rfl⟩, [], blanks_nil, rfl⟩, blanks_nil, by decide +kernel⟩
  obtain ⟨error, hjson, hpath, -⟩ := ofJson_of_flawed hmanifest
  exact ⟨error, hjson, hpath.trans (by decide)⟩

end AstSchema.Manifest
