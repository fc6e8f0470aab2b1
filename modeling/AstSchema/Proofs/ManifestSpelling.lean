import AstSchema.Manifest.Reading
import AstSchema.Proofs.JsonSpelling

/-!
# Spellings of manifests

A manifest is a record with one member, the list of its entries, and each entry is a record with
six members, of which four have a default. Every reader of a manifest's parts reads back, so every
spelling of a manifest is read as that manifest.

An entry is the only part that is not read in one go. What has been read of it is a draft, and the
draft of an entry is determined by the members that have occurred: `Entry.draft`. Reading a member
adds it to these, in an object as in an array, and the draft is the whole entry as soon as only
defaults are missing.
-/

namespace AstSchema.Manifest

open AstSchema.Json

/-! ## Spellings -/

namespace Entry

/-- The value of a member. -/
def ValueSpelling (entry : Entry) : Key → List Char → Prop
  | .base => TextSpelling entry.base
  | .variants => ListSpelling TextSpelling entry.variants
  | .output => OptionalSpelling (entry.output.map Path.text)
  | .imports => ListSpelling TextSpelling entry.imports
  | .derives => ListSpelling TextSpelling entry.derives
  | .header => OptionalSpelling entry.header

/-- The member has the value that it has where it is left out. -/
def IsDefault (entry : Entry) : Key → Prop
  | .base => False
  | .variants => False
  | .output => entry.output = none
  | .imports => entry.imports = []
  | .derives => entry.derives = []
  | .header => entry.header = none

/-- An entry, written as an object or as an array. -/
def Spelling (entry : Entry) : List Char → Prop :=
  RecordSpelling Key.all Key.name entry.IsDefault entry.ValueSpelling

end Entry

/-- A manifest, written as an object or as an array. Its only member cannot be left out. -/
def Spelling (manifest : Manifest) : List Char → Prop :=
  RecordSpelling [()] (fun _ ↦ schemasName) (fun _ ↦ False)
    fun _ ↦ ListSpelling Entry.Spelling manifest.schemas

/-! ## Leaves -/

theorem readsBack_readText (wanted : String) : ReadsBack (readText wanted) TextSpelling where
  startsValue := by
    rintro s cs ⟨parts, -, rfl⟩
    exact ⟨_, _, rfl, by decide⟩
  read_eq := by
    rintro s blanks cs hblanks ⟨parts, hparts, rfl⟩ rest
    have hchars : readChars ((parts.flatten ++ ['"']) ++ rest) = .ok (s.toList, rest) := by
      rw [List.append_assoc]
      exact readChars_of_spellings hparts rest
    rw [readText, List.cons_append, skipBlanks_append_cons hblanks rfl]
    dsimp only
    rw [if_pos rfl, hchars]
    simp only [String.ofList_toList]

theorem readsBack_readOptional (wanted : String) :
    ReadsBack (readOptional wanted) OptionalSpelling where
  startsValue := by
    rintro (_ | s) cs h
    · cases h
      exact ⟨_, _, rfl, by decide⟩
    · exact (readsBack_readText wanted).startsValue h
  read_eq := by
    rintro (_ | s) blanks cs hblanks h rest
    · cases h
      rw [readOptional, skipBlanks_append hblanks]
      rfl
    · have hread := (readsBack_readText wanted).read_eq blanks_nil h rest
      obtain ⟨parts, -, rfl⟩ := h
      rw [readOptional, List.cons_append, skipBlanks_append_cons hblanks rfl]
      split
      · next heq => exact absurd (List.cons.inj heq).1 (by decide)
      · rw [show readText wanted ('"' :: (parts.flatten ++ ['"'] ++ rest)) = _ from hread]

/-! ## Lists -/

variable {α : Type} {read : List Char → Result α}
  {shorter : ∀ {cs a rest}, read cs = .ok (a, rest) → rest.length < cs.length}

/-- Behind an element, the elements from the next index on are read. -/
theorem readElements_step {index : Nat} {cs start rest : List Char} {a : α}
    (hnext : nextElement? index cs = .ok (some start)) (hread : read start = .ok (a, rest)) :
    readElements read shorter index cs =
      (readElements read shorter (index + 1) rest).map fun (as, rest) ↦ (a :: as, rest) := by
  rw [readElements]
  split
  · next heq => rw [hnext] at heq; cases heq
  · next heq => rw [hnext] at heq; cases heq
  · next heq =>
    rw [hnext] at heq
    cases heq
    split
    · next heq => rw [hread] at heq; cases heq
    · next heq =>
      rw [hread] at heq
      cases heq
      cases readElements read shorter (index + 1) rest <;> rfl

theorem readElements_end {index : Nat} {cs rest : List Char}
    (hnext : nextElement? index cs = .ok none) (hend : endArray cs = .ok rest) :
    readElements read shorter index cs = .ok ([], rest) := by
  rw [readElements]
  split
  · next heq => rw [hnext] at heq; cases heq
  · rw [hend]
  · next heq => rw [hnext] at heq; cases heq

/-- The elements from some index on are read up to the bracket. -/
theorem readElements_of_spelling {Spelling : α → List Char → Prop}
    (hread : ReadsBack read Spelling) {as : List α} {parts : List (List Char)}
    (h : List.Forall₂ (fun a ↦ Padded (Spelling a)) as parts) {index : Nat} {blanks : List Char}
    (hblanks : Blanks blanks) (rest : List Char) :
    readElements read shorter index (blanks ++ (joined (index == 0) parts ++ ']' :: rest)) =
      .ok (as, rest) := by
  induction h generalizing index blanks with
  | nil =>
    exact readElements_end (nextElement?_bracket hblanks rest) (endArray_bracket hblanks rest)
  | @cons a part as parts hpart _ ih =>
    obtain ⟨before, token, after, hbefore, htoken, hafter, rfl⟩ := hpart
    simp only [joined, List.append_assoc]
    rw [readElements_step (nextElement?_of_startsValue hblanks hbefore
      ((hread.startsValue htoken).append _)) (hread.read_eq blanks_nil htoken _)]
    exact congrArg (Except.map _) (ih hafter)

variable (shorter) in
theorem readsBack_readList {Spelling : α → List Char → Prop} (hread : ReadsBack read Spelling) :
    ReadsBack (readList read shorter) (ListSpelling Spelling) where
  startsValue := by
    rintro as cs ⟨parts, -, blanks, -, rfl⟩
    exact ⟨_, _, rfl, by decide⟩
  read_eq := by
    rintro as blanks cs hblanks ⟨parts, hparts, henclosed⟩ rest
    obtain ⟨inner, hinner, htext⟩ := henclosed.exists_append_eq rest
    rw [readList, htext, skipBlanks_append_cons hblanks rfl]
    dsimp only
    rw [if_pos rfl]
    exact readElements_of_spelling hread hparts hinner rest

theorem readsBack_readTexts : ReadsBack readTexts (ListSpelling TextSpelling) :=
  readsBack_readList length_readText (readsBack_readText _)

/-! ## Drafts -/

namespace Entry

/-- With these members besides those that have occurred, only defaults are missing. -/
def Completes (entry : Entry) (seen keys : List Key) : Prop :=
  ∀ key ∉ seen, key ∈ keys ∨ entry.IsDefault key

theorem Completes.step {entry : Entry} {seen keys : List Key} {key : Key}
    (h : entry.Completes seen (key :: keys)) : entry.Completes (key :: seen) keys := by
  intro other hother
  rw [List.mem_cons, not_or] at hother
  rcases h other hother.2 with hmem | hdefault
  · exact .inl ((List.mem_cons.mp hmem).resolve_left hother.1)
  · exact .inr hdefault

theorem Completes.isDefault {entry : Entry} {seen : List Key} (h : entry.Completes seen [])
    {key : Key} (hkey : key ∉ seen) : entry.IsDefault key :=
  (h key hkey).resolve_left List.not_mem_nil

/-- An entry is complete with the members that are not left out. -/
theorem completes_of_perm {entry : Entry} {keys omitted : List Key}
    (h : (keys ++ omitted).Perm Key.all) (homitted : ∀ key ∈ omitted, entry.IsDefault key) :
    entry.Completes [] keys := by
  intro key _
  rcases List.mem_append.mp (h.mem_iff.mpr key.mem_all) with hkey | hkey
  · exact .inl hkey
  · exact .inr (homitted key hkey)

/-- The draft of an entry of which these members have occurred. -/
def draft (entry : Entry) (seen : List Key) : Draft where
  base := if .base ∈ seen then some entry.base else none
  variants := if .variants ∈ seen then some entry.variants else none
  output := if .output ∈ seen then entry.output.map Path.text else none
  imports := if .imports ∈ seen then entry.imports else []
  derives := if .derives ∈ seen then entry.derives else []
  header := if .header ∈ seen then entry.header else none

theorem draft_nil (entry : Entry) : entry.draft [] = {} := by simp [draft]

/-- No value of a member can be taken for blanks or for the end of an array. -/
theorem ValueSpelling.startsValue {entry : Entry} {key : Key} {cs : List Char}
    (h : entry.ValueSpelling key cs) : StartsValue cs := by
  cases key with
  | base => exact (readsBack_readText "a string").startsValue h
  | variants | imports | derives => exact readsBack_readTexts.startsValue h
  | output | header => exact (readsBack_readOptional "a string").startsValue h

/-- A draft to which the entry's value of a member is added. -/
def addTo (entry : Entry) (draft : Draft) : Key → Draft
  | .base => { draft with base := some entry.base }
  | .variants => { draft with variants := some entry.variants }
  | .output => { draft with output := entry.output.map Path.text }
  | .imports => { draft with imports := entry.imports }
  | .derives => { draft with derives := entry.derives }
  | .header => { draft with header := entry.header }

/-- Reading a value adds it to the draft, whatever has been read before. -/
theorem readMember_of_spelling {entry : Entry} {key : Key} {blanks cs : List Char} (draft : Draft)
    (hblanks : Blanks blanks) (h : entry.ValueSpelling key cs) (rest : List Char) :
    draft.readMember key (blanks ++ (cs ++ rest)) = .ok (entry.addTo draft key, rest) := by
  cases key with
  | base =>
    simp only [Draft.readMember, (readsBack_readText _).read_eq hblanks h, addTo]
  | variants | imports | derives =>
    simp only [Draft.readMember, readsBack_readTexts.read_eq hblanks h, addTo]
  | output | header =>
    simp only [Draft.readMember, (readsBack_readOptional _).read_eq hblanks h, addTo]

theorem addTo_draft (entry : Entry) (seen : List Key) (key : Key) :
    entry.addTo (entry.draft seen) key = entry.draft (key :: seen) := by
  cases key <;> simp [addTo, draft]

/-- Reading a member adds it to those that have occurred. -/
theorem readMember_draft {entry : Entry} {key : Key} {blanks cs : List Char} (seen : List Key)
    (hblanks : Blanks blanks) (h : entry.ValueSpelling key cs) (rest : List Char) :
    (entry.draft seen).readMember key (blanks ++ (cs ++ rest)) =
      .ok (entry.draft (key :: seen), rest) := by
  rw [readMember_of_spelling (entry.draft seen) hblanks h, addTo_draft]

/-- The draft is the entry as soon as all members but some defaults have occurred. -/
theorem finish_draft {entry : Entry} {seen : List Key}
    (h : entry.Completes seen []) : (entry.draft seen).finish = .ok entry := by
  have hbase : Key.base ∈ seen := by_contra h.isDefault
  have hvariants : Key.variants ∈ seen := by_contra h.isDefault
  have hvalue {α : Type} {value default : α} (key : Key)
      (hdefault : entry.IsDefault key → value = default) :
      (if key ∈ seen then value else default) = value := by
    split
    · rfl
    · next hseen => exact (hdefault (h.isDefault hseen)).symm
  have houtput : (entry.draft seen).output = entry.output.map Path.text :=
    hvalue .output fun hnone ↦ congrArg (Option.map Path.text) hnone
  have himports : (entry.draft seen).imports = entry.imports := hvalue .imports id
  have hderives : (entry.draft seen).derives = entry.derives := hvalue .derives id
  have hheader : (entry.draft seen).header = entry.header := hvalue .header id
  have hpath : (entry.output.map Path.text).map Path.mk = entry.output := by
    cases entry.output <;> rfl
  rw [Draft.finish, show (entry.draft seen).base = some entry.base from if_pos hbase,
    show (entry.draft seen).variants = some entry.variants from if_pos hvariants]
  dsimp only
  rw [houtput, himports, hderives, hheader, hpath]

end Entry

/-! ## Entries -/

/-- A member that an entry has to have is no default. -/
theorem Entry.IsDefault.not_isRequired {entry : Entry} {key : Key} (h : entry.IsDefault key) :
    key.isRequired = false := by
  cases key with
  | base | variants => exact h.elim
  | output | imports | derives | header => rfl

variable {entry : Entry}

/-- Where an array ends, the members still to come are defaults. -/
theorem readPositional_end {index : Nat} {seen omitted : List Key} {blanks : List Char}
    (hblanks : Blanks blanks) (homitted : ∀ key ∈ omitted, entry.IsDefault key)
    (hseen : entry.Completes seen []) (rest : List Char) :
    readPositional index (entry.draft seen) omitted (blanks ++ ']' :: rest) =
      .ok (entry, rest) := by
  induction omitted with
  | nil =>
    rw [readPositional, endArray_bracket hblanks]
    dsimp only
    rw [Entry.finish_draft hseen]
  | cons key omitted ih =>
    obtain ⟨hkey, homitted⟩ := List.forall_mem_cons.mp homitted
    rw [readPositional, nextElement?_bracket hblanks]
    dsimp only
    rw [hkey.not_isRequired]
    exact ih homitted

/-- The members of an array are read in their order, from any of them on. -/
theorem readPositional_of_spelling {keys omitted seen : List Key} {parts : List (List Char)}
    (h : List.Forall₂ (fun key ↦ Padded (entry.ValueSpelling key)) keys parts) {index : Nat}
    {blanks : List Char} (hblanks : Blanks blanks)
    (homitted : ∀ key ∈ omitted, entry.IsDefault key) (hseen : entry.Completes seen keys)
    (rest : List Char) :
    readPositional index (entry.draft seen) (keys ++ omitted)
      (blanks ++ (joined (index == 0) parts ++ ']' :: rest)) = .ok (entry, rest) := by
  induction h generalizing index blanks seen with
  | nil => exact readPositional_end hblanks homitted hseen rest
  | @cons key part keys parts hpart _ ih =>
    obtain ⟨before, token, after, hbefore, htoken, hafter, rfl⟩ := hpart
    have hread (behind : List Char) : (entry.draft seen).readMember key (token ++ behind) =
        .ok (entry.draft (key :: seen), behind) :=
      Entry.readMember_draft seen blanks_nil htoken behind
    simp only [joined, List.append_assoc, List.cons_append]
    rw [readPositional, nextElement?_of_startsValue hblanks hbefore (htoken.startsValue.append _)]
    dsimp only
    rw [hread]
    exact ih hafter hseen.step

/-- The next member of an object is looked up by its name. -/
theorem readMembers_of_member {name : String} {Spelling : List Char → Prop}
    {blanks part : List Char} (h : MemberSpelling name Spelling part) (hblanks : Blanks blanks)
    (pending : List Key) (draft : Draft) (rest : List Char) :
    ∃ behind before token after, Blanks before ∧ Spelling token ∧ Blanks after ∧
      readMembers pending draft
          (blanks ++ (separator (pending.length == Key.all.length) ++ (part ++ rest))) =
        match Key.ofName? name with
        | none => .error ((Fault.before (.unknownField name (Key.all.map Key.name))
            (behindKey behind)).inside (.member name))
        | some key =>
          if key ∈ pending then
            match draft.readMember key (before ++ (token ++ (after ++ rest))) with
            | .error fault => .error (fault.inside (.member key.name))
            | .ok (draft, rest) => readMembers (pending.erase key) draft rest
          else .error (.before (.duplicateField key.name) (behindKey behind)) := by
  obtain ⟨start, behind, before, token, after, hnext, hname, hcolon, hbefore, htoken, hafter⟩ :=
    h.exists_value hblanks rest
  refine ⟨behind, before, token, after, hbefore, htoken, hafter, ?_⟩
  rw [readMembers, hnext]
  dsimp only
  rw [hname]
  dsimp only
  rw [String.ofList_toList]
  cases Key.ofName? name with
  | none => rfl
  | some key =>
    dsimp only
    by_cases hkey : key ∈ pending
    · refine (dif_pos hkey).trans ?_
      rw [hcolon]
      exact (if_pos hkey).symm
    · rw [dif_neg hkey, if_neg hkey]

/-- With one key fewer pending, the next member is not the first, so a comma precedes it. -/
theorem length_erase_beq {pending : List Key} {key : Key} (hkey : key ∈ pending)
    (hlength : pending.length ≤ Key.all.length) :
    ((pending.erase key).length == Key.all.length) = false := by
  have := List.length_erase_of_mem hkey
  have := List.length_pos_of_mem hkey
  exact beq_false_of_ne (by omega)

/-- The members of an object are read in any order, from any of them on. -/
theorem readMembers_of_spelling {keys omitted pending seen : List Key}
    {parts : List (List Char)}
    (h : List.Forall₂ (fun key ↦ MemberSpelling key.name (entry.ValueSpelling key)) keys parts)
    {blanks : List Char} (hblanks : Blanks blanks) (hpending : (keys ++ omitted).Perm pending)
    (hlength : pending.length ≤ Key.all.length) (hseen : entry.Completes seen keys)
    (rest : List Char) :
    readMembers pending (entry.draft seen)
      (blanks ++ (joined (pending.length == Key.all.length) parts ++ '\x7d' :: rest)) =
        .ok (entry, rest) := by
  induction h generalizing pending blanks seen with
  | nil =>
    rw [readMembers, show joined _ [] = [] from rfl, List.nil_append, nextKey?_brace hblanks]
    dsimp only
    rw [Entry.finish_draft hseen, behindKey_brace hblanks]
  | @cons key part keys parts hpart _ ih =>
    obtain ⟨hkey, herase⟩ := List.cons_perm_iff_perm_erase.mp hpending
    obtain ⟨_, before, token, after, hbefore, htoken, hafter, hread⟩ :=
      readMembers_of_member hpart hblanks pending (entry.draft seen)
        (joined false parts ++ '\x7d' :: rest)
    rw [joined, List.append_assoc, List.append_assoc, hread, Key.ofName?_name]
    dsimp only
    rw [if_pos hkey, Entry.readMember_draft seen hbefore htoken, ← length_erase_beq hkey hlength]
    exact ih hafter herase (Nat.le_trans List.length_erase_le hlength) hseen.step

/-- An entry is read back, be it an object or an array. -/
theorem readsBack_readEntry : ReadsBack readEntry Entry.Spelling where
  startsValue := RecordSpelling.startsValue
  read_eq := by
    intro entry blanks cs hblanks h rest
    cases h with
    | object hperm homitted hparts henclosed =>
      obtain ⟨inner, hinner, htext⟩ := henclosed.exists_append_eq rest
      rw [readEntry, htext, skipBlanks_append_cons hblanks rfl]
      dsimp only
      rw [if_neg (by decide), if_pos rfl, ← entry.draft_nil]
      exact readMembers_of_spelling hparts hinner hperm Nat.le.refl
        (Entry.completes_of_perm hperm homitted) rest
    | array horder homitted hparts henclosed =>
      obtain ⟨inner, hinner, htext⟩ := henclosed.exists_append_eq rest
      rw [readEntry, htext, skipBlanks_append_cons hblanks rfl]
      dsimp only
      rw [if_pos rfl, ← entry.draft_nil, ← horder]
      exact readPositional_of_spelling hparts hinner homitted
        (Entry.completes_of_perm (.of_eq horder) homitted) rest

theorem readsBack_readEntries : ReadsBack readEntries (ListSpelling Entry.Spelling) :=
  readsBack_readList length_readEntry readsBack_readEntry

/-! ## Manifests -/

theorem readSingle_of_spelling {entries : List Entry} {part blanks : List Char}
    (h : Padded (ListSpelling Entry.Spelling entries) part) (hblanks : Blanks blanks)
    (rest : List Char) :
    readSingle (blanks ++ (joined true [part] ++ ']' :: rest)) = .ok (⟨entries⟩, rest) := by
  obtain ⟨before, token, after, hbefore, htoken, hafter, rfl⟩ := h
  have hread (behind : List Char) : readEntries (token ++ behind) = .ok (entries, behind) :=
    readsBack_readEntries.read_eq blanks_nil htoken behind
  have hnext (behind : List Char) :
      nextElement? 0 (blanks ++ (before ++ (token ++ behind))) = .ok (some (token ++ behind)) :=
    nextElement?_of_startsValue hblanks hbefore
      ((readsBack_readEntries.startsValue htoken).append behind)
  simp only [joined, separator, if_true, List.nil_append, List.append_nil, List.append_assoc]
  rw [readSingle, hnext]
  dsimp only
  rw [hread]
  dsimp only
  rw [endArray_bracket hafter]

theorem readObject_of_spelling {entries : List Entry} {part blanks : List Char}
    (h : MemberSpelling schemasName (ListSpelling Entry.Spelling entries) part)
    (hblanks : Blanks blanks) (rest : List Char) :
    readObject (blanks ++ (joined true [part] ++ '\x7d' :: rest)) = .ok (⟨entries⟩, rest) := by
  obtain ⟨start, behind, before, token, after, hnext, hname, hcolon, hbefore, htoken, hafter⟩ :=
    h.exists_value hblanks ('\x7d' :: rest)
  simp only [joined, List.append_nil, List.append_assoc]
  rw [readObject, hnext]
  dsimp only
  rw [hname]
  dsimp only
  rw [String.ofList_toList, if_pos rfl, hcolon]
  dsimp only
  rw [readsBack_readEntries.read_eq hbefore htoken]
  dsimp only
  rw [readBehindEntries, nextKey?_brace hafter]
  dsimp only
  rw [behindKey_brace hafter]

/-- A list of one member, none of which may be left out. -/
theorem eq_singleton_of_perm {keys omitted : List Unit} (h : (keys ++ omitted).Perm [()])
    (homitted : ∀ key ∈ omitted, False) : keys = [()] := by
  obtain rfl := List.eq_nil_iff_forall_not_mem.mpr homitted
  rwa [List.append_nil, List.perm_singleton] at h

theorem readsBack_readManifest : ReadsBack readManifest Spelling where
  startsValue := RecordSpelling.startsValue
  read_eq := by
    intro manifest blanks cs hblanks h rest
    cases h with
    | object hperm homitted hparts henclosed =>
      obtain rfl := eq_singleton_of_perm hperm homitted
      obtain ⟨part, _, hpart, hnil, rfl⟩ := List.forall₂_cons_left_iff.mp hparts
      obtain rfl := List.forall₂_nil_left_iff.mp hnil
      obtain ⟨inner, hinner, htext⟩ := henclosed.exists_append_eq rest
      rw [readManifest, htext, skipBlanks_append_cons hblanks rfl]
      dsimp only
      rw [if_neg (by decide), if_pos rfl]
      exact readObject_of_spelling hpart hinner rest
    | array horder homitted hparts henclosed =>
      obtain rfl := eq_singleton_of_perm (.of_eq horder) homitted
      obtain ⟨part, _, hpart, hnil, rfl⟩ := List.forall₂_cons_left_iff.mp hparts
      obtain rfl := List.forall₂_nil_left_iff.mp hnil
      obtain ⟨inner, hinner, htext⟩ := henclosed.exists_append_eq rest
      rw [readManifest, htext, skipBlanks_append_cons hblanks rfl]
      dsimp only
      rw [if_pos rfl]
      exact readSingle_of_spelling hpart hinner rest

/-- **Every spelling of a manifest is read as that manifest**, whatever its texts contain. -/
theorem ofJson_of_spelling {manifest : Manifest} {text : String}
    (h : Padded manifest.Spelling text.toList) : ofJson text = .ok manifest := by
  obtain ⟨before, token, after, hbefore, htoken, -, htext⟩ := h
  rw [ofJson, htext, readsBack_readManifest.read_eq hbefore htoken]

/-- A manifest with two entries. -/
def twoEntries : Manifest :=
  ⟨[{ base := "𝔼", variants := ["A: a T"] }, { base := "E", variants := [] }]⟩

/-- A spelling of it in which the first entry is an object without its defaults, with its members
out of order and its name as a surrogate pair, and the second one is an array with a `null`. -/
def twoEntriesText : String :=
  "\x7b\"schemas\" : [\x7b\"variants\":[\"A: a T\"],\"base\":\"\\uD835\\udd3C\"\x7d, " ++
    "[\"E\",[ ],null]]\x7d\n"

theorem ofJson_of_spelling_twoEntries :
    Padded twoEntries.Spelling twoEntriesText.toList ∧ ofJson twoEntriesText = .ok twoEntries := by
  have hblank : Blanks [' '] := by simp [Blanks]
  have hplain {s : String}
      (h : s.toList.all (fun c ↦ c ≠ '"' ∧ c ≠ '\\' ∧ 0x20 ≤ c.toNat) = true) :
      Padded (TextSpelling s) ('"' :: (s.toList ++ ['"'])) :=
    .of_spelling (textSpelling_of_plain h)
  have hunits : List.Forall₂ UnitSpelling (units '𝔼')
      [['\\', 'u', 'D', '8', '3', '5'], ['\\', 'u', 'd', 'd', '3', 'C']] := by
    refine .cons ?_ (.cons ?_ .nil)
    · exact .intro (by decide) (by decide) (by decide) (by decide)
    · exact .intro (by decide) (by decide) (by decide) (by decide)
  have hname : List.Forall₂ CharSpelling "𝔼".toList
      [['\\', 'u', 'D', '8', '3', '5', '\\', 'u', 'd', 'd', '3', 'C']] := by
    rw [show "𝔼".toList = ['𝔼'] by decide]
    exact .cons (.escaped hunits) .nil
  have hvariants : ListSpelling TextSpelling ["A: a T"] _ :=
    ⟨_, .cons (hplain (by decide)) .nil, [], blanks_nil, rfl⟩
  have hkeys : ([.variants, .base] ++ [.output, .imports, .derives, .header] : List Key).Perm
      Key.all := by decide
  have hfirst : Entry.Spelling { base := "𝔼", variants := ["A: a T"] } _ :=
    .object hkeys (by simp [Entry.IsDefault])
      (.cons ⟨_, _, hplain (by decide), .of_spelling hvariants, rfl⟩
        (.cons ⟨_, _, hplain (by decide), .of_spelling ⟨_, hname, rfl⟩, rfl⟩ .nil))
      ⟨[], blanks_nil, rfl⟩
  have hkeys' : [.base, .variants, .output] ++ [.imports, .derives, .header] = Key.all := rfl
  have hsecond : Entry.Spelling { base := "E", variants := [] } _ :=
    .array hkeys' (by simp [Entry.IsDefault])
      (.cons (hplain (by decide)) (.cons (.of_spelling ⟨[], .nil, [' '], hblank, rfl⟩)
        (.cons (.of_spelling rfl) .nil)))
      ⟨[], blanks_nil, rfl⟩
  have hentries : ListSpelling Entry.Spelling twoEntries.schemas _ :=
    ⟨_, .cons (.of_spelling hfirst) (.cons ⟨[' '], _, [], hblank, hsecond, blanks_nil, rfl⟩ .nil),
      [], blanks_nil, rfl⟩
  have hkey : Padded (TextSpelling schemasName) _ :=
    ⟨[], _, [' '], blanks_nil, textSpelling_of_plain (by decide), hblank, rfl⟩
  have hmember : MemberSpelling schemasName (ListSpelling Entry.Spelling twoEntries.schemas) _ :=
    ⟨_, _, hkey, ⟨[' '], _, [], hblank, hentries, blanks_nil, rfl⟩, rfl⟩
  have hmanifest : Padded twoEntries.Spelling twoEntriesText.toList :=
    ⟨[], _, ['\n'], blanks_nil,
      .object (.refl ([()] ++ [])) (by simp) (.cons hmember .nil) ⟨[], blanks_nil, rfl⟩,
      by simp [Blanks], by decide +kernel⟩
  exact ⟨hmanifest, ofJson_of_spelling hmanifest⟩

end AstSchema.Manifest
