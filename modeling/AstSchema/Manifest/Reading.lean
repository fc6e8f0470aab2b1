import AstSchema.Json.Reading
import AstSchema.Manifest

/-!
# Reading manifests

A manifest is read from JSON. It and each of its entries may be written as an object, with the
members in any order, or as an array of the members in their fixed order. In an array everything
behind the schema lines may be missing; an object may leave out the same members and has no others
besides.

Reading stops right behind the manifest, so whatever follows it is never looked at. A value is
checked where it stands, and only a missing member has to wait for the end of its object.
-/

namespace AstSchema

open AstSchema.Json

namespace Manifest

/-! ## Leaves -/

/-- Reads a string. -/
def readText (wanted : String) (cs : List Char) : Result String :=
  match skipBlanks cs with
  | [] => .error (.at .endInValue [])
  | c :: rest =>
    if c = '"' then
      match readChars rest with
      | .error fault => .error fault
      | .ok (s, rest) => .ok (String.ofList s, rest)
    else .error (unwanted wanted (c :: rest))

/-- Reads a string or `null`. -/
def readOptional (wanted : String) (cs : List Char) : Result (Option String) :=
  match skipBlanks cs with
  | 'n' :: rest => readLiteral none ['u', 'l', 'l'] rest
  | rest =>
    match readText wanted rest with
    | .error fault => .error fault
    | .ok (s, rest) => .ok (some s, rest)

theorem length_readText {wanted s : String} {cs rest : List Char}
    (h : readText wanted cs = .ok (s, rest)) : rest.length < cs.length := by
  unfold readText at h
  have hskip := length_skipBlanks_le cs
  split at h
  · exact absurd h (by simp)
  · next hcs =>
    rw [hcs] at hskip
    split at h
    · split at h
      · exact absurd h (by simp)
      · next hread =>
        have := length_readChars hread
        simp only [Except.ok.injEq, Prod.mk.injEq] at h
        simp only [List.length_cons] at hskip
        rw [← h.2]
        omega
    · exact absurd h (by simp)

theorem length_readOptional {wanted : String} {s : Option String} {cs rest : List Char}
    (h : readOptional wanted cs = .ok (s, rest)) : rest.length < cs.length := by
  unfold readOptional at h
  have hskip := length_skipBlanks_le cs
  split at h
  · next hcs =>
    have := length_readLiteral h
    rw [hcs, List.length_cons] at hskip
    omega
  · split at h
    · exact absurd h (by simp)
    · next hread =>
      have := length_readText hread
      simp only [Except.ok.injEq, Prod.mk.injEq] at h
      rw [← h.2]
      omega

/-! ## Arrays -/

/-- Reads the elements from the one with this index on, and the end of the array. -/
def readElements {α : Type} (read : List Char → Result α)
    (shorter : ∀ {cs a rest}, read cs = .ok (a, rest) → rest.length < cs.length)
    (index : Nat) (cs : List Char) : Result (List α) :=
  match _hnext : nextElement? index cs with
  | .error fault => .error fault
  | .ok none =>
    match endArray cs with
    | .error fault => .error fault
    | .ok rest => .ok ([], rest)
  | .ok (some start) =>
    match _hread : read start with
    | .error fault => .error (fault.inside (.element index))
    | .ok (a, rest) =>
      match readElements read shorter (index + 1) rest with
      | .error fault => .error fault
      | .ok (as, rest) => .ok (a :: as, rest)
termination_by cs.length
decreasing_by
  have := length_nextElement? _hnext
  have := shorter _hread
  omega

theorem length_readElements {α : Type} {read : List Char → Result α}
    {shorter : ∀ {cs a rest}, read cs = .ok (a, rest) → rest.length < cs.length} {index : Nat}
    {cs rest : List Char} {as : List α}
    (h : readElements read shorter index cs = .ok (as, rest)) : rest.length < cs.length := by
  fun_induction readElements read shorter index cs generalizing as rest with
  | case1 => simp at h
  | case2 => simp at h
  | case3 index cs hnext rest' hend =>
    simp only [Except.ok.injEq, Prod.mk.injEq] at h
    rw [← h.2]
    exact length_endArray hend
  | case4 => simp at h
  | case5 => simp at h
  | case6 index cs start hnext a rest' hread as' rest'' hrest ih =>
    simp only [Except.ok.injEq, Prod.mk.injEq] at h
    rw [← h.2]
    have := length_nextElement? hnext
    have := shorter hread
    have := ih hrest
    omega

/-- Reads an array of values of one kind. -/
def readList {α : Type} (read : List Char → Result α)
    (shorter : ∀ {cs a rest}, read cs = .ok (a, rest) → rest.length < cs.length)
    (cs : List Char) : Result (List α) :=
  match skipBlanks cs with
  | [] => .error (.at .endInValue [])
  | c :: rest =>
    if c = '[' then readElements read shorter 0 rest
    else .error (unwanted "a sequence" (c :: rest))

theorem length_readList {α : Type} {read : List Char → Result α}
    {shorter : ∀ {cs a rest}, read cs = .ok (a, rest) → rest.length < cs.length}
    {cs rest : List Char} {as : List α}
    (h : readList read shorter cs = .ok (as, rest)) : rest.length < cs.length := by
  unfold readList at h
  have hskip := length_skipBlanks_le cs
  split at h
  · exact absurd h (by simp)
  · next hcs =>
    rw [hcs, List.length_cons] at hskip
    split at h
    · have := length_readElements h
      omega
    · exact absurd h (by simp)

/-- Reads an array of strings. -/
def readTexts (cs : List Char) : Result (List String) :=
  readList (readText "a string") length_readText cs

/-! ## Entries -/

/-- The members of an entry. -/
inductive Key
  /-- The name of the category. -/
  | base
  /-- The schema lines. -/
  | variants
  /-- The output file. -/
  | output
  /-- The imports. -/
  | imports
  /-- The derived traits. -/
  | derives
  /-- The comment lines. -/
  | header
  deriving DecidableEq, Repr

namespace Key

/-- The members in their order in an array. -/
def all : List Key := [base, variants, output, imports, derives, header]

/-- The key of a member. -/
def name : Key → String
  | base => "base"
  | variants => "variants"
  | output => "output"
  | imports => "imports"
  | derives => "derives"
  | header => "header"

/-- The member with this key. -/
def ofName? (s : String) : Option Key := all.find? (·.name == s)

/-- Whether an entry has to have the member. -/
def isRequired (key : Key) : Bool := key == base || key == variants

theorem mem_all (key : Key) : key ∈ all := by cases key <;> decide

theorem ofName?_name (key : Key) : ofName? key.name = some key := by cases key <;> decide

end Key

/-- An entry of which some members are still missing. -/
structure Draft where
  /-- The name of the category. -/
  base : Option String := none
  /-- The schema lines. -/
  variants : Option (List String) := none
  /-- The output file, which may be given as none. -/
  output : Option String := none
  /-- The imports. -/
  imports : List String := []
  /-- The derived traits. -/
  derives : List String := []
  /-- The comment lines, which may be given as none. -/
  header : Option String := none
  deriving DecidableEq, Repr, Inhabited

namespace Draft

/-- Reads the value of one member into the draft. -/
def readMember (draft : Draft) (key : Key) (cs : List Char) : Result Draft :=
  match key with
  | .base =>
    match readText "a string" cs with
    | .error fault => .error fault
    | .ok (s, rest) => .ok ({ draft with base := some s }, rest)
  | .variants =>
    match readTexts cs with
    | .error fault => .error fault
    | .ok (ss, rest) => .ok ({ draft with variants := some ss }, rest)
  | .output =>
    match readOptional "path string" cs with
    | .error fault => .error fault
    | .ok (s, rest) => .ok ({ draft with output := s }, rest)
  | .imports =>
    match readTexts cs with
    | .error fault => .error fault
    | .ok (ss, rest) => .ok ({ draft with imports := ss }, rest)
  | .derives =>
    match readTexts cs with
    | .error fault => .error fault
    | .ok (ss, rest) => .ok ({ draft with derives := ss }, rest)
  | .header =>
    match readOptional "a string" cs with
    | .error fault => .error fault
    | .ok (s, rest) => .ok ({ draft with header := s }, rest)

theorem length_readMember {draft draft' : Draft} {key : Key} {cs rest : List Char}
    (h : draft.readMember key cs = .ok (draft', rest)) : rest.length < cs.length := by
  unfold readMember readTexts at h
  split at h <;> split at h <;> cases h
  all_goals
    next hread =>
      first
        | exact length_readText hread
        | exact length_readList hread
        | exact length_readOptional hread

/-- The entry, or the first member that it has to have and lacks. -/
def finish (draft : Draft) : Except Key Entry :=
  match draft.base, draft.variants with
  | none, _ => .error .base
  | some _, none => .error .variants
  | some base, some variants =>
    .ok ⟨base, variants, draft.output.map Path.mk, draft.imports, draft.derives, draft.header⟩

end Draft

/-- How an entry is called in a message about its kind. -/
def entryName : String := "struct SchemaEntry"

/-- Reads the members of an entry written as an array, from the one with this index on. Where the
array ends, the members still to come are missing. -/
def readPositional (index : Nat) (draft : Draft) : List Key → List Char → Result Entry
  | [], cs =>
    match endArray cs with
    | .error fault => .error fault
    | .ok rest =>
      match draft.finish with
      | .error key => .error (.before (.missingField key.name) rest)
      | .ok entry => .ok (entry, rest)
  | key :: keys, cs =>
    match nextElement? index cs with
    | .error fault => .error fault
    | .ok none =>
      if key.isRequired then
        match endArray cs with
        | .error fault => .error fault
        | .ok rest =>
          .error (.before (.invalidLength index (entryName ++ " with 6 elements")) rest)
      else readPositional index draft keys cs
    | .ok (some start) =>
      match draft.readMember key start with
      | .error fault => .error (fault.inside (.element index))
      | .ok (draft, rest) => readPositional (index + 1) draft keys rest

/-- Reads the members of an entry written as an object. Those in `pending` have not occurred. -/
def readMembers (pending : List Key) (draft : Draft) (cs : List Char) : Result Entry :=
  match nextKey? (pending.length == Key.all.length) cs with
  | .error fault => .error (fault.inside .unreadable)
  | .ok none =>
    match draft.finish with
    | .error key => .error (.before (.missingField key.name) (behindKey cs))
    | .ok entry => .ok (entry, behindKey cs)
  | .ok (some start) =>
    match readChars start with
    | .error fault => .error (fault.inside .unreadable)
    | .ok (name, rest) =>
      match Key.ofName? (String.ofList name) with
      | none =>
        let reason := .unknownField (String.ofList name) (Key.all.map Key.name)
        .error ((Fault.before reason (behindKey rest)).inside (.member (String.ofList name)))
      | some key =>
        if _hkey : key ∈ pending then
          match readColon rest with
          | .error fault => .error fault
          | .ok rest =>
            match draft.readMember key rest with
            | .error fault => .error (fault.inside (.member key.name))
            | .ok (draft, rest) => readMembers (pending.erase key) draft rest
        else
          .error (.before (.duplicateField key.name) (behindKey rest))
termination_by pending.length
decreasing_by
  have := List.length_erase_of_mem _hkey
  have := List.length_pos_of_mem _hkey
  omega

/-- Reads an entry. -/
def readEntry (cs : List Char) : Result Entry :=
  match skipBlanks cs with
  | [] => .error (.at .endInValue [])
  | c :: rest =>
    if c = '[' then readPositional 0 {} Key.all rest
    else if c = '{' then readMembers Key.all {} rest
    else .error (unwanted entryName (c :: rest))

theorem length_readPositional {index : Nat} {draft : Draft} {keys : List Key}
    {cs rest : List Char} {entry : Entry}
    (h : readPositional index draft keys cs = .ok (entry, rest)) : rest.length < cs.length := by
  induction keys generalizing index draft cs with
  | nil =>
    unfold readPositional at h
    split at h
    · exact absurd h (by simp)
    · next hend =>
      split at h
      · exact absurd h (by simp)
      · simp only [Except.ok.injEq, Prod.mk.injEq] at h
        rw [← h.2]
        exact length_endArray hend
  | cons key keys ih =>
    unfold readPositional at h
    split at h
    · exact absurd h (by simp)
    · split at h
      · split at h <;> exact absurd h (by simp)
      · exact ih h
    · next hnext =>
      split at h
      · exact absurd h (by simp)
      · next hread =>
        have := length_nextElement? hnext
        have := Draft.length_readMember hread
        have := ih h
        omega

theorem length_readMembers {pending : List Key} {draft : Draft} {cs rest : List Char}
    {entry : Entry} (h : readMembers pending draft cs = .ok (entry, rest)) :
    rest.length ≤ cs.length := by
  fun_induction readMembers pending draft cs with
  | case1 => simp at h
  | case2 => simp at h
  | case3 =>
    simp only [Except.ok.injEq, Prod.mk.injEq] at h
    rw [← h.2]
    exact length_behindKey_le _
  | case4 => simp at h
  | case5 => simp at h
  | case6 => simp at h
  | case7 => simp at h
  | case8 pending draft cs start hnext name rest' hname key hkey hmem rest'' hcolon draft' rest hread ih =>
    have := length_nextKey? hnext
    have := length_readChars hname
    have := length_readColon hcolon
    have := Draft.length_readMember hread
    have := ih h
    omega
  | case9 => simp at h

theorem length_readEntry {cs rest : List Char} {entry : Entry}
    (h : readEntry cs = .ok (entry, rest)) : rest.length < cs.length := by
  unfold readEntry at h
  have hskip := length_skipBlanks_le cs
  split at h
  · exact absurd h (by simp)
  · next hcs =>
    rw [hcs, List.length_cons] at hskip
    split at h
    · have := length_readPositional h
      omega
    · split at h
      · have := length_readMembers h
        omega
      · exact absurd h (by simp)

/-- Reads the entries of a manifest. -/
def readEntries (cs : List Char) : Result (List Entry) := readList readEntry length_readEntry cs

/-! ## Manifests -/

/-- How a manifest is called in a message about its kind. -/
def manifestName : String := "struct Manifest"

/-- The key of the only member of a manifest. -/
def schemasName : String := "schemas"

/-- Reads a manifest written as an array, from behind its bracket. -/
def readSingle (cs : List Char) : Result Manifest :=
  match nextElement? 0 cs with
  | .error fault => .error fault
  | .ok none =>
    match endArray cs with
    | .error fault => .error fault
    | .ok rest => .error (.before (.invalidLength 0 (manifestName ++ " with 1 element")) rest)
  | .ok (some start) =>
    match readEntries start with
    | .error fault => .error (fault.inside (.element 0))
    | .ok (entries, rest) =>
      match endArray rest with
      | .error fault => .error fault
      | .ok rest => .ok (⟨entries⟩, rest)

/-- The fault of a key that a manifest does not have, or has already. -/
def refusedKey (given : Bool) (name : String) (rest : List Char) : Fault :=
  if name = schemasName ∧ given then
    .before (.duplicateField schemasName) (behindKey rest)
  else
    (Fault.before (.unknownField name [schemasName]) (behindKey rest)).inside (.member name)

/-- Reads what follows the entries of a manifest written as an object: its end, since there is no
other member. -/
def readBehindEntries (entries : List Entry) (cs : List Char) : Result Manifest :=
  match nextKey? false cs with
  | .error fault => .error (fault.inside .unreadable)
  | .ok none => .ok (⟨entries⟩, behindKey cs)
  | .ok (some start) =>
    match readChars start with
    | .error fault => .error (fault.inside .unreadable)
    | .ok (name, rest) => .error (refusedKey true (String.ofList name) rest)

/-- Reads a manifest written as an object, from behind its brace. -/
def readObject (cs : List Char) : Result Manifest :=
  match nextKey? true cs with
  | .error fault => .error (fault.inside .unreadable)
  | .ok none => .error (.before (.missingField schemasName) (behindKey cs))
  | .ok (some start) =>
    match readChars start with
    | .error fault => .error (fault.inside .unreadable)
    | .ok (name, rest) =>
      if String.ofList name = schemasName then
        match readColon rest with
        | .error fault => .error fault
        | .ok rest =>
          match readEntries rest with
          | .error fault => .error (fault.inside (.member schemasName))
          | .ok (entries, rest) => readBehindEntries entries rest
      else
        .error (refusedKey false (String.ofList name) rest)

/-- Reads a manifest and leaves what follows it. -/
def readManifest (cs : List Char) : Result Manifest :=
  match skipBlanks cs with
  | [] => .error (.at .endInValue [])
  | c :: rest =>
    if c = '[' then readSingle rest
    else if c = '{' then readObject rest
    else .error (unwanted manifestName (c :: rest))

/-- A fault in a manifest, with its place in the text. -/
structure Error where
  /-- The path of the value at fault. -/
  path : List Segment
  /-- Why the text is no manifest. -/
  reason : Reason
  /-- Where the fault is. -/
  position : Position

namespace Error

/-- The reason with its place. -/
def reasonText (error : Error) : String :=
  error.reason.message ++ " at line " ++ toString error.position.line ++ " column " ++
    toString error.position.column

/-- The reason with its path and its place. -/
def located (error : Error) : String :=
  "at JSON path " ++ pathText error.path ++ " → " ++ error.reasonText

/-- The message about the manifest at `origin`. -/
def message (error : Error) (origin : Path) : String :=
  "invalid manifest " ++ origin.text ++ ": " ++ error.located

end Error

/-- Reads a manifest from the start of a text. -/
def ofJson (text : String) : Except Error Manifest :=
  match readManifest text.toList with
  | .error fault => .error ⟨fault.path, fault.reason, fault.position text.toList⟩
  | .ok (manifest, _) => .ok manifest

end Manifest

end AstSchema
