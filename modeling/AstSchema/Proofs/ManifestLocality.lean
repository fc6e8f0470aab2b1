import Mathlib.Data.List.DropRight
import AstSchema.Proofs.JsonLocality
import AstSchema.Proofs.ManifestSpelling
import AstSchema.Proofs.Query

/-!
# The first value decides

Reading a manifest stops right behind it and has not looked any farther by then. So a text that is
accepted is accepted with anything behind it, be it more JSON or none at all, and as the same
manifest. What decides is a front of the text, its first value, and nothing shorter is accepted.

Every reader of a manifest's parts is local, from its strings to its entries. An array that ends
early is the one case that takes care: the members still to come are looked for one after the other
in front of the same bracket, and none of them takes it.
-/

namespace AstSchema.Manifest

open AstSchema.Json

/-! ## Leaves -/

theorem exists_chars_of_readText {wanted s : String} {cs rest : List Char}
    (h : readText wanted cs = .ok (s, rest)) :
    ∃ tail chars, skipBlanks cs = '"' :: tail ∧ readChars tail = .ok (chars, rest) ∧
      s = String.ofList chars := by
  unfold readText at h
  split at h
  · cases h
  next c tail hskip =>
  split at h
  · next hquote =>
    split at h
    · cases h
    next chars rest' hchars =>
    cases h
    exact ⟨tail, chars, by rw [hskip, hquote], hchars, rfl⟩
  · cases h

theorem readText_of_skipBlanks {wanted : String} {cs tail chars rest : List Char}
    (hskip : skipBlanks cs = '"' :: tail) (hchars : readChars tail = .ok (chars, rest)) :
    readText wanted cs = .ok (String.ofList chars, rest) := by
  rw [readText, hskip]
  dsimp only
  rw [if_pos rfl, hchars]

theorem isLocal_readText (wanted : String) : IsLocal (readText wanted) := by
  intro cs s rest h
  obtain ⟨tail, chars, hskip, hchars, rfl⟩ := exists_chars_of_readText h
  exact (isLocal_readChars hchars).of_skipBlanks hskip readText_of_skipBlanks

theorem isLocal_readOptional (wanted : String) : IsLocal (readOptional wanted) := by
  intro cs s rest h
  unfold readOptional at h
  split at h
  · next tail hskip =>
    refine (isLocal_readLiteral none ['u', 'l', 'l'] h).of_skipBlanks hskip fun hskip hread ↦ ?_
    rw [readOptional, hskip]
    exact hread
  split at h
  · cases h
  next text rest' htext =>
  cases h
  obtain ⟨tail, chars, hskip, hchars, rfl⟩ := exists_chars_of_readText htext
  rw [skipBlanks, skipBlanks, List.dropWhile_idempotent, ← skipBlanks] at hskip
  refine (isLocal_readChars hchars).of_skipBlanks hskip fun {cs tail _} hskip hread ↦ ?_
  have htext : readText wanted ('"' :: tail) = _ :=
    readText_of_skipBlanks (skipBlanks_append_cons blanks_nil rfl tail) hread
  rw [readOptional, hskip]
  split
  · next heq => exact absurd (List.cons.inj heq).1 (by decide)
  · rw [htext]

/-! ## Lists -/

section

variable {α : Type} {read : List Char → Result α}
  {shorter : ∀ {cs a rest}, read cs = .ok (a, rest) → rest.length < cs.length}

theorem isLocal_readElements (hlocal : IsLocal read) (index : Nat) :
    IsLocal (readElements read shorter index) := by
  intro cs as rest h
  fun_induction readElements read shorter index cs generalizing as rest with
  | case1 => cases h
  | case2 => cases h
  | case3 index cs hnext rest' hend =>
    cases h
    obtain ⟨blanks, tail, hblanks, rfl⟩ := exists_bracket_of_nextElement? hnext
    rw [endArray_bracket hblanks] at hend
    cases hend
    refine ⟨blanks ++ [']'], List.append_cons .., fun behind ↦ ?_⟩
    rw [← List.append_cons]
    exact readElements_end (nextElement?_bracket hblanks behind) (endArray_bracket hblanks behind)
  | case4 => cases h
  | case5 => cases h
  | case6 index cs start hnext a rest' hread as' rest'' hrest ih =>
    cases h
    obtain ⟨front, rfl, hfront⟩ := exists_front_element hlocal hnext hread (shorter hread)
    refine (ih hrest).of_step front fun {cs _} hrest ↦ ?_
    obtain ⟨start, hnext, hread⟩ := hfront cs
    rw [readElements_step hnext hread, hrest]
    rfl

theorem isLocal_readList (hlocal : IsLocal read) : IsLocal (readList read shorter) := by
  intro cs as rest h
  unfold readList at h
  split at h
  · cases h
  next c tail hskip =>
  split at h
  · next hbracket =>
    refine (isLocal_readElements hlocal 0 h).of_skipBlanks hskip fun hskip hread ↦ ?_
    rw [readList, hskip]
    exact (if_pos hbracket).trans hread
  · cases h

end

theorem isLocal_readTexts : IsLocal readTexts := isLocal_readList (isLocal_readText _)

/-! ## Entries -/

theorem isLocal_readMember (draft : Draft) (key : Key) : IsLocal (draft.readMember key) := by
  intro cs draft' rest h
  unfold Draft.readMember at h
  cases key with
  | base =>
    dsimp only at h
    split at h
    · cases h
    next hread =>
    cases h
    exact (isLocal_readText _ hread).map fun hread ↦ by simp only [Draft.readMember, hread]
  | variants | imports | derives =>
    dsimp only at h
    split at h
    · cases h
    next hread =>
    cases h
    exact (isLocal_readTexts hread).map fun hread ↦ by simp only [Draft.readMember, hread]
  | output | header =>
    dsimp only at h
    split at h
    · cases h
    next hread =>
    cases h
    exact (isLocal_readOptional _ hread).map fun hread ↦ by simp only [Draft.readMember, hread]

/-- In front of a bracket no member is read, however many are still to come. -/
theorem readPositional_bracket {index : Nat} {draft : Draft} {keys : List Key}
    {blanks tail rest : List Char} {entry : Entry} (hblanks : Blanks blanks)
    (h : readPositional index draft keys (blanks ++ ']' :: tail) = .ok (entry, rest)) :
    rest = tail ∧ ∀ behind,
      readPositional index draft keys (blanks ++ ']' :: behind) = .ok (entry, behind) := by
  induction keys with
  | nil =>
    rw [readPositional, endArray_bracket hblanks] at h
    dsimp only at h
    split at h
    · cases h
    next hfinish =>
    cases h
    refine ⟨rfl, fun behind ↦ ?_⟩
    rw [readPositional, endArray_bracket hblanks]
    dsimp only
    rw [hfinish]
  | cons key keys ih =>
    have hstep (behind : List Char) (hkey : key.isRequired = false) :
        readPositional index draft (key :: keys) (blanks ++ ']' :: behind) =
          readPositional index draft keys (blanks ++ ']' :: behind) := by
      rw [readPositional, nextElement?_bracket hblanks]
      dsimp only
      rw [hkey]
      rfl
    cases hkey : key.isRequired with
    | true =>
      rw [readPositional, nextElement?_bracket hblanks] at h
      dsimp only at h
      rw [if_pos hkey, endArray_bracket hblanks] at h
      cases h
    | false =>
      rw [hstep tail hkey] at h
      obtain ⟨hrest, hbehind⟩ := ih h
      exact ⟨hrest, fun behind ↦ (hstep behind hkey).trans (hbehind behind)⟩

theorem takesFront_readPositional_of_none {index : Nat} {draft : Draft} {keys : List Key}
    {cs rest : List Char} {entry : Entry} (hnext : nextElement? index cs = .ok none)
    (h : readPositional index draft keys cs = .ok (entry, rest)) :
    TakesFront (readPositional index draft keys) cs (Prod.mk entry) rest := by
  obtain ⟨blanks, tail, hblanks, rfl⟩ := exists_bracket_of_nextElement? hnext
  obtain ⟨rfl, hbehind⟩ := readPositional_bracket hblanks h
  refine ⟨blanks ++ [']'], List.append_cons .., fun behind ↦ ?_⟩
  rw [← List.append_cons]
  exact hbehind behind

theorem isLocal_readPositional (index : Nat) (draft : Draft) (keys : List Key) :
    IsLocal (readPositional index draft keys) := by
  intro cs entry rest h
  induction keys generalizing index draft cs with
  | nil =>
    rw [readPositional] at h
    split at h
    · cases h
    next rest' hend =>
    split at h
    · cases h
    next hfinish =>
    cases h
    refine (takesFront_endArray hend).map fun hend ↦ ?_
    rw [readPositional, hend]
    dsimp only
    rw [hfinish]
    rfl
  | cons key keys ih =>
    have hread := h
    rw [readPositional] at hread
    split at hread
    · cases hread
    · next hnext => exact takesFront_readPositional_of_none hnext h
    next start hnext =>
    split at hread
    · cases hread
    next draft' rest' hmember =>
    obtain ⟨front, rfl, hfront⟩ := exists_front_element (isLocal_readMember draft key) hnext
      hmember (Draft.length_readMember hmember)
    refine (ih (index + 1) draft' hread).of_step front fun {cs _} hread ↦ ?_
    obtain ⟨start, hnext, hmember⟩ := hfront cs
    rw [readPositional, hnext]
    dsimp only
    rw [hmember]
    exact hread

theorem isLocal_readMembers (pending : List Key) (draft : Draft) :
    IsLocal (readMembers pending draft) := by
  intro cs entry rest h
  fun_induction readMembers pending draft cs with
  | case1 => cases h
  | case2 => cases h
  | case3 pending draft cs hnext entry' hfinish =>
    cases h
    obtain ⟨blanks, tail, hblanks, rfl⟩ := exists_brace_of_nextKey? hnext
    rw [behindKey_brace hblanks]
    refine ⟨blanks ++ ['\x7d'], List.append_cons .., fun behind ↦ ?_⟩
    rw [← List.append_cons, readMembers, nextKey?_brace hblanks]
    dsimp only
    rw [hfinish, behindKey_brace hblanks]
  | case4 => cases h
  | case5 => cases h
  | case6 => cases h
  | case7 => cases h
  | case8 pending draft cs start hnext name rest' hname key hkey hmem rest'' hcolon draft' rest'''
      hmember ih =>
    obtain ⟨front, rfl, hfront⟩ := exists_front_key hnext hname hcolon
    obtain ⟨value, rfl, hvalue⟩ := isLocal_readMember draft key hmember
    rw [← List.append_assoc]
    refine (ih h).of_step (front ++ value) fun {cs _} hread ↦ ?_
    obtain ⟨start, colon, hnext, hname, hcolon⟩ := hfront (value ++ cs)
    rw [List.append_assoc, readMembers, hnext]
    dsimp only
    rw [hname]
    dsimp only
    rw [hkey]
    dsimp only
    rw [dif_pos hmem, hcolon]
    dsimp only
    rw [hvalue]
    exact hread
  | case9 => cases h

theorem isLocal_readEntry : IsLocal readEntry := by
  intro cs entry rest h
  unfold readEntry at h
  split at h
  · cases h
  next c tail hskip =>
  split at h
  · next hbracket =>
    refine (isLocal_readPositional 0 {} Key.all h).of_skipBlanks hskip fun hskip hread ↦ ?_
    rw [readEntry, hskip]
    exact (if_pos hbracket).trans hread
  next hbracket =>
  split at h
  · next hbrace =>
    refine (isLocal_readMembers Key.all {} h).of_skipBlanks hskip fun hskip hread ↦ ?_
    rw [readEntry, hskip]
    dsimp only
    rw [if_neg hbracket, if_pos hbrace]
    exact hread
  · cases h

theorem isLocal_readEntries : IsLocal readEntries := isLocal_readList isLocal_readEntry

/-! ## Manifests -/

theorem isLocal_readSingle : IsLocal readSingle := by
  intro cs manifest rest h
  unfold readSingle at h
  split at h
  · cases h
  · split at h <;> cases h
  next start hnext =>
  split at h
  · cases h
  next entries rest' hentries =>
  split at h
  · cases h
  next rest'' hend =>
  cases h
  obtain ⟨front, rfl, hfront⟩ := exists_front_element isLocal_readEntries hnext hentries
    (length_readList hentries)
  refine (takesFront_endArray hend).of_step front fun {cs _} hend ↦ ?_
  obtain ⟨start, hnext, hentries⟩ := hfront cs
  rw [readSingle, hnext]
  dsimp only
  rw [hentries]
  dsimp only
  rw [hend]
  rfl

theorem isLocal_readBehindEntries (entries : List Entry) :
    IsLocal (readBehindEntries entries) := by
  intro cs manifest rest h
  unfold readBehindEntries at h
  split at h
  · cases h
  · next hnext =>
    cases h
    obtain ⟨blanks, tail, hblanks, rfl⟩ := exists_brace_of_nextKey? hnext
    rw [behindKey_brace hblanks]
    refine ⟨blanks ++ ['\x7d'], List.append_cons .., fun behind ↦ ?_⟩
    rw [← List.append_cons, readBehindEntries, nextKey?_brace hblanks]
    dsimp only
    rw [behindKey_brace hblanks]
  · split at h <;> cases h

theorem isLocal_readObject : IsLocal readObject := by
  intro cs manifest rest h
  unfold readObject at h
  split at h
  · cases h
  · cases h
  next start hnext =>
  split at h
  · cases h
  next name colon hname =>
  split at h
  · next hschemas =>
    split at h
    · cases h
    next value hcolon =>
    split at h
    · cases h
    next entries rest' hentries =>
    obtain ⟨front, rfl, hfront⟩ := exists_front_key hnext hname hcolon
    obtain ⟨list, rfl, hlist⟩ := isLocal_readEntries hentries
    rw [← List.append_assoc]
    refine (isLocal_readBehindEntries entries h).of_step (front ++ list) fun {cs _} hread ↦ ?_
    obtain ⟨start, colon, hnext, hname, hcolon⟩ := hfront (list ++ cs)
    rw [List.append_assoc, readObject, hnext]
    dsimp only
    rw [hname]
    dsimp only
    rw [if_pos hschemas, hcolon]
    dsimp only
    rw [hlist]
    exact hread
  · cases h

theorem isLocal_readManifest : IsLocal readManifest := by
  intro cs manifest rest h
  unfold readManifest at h
  split at h
  · cases h
  next c tail hskip =>
  split at h
  · next hbracket =>
    refine (isLocal_readSingle h).of_skipBlanks hskip fun hskip hread ↦ ?_
    rw [readManifest, hskip]
    exact (if_pos hbracket).trans hread
  next hbracket =>
  split at h
  · next hbrace =>
    refine (isLocal_readObject h).of_skipBlanks hskip fun hskip hread ↦ ?_
    rw [readManifest, hskip]
    dsimp only
    rw [if_neg hbracket, if_pos hbrace]
    exact hread
  · cases h

theorem ofJson_eq_ok_iff {text : String} {manifest : Manifest} :
    ofJson text = .ok manifest ↔ ∃ rest, readManifest text.toList = .ok (manifest, rest) := by
  unfold ofJson
  cases readManifest text.toList with
  | error fault => simp
  | ok result => simp [Prod.ext_iff]

/-- **The first value decides.** What is accepted is accepted as the same manifest with anything
behind it. All that it takes for this is a front of the text, and less is not accepted. -/
theorem ofJson_eq_of_front {text : String} {manifest : Manifest}
    (h : ofJson text = .ok manifest) :
    (∀ behind, ofJson (text ++ behind) = .ok manifest) ∧
      ∃ value rest, text = value ++ rest ∧ (∀ behind, ofJson (value ++ behind) = .ok manifest) ∧
        ∀ front back, value = front ++ back → back ≠ "" → ∀ other, ofJson front ≠ .ok other := by
  obtain ⟨rest, hread⟩ := ofJson_eq_ok_iff.mp h
  obtain ⟨value, htext, hvalue⟩ := isLocal_readManifest hread
  have haccepted (behind : String) : ofJson (String.ofList value ++ behind) = .ok manifest :=
    ofJson_eq_ok_iff.mpr ⟨_, by rw [String.toList_append, String.toList_ofList, hvalue]⟩
  have hsplit : text = String.ofList value ++ String.ofList rest := by
    rw [← String.toList_inj, htext]
    simp
  refine ⟨fun behind ↦ ?_, String.ofList value, String.ofList rest, hsplit, haccepted, ?_⟩
  · rw [hsplit, String.append_assoc]
    exact haccepted _
  · -- A shorter text that is accepted would leave something of the value.
    intro front back hfront hback other hother
    obtain ⟨rest', hread'⟩ := ofJson_eq_ok_iff.mp hother
    obtain ⟨value', hfront', hvalue'⟩ := isLocal_readManifest hread'
    have hwhole := hvalue []
    rw [List.append_nil, show value = value' ++ (rest' ++ back.toList) by
      rw [← List.append_assoc, ← hfront', ← String.toList_append, ← hfront, String.toList_ofList],
      hvalue'] at hwhole
    have hnil := (Prod.mk.inj (Except.ok.inj hwhole)).2
    exact hback (by simpa using (List.append_eq_nil_iff.mp hnil).2)

/-- A manifest with an entry as an object, which has an escape, and one as an array that ends
early. -/
def twoForms : String :=
  "\x7b\"schemas\":[\x7b\"variants\":[\"A: a T\"],\"base\":\"\\u0045\"\x7d, [\"F\",[],null]]\x7d"

/-- A bracket too many and a string without an end do not matter behind it. -/
theorem ofJson_eq_of_front_unfinished :
    ofJson twoForms = .ok ⟨[⟨"E", ["A: a T"], none, [], [], none⟩, ⟨"F", [], none, [], [], none⟩]⟩ ∧
      ofJson (twoForms ++ "]\"x") =
        .ok ⟨[⟨"E", ["A: a T"], none, [], [], none⟩, ⟨"F", [], none, [], [], none⟩]⟩ := by
  have h : ofJson twoForms =
      .ok ⟨[⟨"E", ["A: a T"], none, [], [], none⟩, ⟨"F", [], none, [], [], none⟩]⟩ :=
    eq_ok_of_toOption (by decide +kernel)
  exact ⟨h, (ofJson_eq_of_front h).1 "]\"x"⟩

end AstSchema.Manifest
