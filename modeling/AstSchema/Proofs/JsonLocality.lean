import AstSchema.Proofs.JsonSpelling

/-!
# Readers look no farther than they get

A reader takes a front of the text and hands on the rest. `TakesFront` says more than that the rest
is a suffix: the front is all that the reader looks at, so with anything else behind it the same
front is taken and the result is the same. This is what makes a text mean what it means wherever it
is put, and it is proved of each piece of reading on its own.

A piece can look at more than it takes. The search for the next element stops in front of it, and
has seen by then that no bracket stands there. What it has seen is the first character of what the
reader of the element takes, so only the two together are local (`exists_front_element`).
-/

namespace AstSchema.Json

/-! ## Fronts -/

section

variable {α β γ : Type}

/-- A front of the text is taken, up to `rest`. Whatever stands behind the front, it is all that is
taken, and the result is the same function of what is left. -/
def TakesFront (read : List Char → Except Fault β) (cs : List Char) (result : List Char → β)
    (rest : List Char) : Prop :=
  ∃ front, cs = front ++ rest ∧ ∀ behind, read (front ++ behind) = .ok (result behind)

/-- Whenever the reader succeeds, it has looked at no more than it has taken. -/
def IsLocal (read : List Char → Result α) : Prop :=
  ∀ {cs a rest}, read cs = .ok (a, rest) → TakesFront read cs (Prod.mk a) rest

variable {read : List Char → Except Fault β} {next : List Char → Except Fault γ}
  {cs rest : List Char} {result : List Char → β} {result' : List Char → γ}

/-- Nothing is taken where nothing is looked at. -/
theorem TakesFront.ok (rest : List Char) : TakesFront .ok rest id rest := ⟨[], rfl, fun _ ↦ rfl⟩

/-- A reader that goes on with another one behind a part of its text takes this part, too. -/
theorem TakesFront.of_step (h : TakesFront next cs result' rest) (part : List Char)
    (hstep : ∀ {cs behind}, next cs = .ok (result' behind) →
      read (part ++ cs) = .ok (result behind)) : TakesFront read (part ++ cs) result rest := by
  obtain ⟨front, rfl, hfront⟩ := h
  refine ⟨part ++ front, (List.append_assoc ..).symm, fun behind ↦ ?_⟩
  rw [List.append_assoc]
  exact hstep (hfront behind)

/-- A reader that hands on the rest of another one takes what that takes. -/
theorem TakesFront.map (h : TakesFront next cs result' rest)
    (hstep : ∀ {cs behind}, next cs = .ok (result' behind) → read cs = .ok (result behind)) :
    TakesFront read cs result rest :=
  h.of_step [] hstep

/-! ## Blanks -/

theorem blanks_takeWhile (cs : List Char) : Blanks (cs.takeWhile isBlank) := by
  intro c hc
  have hblank := List.all_eq_true.mp List.all_takeWhile c hc
  simp only [isBlank, Bool.or_eq_true, beq_iff_eq] at hblank
  rcases hblank with ((rfl | rfl) | rfl) | rfl <;> simp

/-- What stands behind the blanks of a text is a character that is none. -/
theorem exists_blanks_of_skipBlanks {cs rest : List Char} {c : Char}
    (h : skipBlanks cs = c :: rest) :
    ∃ blanks, Blanks blanks ∧ isBlank c = false ∧ cs = blanks ++ c :: rest := by
  refine ⟨cs.takeWhile isBlank, blanks_takeWhile cs, ?_, ?_⟩
  · have hhead := List.head?_dropWhile_not isBlank cs
    rw [← skipBlanks, h] at hhead
    exact hhead
  · rw [← h, skipBlanks, List.takeWhile_append_dropWhile]

/-- A reader that is decided by the first character that is no blank takes the blanks, this
character, and what is taken behind it. -/
theorem TakesFront.of_skipBlanks {c : Char} {tail : List Char} (hskip : skipBlanks cs = c :: tail)
    (h : TakesFront next tail result' rest)
    (hstep : ∀ {cs tail behind}, skipBlanks cs = c :: tail → next tail = .ok (result' behind) →
      read cs = .ok (result behind)) : TakesFront read cs result rest := by
  obtain ⟨blanks, hblanks, hblank, rfl⟩ := exists_blanks_of_skipBlanks hskip
  rw [List.append_cons]
  refine h.of_step (blanks ++ [c]) fun {cs _} hnext ↦ hstep ?_ hnext
  rw [List.append_assoc]
  exact skipBlanks_append_cons hblanks hblank cs

end

/-! ## Strings -/

theorem isLocal_readHex : IsLocal readHex := by
  intro cs n rest h
  unfold readHex at h
  split at h
  · next a b c d _ =>
    split at h
    · next hx hy hz hw =>
      cases h
      refine ⟨[a, b, c, d], rfl, fun behind ↦ ?_⟩
      simp only [List.cons_append, List.nil_append, readHex, hx, hy, hz, hw]
    · cases h
  · cases h

theorem isLocal_readTrailing (leading : Nat) : IsLocal (readTrailing leading) := by
  intro cs c rest h
  unfold readTrailing at h
  split at h
  · cases h
  · cases h
  · split at h
    · cases h
    next n rest' hhex =>
    split at h
    · next htrailing =>
      simp only [Except.ok.injEq, Prod.mk.injEq] at h
      obtain ⟨rfl, rfl⟩ := h
      refine (isLocal_readHex hhex).of_step ['\\', 'u'] fun hread ↦ ?_
      simp only [List.cons_append, List.nil_append, readTrailing, hread, htrailing, if_true]
    · cases h
  · cases h
  · cases h

theorem isLocal_readUnit : IsLocal readUnit := by
  intro cs c rest h
  unfold readUnit at h
  split at h
  · cases h
  next n rest' hhex =>
  obtain ⟨front, rfl, hfront⟩ := isLocal_readHex hhex
  split at h
  · cases h
  next htrailing =>
  split at h
  · next hleading =>
    refine (isLocal_readTrailing n h).of_step front fun {cs _} hread ↦ ?_
    simp only [readUnit, hfront, htrailing, hleading, if_true, hread, Bool.false_eq_true, if_false]
  · next hleading =>
    cases h
    refine ⟨front, rfl, fun behind ↦ ?_⟩
    simp only [readUnit, hfront, htrailing, hleading, Bool.false_eq_true, if_false]

theorem isLocal_readEscape : IsLocal readEscape := by
  intro cs c rest h
  unfold readEscape at h
  split at h
  · cases h
  next letter cs =>
  split at h
  · next hshort =>
    cases h
    refine ⟨[letter], rfl, fun behind ↦ ?_⟩
    simp only [List.cons_append, List.nil_append, readEscape, hshort]
  next hshort =>
  split at h
  · next hunit =>
    refine (isLocal_readUnit h).of_step [letter] fun hread ↦ ?_
    simp only [List.cons_append, List.nil_append, readEscape, hshort, if_pos hunit, hread]
  · cases h

/-- A character that is no quote and no backslash is read as it is. -/
theorem readChars_literal {c : Char} {cs ds rest : List Char} (hquote : c ≠ '"')
    (hslash : c ≠ '\\') (hcontrol : ¬c.toNat < 0x20) (h : readChars cs = .ok (ds, rest)) :
    readChars (c :: cs) = .ok (c :: ds, rest) := by
  rw [readChars, if_neg hquote, if_neg hslash, if_neg hcontrol, h]

theorem isLocal_readChars : IsLocal readChars := by
  intro cs ds rest h
  fun_induction readChars cs generalizing ds rest with
  | case1 => cases h
  | case2 cs =>
    cases h
    refine ⟨['"'], rfl, fun behind ↦ ?_⟩
    rw [List.singleton_append, readChars, if_pos rfl]
  | case3 => cases h
  | case4 => cases h
  | case5 cs d rest' hescape es rest'' hrest _ ih =>
    cases h
    obtain ⟨front, rfl, hfront⟩ := isLocal_readEscape hescape
    exact (ih hrest).of_step ('\\' :: front) fun hread ↦ readChars_escape (hfront _) hread
  | case6 => cases h
  | case7 => cases h
  | case8 c cs hquote hslash hcontrol es rest' hrest ih =>
    cases h
    exact (ih hrest).of_step [c] fun hread ↦ readChars_literal hquote hslash hcontrol hread

/-! ## Literals -/

theorem isLocal_readLiteral {α : Type} (value : α) (letters : List Char) :
    IsLocal (readLiteral value letters) := by
  intro cs a rest h
  induction letters generalizing cs with
  | nil =>
    cases h
    exact ⟨[], rfl, fun _ ↦ rfl⟩
  | cons l ls ih =>
    cases cs with
    | nil => cases h
    | cons c cs =>
      rw [readLiteral] at h
      split at h
      · next hletter =>
        exact (ih h).of_step [c] fun hread ↦ (if_pos hletter).trans hread
      · cases h

/-! ## Separators -/

/-- Where no element follows, a bracket does. -/
theorem exists_bracket_of_nextElement? {index : Nat} {cs : List Char}
    (h : nextElement? index cs = .ok none) :
    ∃ blanks rest, Blanks blanks ∧ cs = blanks ++ ']' :: rest := by
  unfold nextElement? at h
  split at h
  · cases h
  next c rest hskip =>
  obtain ⟨blanks, hblanks, -, rfl⟩ := exists_blanks_of_skipBlanks hskip
  split at h
  · next hbracket => exact ⟨blanks, rest, hblanks, by rw [hbracket]⟩
  split at h
  · cases h
  split at h
  · split at h
    · cases h
    · split at h <;> cases h
  · cases h

theorem takesFront_endArray {cs rest : List Char} (h : endArray cs = .ok rest) :
    TakesFront endArray cs id rest := by
  unfold endArray at h
  split at h
  · cases h
  next c tail hskip =>
  split at h
  · next hbracket =>
    cases h
    exact (TakesFront.ok rest).of_skipBlanks hskip fun hskip hrest ↦ by
      rw [endArray, hskip, ← hrest]
      exact if_pos hbracket
  split at h
  · split at h <;> cases h
  · cases h

/-- Up to the next element there are blanks and a comma or none, and the element starts with no
blank and no bracket. -/
theorem exists_separator_of_nextElement? {index : Nat} {cs start : List Char}
    (h : nextElement? index cs = .ok (some start)) :
    ∃ blanks before c rest, Blanks blanks ∧ Blanks before ∧ isBlank c = false ∧ c ≠ ']' ∧
      start = c :: rest ∧ cs = blanks ++ (separator (index == 0) ++ (before ++ start)) := by
  unfold nextElement? at h
  split at h
  · cases h
  next c rest hskip =>
  obtain ⟨blanks, hblanks, hblank, rfl⟩ := exists_blanks_of_skipBlanks hskip
  split at h
  · cases h
  next hbracket =>
  split at h
  · next hindex =>
    cases h
    subst hindex
    exact ⟨blanks, [], c, rest, hblanks, blanks_nil, hblank, hbracket, rfl, rfl⟩
  next hindex =>
  split at h
  · next hcomma =>
    split at h
    · cases h
    next d rest' hskip' =>
    obtain ⟨before, hbefore, hblank', rfl⟩ := exists_blanks_of_skipBlanks hskip'
    split at h
    · cases h
    next hbracket' =>
    cases h
    refine ⟨blanks, before, d, rest', hblanks, hbefore, hblank', hbracket', rfl, ?_⟩
    rw [hcomma, beq_false_of_ne hindex]
    rfl
  · cases h

/-- The search for an element and its reader are local together: the search has seen no more of the
element than the reader takes. -/
theorem exists_front_element {α : Type} {read : List Char → Result α} (hlocal : IsLocal read)
    {index : Nat} {cs start rest : List Char} {a : α}
    (hnext : nextElement? index cs = .ok (some start)) (hread : read start = .ok (a, rest))
    (hshorter : rest.length < start.length) :
    ∃ front, cs = front ++ rest ∧ ∀ behind, ∃ start,
      nextElement? index (front ++ behind) = .ok (some start) ∧ read start = .ok (a, behind) := by
  obtain ⟨blanks, before, c, tail, hblanks, hbefore, hblank, hbracket, hstart, rfl⟩ :=
    exists_separator_of_nextElement? hnext
  obtain ⟨token, rfl, htoken⟩ := hlocal hread
  refine ⟨blanks ++ (separator (index == 0) ++ (before ++ token)), by simp, fun behind ↦
    ⟨token ++ behind, ?_, htoken behind⟩⟩
  -- Something is taken, so it starts with the character that the search has seen.
  cases token with
  | nil => exact absurd hshorter (Nat.lt_irrefl _)
  | cons d token =>
    obtain rfl : d = c := (List.cons.inj hstart).1
    simp only [List.append_assoc]
    exact nextElement?_of_cons hblanks hbefore hblank hbracket (token ++ behind)

/-- Where no key follows, a brace does. -/
theorem exists_brace_of_nextKey? {first : Bool} {cs : List Char}
    (h : nextKey? first cs = .ok none) :
    ∃ blanks rest, Blanks blanks ∧ cs = blanks ++ '\x7d' :: rest := by
  unfold nextKey? at h
  split at h
  · cases h
  next c rest hskip =>
  obtain ⟨blanks, hblanks, -, rfl⟩ := exists_blanks_of_skipBlanks hskip
  split at h
  · next hbrace => exact ⟨blanks, rest, hblanks, by rw [hbrace]⟩
  split at h
  · split at h <;> cases h
  split at h
  · split at h
    · cases h
    split at h
    · cases h
    · split at h <;> cases h
  · cases h

theorem takesFront_nextKey? {first : Bool} {cs start : List Char}
    (h : nextKey? first cs = .ok (some start)) : TakesFront (nextKey? first) cs some start := by
  have hfront {blanks before : List Char} (hblanks : Blanks blanks) (hbefore : Blanks before) :
      TakesFront (nextKey? first) (blanks ++ (separator first ++ (before ++ '"' :: start))) some
        start := by
    refine ⟨blanks ++ (separator first ++ (before ++ ['"'])), by simp, fun behind ↦ ?_⟩
    simp only [List.append_assoc]
    exact nextKey?_quote hblanks hbefore behind
  unfold nextKey? at h
  split at h
  · cases h
  next c rest hskip =>
  obtain ⟨blanks, hblanks, -, rfl⟩ := exists_blanks_of_skipBlanks hskip
  split at h
  · cases h
  split at h
  · next hfirst =>
    split at h
    · next hquote =>
      cases h
      subst hfirst hquote
      exact hfront hblanks blanks_nil
    · cases h
  next hfirst =>
  split at h
  · next hcomma =>
    split at h
    · cases h
    next d rest' hskip' =>
    obtain ⟨before, hbefore, -, rfl⟩ := exists_blanks_of_skipBlanks hskip'
    split at h
    · next hquote =>
      cases h
      rw [Bool.not_eq_true] at hfirst
      subst hfirst hquote hcomma
      exact hfront hblanks hbefore
    · split at h <;> cases h
  · cases h

theorem takesFront_readColon {cs rest : List Char} (h : readColon cs = .ok rest) :
    TakesFront readColon cs id rest := by
  unfold readColon at h
  split at h
  · cases h
  next c tail hskip =>
  split at h
  · next hcolon =>
    cases h
    exact (TakesFront.ok rest).of_skipBlanks hskip fun hskip hrest ↦ by
      rw [readColon, hskip, ← hrest]
      exact if_pos hcolon
  · cases h

/-- A key, with what stands in front of it and the colon behind it. -/
theorem exists_front_key {first : Bool} {cs start name colon rest : List Char}
    (hnext : nextKey? first cs = .ok (some start)) (hname : readChars start = .ok (name, colon))
    (hcolon : readColon colon = .ok rest) :
    ∃ front, cs = front ++ rest ∧ ∀ behind, ∃ start colon,
      nextKey? first (front ++ behind) = .ok (some start) ∧
        readChars start = .ok (name, colon) ∧ readColon colon = .ok behind := by
  obtain ⟨front, rfl, hfront⟩ := takesFront_nextKey? hnext
  obtain ⟨key, rfl, hkey⟩ := isLocal_readChars hname
  obtain ⟨mark, rfl, hmark⟩ := takesFront_readColon hcolon
  refine ⟨front ++ (key ++ mark), by simp, fun behind ↦ ⟨_, _, ?_, hkey _, hmark behind⟩⟩
  rw [List.append_assoc, List.append_assoc]
  exact hfront _

end AstSchema.Json
