import AstSchema.Proofs.Words

/-!
# Brackets of a name and of its type

The brackets of a field list are checked for each field as a whole, and then the field is cut at its
first blank. The type in itself is balanced only if that blank stands outside brackets. So it is the
name that decides. What it leaves open is closed in the type, where the brackets that do it have no
match (`isBalanced_type_iff`), and a name that leaves nothing open is in front of a type that is
scanned as from scratch.

The scan for words goes on behind a bracket without a match, so a mismatch has no effect there
beyond the words it cuts. Where the name leaves a bracket open, the scan for words meets the
mismatch, except where the closing bracket is a `>` behind a hyphen and blanks: without the blanks,
which it passes over, that is an arrow. But then the hyphen ends a word and the `>` starts the next
one, no type goes on like this, and the field is rejected.
-/

namespace AstSchema

open AstSchema.Text

namespace Nesting

/-! ## Scans inside of more brackets -/

theorem closes?_congr {n m : Nesting} (h : n.last = some '-' ↔ m.last = some '-') (c : Char) :
    n.closes? c = m.closes? c := by
  simp only [closes?, h]

/-- Brackets around a text have no part in it as long as its own match. -/
theorem enclosing_advance {n m : Nesting} {outer : List Bracket} {c : Char}
    (h : n.enclosing = m.enclosing ++ outer) (hcloses : n.closes? c = m.closes? c)
    (hadm : m.admits c = true) :
    (n.advance c).enclosing = (m.advance c).enclosing ++ outer := by
  rw [advance, advance, hcloses]
  cases Bracket.opened? c with
  | some b => exact congrArg (b :: ·) h
  | none =>
    cases hc : m.closes? c with
    | none => exact h
    | some b =>
      rw [admits, hc] at hadm
      obtain ⟨below, hbelow⟩ := List.head?_eq_some_iff.mp (beq_iff_eq.mp hadm)
      rw [h, hbelow]
      rfl

/-- Behind a text whose brackets match, the brackets around it are open as before. -/
theorem enclosing_after_of_scan? {n m m' : Nesting} {outer : List Bracket} {cs : List Char}
    (h : n.enclosing = m.enclosing ++ outer) (hlast : n.last = some '-' ↔ m.last = some '-')
    (hscan : m.scan? cs = some m') : (n.after cs).enclosing = m'.enclosing ++ outer := by
  induction cs generalizing n m with
  | nil =>
    obtain rfl := Option.some.inj hscan
    exact h
  | cons c cs ih =>
    rw [scan?_cons] at hscan
    split at hscan
    · next hadm =>
      refine ih (enclosing_advance h (closes?_congr hlast c) hadm) ?_ hscan
      rw [last_advance, last_advance]
    · cases hscan

/-- Outside brackets, what is remembered behind a character does not depend on what is in front. -/
theorem advance_of_top {n : Nesting} (hn : n.enclosing = []) (c : Char) :
    n.advance c = ⟨(start.advance c).enclosing, some c⟩ := by
  rw [advance, advance, hn]
  cases Bracket.opened? c with
  | some b => rfl
  | none => cases n.closes? c <;> cases start.closes? c <;> rfl

theorem enclosing_after_of_top {n : Nesting} (hn : n.enclosing = []) (cs : List Char) :
    (n.after cs).enclosing = (start.after cs).enclosing := by
  cases cs with
  | nil => exact hn
  | cons c cs => rw [after_cons, after_cons, advance_of_top hn, ← advance_of_top (n := start) rfl]

/-! ## Arrows across blanks -/

/-- Where a bracket from outside of the text is closed in it, and the scan for words goes through
without a mismatch, the bracket is a `>` behind a hyphen and blanks. -/
theorem exists_arrow_across {n m : Nesting} {outer : List Bracket} {cs : List Char}
    (ho : outer ≠ []) (h : n.enclosing = m.enclosing ++ outer)
    (hlast : n.last = m.last ∨ m.enclosing = [] ∧ n.last ≠ some '-')
    (htop : (n.after cs).enclosing = []) (hadm : m.admitsWords cs = true) :
    ∃ p q, cs = p ++ '>' :: q ∧ m.afterWords p = ⟨[], some '-'⟩ ∧ (n.after p).last ≠ some '-' := by
  induction cs generalizing n m with
  | nil =>
    rw [after_nil, h] at htop
    exact absurd (List.append_eq_nil_iff.mp htop).2 ho
  | cons c cs ih =>
    rw [admitsWords] at hadm
    by_cases hskip : (isBlank c && m.atTop) = true
    · -- The blank changes the last character of the one scan and nothing of the other.
      rw [if_pos hskip] at hadm
      obtain ⟨hblank, hm⟩ := Bool.and_eq_true_iff.mp hskip
      have hadvance := advance_of_isPlain (n := n) (isPlain_of_isBlank hblank)
      have hne : (n.advance c).last ≠ some '-' := by
        rw [last_advance]
        rintro ⟨⟩
        exact absurd hblank (by decide)
      obtain ⟨p, q, rfl, hp, hq⟩ := ih (n := n.advance c) (by rw [hadvance, h])
        (.inr ⟨atTop_iff.mp hm, hne⟩) htop hadm
      exact ⟨c :: p, q, rfl, by rw [afterWords, if_pos hskip, hp], hq⟩
    · rw [if_neg hskip, Bool.and_eq_true] at hadm
      by_cases hcloses : n.closes? c = m.closes? c
      · obtain ⟨p, q, rfl, hp, hq⟩ := ih (enclosing_advance h hcloses hadm.1)
          (.inl (by rw [last_advance, last_advance])) htop hadm.2
        exact ⟨c :: p, q, rfl, by rw [afterWords, if_neg hskip, hp], hq⟩
      · -- The two differ on a `>` behind a hyphen that only the scan for words remembers.
        rcases hlast with hsame | ⟨hm, hne⟩
        · exact absurd (closes?_congr (by rw [hsame]) c) hcloses
        · by_cases hhyphen : m.last = some '-'
          · by_cases hc : c = '>'
            · subst hc
              exact ⟨[], cs, rfl, by rw [afterWords, ← hm, ← hhyphen], hne⟩
            · exact absurd (by simp only [closes?, hc, false_and]) hcloses
          · exact absurd (closes?_congr (iff_of_false hne hhyphen) c) hcloses

end Nesting

namespace TypeText

/-! ## Words that end with a hyphen -/

theorem isLifetime_of_hyphen {word : List Char} (h : word.getLast? = some '-') :
    isLifetime word = false := by
  unfold isLifetime
  split
  · next c cs =>
    refine Bool.eq_false_iff.mpr fun hname ↦ ?_
    obtain ⟨hc, hcs⟩ := Bool.and_eq_true_iff.mp hname
    have hmem : '-' ∈ c :: cs := List.mem_of_getLast? (by simpa [List.getLast?_cons] using h)
    rcases List.mem_cons.mp hmem with rfl | hmem
    · exact absurd hc (by decide)
    · exact absurd (List.all_eq_true.mp hcs _ hmem) (by decide)
  · rfl

theorem isBinder_of_hyphen {word : List Char} (h : word.getLast? = some '-') :
    isBinder word = false := by
  unfold isBinder
  split
  · next cs =>
    have hne : cs.getLast? ≠ some '>' := by
      intro hlast
      simp [List.getLast?_cons, hlast] at h
    rw [beq_eq_false_iff_ne.mpr hne, Bool.false_and]
  · rfl

theorem isConvention_of_hyphen {word : List Char} (h : word.getLast? = some '-') :
    isConvention word = false := by
  unfold isConvention
  split
  · next cs =>
    have hne : cs.getLast? ≠ some '"' := by
      intro hlast
      simp [List.getLast?_cons, hlast] at h
    rw [beq_eq_false_iff_ne.mpr hne, Bool.false_and]
  · rfl

theorem getLast?_dropWhile {p : Char → Bool} {cs : List Char} {c : Char}
    (h : cs.getLast? = some c) (hc : p c = false) : (cs.dropWhile p).getLast? = some c := by
  have hsplit := List.takeWhile_append_dropWhile (p := p) (l := cs)
  cases hlast : (cs.dropWhile p).getLast? with
  | some d => rwa [← hsplit, List.getLast?_append, hlast, Option.some_or] at h
  | none =>
    rw [List.getLast?_eq_none_iff.mp hlast, List.append_nil] at hsplit
    rw [← hsplit] at h
    have hp := List.all_eq_true.mp List.all_takeWhile c (List.mem_of_getLast? h)
    rw [hc] at hp
    cases hp

/-- A word that ends with a hyphen is not joined to the next one by itself. -/
theorem announces_of_hyphen {word : List Char} (h : word.getLast? = some '-') :
    isJoint word = false ∧ announces word = false := by
  constructor
  · refine Bool.eq_false_iff.mpr fun hjoint ↦ ?_
    rw [isJoint, Bool.or_eq_true, beq_iff_eq, beq_iff_eq] at hjoint
    rcases hjoint with rfl | rfl <;> exact absurd h (by decide)
  · -- The hyphen is in the part that has to be of some kind, since it is no `&` and no `*`.
    have hrest := getLast?_dropWhile (p := fun c ↦ c == '&' || c == '*') h (by decide)
    simp only [announces]
    generalize word.dropWhile (fun c ↦ c == '&' || c == '*') = rest at hrest
    have hempty : rest.isEmpty = false := by
      rw [List.isEmpty_eq_false_iff]
      rintro rfl
      cases hrest
    have hqualifier : qualifiers.contains rest = false := by
      have hnone : qualifiers.all (·.getLast? != some '-') = true := by decide
      refine Bool.eq_false_iff.mpr fun hmem ↦ ?_
      have hne := List.all_eq_true.mp hnone rest (List.contains_iff_mem.mp hmem)
      rw [hrest] at hne
      exact absurd hne (by decide)
    rw [hempty, isLifetime_of_hyphen hrest, hqualifier, isBinder_of_hyphen hrest,
      isConvention_of_hyphen hrest]
    rfl

/-- The words in front of a blank end with the last character that the scan for words has taken
in. -/
theorem exists_last_word {n : Nesting} {current : List Char}
    (hcurrent : ∀ c ∈ current.head?, n.last = some c) (cs : List Char) :
    wordsFrom n current cs = [] ∧ (n.afterWords cs).last = n.last ∨
      ∃ word ∈ (wordsFrom n current cs).getLast?,
        word.getLast? = (n.afterWords cs).last := by
  have hend {n : Nesting} {current : List Char} (hcurrent : ∀ c ∈ current.head?, n.last = some c) :
      wordsFrom n current [] = [] ∨
        ∃ word ∈ (wordsFrom n current []).getLast?, word.getLast? = n.last := by
    cases current with
    | nil => exact .inl rfl
    | cons c cs => exact .inr ⟨_, rfl, by simp [hcurrent c rfl]⟩
  induction cs generalizing n current with
  | nil => exact (hend hcurrent).imp (⟨·, rfl⟩) id
  | cons c cs ih =>
    by_cases hskip : (isBlank c && n.atTop) = true
    · obtain ⟨hc, hn⟩ := Bool.and_eq_true_iff.mp hskip
      rw [wordsFrom_cons_blank hn hc, Nesting.afterWords, if_pos hskip]
      have hnone : ∀ d ∈ ([] : List Char).head?, n.last = some d := by simp
      rcases ih hnone with ⟨hnil, hlast⟩ | ⟨word, hword, hlast⟩
      · rw [hnil, List.append_nil, hlast]
        exact (hend hcurrent).imp (⟨·, rfl⟩) id
      · refine .inr ⟨word, ?_, hlast⟩
        rw [List.getLast?_append, Option.mem_def.mp hword]
        rfl
    · rw [wordsFrom_cons_of_solid (Bool.eq_false_iff.mpr hskip), Nesting.afterWords, if_neg hskip]
      have hlast : ∀ d ∈ (c :: current).head?, (n.advance c).last = some d := by simp
      rcases ih hlast with ⟨hnil, -⟩ | hword
      · obtain ⟨tail, rest, heq⟩ :=
          exists_wordsFrom (n := n.advance c) (List.cons_ne_nil c current) cs
        rw [hnil] at heq
        cases heq
      · exact .inr hword

/-- A type with a `>` outside brackets behind a hyphen and blanks runs into another field. -/
theorem runsOn_of_arrow_across {p q : List Char} {d : Char} (hd : isBlank d = true)
    (hp : Nesting.start.afterWords p = ⟨[], some '-'⟩) : runsOn (p ++ d :: '>' :: q) = true := by
  have htop : (Nesting.start.afterWords p).atTop = true := by rw [hp]; rfl
  have hcurrent : ∀ c ∈ ([] : List Char).head?, Nesting.start.last = some c := by simp
  rcases exists_last_word hcurrent p with ⟨-, hlast⟩ | ⟨word, hword, hlast⟩
  · rw [hp] at hlast
    cases hlast
  · obtain ⟨tail, rest, heq⟩ := exists_wordsFrom_cons (n := Nesting.start.afterWords p) (c := '>')
      (by decide) q
    rw [hp] at hlast
    obtain ⟨hjoint, hannounces⟩ := announces_of_hyphen hlast
    have hnext : isJoint ('>' :: tail) = false := by simp [isJoint]
    rw [runsOn, words, wordsFrom_append_blank htop hd, heq]
    refine hasGap_append hword rfl ?_
    rw [joined, hnext, hjoint, hannounces]
    rfl

end TypeText

/-! ## The name decides -/

namespace Field

/-- Whether the name leaves no bracket open. -/
def isNameClosed (field : Field) : Bool := (Nesting.start.after field.name.toList).atTop

variable {field : Field} {segment : List Char} {n : Nesting}

/-- The state in front of a type: the brackets that the name leaves open are open, and the blanks
between the two have taken a hyphen at its end away. -/
theorem Spelling.exists_front (hs : field.Spelling segment) (hn : n.enclosing = [])
    (hfield : n.isField segment = true) :
    ∃ m : Nesting, m.enclosing = (Nesting.start.after field.name.toList).enclosing ∧
      m.last ≠ some '-' ∧ m.isField field.type.toList = true := by
  obtain ⟨a, b, c, ha, hb, hc, hbne, rfl⟩ := hs
  refine ⟨n.after (a ++ field.name.toList ++ b), ?_, ?_, ?_⟩
  · have htop : (n.after a).enclosing = [] := by rw [Nesting.enclosing_after_of_isBlank ha, hn]
    rw [Nesting.after_append, Nesting.enclosing_after_of_isBlank hb, Nesting.after_append,
      Nesting.enclosing_after_of_top htop]
  · rw [Nesting.after_append]
    exact Nesting.last_after_ne_hyphen hb hbne
  · rw [Nesting.isField_append_of_isBlank hc, Nesting.isField_append, Bool.and_eq_true] at hfield
    exact hfield.2

/-- The type of a field that is whole where it stands is balanced if and only if the name leaves no
bracket open. -/
theorem Spelling.isBalanced_iff (hs : field.Spelling segment) (hn : n.enclosing = [])
    (hfield : n.isField segment = true) :
    isBalanced field.type.toList = true ↔ field.isNameClosed = true := by
  obtain ⟨m, hopen, hlast, htype⟩ := hs.exists_front hn hfield
  constructor
  · intro hbalanced
    rw [isBalanced] at hbalanced
    split at hbalanced
    · next m' hscan =>
      -- What is open in front of a balanced type is open behind it.
      have hafter : (m.after field.type.toList).enclosing = m'.enclosing ++ m.enclosing :=
        Nesting.enclosing_after_of_scan? (m := .start) rfl (iff_of_false hlast (by decide)) hscan
      rw [Nesting.atTop_iff.mp (Nesting.isField_iff.mp htype).2, Nesting.atTop_iff.mp hbalanced,
        List.nil_append] at hafter
      rw [isNameClosed, Nesting.atTop, ← hopen, ← hafter]
      rfl
    · cases hbalanced
  · intro hname
    have hm : m.enclosing = [] := hopen.trans (Nesting.atTop_iff.mp hname)
    have hagree := Nesting.agree_of_ne_hyphen (n := .start) hm.symm (by decide) hlast
      field.type.toList.head?
    rw [← hagree.isField_eq] at htype
    exact (isField_start_iff.mp htype).1

/-- Behind a name that leaves no bracket open, the scan for words meets no mismatch. -/
theorem Spelling.admitsWords (hs : field.Spelling segment) (hn : n.enclosing = [])
    (hfield : n.isField segment = true) (hname : field.isNameClosed = true) :
    Nesting.start.admitsWords field.type.toList = true := by
  obtain ⟨m, hopen, hlast, htype⟩ := hs.exists_front hn hfield
  have hm : m.enclosing = [] := hopen.trans (Nesting.atTop_iff.mp hname)
  have hfollows : m.Follows .start := ⟨hm, .inr ⟨hm, hlast⟩⟩
  have hin := (Nesting.isField_iff.mp htype).1
  exact (hfollows.scan (Nesting.inField_iff.mp hin).1).1

/-- Behind a name that leaves a bracket open, the scan for words meets a mismatch unless the type
runs into another field. -/
theorem Spelling.runsOn (hs : field.Spelling segment) (hn : n.enclosing = [])
    (hfield : n.isField segment = true) (hname : field.isNameClosed = false)
    (hadm : Nesting.start.admitsWords field.type.toList = true) :
    TypeText.runsOn field.type.toList = true := by
  obtain ⟨m, hopen, hlast, htype⟩ := hs.exists_front hn hfield
  have hm : m.enclosing ≠ [] := by
    intro hnil
    rw [isNameClosed, Nesting.atTop, ← hopen, hnil] at hname
    cases hname
  have htop := Nesting.atTop_iff.mp (Nesting.isField_iff.mp htype).2
  obtain ⟨p, q, htext, hp, hne⟩ := Nesting.exists_arrow_across (m := .start) hm rfl
    (.inr ⟨rfl, hlast⟩) htop hadm
  -- The last character in front of the `>` is one that the scan for words has passed over.
  rcases List.eq_nil_or_concat' p with rfl | ⟨p, d, rfl⟩
  · cases hp
  · rw [Nesting.last_after, List.getLast?_concat] at hne
    simp only [Nesting.afterWords_append, Nesting.afterWords] at hp
    split at hp
    · next hskip =>
      rw [htext, List.append_assoc]
      exact TypeText.runsOn_of_arrow_across (Bool.and_eq_true_iff.mp hskip).1 hp
    · have hd := Nesting.last_advance (Nesting.start.afterWords p) d
      rw [hp] at hd
      exact absurd hd.symm hne

end Field

/-! ## Lines -/

/-- A field among others stands outside brackets. -/
theorem Nesting.exists_isField_of_mem {segments : List (List Char)} {segment : List Char}
    (h : start.areFields segments = true) (hmem : segment ∈ segments) :
    ∃ n : Nesting, n.enclosing = [] ∧ n.isField segment = true := by
  obtain ⟨before, behind, rfl⟩ := List.append_of_mem hmem
  rw [areFields_append, Bool.and_eq_true, areFields_cons] at h
  exact ⟨_, atTop_iff.mp (atTop_after_flatten atTop_start h.1), h.2.1⟩

/-- The segment is one of those that the list behind the first colon of the line is cut into. -/
def Variant.Lists (line : String) (segment : List Char) : Prop :=
  ∃ front list ss, ':' ∉ front ∧ line.toList = front ++ ':' :: list ∧ segments list = .ok ss ∧
    segment ∈ ss

theorem Variant.Lists.exists_isField {line : String} {segment : List Char}
    (h : Lists line segment) : ∃ n : Nesting, n.enclosing = [] ∧ n.isField segment = true := by
  obtain ⟨-, list, ss, -, -, hss, hmem⟩ := h
  exact Nesting.exists_isField_of_mem (segmentsFrom_eq_ok_iff.mp hss).2.1 hmem

theorem exists_mem_of_forall₂ {α β : Type} {R : α → β → Prop} {as : List α} {bs : List β}
    (h : List.Forall₂ R as bs) {a : α} (ha : a ∈ as) : ∃ b ∈ bs, R a b := by
  induction h with
  | nil => cases ha
  | @cons a' b _ _ hab _ ih =>
    rcases List.mem_cons.mp ha with rfl | ha
    · exact ⟨b, List.mem_cons_self, hab⟩
    · obtain ⟨b', hb', hr⟩ := ih ha
      exact ⟨b', List.mem_cons_of_mem b hb', hr⟩

/-- The fields of a line that is read are cut from its segments and run into no other field. -/
theorem Variant.exists_cutFrom_of_read {line : String} {variant : Variant}
    (h : read line = .ok variant) {field : Field} (hfield : field ∈ variant.fields) :
    ∃ segment, Lists line segment ∧ field.CutFrom segment ∧
      TypeText.runsOn field.type.toList = false := by
  obtain ⟨hsolid, ss, hfields, w, w', hw, hw', hss, hline⟩ := spelling_of_read h
  obtain ⟨segment, hmem, hs⟩ := exists_mem_of_forall₂ hss hfield
  have hfieldSolid := hsolid.fields_solid field hfield
  refine ⟨segment, ⟨_, _, ss, colon_not_mem_of_padded hsolid.name_colon hw hw', hline, ?_, hmem⟩,
    hfieldSolid.cutFrom hs, hfieldSolid.type_joined⟩
  exact segmentsFrom_eq_ok_iff.mpr ⟨List.ne_nil_of_mem hmem, hfields, rfl⟩

/-- **The brackets of a type match if and only if its name leaves none open.** Whatever segments a
line is cut into, the scan for words meets no mismatch in the type of a field whose name leaves no
bracket open. Where a name leaves one open, it meets one, or the field is rejected. So in a line
that is read, the names alone decide whether the types are balanced and whether the scan for words
meets a mismatch in them. -/
theorem Variant.isBalanced_type_iff (line : String) :
    (∀ (segment : List Char) (field : Field), Lists line segment → field.CutFrom segment →
      (field.isNameClosed = true → Nesting.start.admitsWords field.type.toList = true) ∧
      (field.isNameClosed = false → Nesting.start.admitsWords field.type.toList = true →
        Field.ofSegment segment = .error (.missingComma field.name))) ∧
    ∀ variant, read line = .ok variant → ∀ field ∈ variant.fields,
      (Nesting.start.admitsWords field.type.toList = true ↔ field.isNameClosed = true) ∧
      (isBalanced field.type.toList = true ↔ field.isNameClosed = true) := by
  constructor
  · intro segment field hlists hcut
    obtain ⟨n, hn, hfield⟩ := hlists.exists_isField
    refine ⟨hcut.spelling.admitsWords hn hfield, fun hname hadm ↦ ?_⟩
    rw [Field.ofSegment_of_cutFrom hcut, hcut.spelling.runsOn hn hfield hname hadm, if_pos rfl]
  · intro variant hread field hmem
    obtain ⟨segment, hlists, hcut, hjoined⟩ := exists_cutFrom_of_read hread hmem
    obtain ⟨n, hn, hfield⟩ := hlists.exists_isField
    refine ⟨⟨fun hadm ↦ ?_, hcut.spelling.admitsWords hn hfield⟩,
      hcut.spelling.isBalanced_iff hn hfield⟩
    by_contra hname
    have hruns := hcut.spelling.runsOn hn hfield (Bool.eq_false_iff.mpr hname) hadm
    rw [hjoined] at hruns
    cases hruns

/-- Two names with brackets, of which one leaves its bracket open, and a bracket that the scan for
words takes for the head of an arrow. -/
theorem Variant.isBalanced_type_iff_names :
    read "Call: f<a b>, g<k>v fn(A, B) -> & mut C" =
        .ok ⟨"Call", [⟨"f<a", "b>"⟩, ⟨"g<k>v", "fn(A, B) -> & mut C"⟩]⟩ ∧
      isBalanced "b>".toList = false ∧ isBalanced "fn(A, B) -> & mut C".toList = true ∧
      Lists "Call: f<a - >" " f<a - >".toList ∧
      (⟨"f<a", "- >"⟩ : Field).CutFrom " f<a - >".toList ∧
      Field.ofSegment " f<a - >".toList = .error (.missingComma "f<a") := by
  have hread : read "Call: f<a b>, g<k>v fn(A, B) -> & mut C" =
      .ok ⟨"Call", [⟨"f<a", "b>"⟩, ⟨"g<k>v", "fn(A, B) -> & mut C"⟩]⟩ := rfl
  obtain ⟨-, hiff⟩ := isBalanced_type_iff "Call: f<a b>, g<k>v fn(A, B) -> & mut C"
  have hopen := (hiff _ hread ⟨"f<a", "b>"⟩ (by simp)).2
  have hclosed := (hiff _ hread ⟨"g<k>v", "fn(A, B) -> & mut C"⟩ (by simp)).2
  have hlists : Lists "Call: f<a - >" " f<a - >".toList :=
    ⟨"Call".toList, " f<a - >".toList, [" f<a - >".toList], by decide, rfl, rfl, by decide⟩
  have hname : ∀ c ∈ "f<a".toList, isBlank c = false := fun c hc ↦
    Bool.eq_false_iff.mpr (List.any_eq_false.mp (by decide) c hc)
  have hcut : (⟨"f<a", "- >"⟩ : Field).CutFrom " f<a - >".toList :=
    ⟨by decide, hname, by decide, by decide,
      [' '], [' '], [], by decide, by decide, by decide, by decide, by decide⟩
  have hfield := (isBalanced_type_iff "Call: f<a - >").1 _ _ hlists hcut
  exact ⟨hread, Bool.eq_false_iff.mpr fun h ↦ absurd (hopen.mp h) (by decide),
    hclosed.mpr (by decide), hlists, hcut, hfield.2 (by decide) (by decide)⟩

/-- A blank inside brackets ends a name, and the type behind it is not balanced. The scan for words
meets the mismatch and the line is read all the same. -/
theorem Variant.read_open_name :
    read "A: f<a b>" = .ok ⟨"A", [⟨"f<a", "b>"⟩]⟩ ∧
      Lists "A: f<a b>" " f<a b>".toList ∧ (⟨"f<a", "b>"⟩ : Field).CutFrom " f<a b>".toList ∧
      Nesting.start.admitsWords "b>".toList = false ∧ isBalanced "b>".toList = false := by
  have hname : ∀ c ∈ "f<a".toList, isBlank c = false := fun c hc ↦
    Bool.eq_false_iff.mpr (List.any_eq_false.mp (by decide) c hc)
  refine ⟨rfl, ⟨"A".toList, " f<a b>".toList, [" f<a b>".toList], by decide, rfl, rfl, by decide⟩,
    ⟨by decide, hname, by decide, by decide, ?_⟩, by decide, by decide⟩
  exact ⟨[' '], [' '], [], by decide, by decide, by decide, by decide, by decide⟩

end AstSchema
