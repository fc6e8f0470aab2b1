import AstSchema.Text.CodePoints

/-!
# Blank characters

Schema lines are written by hand, so every name and every type in them may be padded. What counts
as padding is the Unicode property White_Space: twenty-five characters, which include the no-break
space and the line separators but neither the zero-width space nor the byte order mark.

Text is handled as a list of characters wherever it is taken apart. Trimming is then two uses of
`List.dropWhile`, and the lemmas below say what is left: no blank stands at either end, and what
was removed is blank.
-/

namespace AstSchema.Text

/-- The characters with the property White_Space. -/
def whiteSpace : CodePoints :=
  [ (0x9, 0xD), (0x20, 0x20), (0x85, 0x85), (0xA0, 0xA0), (0x1680, 0x1680), (0x2000, 0x200A),
    (0x2028, 0x2029), (0x202F, 0x202F), (0x205F, 0x205F), (0x3000, 0x3000) ]

/-- Whether `c` is white space. -/
def isBlank (c : Char) : Bool := whiteSpace.has c

theorem isBlank_of_isWhitespace {c : Char} (h : c.isWhitespace = true) : isBlank c = true := by
  simp only [Char.isWhitespace, Bool.or_eq_true, decide_eq_true_eq] at h
  rcases h with ((rfl | rfl) | rfl) | rfl <;> decide

/-- The text without the blanks it starts with. -/
def trimStart (cs : List Char) : List Char := cs.dropWhile isBlank

/-- The text without the blanks it ends with. -/
def trimEnd (cs : List Char) : List Char := (cs.reverse.dropWhile isBlank).reverse

/-- The text without the blanks at either end. -/
def trim (cs : List Char) : List Char := trimEnd (trimStart cs)

/-- `trim` on strings. -/
def trimmed (s : String) : String := String.ofList (trim s.toList)

/-! ## What trimming removes -/

theorem exists_trimStart (cs : List Char) :
    ∃ w, w.all isBlank = true ∧ cs = w ++ trimStart cs :=
  ⟨cs.takeWhile isBlank, by simp, by simp [trimStart]⟩

theorem exists_trimEnd (cs : List Char) :
    ∃ w, w.all isBlank = true ∧ cs = trimEnd cs ++ w := by
  refine ⟨(cs.reverse.takeWhile isBlank).reverse, by simp, ?_⟩
  rw [trimEnd, ← List.reverse_append, List.takeWhile_append_dropWhile, List.reverse_reverse]

/-- Trimming takes blanks from the two ends and nothing else. -/
theorem exists_trim (cs : List Char) :
    ∃ w w', w.all isBlank = true ∧ w'.all isBlank = true ∧ cs = w ++ trim cs ++ w' := by
  obtain ⟨w, hw, hcs⟩ := exists_trimStart cs
  obtain ⟨w', hw', htail⟩ := exists_trimEnd (trimStart cs)
  refine ⟨w, w', hw, hw', ?_⟩
  rw [List.append_assoc, trim, ← htail, ← hcs]

theorem trimStart_eq_nil {cs : List Char} (h : cs.all isBlank = true) : trimStart cs = [] := by
  rw [trimStart, ← List.append_nil cs, List.dropWhile_append_of_pos (by simpa using h)]
  rfl

theorem trim_eq_nil_iff {cs : List Char} : trim cs = [] ↔ cs.all isBlank = true := by
  constructor
  · intro h
    obtain ⟨w, w', hw, hw', hcs⟩ := exists_trim cs
    rw [hcs, h]
    simp only [List.append_nil, List.all_append, hw, hw', Bool.and_self]
  · intro h
    simp [trim, trimStart_eq_nil h, trimEnd]

/-! ## What trimming leaves -/

/-- Whether no blank stands at either end of the text. -/
def Trimmed (cs : List Char) : Prop :=
  (∀ c ∈ cs.head?, isBlank c = false) ∧ ∀ c ∈ cs.getLast?, isBlank c = false

instance (cs : List Char) : Decidable (Trimmed cs) :=
  decidable_of_iff (cs.head?.all (!isBlank ·) = true ∧ cs.getLast?.all (!isBlank ·) = true)
    (by simp [Trimmed, Option.all_eq_true])

theorem Trimmed.eq_nil_of_append {cs w : List Char} (h : Trimmed (cs ++ w))
    (hw : w.all isBlank = true) : w = [] := by
  cases hlast : w.getLast? with
  | none => exact List.getLast?_eq_none_iff.mp hlast
  | some c =>
    have hblank := List.all_eq_true.mp hw c (List.mem_of_getLast? hlast)
    have hsolid := h.2 c (by rw [List.getLast?_append, hlast]; rfl)
    rw [hblank] at hsolid
    exact absurd hsolid (by decide)

theorem trimEnd_eq (cs : List Char) : trimEnd cs = (trimStart cs.reverse).reverse := rfl

theorem head?_trimStart (cs : List Char) : ∀ c ∈ (trimStart cs).head?, isBlank c = false := by
  intro c hc
  have h := List.head?_dropWhile_not isBlank cs
  rw [← trimStart, Option.mem_def.mp hc] at h
  exact h

theorem getLast?_trimEnd (cs : List Char) : ∀ c ∈ (trimEnd cs).getLast?, isBlank c = false := by
  rw [trimEnd_eq, List.getLast?_reverse]
  exact head?_trimStart cs.reverse

theorem trimmed_trim (cs : List Char) : Trimmed (trim cs) := by
  refine ⟨?_, getLast?_trimEnd _⟩
  obtain ⟨w, -, hcs⟩ := exists_trimEnd (trimStart cs)
  intro c hc
  refine head?_trimStart cs c ?_
  rw [hcs, List.head?_append, ← trim, Option.mem_def.mp hc]
  rfl

theorem trimStart_eq_self {cs : List Char} (h : ∀ c ∈ cs.head?, isBlank c = false) :
    trimStart cs = cs := by
  cases cs with
  | nil => rfl
  | cons c cs => exact List.dropWhile_cons_of_neg (by simp [h c rfl])

/-- Where no blank ends the text, trimming takes the blanks in front of it only. -/
theorem exists_trim_of_getLast? {cs : List Char} (h : ∀ c ∈ cs.getLast?, isBlank c = false) :
    ∃ w, w.all isBlank = true ∧ cs = w ++ trim cs := by
  obtain ⟨w, hw, hcs⟩ := exists_trimStart cs
  have hlast : ∀ c ∈ (trimStart cs).reverse.head?, isBlank c = false := by
    intro c hc
    rw [List.head?_reverse] at hc
    refine h c ?_
    rw [hcs, List.getLast?_append, Option.mem_def.mp hc]
    rfl
  refine ⟨w, hw, ?_⟩
  rw [trim, trimEnd_eq, trimStart_eq_self hlast, List.reverse_reverse, ← hcs]

theorem trimStart_append {w : List Char} (hw : w.all isBlank = true) (cs : List Char) :
    trimStart (w ++ cs) = trimStart cs :=
  List.dropWhile_append_of_pos (by simpa using hw)

/-- Trimming takes all the padding of a text. -/
theorem trim_append_append {w w' cs : List Char} (hw : w.all isBlank = true)
    (hw' : w'.all isBlank = true) (hcs : Trimmed cs) : trim (w ++ cs ++ w') = cs := by
  cases cs with
  | nil => exact trim_eq_nil_iff.mpr (by simp [hw, hw'])
  | cons c cs =>
    rw [List.append_assoc, trim, trimStart_append hw,
      trimStart_eq_self (by simpa using hcs.1 c rfl), trimEnd_eq, List.reverse_append,
      trimStart_append (by simpa using hw'), trimStart_eq_self, List.reverse_reverse]
    rw [List.head?_reverse]
    exact hcs.2

end AstSchema.Text
