import AstSchema.Text.Case

/-!
# Lower case

The mapping of a text to lower case is the full one, not the character-by-character one, and it
differs from the latter in two places. The capital I with a dot above becomes two characters, so
that the dot survives. The Greek capital sigma has two small forms, and which one is right depends
on whether it ends a word, so the mapping looks at the text on both sides of the letter.

A text is therefore walked with the characters already passed kept nearest first. Characters that
carry no case of their own, such as apostrophes and combining marks, are looked through in both
directions.
-/

namespace AstSchema.Text

/-- The small letter of `c`, or `c` itself where it has none or has several. -/
def smallLetter (c : Char) : Char :=
  match lowercaseRuns.find? (·.has c.toNat) with
  | some run => Char.ofNat (c.toNat + run.offset).toNat
  | none => c

/-- Whether the first character that does not lack case of its own is a cased one. -/
def meetsCased (cs : List Char) : Bool :=
  match cs.dropWhile caseIgnorable.has with
  | [] => false
  | c :: _ => cased.has c

/-- The lower case of `c` between the characters `before`, nearest first, and `after`. -/
def lowercaseAt (before : List Char) (c : Char) (after : List Char) : List Char :=
  if c = 'Σ' then
    if meetsCased before && !meetsCased after then ['ς'] else ['σ']
  else if c = 'İ' then
    ['i', '\u0307']
  else
    [smallLetter c]

/-- The lower case of a text that stands behind `before`, which is kept nearest first. -/
def lowercaseBehind (before : List Char) : List Char → List Char
  | [] => []
  | c :: cs => lowercaseAt before c cs ++ lowercaseBehind (c :: before) cs

/-- The full mapping to lower case. -/
def lowercase (s : String) : String := String.ofList (lowercaseBehind [] s.toList)

theorem lowercaseAt_ne_nil (before : List Char) (c : Char) (after : List Char) :
    lowercaseAt before c after ≠ [] := by
  unfold lowercaseAt
  split
  · split <;> simp
  · split <;> simp

/-- Only the empty text has an empty lower case. -/
theorem lowercaseBehind_eq_nil_iff {before cs : List Char} :
    lowercaseBehind before cs = [] ↔ cs = [] := by
  cases cs with
  | nil => simp [lowercaseBehind]
  | cons c cs => simp [lowercaseBehind, lowercaseAt_ne_nil]

end AstSchema.Text
