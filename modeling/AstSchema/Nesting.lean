/-!
# Bracket nesting

Types may hold commas and blanks inside brackets, so a scanner of schema lines has to know how
deep it is. Three kinds of brackets nest, and a closing bracket has to match the innermost one
that is open. The only character whose role depends on its neighbour is `>`: right behind a `-` it
is the head of an arrow and closes nothing.

A `Nesting` is all that is remembered about the text read so far: the kinds of the open brackets,
innermost first, and the last character. Whether the next character is admitted and what is
remembered after it are two functions, because the words of a type are cut out by a scan that
goes on behind a bracket that matches nothing.
-/

namespace AstSchema

/-- The kinds of brackets that nest. -/
inductive Bracket
  /-- `<` and `>`. -/
  | angle
  /-- `(` and `)`. -/
  | round
  /-- `[` and `]`. -/
  | square
  deriving DecidableEq, Repr

namespace Bracket

/-- The kind that `c` opens. -/
def opened? (c : Char) : Option Bracket :=
  if c = '<' then some angle
  else if c = '(' then some round
  else if c = '[' then some square
  else none

/-- The kind that `c` closes where it is a bracket. -/
def closed? (c : Char) : Option Bracket :=
  if c = '>' then some angle
  else if c = ')' then some round
  else if c = ']' then some square
  else none

/-- No character both opens and closes. -/
theorem closed?_eq_none_of_opened? {c : Char} {b : Bracket} (h : opened? c = some b) :
    closed? c = none := by
  unfold opened? at h
  split at h
  · next hc => subst hc; rfl
  · split at h
    · next hc => subst hc; rfl
    · split at h
      · next hc => subst hc; rfl
      · exact absurd h (by simp)

end Bracket

/-- What a scan remembers of the text it has passed. -/
structure Nesting where
  /-- The open brackets, innermost first. -/
  enclosing : List Bracket
  /-- The character passed last. -/
  last : Option Char
  deriving DecidableEq, Repr

namespace Nesting

/-- The start of a scan, outside every bracket. -/
def start : Nesting := ⟨[], none⟩

/-- Whether no bracket is open. -/
def atTop (n : Nesting) : Bool := n.enclosing.isEmpty

@[simp] theorem atTop_start : start.atTop = true := rfl

theorem atTop_iff {n : Nesting} : n.atTop = true ↔ n.enclosing = [] := by
  simp [atTop]

/-- The kind of bracket that `c` closes here. The head of an arrow closes none. -/
def closes? (n : Nesting) (c : Char) : Option Bracket :=
  if c = '>' ∧ n.last = some '-' then none else Bracket.closed? c

/-- Whether `c` may stand here: a closing bracket needs the innermost open one to match. -/
def admits (n : Nesting) (c : Char) : Bool :=
  match n.closes? c with
  | some b => n.enclosing.head? == some b
  | none => true

/-- What is remembered behind `c`. A closing bracket ends the innermost open one even where the
two do not match. -/
def advance (n : Nesting) (c : Char) : Nesting :=
  match Bracket.opened? c with
  | some b => ⟨b :: n.enclosing, some c⟩
  | none =>
    match n.closes? c with
    | some _ => ⟨n.enclosing.tail, some c⟩
    | none => ⟨n.enclosing, some c⟩

/-- One step of a scan that stops at a closing bracket without a match. -/
def step? (n : Nesting) (c : Char) : Option Nesting :=
  if n.admits c then some (n.advance c) else none

/-- The scan of a whole text, which stops at a closing bracket without a match. -/
def scan? (n : Nesting) : List Char → Option Nesting
  | [] => some n
  | c :: cs =>
    match n.step? c with
    | some n' => scan? n' cs
    | none => none

@[simp] theorem last_advance (n : Nesting) (c : Char) : (n.advance c).last = some c := by
  unfold advance
  split
  · rfl
  · split <;> rfl

/-- Scanning a text in two parts is scanning it in one. -/
theorem scan?_append (n : Nesting) (cs ds : List Char) :
    n.scan? (cs ++ ds) = (n.scan? cs).bind (·.scan? ds) := by
  induction cs generalizing n with
  | nil => rfl
  | cons c cs ih =>
    simp only [List.cons_append, scan?]
    cases n.step? c with
    | none => rfl
    | some n' => exact ih n'

end Nesting

/-- Whether every closing bracket of the text matches and none is left open. -/
def isBalanced (cs : List Char) : Bool :=
  match Nesting.start.scan? cs with
  | some n => n.atTop
  | none => false

end AstSchema
