import AstSchema.Nesting
import AstSchema.Text.Blank

/-!
# The words of a type

The text of a type is opaque but for one question: did its author forget a comma, so that the next
field's name and type were read as part of it? Outside brackets the words of a type are few, and
every word but the first has to be joined to the one before it. An arrow and a plus join whatever
stands around them, and some words announce that more of the type follows: references and
pointers, lifetimes, qualifiers such as `mut` and `dyn`, the pieces of a function type, a quoted
calling convention. Two neighbours that nothing joins are the end of one field and the start of
another.
-/

namespace AstSchema.TypeText

open AstSchema.Text

/-! ## Words that announce more of the type -/

/-- Whether `c` may start the name of a lifetime. -/
def startsName (c : Char) : Bool := c.isAlpha || c == '_'

/-- Whether `c` may stand in the name of a lifetime. -/
def continuesName (c : Char) : Bool := c.isAlphanum || c == '_'

/-- A lifetime: an apostrophe and a name. -/
def isLifetime : List Char → Bool
  | '\'' :: c :: cs => startsName c && cs.all continuesName
  | _ => false

/-- The qualifiers that a type goes on behind. -/
def qualifiers : List (List Char) :=
  ["mut", "dyn", "impl", "const", "unsafe", "extern", "fn", "for", "where", "as"].map String.toList

/-- A binder of lifetimes: `for` with a text in angle brackets that holds no line feed. -/
def isBinder : List Char → Bool
  | 'f' :: 'o' :: 'r' :: '<' :: cs => cs.getLast? == some '>' && !cs.dropLast.contains '\n'
  | _ => false

/-- A quoted calling convention: no quote stands between the two around it. -/
def isConvention : List Char → Bool
  | '"' :: cs => cs.getLast? == some '"' && !cs.dropLast.contains '"'
  | _ => false

/-- Whether a type goes on behind the word: any number of `&` and `*`, and behind them nothing, a
lifetime, a qualifier, a binder or a calling convention. -/
def announces (word : List Char) : Bool :=
  let rest := word.dropWhile fun c ↦ c == '&' || c == '*'
  rest.isEmpty || isLifetime rest || qualifiers.contains rest || isBinder rest || isConvention rest

/-! ## Words at the top of a type -/

/-- Whether the word joins its two neighbours. -/
def isJoint (word : List Char) : Bool := word == ['-', '>'] || word == ['+']

/-- Whether `next` may follow `word` in one type. -/
def joined (word next : List Char) : Bool := isJoint next || isJoint word || announces word

/-- The words outside brackets of the text behind a scan. The word in progress is kept last
character first, and a blank inside brackets belongs to its word. -/
def wordsFrom (n : Nesting) (current : List Char) : List Char → List (List Char)
  | [] => if current.isEmpty then [] else [current.reverse]
  | c :: cs =>
    if isBlank c && n.atTop then
      if current.isEmpty then wordsFrom n [] cs else current.reverse :: wordsFrom n [] cs
    else
      wordsFrom (n.advance c) (c :: current) cs

/-- The words of a type outside brackets. -/
def words (type : List Char) : List (List Char) := wordsFrom .start [] type

/-- Whether two neighbours of the list are not joined. -/
def hasGap : List (List Char) → Bool
  | word :: next :: rest => !joined word next || hasGap (next :: rest)
  | _ => false

/-- Whether the text of a type runs into another field. -/
def runsOn (type : List Char) : Bool := hasGap (words type)

end AstSchema.TypeText
