import AstSchema.Path

/-!
# Patterns of file names

A pattern is a path in which some characters stand for others: an asterisk for any text, a
question mark for any character, and a bracket for any character of a set or for any outside it.
Two asterisks that are a whole component stand for any number of directories.

A pattern is checked as a whole before it is cut into components, and every component is checked
again by itself, because a bracket may reach over a slash. A fault names the place where it was
noticed, counted in characters.
-/

namespace AstSchema.Glob

/-- Part of a set of characters. -/
inductive Range
  /-- One character. -/
  | single (c : Char)
  /-- All characters between two, these included. -/
  | between (first last : Char)
  deriving DecidableEq, Repr

/-- Whether `c` belongs to the range. -/
def Range.has (c : Char) : Range → Bool
  | single d => c == d
  | between first last => first ≤ c && c ≤ last

/-- What a piece of a pattern stands for. -/
inductive Token
  /-- One character, as it is. -/
  | literal (c : Char)
  /-- Any character. -/
  | anyChar
  /-- Any text. -/
  | anyText
  /-- Any number of directories. -/
  | anyDepth
  /-- Any character of a set. -/
  | within (ranges : List Range)
  /-- Any character outside a set. -/
  | except (ranges : List Range)
  deriving DecidableEq, Repr

/-- Why a pattern is none. -/
inductive Complaint
  /-- More than two asterisks in a row. -/
  | wildcards
  /-- Two asterisks beside something else. -/
  | recursive
  /-- A bracket without an end. -/
  | range
  deriving DecidableEq, Repr

/-- What is wrong with a pattern, and where. -/
structure Fault where
  /-- The place, counted in characters from zero. -/
  place : Nat
  /-- What is wrong there. -/
  complaint : Complaint
  deriving DecidableEq, Repr

/-- The message for the user. -/
def Fault.message (fault : Fault) : String :=
  "Pattern syntax error near position " ++ toString fault.place ++ ": " ++
    match fault.complaint with
    | .wildcards => "wildcards are either regular `*` or recursive `**`"
    | .recursive => "recursive wildcards must form a single path component"
    | .range => "invalid range pattern"

/-! ## Reading patterns -/

/-- The ranges of a set. -/
def ranges : List Char → List Range
  | a :: '-' :: b :: rest => .between a b :: ranges rest
  | a :: rest => .single a :: ranges rest
  | [] => []

/-- Reads the set behind an opening bracket, which ends at the first closing bracket behind its
first character. -/
def readSet (cs : List Char) : Option (Token × List Char) :=
  let (outside, body) := match cs with
    | '!' :: rest => (true, rest)
    | rest => (false, rest)
  match body with
  | [] => none
  | first :: rest =>
    match rest.dropWhile (· != ']') with
    | [] => none
    | _ :: behind =>
      let members := ranges (first :: rest.takeWhile (· != ']'))
      some (if outside then .except members else .within members, behind)

/-- Reads a pattern from the place with this index, behind the character `last`. The fuel is the
number of characters left. -/
def readFrom (fuel : Nat) (index : Nat) (last : Option Char) (cs : List Char) :
    Except Fault (List Token) :=
  match fuel, cs with
  | _, [] => .ok []
  | 0, _ => .ok []
  | fuel + 1, c :: rest =>
    if c = '?' then
      (Token.anyChar :: ·) <$> readFrom fuel (index + 1) (some c) rest
    else if c = '*' then
      let stars := (rest.takeWhile (· == '*')).length + 1
      let behind := rest.dropWhile (· == '*')
      if 2 < stars then .error ⟨index + 2, .wildcards⟩
      else if stars = 2 then
        if last = none ∨ last = some '/' then
          match behind with
          | [] => .ok [.anyDepth]
          | '/' :: behind => (Token.anyDepth :: ·) <$> readFrom fuel (index + 3) (some '/') behind
          | _ => .error ⟨index + 2, .recursive⟩
        else .error ⟨index - 1, .recursive⟩
      else (Token.anyText :: ·) <$> readFrom fuel (index + 1) (some c) rest
    else if c = '[' then
      match readSet rest with
      | none => .error ⟨index, .range⟩
      | some (token, behind) =>
        (token :: ·) <$> readFrom fuel (index + 1 + (rest.length - behind.length)) (some ']') behind
    else
      (Token.literal c :: ·) <$> readFrom fuel (index + 1) (some c) rest

/-- Reads a pattern. -/
def read (cs : List Char) : Except Fault (List Token) := readFrom cs.length 0 none cs

/-- Whether a text is meant as a pattern and not as a path. -/
def isPattern (s : String) : Bool :=
  s.toList.any fun c ↦ c == '*' || c == '?' || c == '[' || c == '{'

/-! ## Matching -/

/-- Whether `c` is what a token for one character stands for. -/
def Token.accepts (c : Char) : Token → Bool
  | literal d => c == d
  | anyChar => true
  | within members => members.any (·.has c)
  | except members => !members.any (·.has c)
  | anyText | anyDepth => false

/-- Whether the tokens stand for the text. -/
def «matches» : List Token → List Char → Bool
  | [], cs => cs.isEmpty
  | token :: rest, cs =>
    if token = .anyText ∨ token = .anyDepth then
      «matches» rest cs ||
        match cs with
        | [] => false
        | _ :: cs => «matches» (token :: rest) cs
    else
      match cs with
      | [] => false
      | c :: cs => token.accepts c && «matches» rest cs
termination_by tokens cs => tokens.length + cs.length

/-- The text that the tokens stand for, where it is the only one. -/
def plainText? : List Token → Option (List Char)
  | [] => some []
  | .literal c :: rest => (plainText? rest).map (c :: ·)
  | _ => none

end AstSchema.Glob
