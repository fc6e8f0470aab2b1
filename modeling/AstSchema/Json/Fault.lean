import AstSchema.Decimal.Shortest
import AstSchema.Text.Quoted

/-!
# Faults in JSON texts

A reader of JSON that wants one particular shape can fail in two ways: the text is no JSON, or it
is JSON of another shape. Either way the fault names its reason, the path of the value at fault,
and a place in the text.

A reader hands on the text that is still to be read and nothing else, so it cannot look at what it
has passed. The place of a fault is therefore kept as the rest of the text at that point, together
with a number of bytes of this rest that count as read. Line and column are worked out once, from
the whole text, when a fault is reported.
-/

namespace AstSchema.Json

/-! ## Paths -/

/-- One step from a value into its parts. -/
inductive Segment
  /-- To the element with this index. -/
  | element (index : Nat)
  /-- To the member with this key. -/
  | member (key : String)
  /-- To a member whose key could not be read. -/
  | unreadable
  deriving DecidableEq, Repr

/-- The text of a segment that follows others. -/
def Segment.following : Segment → String
  | element index => "[" ++ toString index ++ "]"
  | member key => "." ++ key
  | unreadable => ".?"

/-- The text of a segment at the start of a path. -/
def Segment.leading : Segment → String
  | element index => "[" ++ toString index ++ "]"
  | member key => key
  | unreadable => "?"

/-- The text of a path. The path of the whole text is a point. -/
def pathText : List Segment → String
  | [] => "."
  | first :: rest => first.leading ++ String.join (rest.map Segment.following)

/-! ## Reasons -/

/-- What was found where something else was wanted. -/
inductive Found
  /-- The literal `null`. -/
  | null
  /-- A truth value. -/
  | boolean (b : Bool)
  /-- An integer that fits 64 bits. -/
  | integer (n : Int)
  /-- Any other number. -/
  | float (x : Float)
  /-- A string. -/
  | text (s : String)
  /-- The start of an array. -/
  | sequence
  /-- The start of an object. -/
  | map

/-- The text of a number that is no integer: the shortest decimal that reads back. -/
def floatText (x : Float) : String :=
  let sign (negative : Bool) : String := if negative then "-" else ""
  match FloatShape.of x with
  | .nan => "NaN"
  | .infinity negative => sign negative ++ "inf"
  | .zero negative => sign negative ++ "0.0"
  | .finite negative size => sign negative ++ String.ofList (size.shortest .even).dataLayout

/-- How a value that was found is described. -/
def Found.description : Found → String
  | null => "null"
  | boolean b => "boolean `" ++ (if b then "true" else "false") ++ "`"
  | integer n => "integer `" ++ toString n ++ "`"
  | float x => "floating point `" ++ floatText x ++ "`"
  | text s => "string " ++ Text.quoted s
  | sequence => "sequence"
  | map => "map"

/-- Why reading fails. -/
inductive Reason
  /-- The text ends inside an array. -/
  | endInList
  /-- The text ends inside an object. -/
  | endInObject
  /-- The text ends inside a string. -/
  | endInString
  /-- The text ends where a value should be. -/
  | endInValue
  /-- No colon stands behind a key. -/
  | expectedColon
  /-- Neither a comma nor the end stands behind an element. -/
  | expectedCommaOrBracket
  /-- Neither a comma nor the end stands behind a member. -/
  | expectedCommaOrBrace
  /-- A literal is misspelt. -/
  | expectedLiteral
  /-- No value starts like this. -/
  | expectedValue
  /-- No escape looks like this. -/
  | invalidEscape
  /-- No number looks like this. -/
  | invalidNumber
  /-- A number is too large. -/
  | numberOutOfRange
  /-- A control character stands in a string. -/
  | controlCharacter
  /-- A key is no string. -/
  | keyNotString
  /-- A surrogate has no partner. -/
  | loneSurrogate
  /-- The second half of a surrogate pair is missing. -/
  | brokenPair
  /-- Nothing follows a comma. -/
  | trailingComma
  /-- An array has too many elements. -/
  | trailingCharacters
  /-- A member is missing. -/
  | missingField (name : String)
  /-- A member occurs twice. -/
  | duplicateField (name : String)
  /-- A key is none of the expected ones. -/
  | unknownField (name : String) (expected : List String)
  /-- An array has too few elements. -/
  | invalidLength (length : Nat) (wanted : String)
  /-- A value is of the wrong kind. -/
  | invalidType (found : Found) (wanted : String)

/-- The names that a key may have. -/
def alternatives (names : List String) : String :=
  let quotedNames := String.intercalate ", " (names.map fun name ↦ "`" ++ name ++ "`")
  if names.length ≤ 1 then quotedNames else "one of " ++ quotedNames

/-- The message for the author of the text. -/
def Reason.message : Reason → String
  | endInList => "EOF while parsing a list"
  | endInObject => "EOF while parsing an object"
  | endInString => "EOF while parsing a string"
  | endInValue => "EOF while parsing a value"
  | expectedColon => "expected `:`"
  | expectedCommaOrBracket => "expected `,` or `]`"
  | expectedCommaOrBrace => "expected `,` or `\x7d`"
  | expectedLiteral => "expected ident"
  | expectedValue => "expected value"
  | invalidEscape => "invalid escape"
  | invalidNumber => "invalid number"
  | numberOutOfRange => "number out of range"
  | controlCharacter => "control character (\\u0000-\\u001F) found while parsing a string"
  | keyNotString => "key must be a string"
  | loneSurrogate => "lone leading surrogate in hex escape"
  | brokenPair => "unexpected end of hex escape"
  | trailingComma => "trailing comma"
  | trailingCharacters => "trailing characters"
  | missingField name => "missing field `" ++ name ++ "`"
  | duplicateField name => "duplicate field `" ++ name ++ "`"
  | unknownField name expected =>
    "unknown field `" ++ name ++ "`, expected " ++ alternatives expected
  | invalidLength length wanted =>
    "invalid length " ++ toString length ++ ", expected " ++ wanted
  | invalidType found wanted =>
    "invalid type: " ++ found.description ++ ", expected " ++ wanted

/-! ## Places -/

/-- A place in a text. -/
structure Position where
  /-- The line, counted from one. -/
  line : Nat
  /-- The bytes passed since the start of the line. -/
  column : Nat
  deriving DecidableEq, Repr

namespace Position

/-- The start of a text. -/
def start : Position := ⟨1, 0⟩

/-- The place behind `c`. -/
def behind (p : Position) (c : Char) : Position :=
  if c = '\n' then ⟨p.line + 1, 0⟩ else ⟨p.line, p.column + c.utf8Size⟩

/-- The place that many bytes further in the text, or its end if that comes first. -/
def skip (p : Position) : Nat → List Char → Position
  | _, [] => p
  | bytes, c :: cs =>
    if c.utf8Size ≤ bytes then (p.behind c).skip (bytes - c.utf8Size) cs
    else ⟨p.line, p.column + bytes⟩

end Position

/-- A fault on the way: the place is the rest of the text, of which `read` bytes count as read. -/
structure Fault where
  /-- Why reading fails. -/
  reason : Reason
  /-- The text behind the place. -/
  rest : List Char
  /-- The bytes of `rest` that count as read. -/
  read : Nat
  /-- The path of the value at fault, from where the reader started. -/
  path : List Segment

namespace Fault

/-- A fault exactly in front of `rest`. -/
def before (reason : Reason) (rest : List Char) : Fault := ⟨reason, rest, 0, []⟩

/-- A fault at the first byte of `rest`, which counts as read, or at the end of the text. -/
def «at» (reason : Reason) (rest : List Char) : Fault := ⟨reason, rest, 1, []⟩

/-- The same fault seen from the value that holds the part at fault. -/
def inside (fault : Fault) (segment : Segment) : Fault :=
  { fault with path := segment :: fault.path }

/-- Where in the whole text the fault is. -/
def position (fault : Fault) (text : List Char) : Position :=
  let passed := (text.take (text.length - fault.rest.length)).foldl Position.behind .start
  passed.skip fault.read fault.rest

end Fault

/-- What a reader gives: a value and the rest of the text, or a fault. -/
abbrev Result (α : Type) := Except Fault (α × List Char)

end AstSchema.Json
