/-!
# JSON texts for people

A document is what a JSON text says, without numbers and literals, of which there is no use here.
Its text is spread over lines: every element and every member has a line of its own, two blanks
further in than what it is part of, and only what is empty stays on one line.

A string shows every character as it is, but for quotes and backslashes, which are escaped, and
for control characters, which JSON does not allow in strings.
-/

namespace AstSchema.Json

/-- What a JSON text says. -/
inductive Document
  /-- A string. -/
  | text (s : String)
  /-- An array. -/
  | array (items : List Document)
  /-- An object, with its members in order. -/
  | object (members : List (String × Document))

/-- How a character is written in a string. -/
def writeChar (c : Char) : List Char :=
  if c = '"' then ['\\', '"']
  else if c = '\\' then ['\\', '\\']
  else if c = '\n' then ['\\', 'n']
  else if c = '\r' then ['\\', 'r']
  else if c = '\t' then ['\\', 't']
  else if c = '\x08' then ['\\', 'b']
  else if c = '\x0c' then ['\\', 'f']
  else if c.toNat < 0x20 then
    ['\\', 'u', '0', '0', Nat.digitChar (c.toNat / 16), Nat.digitChar (c.toNat % 16)]
  else [c]

/-- A string as it is written. -/
def writeString (s : String) : List Char := '"' :: s.toList.flatMap writeChar ++ ['"']

namespace Document

/-- The start of a line that is this deep inside. -/
def newline (depth : Nat) : List Char := '\n' :: List.replicate (2 * depth) ' '

mutual

/-- The text of a document that begins in a line this deep inside. -/
def write (depth : Nat) : Document → List Char
  | text s => writeString s
  | array [] => ['[', ']']
  | array (item :: items) =>
    '[' :: newline (depth + 1) ++ item.write (depth + 1) ++ writeItems depth items
  | object [] => ['\x7b', '\x7d']
  | object ((key, value) :: members) =>
    '\x7b' :: newline (depth + 1) ++ writeString key ++ [':', ' '] ++ value.write (depth + 1) ++
      writeMembers depth members

/-- The elements that follow another one, and the end of the array. -/
def writeItems (depth : Nat) : List Document → List Char
  | [] => newline depth ++ [']']
  | item :: items =>
    ',' :: newline (depth + 1) ++ item.write (depth + 1) ++ writeItems depth items

/-- The members that follow another one, and the end of the object. -/
def writeMembers (depth : Nat) : List (String × Document) → List Char
  | [] => newline depth ++ ['\x7d']
  | (key, value) :: members =>
    ',' :: newline (depth + 1) ++ writeString key ++ [':', ' '] ++ value.write (depth + 1) ++
      writeMembers depth members

end

/-- The text of a document. -/
def render (document : Document) : String := String.ofList (document.write 0)

end Document

end AstSchema.Json
