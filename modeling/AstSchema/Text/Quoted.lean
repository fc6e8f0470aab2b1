import AstSchema.Text.Printable

/-!
# Quoted text

A quoted text stands between double quotes and shows every character in a form that can be read
off a terminal. The frequent controls have an escape of two characters, an unprintable character
and one that would attach itself to its neighbour are given by their code point, and everything
else stands for itself.

Texts and paths are quoted by the same rule but for the apostrophe, which a quoted path escapes
although the quotes around it are double.
-/

namespace AstSchema.Text

/-- The escape that gives a character by its code point in hexadecimal digits. -/
def codePointEscape (c : Char) : List Char :=
  ['\\', 'u', '\x7b'] ++ Nat.toDigits 16 c.toNat ++ ['\x7d']

/-- How `c` is shown inside quotes; `apostrophe` says whether an apostrophe is escaped. -/
def showChar (apostrophe : Bool) (c : Char) : List Char :=
  if c = '\x00' then ['\\', '0']
  else if c = '\t' then ['\\', 't']
  else if c = '\r' then ['\\', 'r']
  else if c = '\n' then ['\\', 'n']
  else if c = '\\' then ['\\', '\\']
  else if c = '"' then ['\\', '"']
  else if c = '\'' && apostrophe then ['\\', '\'']
  else if graphemeExtend.has c then codePointEscape c
  else if isPrintable c then [c]
  else codePointEscape c

/-- A text between double quotes. -/
def quoted (s : String) : String :=
  String.ofList ('"' :: s.toList.flatMap (showChar false) ++ ['"'])

/-- A path between double quotes. -/
def quotedPath (s : String) : String :=
  String.ofList ('"' :: s.toList.flatMap (showChar true) ++ ['"'])

end AstSchema.Text
