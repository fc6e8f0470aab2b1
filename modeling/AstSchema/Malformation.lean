/-!
# Why a schema is rejected

A schema is rejected as a whole at the first fault. `Malformation` says what is wrong with one
line and carries the text that its message quotes; `SchemaError` adds which line it was. Messages
are made from the cause in one place, so nothing ever has to take a message apart.
-/

namespace AstSchema

/-- What is wrong with a schema line. -/
inductive Malformation
  /-- No colon stands behind the variant's name. -/
  | missingSeparator
  /-- Nothing but blanks stands in front of the colon. -/
  | emptyVariantName
  /-- A field is blank. -/
  | emptyField
  /-- A field is a single word. -/
  | missingType (field : String)
  /-- The type of a field runs into what looks like the next field. -/
  | missingComma (field : String)
  /-- A closing bracket has no match or an open one is never closed. -/
  | unbalanced (field : String)
  deriving DecidableEq, Repr

namespace Malformation

/-- The text that the message quotes. -/
def field? : Malformation → Option String
  | missingSeparator | emptyVariantName | emptyField => none
  | missingType field | missingComma field | unbalanced field => some field

/-- The message for a reader of the schema. -/
def message : Malformation → String
  | missingSeparator => "missing ':' between variant name and field list"
  | emptyVariantName => "missing variant name before ':'"
  | emptyField => "empty field spec (empty field list or stray comma)"
  | missingType field => "field '" ++ field ++ "' has no type"
  | missingComma field => "missing ',' after field '" ++ field ++ "'"
  | unbalanced field => "unbalanced brackets in field list near '" ++ field ++ "'"

end Malformation

/-- Why a schema is rejected. -/
inductive SchemaError
  /-- The name of the category is blank. -/
  | emptyBaseName
  /-- The line with this index, counted from zero, is malformed. -/
  | malformed (line : Nat) (reason : Malformation)
  deriving DecidableEq, Repr

namespace SchemaError

/-- The message for a reader of the schema. -/
def message : SchemaError → String
  | emptyBaseName => "base name must not be empty"
  | malformed line reason =>
    "malformed schema at line " ++ toString line ++ ": " ++ reason.message

end SchemaError

end AstSchema
