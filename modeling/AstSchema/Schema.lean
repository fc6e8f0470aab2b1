import AstSchema.Text.Lowercase

/-!
# Schemas of syntax trees

A schema describes one category of nodes of a syntax tree, such as the expressions or the
statements of a language. It has a name and one variant for every kind of node, and a variant has
named fields.

The type of a field is opaque text. A type may name another category or anything else that is in
scope where the generated code ends up, so nothing here could resolve it, and the text is carried
verbatim from the schema line to the output. Variants and fields keep the order they were written
in and are neither sorted nor made unique.
-/

namespace AstSchema

/-- A field of a node: its name and the text of its type. -/
structure Field where
  /-- The name, without blanks. -/
  name : String
  /-- The text of the type. -/
  type : String
  deriving DecidableEq, Repr, Inhabited

/-- One kind of node. -/
structure Variant where
  /-- The name of the kind. -/
  name : String
  /-- The fields in the order of the schema line. -/
  fields : List Field
  deriving DecidableEq, Repr, Inhabited

/-- One category of nodes. -/
structure Schema where
  /-- The name of the category. -/
  base : String
  /-- One variant for every schema line, in their order. -/
  variants : List Variant
  deriving DecidableEq, Repr, Inhabited

/-- The category's name in lower case, from which the visitor's method is named. -/
def Schema.stem (schema : Schema) : String := Text.lowercase schema.base

end AstSchema
