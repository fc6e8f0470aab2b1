import AstSchema.Schema.Reading
import AstSchema.SourceText

/-!
# Compiling schema lines

Compiling is reading a schema and emitting it. Every call is independent of every other: several
categories that name each other may be compiled in any order, and making the names meet is the
caller's task.
-/

namespace AstSchema

/-- Compiles one schema with a preamble. -/
def compileWith (preamble : Preamble) (base : String) (lines : List String) :
    Except SchemaError String :=
  match Schema.read base lines with
  | .error error => .error error
  | .ok schema => .ok (schema.emit preamble)

/-- Compiles one schema without a preamble. -/
def compile (base : String) (lines : List String) : Except SchemaError String :=
  compileWith {} base lines

theorem compileWith_eq_ok_iff {preamble : Preamble} {base : String} {lines : List String}
    {source : String} :
    compileWith preamble base lines = .ok source ↔
      ∃ schema, Schema.read base lines = .ok schema ∧ schema.emit preamble = source := by
  unfold compileWith
  cases Schema.read base lines <;> simp

theorem compileWith_eq_error_iff {preamble : Preamble} {base : String} {lines : List String}
    {error : SchemaError} :
    compileWith preamble base lines = .error error ↔ Schema.read base lines = .error error := by
  unfold compileWith
  cases Schema.read base lines <;> simp

end AstSchema
