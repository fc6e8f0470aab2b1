import AstSchema.Schema
import AstSchema.Text.Blank
import AstSchema.Text.Lines

/-!
# Generated source text

For one schema the generated Rust source is an optional preamble, an enum with one struct-like
variant for every variant of the schema, an empty line, and a trait with a single visitor method.

The text is made as a list of lines, each of which ends in a line feed, because that is how its
parts combine: every part is a list of lines of its own and the whole is their concatenation. The
lines say what is written and not what a reader of the file sees as a line. A name or a type may
hold a line feed itself, and goes out as it is.

The output is a function of the preamble and the schema alone. Nothing is sorted, made unique or
checked.
-/

namespace AstSchema

open AstSchema.Text

/-! ## The preamble -/

/-- What is written in front of an enum. -/
structure Preamble where
  /-- Comment lines at the very top. -/
  header : Option String := none
  /-- Paths brought into scope, in order. -/
  imports : List String := []
  /-- Traits to derive for the enum, in order. -/
  derives : List String := []
  deriving DecidableEq, Repr, Inhabited

namespace Preamble

/-- A line of the header as a comment. An empty line gets no blank behind its slashes. -/
def comment (line : String) : String := if line.isEmpty then "//" else "// " ++ line

/-- The header as comments, with an empty line behind them. -/
def headerLines : Option String → List String
  | none => []
  | some header => (linesOf header).map comment ++ [""]

/-- One line for every import, with an empty line behind them. -/
def importLines : List String → List String
  | [] => []
  | imports => imports.map (fun path ↦ "use " ++ trimmed path ++ ";") ++ [""]

/-- One attribute for all derived traits. -/
def deriveLines : List String → List String
  | [] => []
  | derives => ["#[derive(" ++ String.intercalate ", " (derives.map trimmed) ++ ")]"]

/-- The lines of the preamble. -/
def lines (preamble : Preamble) : List String :=
  headerLines preamble.header ++ importLines preamble.imports ++ deriveLines preamble.derives

@[simp] theorem lines_default : lines {} = [] := rfl

end Preamble

/-! ## The enum -/

/-- What a line is indented by. -/
def indent : String := "    "

/-- The line of a field. -/
def Field.line (field : Field) : String :=
  indent ++ indent ++ field.name ++ ": " ++ field.type ++ ","

/-- The lines of a variant. -/
def Variant.lines (variant : Variant) : List String :=
  (indent ++ variant.name ++ " \x7b") :: variant.fields.map Field.line ++ [indent ++ "\x7d,"]

namespace Schema

/-- The lines of the enum. -/
def enumLines (schema : Schema) : List String :=
  ("pub enum " ++ schema.base ++ " \x7b") :: schema.variants.flatMap Variant.lines ++ ["\x7d"]

/-! ## The visitor -/

/-- The keywords that may be used as a name when they are marked as raw. -/
def rawKeywords : List String :=
  [ "as", "async", "await", "break", "const", "continue", "dyn", "else", "enum", "extern",
    "false", "fn", "for", "gen", "if", "impl", "in", "let", "loop", "match", "mod", "move",
    "mut", "pub", "ref", "return", "static", "struct", "trait", "true", "try", "type",
    "unsafe", "use", "where", "while", "abstract", "become", "box", "do", "final", "macro",
    "override", "priv", "typeof", "unsized", "virtual", "yield" ]

/-- The keywords that no mark turns into a name. -/
def reservedWords : List String := ["self", "super", "crate", "_"]

/-- The name of a parameter called `stem`: a keyword is marked as raw, and where that is not
possible it gets an underscore. -/
def parameterName (stem : String) : String :=
  if reservedWords.contains stem then stem ++ "_"
  else if rawKeywords.contains stem then "r#" ++ stem
  else stem

/-- The lines of the visitor trait. -/
def visitorLines (schema : Schema) : List String :=
  [ "pub trait Visitor<R, E> \x7b",
    indent ++ "fn visit_" ++ schema.stem ++ "(&mut self, " ++ parameterName schema.stem ++ ": &" ++
      schema.base ++ ") -> Result<R, E>;",
    "\x7d" ]

/-- All lines generated for a schema. -/
def sourceLines (preamble : Preamble) (schema : Schema) : List String :=
  preamble.lines ++ schema.enumLines ++ [""] ++ schema.visitorLines

end Schema

/-! ## The text -/

/-- The text of lines that each end in a line feed. -/
def textOfLines (lines : List String) : String := String.join (lines.map (· ++ "\n"))

theorem textOfLines_append (ls ms : List String) :
    textOfLines (ls ++ ms) = textOfLines ls ++ textOfLines ms := by
  rw [← String.toList_inj]
  simp [textOfLines, String.toList_join]

/-- The source generated for a schema. -/
def Schema.emit (preamble : Preamble) (schema : Schema) : String :=
  textOfLines (schema.sourceLines preamble)

/-- A source text in the making: the preamble that the next schema gets and what is written so
far. -/
structure SourceText where
  /-- The preamble of the schemas still to come. -/
  preamble : Preamble := {}
  /-- The text written so far. -/
  text : String := ""
  deriving Repr, Inhabited

namespace SourceText

/-- The same text with another preamble for the schemas still to come. -/
def withPreamble (source : SourceText) (preamble : Preamble) : SourceText :=
  { source with preamble }

/-- The text with the source of one more schema behind it. -/
def emit (source : SourceText) (schema : Schema) : SourceText :=
  { source with text := source.text ++ schema.emit source.preamble }

end SourceText

end AstSchema
