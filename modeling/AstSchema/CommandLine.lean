import AstSchema.Host
import AstSchema.Text.Quoted

/-!
# The command line

What the user asks for: how much to be told, and one of three commands. Each command can be asked
to do nothing but describe how the command line was understood.
-/

namespace AstSchema

/-- Compile every schema of some manifests. -/
structure CompileCommand where
  /-- The manifests, as paths or patterns. -/
  inputs : List String
  /-- The directory that outputs are written below, in place of that of the manifest. -/
  outDir : Option Path := none
  /-- Whether files are compared and not written. -/
  check : Bool := false
  /-- Whether the command is only described. -/
  describe : Bool := false
  deriving DecidableEq, Repr

/-- List the schemas of some manifests. -/
structure ListCommand where
  /-- The manifests, as paths or patterns. -/
  inputs : List String
  /-- The file that the listing is written to. -/
  output : Option Path := none
  /-- Whether the command is only described. -/
  describe : Bool := false
  deriving DecidableEq, Repr

/-- Compile a family of built-in schemas. -/
structure PresetCommand where
  /-- The name of the family. -/
  name : String
  /-- The directory that files are written to. -/
  outDir : Option Path := none
  /-- The traits derived for every enum. -/
  derives : List String := []
  /-- The imports, in place of the built-in ones. -/
  imports : List String := []
  /-- Whether header and imports are left out. -/
  bare : Bool := false
  /-- Whether files are compared and not written. -/
  check : Bool := false
  /-- Whether the command is only described. -/
  describe : Bool := false
  deriving DecidableEq, Repr

/-- What the program can be asked for. -/
inductive Command
  /-- Compile every schema of some manifests. -/
  | compile (command : CompileCommand)
  /-- List the schemas of some manifests. -/
  | list (command : ListCommand)
  /-- Compile a family of built-in schemas. -/
  | preset (command : PresetCommand)
  deriving DecidableEq, Repr

/-- A command line that has been understood. -/
structure Invocation where
  /-- How much the user wants to be told. -/
  log : LogLevel
  /-- What the user asks for. -/
  command : Command
  deriving DecidableEq, Repr

/-! ## Descriptions -/

/-- A value in a description. -/
inductive Description
  /-- A value on one line. -/
  | atom (text : String)
  /-- A list of values. -/
  | list (items : List Description)
  /-- Named values. -/
  | record (name : String) (fields : List (String × Description))
  /-- A named wrapping of one value. -/
  | wrapped (name : String) (value : Description)

namespace Description

/-- The margin of a line that is this deep inside. -/
def margin (depth : Nat) : String := String.ofList (List.replicate (4 * depth) ' ')

mutual

/-- The text of a value whose first line has a margin already. -/
def render (depth : Nat) : Description → String
  | atom text => text
  | list [] => "[]"
  | list (item :: items) =>
    "[\n" ++ renderItems (depth + 1) (item :: items) ++ margin depth ++ "]"
  | record name fields =>
    name ++ " \x7b\n" ++ renderFields (depth + 1) fields ++ margin depth ++ "\x7d"
  | wrapped name value =>
    name ++ "(\n" ++ margin (depth + 1) ++ value.render (depth + 1) ++ ",\n" ++ margin depth ++ ")"

/-- The lines of the items of a list. -/
def renderItems (depth : Nat) : List Description → String
  | [] => ""
  | item :: rest => margin depth ++ item.render depth ++ ",\n" ++ renderItems depth rest

/-- The lines of the fields of a record. -/
def renderFields (depth : Nat) : List (String × Description) → String
  | [] => ""
  | (name, value) :: rest =>
    margin depth ++ name ++ ": " ++ value.render depth ++ ",\n" ++ renderFields depth rest

end

/-- A truth value. -/
def bool (b : Bool) : Description := atom (if b then "true" else "false")

/-- A list of texts. -/
def texts (ss : List String) : Description := list (ss.map fun s ↦ atom (Text.quoted s))

/-- A path that may be missing. -/
def optionalPath : Option Path → Description
  | none => atom "None"
  | some p => wrapped "Some" (atom (Text.quotedPath p.text))

end Description

/-- The name of a level in a description. -/
def LogLevel.describedName : LogLevel → String
  | off => "Off"
  | error => "Error"
  | warning => "Warning"
  | info => "Info"
  | debug => "Debug"
  | trace => "Trace"

namespace Command

/-- The description of the manifests. -/
def describeInputs (inputs : List String) : Description :=
  .record "InputSettings" [("input", .texts inputs)]

/-- The description of a command. -/
def description : Command → Description
  | compile c =>
    .wrapped "Rust" (.record "RustOut"
      [ ("input_settings", describeInputs c.inputs), ("out_dir", .optionalPath c.outDir),
        ("check", .bool c.check), ("no_op", .bool c.describe) ])
  | list c =>
    .wrapped "Schema" (.record "SchemaOut"
      [ ("input_settings", describeInputs c.inputs), ("out", .optionalPath c.output),
        ("no_op", .bool c.describe) ])
  | preset c =>
    .wrapped "Preset" (.record "PresetOut"
      [ ("name", .atom (Text.quoted c.name)), ("out_dir", .optionalPath c.outDir),
        ("derives", .texts c.derives), ("imports", .texts c.imports), ("bare", .bool c.bare),
        ("check", .bool c.check), ("no_op", .bool c.describe) ])

/-- Whether the command is only described. -/
def isDescribed : Command → Bool
  | compile c => c.describe
  | list c => c.describe
  | preset c => c.describe

end Command

/-- The description of a command line, on lines of its own. -/
def Invocation.description (invocation : Invocation) : String :=
  (Description.record "CommandLineInterface"
    [ ("log", .atom invocation.log.describedName),
      ("cmd", invocation.command.description) ]).render 0 ++ "\n"

end AstSchema
