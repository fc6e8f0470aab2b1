import AstSchema.CommandLine.Reading
import AstSchema.Delivery

/-!
# Conclusions

When the program ends, whoever started it sees a number and some last lines. The number is zero
only if the user got what was asked for. Files that are not up to date are named one by one, and a
failure is told on one line, with its reasons behind it.

Help and version go to the standard output if they were asked for. Where nothing was asked for,
the help text is shown as well, but as the complaint that it then is.
-/

namespace AstSchema

/-- What is left of the program when it ends. -/
structure Conclusion where
  /-- The number that tells how it ended. -/
  exitCode : UInt32
  /-- The last lines on the standard output. -/
  output : String
  /-- The last lines on the standard error stream. -/
  complaint : String
  deriving DecidableEq, Repr

/-! ## Command lines that make no request -/

namespace CommandLine

/-- The name and the version of the program. -/
def versionText : String := "astgen 0.1.0\n"

/-- How the program is used. -/
def helpText : String :=
  "compile AST schema lines into a Rust enum plus a `Visitor<R, E>` trait\n\n" ++
  "Usage: astgen [--log <LOG>] <COMMAND>\n\n" ++
  "Commands:\n" ++
  "  rust    compile every schema in one or more manifests\n" ++
  "  schema  parse manifests and print the schema IR as JSON\n" ++
  "  preset  emit one of the built-in schema families (e.g. `lox`)\n" ++
  "  help    print this message\n"

namespace UsageError

/-- The message for the user. -/
def message : UsageError → String
  | helpAsked => helpText
  | versionAsked => versionText
  | nothingGiven => helpText
  | missingSubcommand => "'astgen' requires a subcommand but one was not provided"
  | unknownSubcommand word => "unrecognized subcommand '" ++ word ++ "'"
  | unknownWord word => "unexpected argument '" ++ word ++ "' found"
  | missing shown => "the following required arguments were not provided:\n  " ++ shown
  | missingValue shown => "a value is required for '" ++ shown ++ "' but none was supplied"
  | refusedValue shown value words =>
    "invalid value '" ++ value ++ "' for '" ++ shown ++ "'\n  [possible values: " ++
      String.intercalate ", " words ++ "]"
  | repeated shown => "the argument '" ++ shown ++ "' cannot be used multiple times"
  | unwantedValue shown value =>
    "unexpected value '" ++ value ++ "' for '" ++ shown ++ "' found; no more were expected"

/-- How the program ends. -/
def conclusion (error : UsageError) : Conclusion :=
  match error with
  | helpAsked => ⟨0, error.message, ""⟩
  | versionAsked => ⟨0, error.message, ""⟩
  | nothingGiven => ⟨2, "", error.message⟩
  | _ => ⟨2, "", "error: " ++ error.message ++ "\n\nFor more information, try '--help'.\n"⟩

end UsageError

end CommandLine

/-! ## Runs -/

/-- Whether colours are wanted. The first setting that says something counts: one that asks for
colours, one that rules them out, and one that allows them on a terminal. -/
def wantsColours (force never allow : Option String) (terminal : Bool) : Bool :=
  if force.any (· != "0") then true
  else if never.isSome then false
  else terminal && allow.all (· != "0")

/-- A word in front of a message, in bold letters of a colour if colours are wanted. -/
def label (coloured : Bool) (colour word : String) : String :=
  if coloured then "\x1b[1;" ++ colour ++ "m" ++ word ++ "\x1b[0m" else word

/-- How the program ends after a run. -/
def Conclusion.ofRun (coloured : Bool) : Except Failure Outcome → Conclusion
  | .ok .done => ⟨0, "", ""⟩
  | .ok (.stale outputs) =>
    ⟨2, "", String.join (outputs.map fun output ↦
      label coloured "33" "stale:" ++ " " ++ output.text ++ "\n")⟩
  | .error failure =>
    ⟨1, "", label coloured "31" "error:" ++ " " ++ String.intercalate ": " failure.chain ++ "\n"⟩

end AstSchema
