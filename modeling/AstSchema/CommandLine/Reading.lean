import AstSchema.CommandLine
import AstSchema.CommandLine.Grammar

/-!
# Reading the command line

How much to be told may be said on either side of the subcommand, and what is said behind it
counts. Everything else belongs to a subcommand. The options behind the subcommand are read first,
and a fault in them is reported before one in the values of the last option in front of it.
-/

namespace AstSchema

namespace LogLevel

/-- All levels. -/
def all : List LogLevel := [off, error, warning, info, debug, trace]

/-- The word for a level. -/
def word : LogLevel → String
  | off => "off"
  | error => "error"
  | warning => "warning"
  | info => "info"
  | debug => "debug"
  | trace => "trace"

/-- The level that a word stands for. -/
def ofWord? (word : String) : Option LogLevel := all.find? (·.word == word)

theorem ofWord?_word (level : LogLevel) : ofWord? level.word = some level := by
  cases level <;> decide

end LogLevel

namespace CommandLine

/-! ## Options -/

/-- Says how much the user wants to be told. -/
def logOption : OptionSpec where
  name := "log"
  meaning := .value ⟨"LOG", .choice (LogLevel.all.map LogLevel.word), false, false⟩

/-- Asks for the help text. -/
def helpOption : OptionSpec := ⟨"help", some 'h', .help⟩

/-- Asks for the version. -/
def versionOption : OptionSpec := ⟨"version", some 'V', .version⟩

/-- Gives manifests. -/
def inputOption : OptionSpec := ⟨"input", some 'i', .value ⟨"INPUT", .text, true, true⟩⟩

/-- Gives the directory that is written to. -/
def outDirOption : OptionSpec := ⟨"out-dir", none, .value ⟨"OUT_DIR", .path, false, false⟩⟩

/-- Gives the file that is written to. -/
def outOption : OptionSpec := ⟨"out", some 'o', .value ⟨"OUT", .path, false, false⟩⟩

/-- Gives a trait to derive. -/
def deriveOption : OptionSpec := ⟨"derive", none, .value ⟨"DERIVES", .text, false, true⟩⟩

/-- Gives a path to bring into scope. -/
def importOption : OptionSpec := ⟨"import", none, .value ⟨"IMPORTS", .text, false, true⟩⟩

/-- Leaves out header and imports. -/
def bareOption : OptionSpec := ⟨"bare", none, .flag⟩

/-- Compares files and does not write them. -/
def checkOption : OptionSpec := ⟨"check", none, .flag⟩

/-- Describes the command line and does nothing else. -/
def describeOption : OptionSpec := ⟨"no-op", none, .flag⟩

/-! ## Levels -/

/-- What stands in front of a subcommand. -/
def topLevel : Level where
  options := [logOption, helpOption, versionOption]
  subcommands := ["rust", "schema", "preset", "help"]

/-- What stands behind `rust`. -/
def compileLevel : Level where
  options := [inputOption, outDirOption, checkOption, describeOption, logOption, helpOption]

/-- What stands behind `schema`. -/
def listLevel : Level where
  options := [inputOption, outOption, describeOption, logOption, helpOption]

/-- What stands behind `preset`. -/
def presetLevel : Level where
  options :=
    [ outDirOption, deriveOption, importOption, bareOption, checkOption, describeOption,
      logOption, helpOption ]
  places := 1

/-! ## Commands -/

/-- Whether an option was met. -/
def Scan.given (scan : Scan) (option : OptionSpec) : Bool := scan.has option.name

/-- The last value of an option, as a path. -/
def Scan.path? (scan : Scan) (option : OptionSpec) : Option Path :=
  (scan.valuesOf option.name).getLast?.map Path.mk

/-- The level that was chosen. -/
def Scan.logLevel? (scan : Scan) : Option LogLevel :=
  (scan.valuesOf logOption.name).getLast?.bind LogLevel.ofWord?

/-- The manifests, of which there must be one. -/
def inputs (scan : Scan) : Except UsageError (List String) :=
  if scan.given inputOption then .ok (scan.valuesOf inputOption.name)
  else .error (.missing inputOption.shown)

/-- The command to compile manifests. -/
def compileCommand (scan : Scan) : Except UsageError Command :=
  match inputs scan with
  | .error error => .error error
  | .ok inputs =>
    .ok (.compile
      ⟨inputs, scan.path? outDirOption, scan.given checkOption, scan.given describeOption⟩)

/-- The command to list schemas. -/
def listCommand (scan : Scan) : Except UsageError Command :=
  match inputs scan with
  | .error error => .error error
  | .ok inputs => .ok (.list ⟨inputs, scan.path? outOption, scan.given describeOption⟩)

/-- The command to compile built-in schemas. -/
def presetCommand (scan : Scan) : Except UsageError Command :=
  match scan.values with
  | [] => .error (.missing "<NAME>")
  | name :: _ =>
    .ok (.preset
      ⟨name, scan.path? outDirOption, scan.valuesOf deriveOption.name,
        scan.valuesOf importOption.name, scan.given bareOption, scan.given checkOption,
        scan.given describeOption⟩)

/-- What follows from asking for help on some words: they may only name one subcommand. -/
def helpOn : List String → UsageError
  | [] => .helpAsked
  | word :: rest =>
    if topLevel.subcommands.contains word then
      match rest with
      | [] => .helpAsked
      | other :: _ => .unknownSubcommand other
    else .unknownSubcommand word

/-- Reads what stands behind a subcommand, which `top` stands in front of. -/
def readSubcommand (top : Scan) (level : Level) (command : Scan → Except UsageError Command)
    (words : List String) : Except UsageError Invocation :=
  match level.read words with
  | .error error => .error error
  | .ok scan =>
    match command scan with
    | .error error => .error error
    | .ok command =>
      -- Only now are the values of the last option in front of the subcommand looked at.
      match top.settle with
      | .error error => .error error
      | .ok top => .ok ⟨(scan.logLevel?.or top.logLevel?).getD .warning, command⟩

/-- What words without a subcommand amount to. -/
def withoutSubcommand (top : Scan) : UsageError :=
  match top.settle with
  | .error error => error
  | .ok top => if top.occurrences.isEmpty then .nothingGiven else .missingSubcommand

/-- Reads a command line without the name of the program. -/
def read (words : List String) : Except UsageError Invocation :=
  match Scan.run topLevel {} false words with
  | .error error => .error error
  | .ok (top, none) => .error (withoutSubcommand top)
  | .ok (top, some (word, rest)) =>
    if word = "rust" then readSubcommand top compileLevel compileCommand rest
    else if word = "schema" then readSubcommand top listLevel listCommand rest
    else if word = "preset" then readSubcommand top presetLevel presetCommand rest
    else .error (helpOn rest)

end CommandLine

end AstSchema
