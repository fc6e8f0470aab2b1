/-!
# Options and values

The words of a command line are options, values of options, values on their own, and the name of a
subcommand. A level lists the options that are known between two subcommands, and scanning the
words on a level gives the options that were met, up to the word that names a subcommand.

An option in the long form may bring its value behind an equals sign, and one in the short form
directly behind its letter. Otherwise its values are the words that follow, as far as they do not
look like options; a single hyphen does not. A double hyphen makes values of all words behind it.

The values of an option are only looked at when the next option or value is met, or when the words
end. A fault in them may therefore be reported later than one that is found in between, or not at
all.
-/

namespace AstSchema.CommandLine

/-! ## Levels -/

/-- What a value has to be. -/
inductive ValueKind
  /-- Any text. -/
  | text
  /-- A text that is not empty. -/
  | path
  /-- One of these words. -/
  | choice (words : List String)
  deriving DecidableEq, Repr

/-- The values of an option. -/
structure ValueSpec where
  /-- What they are called in messages. -/
  placeholder : String
  /-- What each has to be. -/
  kind : ValueKind
  /-- Whether there may be more than one behind the option. -/
  many : Bool := false
  /-- Whether the option may be met again. -/
  repeatable : Bool := false
  deriving DecidableEq, Repr

/-- What an option is for. -/
inductive Meaning
  /-- It is either given or not. -/
  | flag
  /-- It gives values. -/
  | value (spec : ValueSpec)
  /-- It asks for the help text. -/
  | help
  /-- It asks for the version. -/
  | version
  deriving DecidableEq, Repr

/-- An option. -/
structure OptionSpec where
  /-- The name behind two hyphens. -/
  name : String
  /-- The letter behind one hyphen. -/
  letter : Option Char := none
  /-- What it is for. -/
  meaning : Meaning
  deriving DecidableEq, Repr

/-- The option as messages show it. -/
def OptionSpec.shown (option : OptionSpec) : String :=
  match option.meaning with
  | .value spec =>
    "--" ++ option.name ++ " <" ++ spec.placeholder ++ ">" ++ if spec.many then "..." else ""
  | _ => "--" ++ option.name

/-- What may stand between two subcommands. -/
structure Level where
  /-- The options. -/
  options : List OptionSpec
  /-- How many values of its own the level takes. -/
  places : Nat := 0
  /-- The subcommands that may follow. -/
  subcommands : List String := []
  deriving DecidableEq, Repr

namespace Level

/-- The option with a name. -/
def named? (level : Level) (name : String) : Option OptionSpec :=
  level.options.find? (·.name == name)

/-- The option with a letter. -/
def lettered? (level : Level) (letter : Char) : Option OptionSpec :=
  level.options.find? (·.letter == some letter)

end Level

/-! ## Errors -/

/-- Why the words do not make a request. -/
inductive UsageError
  /-- The help text is asked for. -/
  | helpAsked
  /-- The version is asked for. -/
  | versionAsked
  /-- There are no words to go by. -/
  | nothingGiven
  /-- There are options and no subcommand. -/
  | missingSubcommand
  /-- A word stands for a subcommand and names none. -/
  | unknownSubcommand (word : String)
  /-- A word is neither an option nor a value. -/
  | unknownWord (word : String)
  /-- Something has to be given. -/
  | missing (shown : String)
  /-- An option has no value, or an empty one. -/
  | missingValue (shown : String)
  /-- A value is none of those that an option knows. -/
  | refusedValue (shown value : String) (words : List String)
  /-- An option is given twice. -/
  | repeated (shown : String)
  /-- An option without values has one. -/
  | unwantedValue (shown value : String)
  deriving DecidableEq, Repr

/-! ## Scanning -/

/-- An option that was met. -/
structure Occurrence where
  /-- The name of the option. -/
  name : String
  /-- Its values. -/
  values : List String
  deriving DecidableEq, Repr

/-- What is known after some words. -/
structure Scan where
  /-- The options met, in order. -/
  occurrences : List Occurrence := []
  /-- The option whose values have not been looked at. -/
  pending : Option (OptionSpec × List String) := none
  /-- The values of the level. -/
  values : List String := []
  deriving DecidableEq, Repr

/-- What is wrong with a value. -/
def ValueKind.error? (shown value : String) : ValueKind → Option UsageError
  | text => none
  | path => if value.isEmpty then some (.missingValue shown) else none
  | choice words =>
    if words.contains value then none else some (.refusedValue shown value words)

namespace Scan

/-- Whether an option was met. -/
def has (scan : Scan) (name : String) : Bool := scan.occurrences.any (·.name == name)

/-- All values of an option. -/
def valuesOf (scan : Scan) (name : String) : List String :=
  (scan.occurrences.filter (·.name == name)).flatMap (·.values)

/-- Whether the next word may still be a value of an option. -/
def isOpen (scan : Scan) : Bool :=
  match scan.pending with
  | none => false
  | some (option, values) =>
    match option.meaning with
    | .value spec => spec.many || values.isEmpty
    | _ => false

/-- Adds an option with its values. -/
def note (scan : Scan) (option : OptionSpec) (values : List String) : Except UsageError Scan :=
  let noted : Scan := { scan with occurrences := scan.occurrences ++ [⟨option.name, values⟩] }
  match option.meaning with
  | .help => .error .helpAsked
  | .version => .error .versionAsked
  | .flag => if scan.has option.name then .error (.repeated option.shown) else .ok noted
  | .value spec =>
    if values.isEmpty then .error (.missingValue option.shown)
    else if !spec.repeatable && scan.has option.name then .error (.repeated option.shown)
    else
      match values.findSome? (spec.kind.error? option.shown) with
      | some error => .error error
      | none => .ok noted

/-- Looks at the values of the last option. -/
def settle (scan : Scan) : Except UsageError Scan :=
  match scan.pending with
  | none => .ok scan
  | some (option, values) => { scan with pending := none }.note option values

/-- Meets an option whose values may follow. -/
def await (scan : Scan) (option : OptionSpec) : Except UsageError Scan :=
  match scan.settle with
  | .error error => .error error
  | .ok scan => .ok { scan with pending := some (option, []) }

/-- Meets an option with all its values. -/
def meet (scan : Scan) (option : OptionSpec) (values : List String) : Except UsageError Scan :=
  match scan.settle with
  | .error error => .error error
  | .ok scan => scan.note option values

/-- Takes an option in the long form. -/
def takeNamed (level : Level) (scan : Scan) (name : String) (value : Option String) :
    Except UsageError Scan :=
  match level.named? name with
  | none => .error (.unknownWord ("--" ++ name))
  | some option =>
    match option.meaning, value with
    | .value _, none => scan.await option
    | .value _, some value => scan.meet option [value]
    | _, none => scan.meet option []
    | _, some value => .error (.unwantedValue option.shown value)

/-- Takes letters that stand behind one hyphen. The first that has a value takes the rest of them
for it, but for one equals sign in between. -/
def takeLetters (level : Level) (scan : Scan) : List Char → Except UsageError Scan
  | [] => .ok scan
  | letter :: rest =>
    match level.lettered? letter with
    | none => .error (.unknownWord (String.ofList ['-', letter]))
    | some option =>
      match option.meaning, rest with
      | .value _, [] => scan.await option
      | .value _, '=' :: value => scan.meet option [String.ofList value]
      | .value _, value => scan.meet option [String.ofList value]
      | _, _ =>
        match scan.meet option [] with
        | .error error => .error error
        | .ok scan => takeLetters level scan rest

/-- Takes a word that is no option. -/
def takeValue (level : Level) (scan : Scan) (trailing : Bool) (word : String) :
    Except UsageError Scan :=
  match scan.pending with
  | some (option, values) =>
    if scan.isOpen && !trailing then
      .ok { scan with pending := some (option, values ++ [word]) }
    else takeOwn
  | none => takeOwn
where
  /-- Takes a word for a value of the level. -/
  takeOwn : Except UsageError Scan :=
    if scan.values.length < level.places then
      match scan.settle with
      | .error error => .error error
      | .ok scan => .ok { scan with values := scan.values ++ [word] }
    else if level.subcommands.isEmpty || trailing && level.subcommands.contains word then
      .error (.unknownWord word)
    else
      .error (.unknownSubcommand word)

/-- Takes the words up to one that names a subcommand, and returns that word and those behind it
as well. -/
def run (level : Level) (scan : Scan) (trailing : Bool) :
    List String → Except UsageError (Scan × Option (String × List String))
  | [] => .ok (scan, none)
  | word :: rest =>
    let goOn : Except UsageError Scan → Except UsageError (Scan × Option (String × List String))
      | .error error => .error error
      | .ok scan => run level scan trailing rest
    if trailing then
      goOn (takeValue level scan trailing word)
    -- A word that an option still waits for names no subcommand.
    else if !scan.isOpen && level.subcommands.contains word then
      .ok (scan, some (word, rest))
    else
      match word.toList with
      | ['-', '-'] => run level scan true rest
      | '-' :: '-' :: text =>
        let name := String.ofList (text.takeWhile (· != '='))
        match text.dropWhile (· != '=') with
        | [] => goOn (takeNamed level scan name none)
        | _ :: value => goOn (takeNamed level scan name (some (String.ofList value)))
      | '-' :: letter :: letters => goOn (takeLetters level scan (letter :: letters))
      -- A single hyphen is a word like any other.
      | _ => goOn (takeValue level scan trailing word)

end Scan

/-- Scans words on a level that has no subcommands. -/
def Level.read (level : Level) (words : List String) : Except UsageError Scan :=
  match Scan.run level {} false words with
  | .error error => .error error
  | .ok (scan, _) => scan.settle

end AstSchema.CommandLine
