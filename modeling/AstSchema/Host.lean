import AstSchema.FileTree

/-!
# What a run asks of its surroundings

A run reads and writes files, looks into directories and reports what it does. `Host` names these
requests, and everything the program does is written against them. Two hosts answer: the system
itself, at the outermost layer of the program, and a `World`, which is plain data and therefore
what statements about runs speak of.

A world is more orderly than a system. Its files are a `FileTree`, which has no links, no
permissions and no full disk, and keeps no trace of a write that failed. A report always arrives:
no stream is ever closed, and `Host.report` has no error to give. Nobody else touches the files in
the course of a run. So a statement about worlds holds of a system as far as the system is like this.

Reports are kept as events and not as text. Generated text and notices go to the same stream, but
a notice is only shown if the user asked for its level, and what was generated can be told from
what was remarked.
-/

namespace AstSchema

/-! ## Reports -/

/-- How much the user wants to be told. -/
inductive LogLevel
  /-- Nothing. -/
  | off
  /-- Errors. -/
  | error
  /-- Warnings, too. -/
  | warning
  /-- What is done, too. -/
  | info
  /-- What is read, too. -/
  | debug
  /-- Everything. -/
  | trace
  deriving DecidableEq, Repr

/-- The order of levels, from nothing to everything. -/
def LogLevel.rank : LogLevel → Nat
  | off => 0
  | error => 1
  | warning => 2
  | info => 3
  | debug => 4
  | trace => 5

/-- A remark about what happens in a run. -/
inductive Notice
  /-- A manifest is about to be read. -/
  | loading (manifest : Path)
  /-- An entry of a manifest is about to be compiled. -/
  | compiling (base : String) (manifest : Path)
  /-- A category is listed under a name that has been listed before. -/
  | redefined (base : String)
  /-- A file is missing or differs from what would be written. -/
  | outOfDate (output : Path)
  /-- A schema without an output cannot be out of date. -/
  | nothingToCheck (base : String)
  /-- A file has been written. -/
  | wrote (base : String) (output : Path)
  deriving DecidableEq, Repr

namespace Notice

/-- The level from which on the notice is shown. -/
def level : Notice → LogLevel
  | loading _ => .debug
  | compiling _ _ => .info
  | redefined _ => .warning
  | outOfDate _ => .warning
  | nothingToCheck _ => .warning
  | wrote _ _ => .info

/-- The message for the user. -/
def message : Notice → String
  | loading manifest => "loading manifest " ++ manifest.text
  | compiling base manifest => "compiling `" ++ base ++ "` from " ++ manifest.text
  | redefined base => "schema `" ++ base ++ "` defined more than once; keeping the last"
  | outOfDate output => output.text ++ " is out of date"
  | nothingToCheck base => "schema `" ++ base ++ "` has no output file; nothing to check"
  | wrote base output => "wrote `" ++ base ++ "` to " ++ output.text

/-- The name of the level, as wide as the widest. -/
def tag (notice : Notice) : String :=
  match notice.level with
  | .off => "OFF  "
  | .error => "ERROR"
  | .warning => "WARN "
  | .info => "INFO "
  | .debug => "DEBUG"
  | .trace => "TRACE"

/-- The line that shows the notice. -/
def line (notice : Notice) : String :=
  notice.tag ++ " [astgen::cli] " ++ notice.message ++ "\n"

end Notice

/-- Something a run reports. -/
inductive Event
  /-- Generated text. -/
  | generated (text : String)
  /-- A remark. -/
  | notice (notice : Notice)
  /-- A description of the command line, for whoever looks for a mistake. -/
  | description (text : String)
  deriving DecidableEq, Repr

namespace Event

/-- What the event adds to the standard output. -/
def standardOutput (level : LogLevel) : Event → String
  | generated text => text
  | notice n => if n.level.rank ≤ level.rank then n.line else ""
  | description _ => ""

/-- What the event adds to the standard error stream. -/
def standardError : Event → String
  | description text => text
  | _ => ""

/-- The text that was generated, if any. -/
def generated? : Event → Option String
  | generated text => some text
  | _ => none

end Event

/-! ## Hosts -/

/-- The requests that a run makes. -/
class Host (m : Type → Type) where
  /-- The bytes of a file. -/
  readFile : Path → m (Except FileError ByteArray)
  /-- Replaces the bytes of a file. -/
  writeFile : Path → ByteArray → m (Except FileError Unit)
  /-- Makes a directory in an existing one. -/
  makeDirectory : Path → m (Except FileError Unit)
  /-- The names in a directory. -/
  names : Path → m (Except FileError (List String))
  /-- Whether a path leads to a directory. -/
  isDirectory : Path → m Bool
  /-- Whether a path leads to anything. -/
  isPresent : Path → m Bool
  /-- Takes note of an event. -/
  report : Event → m Unit

section

variable {m : Type → Type} [Monad m] [Host m]

/-- The text of a file. -/
def readText (p : Path) : m (Except FileError String) := do
  match ← Host.readFile p with
  | .error e => return .error e
  | .ok content =>
    match String.fromUTF8? content with
    | none => return .error .notText
    | some text => return .ok text

/-- Accepts that a directory could not be made if it is there. -/
def unlessDirectory (p : Path) (e : FileError) : m (Except FileError Unit) := do
  if ← Host.isDirectory p then return .ok () else return .error e

/-- Makes a directory and whatever directories above it are missing. The empty path is the
directory that relative paths start from, which exists. -/
def makeDirectories (p : Path) : m (Except FileError Unit) := do
  if p.text.isEmpty then return .ok ()
  match ← Host.makeDirectory p with
  | .ok () => return .ok ()
  | .error .missing =>
    match _hparent : p.parent? with
    | none => return .error .missing
    | some parent =>
      match ← makeDirectories parent with
      | .error e => return .error e
      | .ok () =>
        -- A path such as `new/..` exists as soon as the directories above it do.
        match ← Host.makeDirectory p with
        | .ok () => return .ok ()
        | .error e => unlessDirectory p e
  | .error e => unlessDirectory p e
termination_by p.text.toList.length
decreasing_by exact Path.length_parent? _hparent

end

/-! ## Worlds -/

/-- Files and the events reported so far. -/
structure World where
  /-- The files. -/
  files : FileTree
  /-- The events, in order. -/
  events : List Event

namespace World

/-- The world after one more event. -/
def report (w : World) (event : Event) : World := { w with events := w.events ++ [event] }

/-- The world with other files. -/
def withFiles (w : World) (files : FileTree) : World := { w with files }

/-- The text generated so far. -/
def generated (w : World) : String := String.join (w.events.filterMap Event.generated?)

/-- What the standard output shows. -/
def standardOutput (w : World) (level : LogLevel) : String :=
  String.join (w.events.map (·.standardOutput level))

/-- What the standard error stream shows. -/
def standardError (w : World) : String := String.join (w.events.map Event.standardError)

end World

instance : Host (StateM World) where
  readFile p := fun w ↦ (w.files.read p, w)
  writeFile p content := fun w ↦
    match w.files.write p content with
    | .error e => (.error e, w)
    | .ok files => (.ok (), w.withFiles files)
  makeDirectory p := fun w ↦
    match w.files.makeDirectory p with
    | .error e => (.error e, w)
    | .ok files => (.ok (), w.withFiles files)
  names p := fun w ↦ (w.files.names p, w)
  isDirectory p := fun w ↦ (w.files.isDirectory p, w)
  isPresent p := fun w ↦ (w.files.isPresent p, w)
  report event := fun w ↦ ((), w.report event)

end AstSchema
