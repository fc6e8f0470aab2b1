import AstSchema.Glob.Expansion
import AstSchema.Malformation
import AstSchema.Manifest.Reading

/-!
# Failures

A run fails for one cause and stops there. A cause knows what was attempted and why that did not
succeed, and its message is a chain: the attempt first, the reasons behind it one after another.
Some reasons are part of the text in front of them and are links of their own all the same.
-/

namespace AstSchema

/-- Why a run fails. -/
inductive Failure
  /-- An input is a pattern and badly written. -/
  | badPattern (fault : Glob.Fault)
  /-- A directory that a pattern leads to cannot be listed. -/
  | unlistable (error : Glob.ListingError)
  /-- A pattern stands for no path. -/
  | unmatched (pattern : String)
  /-- A manifest cannot be read. -/
  | unreadableManifest (manifest : Path) (error : FileError)
  /-- A file holds no manifest. -/
  | invalidManifest (manifest : Path) (error : Manifest.Error)
  /-- A schema of a manifest is malformed. -/
  | rejectedSchema (base : String) (manifest : Path) (error : SchemaError)
  /-- A built-in schema is malformed. -/
  | rejectedPreset (base : String) (error : SchemaError)
  /-- No family of built-in schemas has the name. -/
  | unknownPreset (name : String)
  /-- A file cannot be compared. -/
  | unreadableOutput (output : Path) (error : FileError)
  /-- The directory of a file cannot be made. -/
  | noDirectory (directory : Path) (error : FileError)
  /-- A file cannot be written. -/
  | unwritable (output : Path) (error : FileError)

namespace Failure

/-- What is said where no path can be found for an input. -/
def unresolved : String := "failed to resolve input file paths"

/-- The messages, from what was attempted to the last reason. -/
def chain : Failure → List String
  | badPattern fault => [unresolved, fault.message]
  | unlistable error => [unresolved, error.message, error.error.message]
  | unmatched pattern => [unresolved, "glob pattern matched no files: " ++ pattern]
  | unreadableManifest manifest error =>
    ["failed to read manifest " ++ manifest.text ++ ": " ++ error.message, error.message]
  | invalidManifest manifest error => [error.message manifest, error.located, error.reasonText]
  | rejectedSchema base manifest error =>
    ["schema `" ++ base ++ "` in " ++ manifest.text, error.message]
  | rejectedPreset base error => ["preset schema `" ++ base ++ "`", error.message]
  | unknownPreset name =>
    ["unknown preset `" ++ name ++ "` (expected `lox`, `lox-expr` or `lox-stmt`)"]
  | unreadableOutput output error => ["failed to read " ++ output.text, error.message]
  | noDirectory directory error => ["failed to create " ++ directory.text, error.message]
  | unwritable output error => ["failed to write " ++ output.text, error.message]

end Failure

end AstSchema
