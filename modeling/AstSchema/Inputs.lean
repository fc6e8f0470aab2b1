import AstSchema.Failure
import AstSchema.Schema.Reading

/-!
# Inputs

An input is the path of a manifest, or a pattern for such paths. All inputs are resolved before
any manifest is read, and all manifests are read before anything in them is looked at, so a fault
in the last input is found before any schema of the first is compiled.

A path that is no pattern is taken as it is, and whether it leads anywhere turns out when it is
read. A pattern has to stand for one path at least.
-/

namespace AstSchema

/-- A manifest and where it was found. -/
structure FoundManifest where
  /-- The path that it was read from. -/
  origin : Path
  /-- The manifest. -/
  manifest : Manifest

/-- An entry and where its manifest was found. -/
structure FoundEntry where
  /-- The path that the manifest was read from. -/
  origin : Path
  /-- The entry. -/
  entry : Manifest.Entry

/-- The entries of a manifest, in their order. -/
def FoundManifest.entries (found : FoundManifest) : List FoundEntry :=
  found.manifest.schemas.map fun entry ↦ ⟨found.origin, entry⟩

/-- The schema of an entry. -/
def FoundEntry.schema (found : FoundEntry) : Except Failure Schema :=
  match Schema.read found.entry.base found.entry.variants with
  | .error error => .error (.rejectedSchema found.entry.base found.origin error)
  | .ok schema => .ok schema

section

variable {m : Type → Type} [Monad m] [Host m]

/-- The paths that an input stands for. -/
def resolveInput (input : String) : m (Except Failure (List Path)) := do
  if Glob.isPattern input then
    match Glob.Pattern.read input with
    | .error fault => return .error (.badPattern fault)
    | .ok pattern =>
      match ← Glob.expand pattern with
      | .error error => return .error (.unlistable error)
      | .ok [] => return .error (.unmatched input)
      | .ok paths => return .ok paths
  else return .ok [⟨input⟩]

/-- The paths that some inputs stand for, in the order of the inputs. -/
def resolveInputs : List String → m (Except Failure (List Path))
  | [] => pure (.ok [])
  | input :: rest => do
    match ← resolveInput input with
    | .error failure => return .error failure
    | .ok paths =>
      match ← resolveInputs rest with
      | .error failure => return .error failure
      | .ok others => return .ok (paths ++ others)

/-- Reads a manifest. -/
def loadManifest (origin : Path) : m (Except Failure FoundManifest) := do
  Host.report (.notice (.loading origin))
  match ← readText origin with
  | .error error => return .error (.unreadableManifest origin error)
  | .ok text =>
    match Manifest.ofJson text with
    | .error error => return .error (.invalidManifest origin error)
    | .ok manifest => return .ok ⟨origin, manifest⟩

/-- Reads manifests in their order. -/
def loadManifests : List Path → m (Except Failure (List FoundManifest))
  | [] => pure (.ok [])
  | origin :: rest => do
    match ← loadManifest origin with
    | .error failure => return .error failure
    | .ok found =>
      match ← loadManifests rest with
      | .error failure => return .error failure
      | .ok others => return .ok (found :: others)

/-- The entries of all manifests that some inputs stand for. -/
def loadEntries (inputs : List String) : m (Except Failure (List FoundEntry)) := do
  match ← resolveInputs inputs with
  | .error failure => return .error failure
  | .ok paths =>
    match ← loadManifests paths with
    | .error failure => return .error failure
    | .ok found => return .ok (found.flatMap FoundManifest.entries)

end

end AstSchema
