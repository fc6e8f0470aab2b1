import AstSchema.CommandLine
import AstSchema.Compilation
import AstSchema.Delivery
import AstSchema.Listing
import AstSchema.Preset

/-!
# Runs

A run carries out one command. Whatever is compiled is compiled completely before any of it is
delivered, so a schema that is malformed leaves no file behind and generates no text.
-/

namespace AstSchema

section

variable {m : Type → Type} [Monad m] [Host m]

/-! ## Compiling manifests -/

/-- Compiles an entry. -/
def FoundEntry.compile (found : FoundEntry) (outDir : Option Path) : Except Failure Artifact :=
  let entry := found.entry
  match compileWith entry.preamble entry.base entry.variants with
  | .error error => .error (.rejectedSchema entry.base found.origin error)
  | .ok source => .ok ⟨entry.base, entry.outputPath? found.origin outDir, source⟩

/-- Compiles entries up to the first that is malformed. -/
def compileEntries (outDir : Option Path) : List FoundEntry → m (Except Failure (List Artifact))
  | [] => pure (.ok [])
  | found :: rest => do
    Host.report (.notice (.compiling found.entry.base found.origin))
    match found.compile outDir with
    | .error failure => return .error failure
    | .ok artifact =>
      match ← compileEntries outDir rest with
      | .error failure => return .error failure
      | .ok others => return .ok (artifact :: others)

/-- What a command to compile manifests delivers. -/
def CompileCommand.artifacts (command : CompileCommand) :
    m (Except Failure (List Artifact)) := do
  match ← loadEntries command.inputs with
  | .error failure => return .error failure
  | .ok entries => compileEntries command.outDir entries

/-- Compiles and delivers every schema of some manifests. -/
def CompileCommand.run (command : CompileCommand) : m (Except Failure Outcome) := do
  match ← command.artifacts with
  | .error failure => return .error failure
  | .ok artifacts => deliver artifacts command.check

/-! ## Listing schemas -/

/-- Lists entries behind those that are listed already, up to the first that is malformed. -/
def listEntries (listing : Listing) : List FoundEntry → m (Except Failure Listing)
  | [] => pure (.ok listing)
  | found :: rest => do
    match found.schema with
    | .error failure => return .error failure
    | .ok schema =>
      if listing.has schema.base then
        Host.report (.notice (.redefined found.entry.base))
      listEntries (listing.put schema) rest

/-- What a command to list schemas shows. -/
def ListCommand.listing (command : ListCommand) : m (Except Failure Listing) := do
  match ← loadEntries command.inputs with
  | .error failure => return .error failure
  | .ok entries => listEntries {} entries

/-- Lists the schemas of some manifests. -/
def ListCommand.run (command : ListCommand) : m (Except Failure Outcome) := do
  match ← command.listing with
  | .error failure => return .error failure
  | .ok listing =>
    let text := listing.document.render
    match command.output with
    | none =>
      Host.report (.generated (text ++ "\n"))
      return .ok .done
    | some output =>
      match ← writeText output text with
      | .error failure => return .error failure
      | .ok () => return .ok .done

/-! ## Compiling built-in schemas -/

/-- What is written in front of a preset's enum. Without imports of its own the command takes
those that the preset expects. -/
def PresetCommand.preamble (command : PresetCommand) (preset : Preset) : Preamble :=
  if command.bare then { derives := command.derives }
  else
    { header := some "generated by astgen; do not edit"
      imports := if command.imports.isEmpty then preset.defaultImports else command.imports
      derives := command.derives }

/-- Compiles a preset. -/
def PresetCommand.compile (command : PresetCommand) (preset : Preset) :
    Except Failure Artifact :=
  match preset.compile (command.preamble preset) with
  | .error error => .error (.rejectedPreset preset.base error)
  | .ok source =>
    .ok ⟨preset.base, command.outDir.map (·.join ⟨preset.fileStem ++ ".rs"⟩), source⟩

/-- What a command to compile built-in schemas delivers. -/
def PresetCommand.artifacts (command : PresetCommand) : Except Failure (List Artifact) :=
  match Preset.family? command.name with
  | none => .error (.unknownPreset command.name)
  | some presets => presets.mapM command.compile

/-- Compiles and delivers a family of built-in schemas. -/
def PresetCommand.run (command : PresetCommand) : m (Except Failure Outcome) := do
  match command.artifacts with
  | .error failure => return .error failure
  | .ok artifacts => deliver artifacts command.check

/-! ## Any command -/

/-- Carries out a command. -/
def Command.run : Command → m (Except Failure Outcome)
  | compile command => command.run
  | list command => command.run
  | preset command => command.run

/-- Does what a command line asks for. -/
def Invocation.run (invocation : Invocation) : m (Except Failure Outcome) := do
  if invocation.command.isDescribed then
    Host.report (.description invocation.description)
    return .ok .done
  else invocation.command.run

end

end AstSchema
