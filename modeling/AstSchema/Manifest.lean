import AstSchema.Path
import AstSchema.SourceText

/-!
# Manifests

A manifest lists the schemas that are compiled together and says where each of them goes. An entry
without an output goes to the standard output. A relative output lies in a given directory, or
beside the manifest where none is given, so that a manifest can be moved along with its outputs.
-/

namespace AstSchema

/-- One schema of a manifest. -/
structure Manifest.Entry where
  /-- The name of the category. -/
  base : String
  /-- The schema lines. -/
  variants : List String
  /-- The file that the source is written to. -/
  output : Option Path := none
  /-- Paths brought into scope by the generated file. -/
  imports : List String := []
  /-- Traits derived for the enum. -/
  derives : List String := []
  /-- Comment lines at the top of the generated file. -/
  header : Option String := none
  deriving DecidableEq, Repr, Inhabited

/-- The schemas that are compiled together. -/
structure Manifest where
  /-- The entries in their order. -/
  schemas : List Manifest.Entry
  deriving DecidableEq, Repr, Inhabited

namespace Manifest.Entry

/-- What is written in front of the entry's enum. -/
def preamble (entry : Entry) : Preamble := ⟨entry.header, entry.imports, entry.derives⟩

/-- The file that the entry of the manifest at `origin` is written to. -/
def outputPath? (entry : Entry) (origin : Path) (outDir : Option Path) : Option Path :=
  entry.output.map fun output ↦
    match outDir with
    | some dir => dir.join output
    | none => (origin.parent?.getD ⟨""⟩).join output

/-- With a directory given, the place of the manifest does not matter. -/
theorem outputPath?_some (entry : Entry) (origin dir : Path) :
    entry.outputPath? origin (some dir) = entry.output.map dir.join := rfl

end Manifest.Entry

end AstSchema
