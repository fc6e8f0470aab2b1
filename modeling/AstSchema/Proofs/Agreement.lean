import AstSchema.Proofs.ListingOrder

/-!
# Compiling and listing judge alike

Two commands read the same manifests and do different things with them: one compiles every schema,
the other lists them. Both begin with the entries that the inputs lead to, and both read the schema
of an entry before they do anything else with it, so they stop at the same entry for the same
reason, or not at all.

Compiling an entry is reading its schema and putting an artifact around what is emitted
(`FoundEntry.compile_eq_map`). The rest carries this one equation over lists and stages.
-/

namespace AstSchema

/-! ## Entries -/

namespace FoundEntry

/-- What is delivered for an entry with this schema. -/
def artifact (found : FoundEntry) (outDir : Option Path) (schema : Schema) : Artifact where
  base := found.entry.base
  output := found.entry.outputPath? found.origin outDir
  source := schema.emit found.entry.preamble

/-- Compiling an entry looks at nothing but its schema. -/
theorem compile_eq_map (found : FoundEntry) (outDir : Option Path) :
    found.compile outDir = found.schema.map (found.artifact outDir) := by
  rw [compile, schema, compileWith]
  cases Schema.read found.entry.base found.entry.variants <;> rfl

/-- Entries are compiled as far as their schemas can be read. -/
theorem mapM_compile (outDir : Option Path) (entries : List FoundEntry) :
    entries.mapM (·.compile outDir) =
      (entries.mapM FoundEntry.schema).map
        (List.zipWith (fun found schema ↦ found.artifact outDir schema) entries) := by
  induction entries with
  | nil => rfl
  | cons found rest ih =>
    have hcompile := found.compile_eq_map outDir
    cases hschema : found.schema with
    | error failure =>
      rw [hschema] at hcompile
      rw [mapM_cons_of_error hschema,
        mapM_cons_of_error (f := fun found : FoundEntry ↦ found.compile outDir) hcompile]
      rfl
    | ok schema =>
      rw [hschema] at hcompile
      rw [mapM_cons_of_ok hschema,
        mapM_cons_of_ok (f := fun found : FoundEntry ↦ found.compile outDir) hcompile, ih]
      cases rest.mapM FoundEntry.schema <;> rfl

end FoundEntry

/-! ## Commands -/

/-- **A command that compiles and one that lists fail alike and agree on the schemas.** On the same
inputs either both stop with one and the same failure, or both read the same schemas, entry by
entry: one command emits them with the preambles of their entries, the other lists them. -/
theorem CompileCommand.run_artifacts_listing (command : CompileCommand) (output : Option Path)
    (describe : Bool) (w : World) :
    ∃ compiling listing,
      (∃ failure, w.run command.artifacts = (.error failure, w.remark compiling) ∧
        w.run (ListCommand.mk command.inputs output describe).listing =
          (.error failure, w.remark listing)) ∨
      ∃ entries schemas, w.files.entriesOf command.inputs = .ok entries ∧
        List.Forall₂ (fun found schema ↦ found.schema = .ok schema) entries schemas ∧
        w.run command.artifacts =
          (.ok (List.zipWith (fun found schema ↦
            { base := found.entry.base
              output := found.entry.outputPath? found.origin command.outDir
              source := schema.emit found.entry.preamble }) entries schemas),
            w.remark compiling) ∧
        w.run (ListCommand.mk command.inputs output describe).listing =
          (.ok (Listing.ofSchemas schemas), w.remark listing) := by
  obtain ⟨compiling, hcompile⟩ := command.run_artifacts w
  have hlist := (ListCommand.mk command.inputs output describe).run_listing w
  refine ⟨compiling, (ListCommand.mk command.inputs output describe).notices w.files, ?_⟩
  rw [hcompile, hlist, CompileCommand.compiled, ListCommand.schemas]
  cases w.files.entriesOf command.inputs with
  | error failure => exact .inl ⟨failure, rfl, rfl⟩
  | ok entries =>
    have hmap := FoundEntry.mapM_compile command.outDir entries
    cases hschemas : entries.mapM FoundEntry.schema with
    | error failure =>
      rw [hschemas] at hmap
      exact .inl ⟨failure, congrArg (·, w.remark compiling) hmap,
        congrArg (fun result ↦ (result.map Listing.ofSchemas, w.remark _)) hschemas⟩
    | ok schemas =>
      rw [hschemas] at hmap
      exact .inr ⟨entries, schemas, rfl, mapM_eq_ok_iff.mp hschemas,
        congrArg (·, w.remark compiling) hmap,
        congrArg (fun result ↦ (result.map Listing.ofSchemas, w.remark _)) hschemas⟩

end AstSchema
