import AstSchema.Proofs.FirstFailure
import AstSchema.Run
import Mathlib.Data.List.Induction

/-!
# The order of a listing

Schemas are listed one after the other, and one of a category that is listed already takes the
place of the one before it. What comes out depends on the list of schemas in two ways that pull
apart: the first schema of a category decides where it stands, and the last one what is shown.
`Listing.schemas_ofSchemas` says both in one equation.

A run that lists entries makes a remark where a category occurs again, up to the entry that stops it.
These remarks are a function of the entries (`redefinitions`), and so are all remarks of a command
that lists schemas a function of the files (`ListCommand.notices`). Every schema is either new in
the listing or remarked on, so the remarks can be counted without a look at the order.
-/

namespace AstSchema

/-! ## Listings -/

/-- The last schema of a category. -/
def Schema.lastOf (schemas : List Schema) (base : String) : Option Schema :=
  (schemas.filter (·.base == base)).getLast?

theorem Schema.lastOf_append (schemas : List Schema) (schema : Schema) (base : String) :
    lastOf (schemas ++ [schema]) base =
      if schema.base = base then some schema else lastOf schemas base := by
  rw [lastOf, List.filter_append]
  by_cases h : schema.base = base
  · rw [List.filter_cons_of_pos (by simpa using h), if_pos h, List.filter_nil,
      List.getLast?_concat]
  · rw [List.filter_cons_of_neg (by simpa using h), if_neg h, List.filter_nil, List.append_nil,
      lastOf]

namespace Listing

/-- The listing of some schemas. -/
def ofSchemas (schemas : List Schema) : Listing := schemas.foldl put ⟨[], List.nodup_nil⟩

theorem ofSchemas_append (schemas : List Schema) (schema : Schema) :
    ofSchemas (schemas ++ [schema]) = (ofSchemas schemas).put schema := by
  rw [ofSchemas, List.foldl_append]
  rfl

variable {listing : Listing} {schema : Schema}

theorem schemas_put_of_has (h : listing.has schema.base = true) :
    (listing.put schema).schemas = listing.schemas.map (replace schema) := by
  rw [put, dif_pos h]

theorem schemas_put_of_not_has (h : listing.has schema.base = false) :
    (listing.put schema).schemas = listing.schemas ++ [schema] := by
  rw [put, dif_neg (by simp [h])]

/-- A schema is new in the listing or takes a place that is there. -/
theorem length_schemas_put (listing : Listing) (schema : Schema) :
    (listing.put schema).schemas.length =
      listing.schemas.length + if listing.has schema.base then 0 else 1 := by
  cases h : listing.has schema.base with
  | true => rw [schemas_put_of_has h, List.length_map]; rfl
  | false => rw [schemas_put_of_not_has h, List.length_append]; rfl

/-- A listing has a category where it first occurred. -/
theorem map_base_ofSchemas (schemas : List Schema) :
    (ofSchemas schemas).schemas.map Schema.base = (schemas.map Schema.base).eraseDups := by
  induction schemas using List.reverseRecOn with
  | nil => rfl
  | append_singleton schemas schema ih =>
    -- By induction, what is listed already is what occurred among the schemas before.
    have hmem : (ofSchemas schemas).has schema.base = true ↔
        schema.base ∈ schemas.map Schema.base := by
      rw [has_eq_true_iff, ih, List.mem_eraseDups]
    rw [ofSchemas_append, List.map_append, List.eraseDups_append, ← ih, List.map_singleton]
    cases h : (ofSchemas schemas).has schema.base with
    | true =>
      have hremove : [schema.base].removeAll (schemas.map Schema.base) = [] := by
        simpa [List.removeAll] using hmem.mp h
      rw [schemas_put_of_has h, map_base_replace, hremove, List.eraseDups_nil, List.append_nil]
    | false =>
      have hremove : [schema.base].removeAll (schemas.map Schema.base) = [schema.base] := by
        simpa [List.removeAll] using mt hmem.mpr (by simp [h])
      rw [schemas_put_of_not_has h, hremove, List.map_append]
      rfl

/-- What a listing shows of a category is its last schema. -/
theorem lastOf_of_mem_ofSchemas (schemas : List Schema) :
    ∀ shown ∈ (ofSchemas schemas).schemas, Schema.lastOf schemas shown.base = some shown := by
  induction schemas using List.reverseRecOn with
  | nil => exact fun shown h ↦ absurd h List.not_mem_nil
  | append_singleton schemas schema ih =>
    intro shown hshown
    rw [ofSchemas_append] at hshown
    rw [Schema.lastOf_append]
    cases h : (ofSchemas schemas).has schema.base with
    | true =>
      rw [schemas_put_of_has h] at hshown
      obtain ⟨old, hold, rfl⟩ := List.mem_map.mp hshown
      rw [base_replace, replace]
      by_cases hbase : old.base = schema.base
      · rw [if_pos hbase.symm, if_pos hbase]
      · rw [if_neg (Ne.symm hbase), if_neg hbase, ih old hold]
    | false =>
      rw [schemas_put_of_not_has h, List.mem_append, List.mem_singleton] at hshown
      rcases hshown with hold | rfl
      · have hne : schema.base ≠ shown.base := by
          intro heq
          rw [Bool.eq_false_iff, ne_eq, has_eq_true_iff, heq] at h
          exact h (List.mem_map_of_mem hold)
        rw [if_neg hne, ih shown hold]
      · rw [if_pos rfl]

/-- **The first schema of a category says where it stands, the last one what is shown.** -/
theorem schemas_ofSchemas (schemas : List Schema) :
    (ofSchemas schemas).schemas =
      (schemas.map Schema.base).eraseDups.filterMap (Schema.lastOf schemas) := by
  have hlast : (ofSchemas schemas).schemas.filterMap (Schema.lastOf schemas ∘ Schema.base) =
      (ofSchemas schemas).schemas.filterMap some :=
    List.filterMap_congr (lastOf_of_mem_ofSchemas schemas)
  rw [← map_base_ofSchemas, List.filterMap_map, hlast, List.filterMap_some]

end Listing

/-! ## Categories of entries -/

theorem Schema.base_of_read {base : String} {lines : List String} {schema : Schema}
    (h : read base lines = .ok schema) : schema.base = Text.trimmed base := by
  rw [read] at h
  split at h
  · cases h
  · split at h
    · cases h
    · obtain rfl := Except.ok.inj h
      rfl

theorem FoundEntry.base_of_schema {found : FoundEntry} {schema : Schema}
    (h : found.schema = .ok schema) : schema.base = Text.trimmed found.entry.base := by
  rw [FoundEntry.schema] at h
  split at h
  · cases h
  · next hread =>
    obtain rfl := Except.ok.inj h
    exact Schema.base_of_read hread

/-- Whether an entry has a schema. -/
def FoundEntry.hasSchema (found : FoundEntry) : Bool := found.schema.isOk

theorem FoundEntry.hasSchema_of_schema {found : FoundEntry} {schema : Schema}
    (h : found.schema = .ok schema) : found.hasSchema = true := by
  rw [hasSchema, h]
  rfl

theorem FoundEntry.not_hasSchema_of_schema {found : FoundEntry} {failure : Failure}
    (h : found.schema = .error failure) : ¬found.hasSchema = true := by
  rw [hasSchema, h]
  exact Bool.false_ne_true

theorem takeWhile_hasSchema {entries : List FoundEntry} {schemas : List Schema}
    (h : List.Forall₂ (fun found schema ↦ found.schema = .ok schema) entries schemas) :
    entries.takeWhile FoundEntry.hasSchema = entries := by
  induction h with
  | nil => rfl
  | cons hfound _ ih => rw [List.takeWhile_cons_of_pos (FoundEntry.hasSchema_of_schema hfound), ih]

/-! ## Remarks -/

/-- Whether the remark is that a category occurs again. -/
def Notice.isRedefinition : Notice → Bool
  | redefined _ => true
  | _ => false

/-- The remarks on entries of categories that have occurred, given those that are listed. -/
def redefinitions (listed : List String) : List FoundEntry → List Notice
  | [] => []
  | found :: rest =>
    if Text.trimmed found.entry.base ∈ listed then
      .redefined found.entry.base :: redefinitions listed rest
    else redefinitions (listed ++ [Text.trimmed found.entry.base]) rest

theorem isRedefinition_of_mem_redefinitions {listed : List String} {entries : List FoundEntry} :
    ∀ notice ∈ redefinitions listed entries, notice.isRedefinition = true := by
  induction entries generalizing listed with
  | nil => exact fun notice h ↦ absurd h List.not_mem_nil
  | cons found rest ih =>
    intro notice h
    rw [redefinitions] at h
    by_cases hlisted : Text.trimmed found.entry.base ∈ listed
    · rw [if_pos hlisted, List.mem_cons] at h
      rcases h with rfl | h
      · rfl
      · exact ih notice h
    · rw [if_neg hlisted] at h
      exact ih notice h

/-- An entry adds to the listing or to the remarks. -/
theorem redefinitions_cons {found : FoundEntry} {schema : Schema} (h : found.schema = .ok schema)
    (listing : Listing) (rest : List FoundEntry) :
    redefinitions (listing.schemas.map Schema.base) (found :: rest) =
      (if listing.has schema.base then [.redefined found.entry.base] else []) ++
        redefinitions ((listing.put schema).schemas.map Schema.base) rest := by
  rw [redefinitions, ← FoundEntry.base_of_schema h]
  by_cases hlisted : schema.base ∈ listing.schemas.map Schema.base
  · have hhas : listing.has schema.base = true := Listing.has_eq_true_iff.mpr hlisted
    rw [if_pos hlisted, if_pos hhas, Listing.schemas_put_of_has hhas, Listing.map_base_replace]
    rfl
  · have hhas : listing.has schema.base = false :=
      Bool.eq_false_iff.mpr fun hhas ↦ hlisted (Listing.has_eq_true_iff.mp hhas)
    rw [if_neg hlisted, hhas, if_neg Bool.false_ne_true, Listing.schemas_put_of_not_has hhas,
      List.map_append]
    rfl

/-- Every schema adds to the listing or to the remarks. -/
theorem length_redefinitions {entries : List FoundEntry} {schemas : List Schema}
    (h : List.Forall₂ (fun found schema ↦ found.schema = .ok schema) entries schemas)
    (listing : Listing) :
    (redefinitions (listing.schemas.map Schema.base) entries).length +
        (schemas.foldl Listing.put listing).schemas.length =
      listing.schemas.length + schemas.length := by
  induction h generalizing listing with
  | nil => simp [redefinitions]
  | @cons found schema rest others hfound _ ih =>
    have hrest := ih (listing.put schema)
    have hput := Listing.length_schemas_put listing schema
    rw [redefinitions_cons hfound, List.length_append, List.foldl_cons, List.length_cons]
    by_cases hhas : listing.has schema.base = true
    · rw [if_pos hhas] at hput ⊢
      rw [List.length_singleton]
      omega
    · rw [if_neg hhas] at hput ⊢
      rw [List.length_nil]
      omega

/-- The remarks that a category occurs again are as many as there are schemas more than
categories. -/
theorem countP_isRedefinition {entries : List FoundEntry} {schemas : List Schema}
    (h : List.Forall₂ (fun found schema ↦ found.schema = .ok schema) entries schemas)
    (origins : List Path) :
    (origins.map Notice.loading ++ redefinitions [] entries).countP Notice.isRedefinition +
        (schemas.map Schema.base).eraseDups.length = schemas.length := by
  have hnone : (origins.map Notice.loading).countP Notice.isRedefinition = 0 := by
    simp [List.countP_eq_zero, Notice.isRedefinition]
  have hlength : (redefinitions [] entries).length +
      (Listing.ofSchemas schemas).schemas.length = 0 + schemas.length := length_redefinitions h {}
  rw [List.countP_append, hnone,
    List.countP_eq_length.mpr isRedefinition_of_mem_redefinitions, ← Listing.map_base_ofSchemas,
    List.length_map]
  omega

/-! ## Runs that list -/

/-- A schema of a category that is listed already is remarked on. -/
theorem run_remark_redefined {α : Type} (listed : Bool) (base : String) (next : StateM World α)
    (w : World) :
    w.run (do
        if listed then Host.report (.notice (.redefined base))
        next) =
      (w.remark (if listed then [.redefined base] else [])).run next := by
  cases listed with
  | true => rfl
  | false =>
    show w.run next = (w.remark []).run next
    rw [World.remark_nil]

/-- Listing entries changes nothing and remarks on each category that occurs again, up to the first
entry without a schema. -/
theorem run_listEntries (listing : Listing) (entries : List FoundEntry) (w : World) :
    w.run (listEntries listing entries) =
      ((entries.mapM FoundEntry.schema).map (·.foldl Listing.put listing),
        w.remark (redefinitions (listing.schemas.map Schema.base)
          (entries.takeWhile FoundEntry.hasSchema))) := by
  induction entries generalizing listing w with
  | nil =>
    rw [List.takeWhile_nil, redefinitions, World.remark_nil]
    rfl
  | cons found rest ih =>
    rw [listEntries]
    cases hfound : found.schema with
    | error failure =>
      rw [List.takeWhile_cons_of_neg (FoundEntry.not_hasSchema_of_schema hfound), redefinitions,
        World.remark_nil, mapM_cons_of_error hfound]
      rfl
    | ok schema =>
      rw [List.takeWhile_cons_of_pos (FoundEntry.hasSchema_of_schema hfound),
        redefinitions_cons hfound, mapM_cons_of_ok hfound]
      dsimp only
      rw [run_remark_redefined, ih, World.remark_remark]
      cases rest.mapM FoundEntry.schema <;> rfl

namespace ListCommand

/-- The schemas that a command lists, as far as the files decide it. -/
def schemas (command : ListCommand) (t : FileTree) : Except Failure (List Schema) := do
  let entries ← t.entriesOf command.inputs
  entries.mapM FoundEntry.schema

/-- The remarks of a command that lists schemas: on what is read, and on every schema of a category
that is listed already. -/
def notices (command : ListCommand) (t : FileTree) : List Notice :=
  t.loadingsOf command.inputs ++
    match t.entriesOf command.inputs with
    | .error _ => []
    | .ok entries => redefinitions [] (entries.takeWhile FoundEntry.hasSchema)

/-- Listing only remarks on what it does. -/
theorem run_listing (command : ListCommand) (w : World) :
    w.run command.listing =
      ((command.schemas w.files).map Listing.ofSchemas, w.remark (command.notices w.files)) := by
  rw [listing, schemas, notices, World.run_bind (run_loadEntries command.inputs w)]
  cases w.files.entriesOf command.inputs with
  | error failure =>
    rw [List.append_nil]
    rfl
  | ok entries =>
    have hlist := run_listEntries {} entries (w.remark (w.files.loadingsOf command.inputs))
    rw [World.remark_remark] at hlist
    exact hlist

end ListCommand

end AstSchema
