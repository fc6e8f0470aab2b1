import AstSchema.Json.Document
import AstSchema.Schema

/-!
# Listings

A listing shows schemas by the names of their categories. Of several schemas of one category the
last is listed, and it takes the place of the first.
-/

namespace AstSchema

/-- Schemas of different categories, in order. -/
structure Listing where
  /-- The schemas. -/
  schemas : List Schema := []
  /-- No two schemas are of one category. -/
  nodup : (schemas.map Schema.base).Nodup := by simp

namespace Listing

/-- Whether a category is listed. -/
def has (listing : Listing) (base : String) : Bool := listing.schemas.any (·.base == base)

theorem has_eq_true_iff {listing : Listing} {base : String} :
    listing.has base = true ↔ base ∈ listing.schemas.map Schema.base := by
  simp only [has, List.any_eq_true, beq_iff_eq, List.mem_map]

/-- The schema in place of `old`, if both are of one category. -/
def replace (schema old : Schema) : Schema := if old.base = schema.base then schema else old

theorem base_replace (schema old : Schema) : (replace schema old).base = old.base := by
  unfold replace
  split <;> simp_all

theorem map_base_replace (schema : Schema) (schemas : List Schema) :
    (schemas.map (replace schema)).map Schema.base = schemas.map Schema.base := by
  simp [base_replace]

/-- Lists a schema, in place of the one of the same category if there is one. -/
def put (listing : Listing) (schema : Schema) : Listing :=
  if h : listing.has schema.base then
    ⟨listing.schemas.map (replace schema), by rw [map_base_replace]; exact listing.nodup⟩
  else
    ⟨listing.schemas ++ [schema], by
      rw [has_eq_true_iff] at h
      simp only [List.map_append, List.map_cons, List.map_nil]
      rw [List.nodup_append]
      refine ⟨listing.nodup, by simp, ?_⟩
      -- A category that is already listed would have been found.
      rintro base hbase other hother rfl
      exact h (List.mem_singleton.1 hother ▸ hbase)⟩

end Listing

/-! ## Documents -/

/-- The document that shows a field. -/
def Field.document (field : Field) : Json.Document :=
  .object [("name", .text field.name), ("ty", .text field.type)]

/-- The document that shows a variant. -/
def Variant.document (variant : Variant) : Json.Document :=
  .object [("name", .text variant.name), ("fields", .array (variant.fields.map Field.document))]

/-- The document that shows a schema. -/
def Schema.document (schema : Schema) : Json.Document :=
  .object
    [("base", .text schema.base), ("variants", .array (schema.variants.map Variant.document))]

/-- The document that shows a listing. -/
def Listing.document (listing : Listing) : Json.Document :=
  .object (listing.schemas.map fun schema ↦ (schema.base, schema.document))

end AstSchema
