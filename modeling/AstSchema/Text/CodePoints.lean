/-!
# Sets of code points

A property of characters is data: a list of closed intervals of code points. The intervals of a
table are disjoint and ascending, but membership does not rely on that, so a lemma about a table
needs nothing but the list itself.
-/

namespace AstSchema.Text

/-- A set of code points, as closed intervals. -/
abbrev CodePoints := List (Nat × Nat)

namespace CodePoints

/-- Whether the code point of `c` lies in one of the intervals. -/
def has (table : CodePoints) (c : Char) : Bool :=
  table.any fun interval ↦ interval.1 ≤ c.toNat && c.toNat ≤ interval.2

theorem has_iff {table : CodePoints} {c : Char} :
    table.has c = true ↔ ∃ i ∈ table, i.1 ≤ c.toNat ∧ c.toNat ≤ i.2 := by
  simp [has]

end CodePoints

end AstSchema.Text
