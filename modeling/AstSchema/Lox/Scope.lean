import AstSchema.Lox.Syntax

/-!
# Scopes

A scope binds names to values, and the scopes of a running program form a stack with the innermost
on top. Looking a name up and assigning to it both search from the innermost scope outwards, so
they meet the same binding; a declaration binds in the innermost scope and never looks further.

A scope binds a name at most once as long as it is built by `Scope.put`, and the search takes the
first binding in any case.
-/

namespace AstSchema.Lox

/-- Names with their values. -/
abbrev Scope := List (String × Value)

namespace Scope

/-- Binds `x` to `v`, in place of an earlier binding of `x`. -/
def put (x : String) (v : Value) : Scope → Scope
  | [] => [(x, v)]
  | (y, w) :: rest => if y = x then (x, v) :: rest else (y, w) :: put x v rest

/-- The names that the scope binds. -/
def names (s : Scope) : List String := s.map Prod.fst

/-- Whether the scope binds `x`. -/
def binds (s : Scope) (x : String) : Bool := s.names.contains x

@[simp] theorem lookup_put_self (x : String) (v : Value) (s : Scope) :
    (s.put x v).lookup x = some v := by
  induction s with
  | nil => simp [put]
  | cons b rest ih =>
    obtain ⟨y, w⟩ := b
    by_cases h : y = x
    · simp [put, h]
    · have hne : (x == y) = false := by simpa using Ne.symm h
      simp [put, h, List.lookup_cons, hne, ih]

theorem lookup_put_of_ne {x y : String} (h : y ≠ x) (v : Value) (s : Scope) :
    (s.put x v).lookup y = s.lookup y := by
  have hyx : (y == x) = false := by simpa using h
  induction s with
  | nil => simp [put, List.lookup_cons, hyx]
  | cons b rest ih =>
    obtain ⟨z, w⟩ := b
    by_cases hz : z = x
    · subst hz
      simp [put, List.lookup_cons, hyx]
    · simp [put, hz, List.lookup_cons, ih]

end Scope

/-- The scopes of a running program, innermost first. -/
abbrev Scopes := List Scope

namespace Scopes

/-- The value of `x` in the innermost scope that binds it. -/
def lookup? (x : String) : Scopes → Option Value
  | [] => none
  | s :: rest =>
    match s.lookup x with
    | some v => some v
    | none => lookup? x rest

/-- Gives `x` the value `v` in the innermost scope that binds it. -/
def assign? (x : String) (v : Value) : Scopes → Option Scopes
  | [] => none
  | s :: rest =>
    if s.binds x then some (s.put x v :: rest)
    else (assign? x v rest).map (s :: ·)

/-- Binds `x` to `v` in the innermost scope. Without any scope there is nowhere to bind it. -/
def define (x : String) (v : Value) : Scopes → Scopes
  | [] => []
  | s :: rest => s.put x v :: rest

end Scopes

end AstSchema.Lox
