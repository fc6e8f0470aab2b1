import AstSchema.Proofs.Lox.Lockstep

/-!
# Parentheses

Parentheses decide how a text is read as a tree. In the tree they are left over as nodes of their
own, which the list form shows and a run passes through. Here all of them are left out, in every
operand of every expression, and nothing about a run changes: not its end, and not whether it ends.

That a tree without parentheses evaluates as the tree with them does is an induction on expressions,
and the rest is a case of running in lockstep, on the same lines and behind no earlier output.
-/

namespace AstSchema.Lox

/-! ## Leaving parentheses out -/

mutual

/-- The expression with all parentheses left out. -/
def Expr.ungroup : Expr → Expr
  | .assign name value => .assign name value.ungroup
  | .binary left operator right => .binary left.ungroup operator right.ungroup
  | .call callee paren arguments => .call callee.ungroup paren (Expr.ungroupAll arguments)
  | .grouping inner => inner.ungroup
  | .literal value => .literal value
  | .logical left operator right => .logical left.ungroup operator right.ungroup
  | .unary operator right => .unary operator right.ungroup
  | .reference name => .reference name

/-- The expressions with all parentheses left out. -/
def Expr.ungroupAll : List Expr → List Expr
  | [] => []
  | e :: rest => e.ungroup :: Expr.ungroupAll rest

end

mutual

/-- Whether there are parentheses in the expression. -/
def Expr.hasGrouping : Expr → Bool
  | .grouping _ => true
  | .assign _ value => value.hasGrouping
  | .binary left _ right | .logical left _ right => left.hasGrouping || right.hasGrouping
  | .call callee _ arguments => callee.hasGrouping || Expr.anyGrouping arguments
  | .unary _ right => right.hasGrouping
  | .literal _ | .reference _ => false

/-- Whether there are parentheses in one of the expressions. -/
def Expr.anyGrouping : List Expr → Bool
  | [] => false
  | e :: rest => e.hasGrouping || Expr.anyGrouping rest

end

/-- The program with all parentheses left out. -/
def ungroup (program : List Stmt) : List Stmt := recast id Expr.ungroup program

example : ungroup [.print (.grouping (.unary ⟨"!", 1⟩ (.grouping (.reference ⟨"a", 1⟩))))] =
    [.print (.unary ⟨"!", 1⟩ (.reference ⟨"a", 1⟩))] := rfl

/-- Whether there are parentheses in the program. -/
def hasGrouping (program : List Stmt) : Bool := (expressions program).any Expr.hasGrouping

mutual

/-- No parentheses are left. -/
theorem Expr.hasGrouping_ungroup (e : Expr) : e.ungroup.hasGrouping = false := by
  match e with
  | .assign _ value => exact value.hasGrouping_ungroup
  | .binary left _ right | .logical left _ right =>
    rw [ungroup, hasGrouping, left.hasGrouping_ungroup, right.hasGrouping_ungroup, Bool.or_false]
  | .call callee _ arguments =>
    rw [ungroup, hasGrouping, callee.hasGrouping_ungroup, anyGrouping_ungroupAll arguments,
      Bool.or_false]
  | .grouping inner => exact inner.hasGrouping_ungroup
  | .unary _ right => exact right.hasGrouping_ungroup
  | .literal _ | .reference _ => rfl

theorem Expr.anyGrouping_ungroupAll (es : List Expr) :
    Expr.anyGrouping (Expr.ungroupAll es) = false := by
  match es with
  | [] => rfl
  | e :: rest =>
    rw [ungroupAll, anyGrouping, e.hasGrouping_ungroup, anyGrouping_ungroupAll rest, Bool.or_false]

end

/-! ## Runs without parentheses -/

/-- Parentheses make no difference to what an expression evaluates to. -/
theorem evaluate_ungroup (e : Expr) (m : Machine) : evaluate e.ungroup m = evaluate e m := by
  match e with
  | .assign _ value => rw [Expr.ungroup, evaluate, evaluate, evaluate_ungroup value]
  | .binary left operator right =>
    rw [Expr.ungroup, evaluate, evaluate, evaluate_ungroup left]
    simp only [evaluate_ungroup right]
  | .logical left operator right =>
    rw [Expr.ungroup, evaluate, evaluate, evaluate_ungroup left]
    simp only [evaluate_ungroup right]
  | .unary _ right => rw [Expr.ungroup, evaluate, evaluate, evaluate_ungroup right]
  | .grouping inner => exact evaluate_ungroup inner m
  | .call _ _ _ | .literal _ | .reference _ => rfl

/-- **Parentheses do not matter.** A program with all of its parentheses left out ends exactly when
it did with them, in the same state and with the same result. -/
theorem ends_ungroup_iff (program : List Stmt) :
    hasGrouping (ungroup program) = false ∧
      ∀ m o, Ends (ungroup program) m o ↔ Ends program m o := by
  constructor
  · rw [hasGrouping, List.any_eq_false]
    intro e he
    rw [ungroup, expressions_recast] at he
    obtain ⟨e', -, rfl⟩ := List.mem_map.mp he
    rw [e'.hasGrouping_ungroup]
    exact Bool.false_ne_true
  · intro m o
    have hstep : InStep id [] Expr.ungroup := by
      intro e m
      rw [Machine.after_nil, evaluate_ungroup, Outcome.recast_id, Machine.after_nil]
    have hiff := ends_recast_iff hstep program m o
    simp only [Outcome.recast_id, Machine.after_nil, exists_eq_right'] at hiff
    exact hiff

end AstSchema.Lox
