import AstSchema.Lox.Syntax

/-!
# Expressions of programs

What stands in the text of a program, whether a run gets there or not. The expressions of a
statement are those of the statements inside of it, too, with the bodies of functions, and the
operands of an expression are not listed again. So what is said of all expressions of a program is
said of the largest ones, and goes on to their operands by a recursion of its own, as `Expr.targets`
does for the variables that are assigned to.
-/

namespace AstSchema.Lox

mutual

/-- The expressions in the statement. -/
def Stmt.expressions : Stmt → List Expr
  | .block statements => Lox.expressions statements
  | .breakLoop _ => []
  | .expression e => [e]
  | .function _ _ body => Lox.expressions body
  | .ifThen condition consequence => condition :: consequence.expressions
  | .ifElse condition consequence alternative =>
    condition :: (consequence.expressions ++ alternative.expressions)
  | .print e => [e]
  | .returnValue _ value => value.toList
  | .declare _ initializer => initializer.toList
  | .whileLoop condition body => condition :: body.expressions

/-- The expressions in the statements. -/
def expressions : List Stmt → List Expr
  | [] => []
  | s :: rest => s.expressions ++ expressions rest

end

mutual

/-- The names of the variables that the expression assigns to, in operands that may go unused and in
the parts of a call as well. -/
def Expr.targets : Expr → List String
  | .assign name value => name.lexeme :: value.targets
  | .binary left _ right => left.targets ++ right.targets
  | .call callee _ arguments => callee.targets ++ Expr.targetsOfAll arguments
  | .grouping inner => inner.targets
  | .literal _ => []
  | .logical left _ right => left.targets ++ right.targets
  | .unary _ right => right.targets
  | .reference _ => []

/-- The names of the variables that some expressions assign to. -/
def Expr.targetsOfAll : List Expr → List String
  | [] => []
  | e :: rest => e.targets ++ Expr.targetsOfAll rest

end

/-- The names of the variables that some expression in the statements assigns to. -/
def targets (statements : List Stmt) : List String := (expressions statements).flatMap Expr.targets

end AstSchema.Lox
