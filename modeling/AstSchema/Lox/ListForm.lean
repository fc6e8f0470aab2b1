import AstSchema.Lox.Value

/-!
# The list form of an expression

The list form shows the shape of an expression by parentheses: an operator stands in front of its
operands, and literals and names stand for themselves.
-/

namespace AstSchema.Lox

mutual

/-- The list form of an expression. -/
def Expr.listForm : Expr → String
  | .assign name value => "(= " ++ name.lexeme ++ " " ++ value.listForm ++ ")"
  | .binary left operator right =>
    "(" ++ operator.lexeme ++ " " ++ left.listForm ++ " " ++ right.listForm ++ ")"
  | .call callee _ arguments => "(call " ++ callee.listForm ++ Expr.listForms arguments ++ ")"
  | .grouping inner => "(group " ++ inner.listForm ++ ")"
  | .literal value => value.display
  | .logical left operator right =>
    "(" ++ operator.lexeme ++ " " ++ left.listForm ++ " " ++ right.listForm ++ ")"
  | .unary operator right => "(" ++ operator.lexeme ++ " " ++ right.listForm ++ ")"
  | .reference name => name.lexeme

/-- The list forms of arguments, each behind a blank. -/
def Expr.listForms : List Expr → String
  | [] => ""
  | e :: rest => " " ++ e.listForm ++ Expr.listForms rest

end

end AstSchema.Lox
