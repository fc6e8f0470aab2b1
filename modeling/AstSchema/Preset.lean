import AstSchema.Compilation

/-!
# Built-in schemas

Lox is a small scripting language whose interpreters walk the syntax tree. Its two categories are
built in: expressions and statements. A statement holds expressions, and both hold tokens and
literal values, which the generated files expect to find in scope.
-/

namespace AstSchema

/-- A built-in schema. -/
structure Preset where
  /-- The name of the category. -/
  base : String
  /-- The name, without extension, of the file that the schema is written to. -/
  fileStem : String
  /-- The schema lines. -/
  variants : List String
  deriving DecidableEq, Repr, Inhabited

namespace Preset

/-- The expressions of Lox. -/
def loxExpr : Preset where
  base := "Expr"
  fileStem := "expr"
  variants :=
    [ "Assign: name Token, value Box<Expr>",
      "Binary: left Box<Expr>, right Box<Expr>, operator Token",
      "Call: callee Box<Expr>, paren Token, arguments Vec<Expr>",
      "Grouping: expression Box<Expr>",
      "Literal: value LiteralType",
      "Logical: left Box<Expr>, operator Token, right Box<Expr>",
      "Unary: operator Token, right Box<Expr>",
      "Variable: name Token" ]

/-- The statements of Lox. -/
def loxStmt : Preset where
  base := "Stmt"
  fileStem := "stmt"
  variants :=
    [ "Block: statements Vec<Stmt>",
      "Break: keyword Token",
      "Expression: expression Expr",
      "Function: name Token, parameters Vec<Token>, body Vec<Stmt>",
      "If: condition Expr, then_branch Box<Stmt>, else_branch Option<Box<Stmt>>",
      "Print: expression Expr",
      "Return: keyword Token, return_value Option<Expr>",
      "Var: name Token, initializer Option<Expr>",
      "While: condition Expr, body Box<Stmt>" ]

/-- The family of built-in schemas with this name. -/
def family? (name : String) : Option (List Preset) :=
  if name = "lox" then some [loxExpr, loxStmt]
  else if name = "lox-expr" then some [loxExpr]
  else if name = "lox-stmt" then some [loxStmt]
  else none

/-- The paths that the generated file of a preset needs in scope. -/
def defaultImports (preset : Preset) : List String :=
  if preset.base = "Stmt" then ["crate::common::Token", "crate::expr::Expr"]
  else ["crate::common::\x7bLiteralType, Token\x7d"]

/-- Compiles a preset with a preamble. -/
def compile (preset : Preset) (preamble : Preamble) : Except SchemaError String :=
  compileWith preamble preset.base preset.variants

end Preset

end AstSchema
