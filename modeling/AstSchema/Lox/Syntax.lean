/-!
# Lox programs

The syntax trees of Lox. A tree keeps the tokens that name or operate on something, because a
token knows its line and a fault at run time is reported with one.

A conditional with and one without an alternative are two forms, so no tree holds an optional
statement and a recursion over statements meets statements and lists of statements only.
-/

namespace AstSchema.Lox

/-- A piece of the program text with the line it stands on. -/
structure Token where
  /-- The text. -/
  lexeme : String
  /-- The line. -/
  line : Nat
  deriving DecidableEq, Repr, Inhabited

/-- The values of Lox. -/
inductive Value
  /-- A number. -/
  | number (x : Float)
  /-- A text. -/
  | text (s : String)
  /-- A truth value. -/
  | boolean (b : Bool)
  /-- The value of what has none. -/
  | nil

/-- Expressions. -/
inductive Expr
  /-- Gives a variable a new value. -/
  | assign (name : Token) (value : Expr)
  /-- An operator between two operands. -/
  | binary (left : Expr) (operator : Token) (right : Expr)
  /-- A call; `paren` is the closing parenthesis. -/
  | call (callee : Expr) (paren : Token) (arguments : List Expr)
  /-- An expression in parentheses. -/
  | grouping (inner : Expr)
  /-- A value written out. -/
  | literal (value : Value)
  /-- An operator whose right operand may go unused. -/
  | logical (left : Expr) (operator : Token) (right : Expr)
  /-- An operator in front of its operand. -/
  | unary (operator : Token) (right : Expr)
  /-- The value of a variable. -/
  | reference (name : Token)

/-- Statements. -/
inductive Stmt
  /-- Statements with a scope of their own. -/
  | block (statements : List Stmt)
  /-- Leaves the innermost loop. -/
  | breakLoop (keyword : Token)
  /-- An expression evaluated for its effect. -/
  | expression (expression : Expr)
  /-- Declares a function. -/
  | function (name : Token) (parameters : List Token) (body : List Stmt)
  /-- A conditional without an alternative. -/
  | ifThen (condition : Expr) (consequence : Stmt)
  /-- A conditional with an alternative. -/
  | ifElse (condition : Expr) (consequence alternative : Stmt)
  /-- Prints a value on a line. -/
  | print (expression : Expr)
  /-- Leaves a function. -/
  | returnValue (keyword : Token) (value : Option Expr)
  /-- Declares a variable. -/
  | declare (name : Token) (initializer : Option Expr)
  /-- Repeats a statement while a condition holds. -/
  | whileLoop (condition : Expr) (body : Stmt)

end AstSchema.Lox
