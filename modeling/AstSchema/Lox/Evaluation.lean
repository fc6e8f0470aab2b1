import AstSchema.Lox.Scope
import AstSchema.Lox.Value

/-!
# Running Lox programs

Expressions, variables, conditionals and loops of Lox run; functions do not. The state of a
running program is its scopes and the lines it has printed. Evaluating an expression may change
the scopes by an assignment, and both evaluation and execution may stop early, with the state
reached so far.

A loop may go on for ever, so execution takes a number of rounds that no single loop may exceed.
Where a loop needs more, there is no answer at all: `none` is neither an error nor an end of the
program. Expressions have no loops and are evaluated by recursion on their structure alone.
-/

namespace AstSchema.Lox

/-! ## Faults -/

/-- What goes wrong when a program runs. -/
inductive Fault
  /-- No scope binds the name. -/
  | undefinedVariable (name : String)
  /-- An operator for numbers meets something else. -/
  | notNumbers (operator : String)
  /-- No binary operator is called that. -/
  | unknownBinary (operator : String)
  /-- A call. -/
  | callUnsupported
  /-- No logical operator is called that. -/
  | unknownLogical (operator : String)
  /-- An operand does not suit the operator in front of it, or there is no such operator. -/
  | badOperand (operator : String)
  /-- The declaration of a function. -/
  | functionUnsupported
  /-- A return without a function around it. -/
  | strayReturn
  deriving DecidableEq, Repr

/-- The message for the author of the program. -/
def Fault.message : Fault → String
  | undefinedVariable name => "undefined variable '" ++ name ++ "'"
  | notNumbers operator => "operands of '" ++ operator ++ "' must be numbers"
  | unknownBinary operator => "unknown binary operator '" ++ operator ++ "'"
  | callUnsupported => "calls are not supported"
  | unknownLogical operator => "unknown logical operator '" ++ operator ++ "'"
  | badOperand operator => "bad operand for unary '" ++ operator ++ "'"
  | functionUnsupported => "functions are not supported"
  | strayReturn => "return outside of a function"

/-- Why a part of a program stops before its end. -/
inductive Interrupt
  /-- A break on its way to the loop around it. -/
  | breakLoop
  /-- A fault at a line of the program. -/
  | fault (line : Nat) (fault : Fault)
  deriving DecidableEq, Repr

/-- The interrupt for a fault at a token. -/
def Token.fault (token : Token) (fault : Fault) : Interrupt := .fault token.line fault

/-! ## State -/

/-- The state of a running program. -/
structure Machine where
  /-- The scopes, innermost first. -/
  scopes : Scopes
  /-- The lines printed so far, in order. -/
  output : List String

namespace Machine

/-- The state before a program runs: one empty scope, and nothing printed. -/
def start : Machine := ⟨[[]], []⟩

/-- The state inside a new innermost scope. -/
def push (m : Machine) : Machine := { m with scopes := [] :: m.scopes }

/-- The state outside the innermost scope. -/
def pop (m : Machine) : Machine := { m with scopes := m.scopes.tail }

/-- The state after a declaration. -/
def define (m : Machine) (x : String) (v : Value) : Machine :=
  { m with scopes := m.scopes.define x v }

/-- The state after printing a line. -/
def print (m : Machine) (line : String) : Machine := { m with output := m.output ++ [line] }

end Machine

/-- How a part of a program ends, and in which state. -/
abbrev Outcome (α : Type) := Except Interrupt α × Machine

/-! ## Expressions -/

/-- The value of a variable. -/
def lookup (name : Token) (m : Machine) : Except Interrupt Value :=
  match m.scopes.lookup? name.lexeme with
  | some v => .ok v
  | none => .error (name.fault (.undefinedVariable name.lexeme))

/-- Assigns to a variable. The value of an assignment is the value assigned. -/
def assign (name : Token) (v : Value) (m : Machine) : Outcome Value :=
  match m.scopes.assign? name.lexeme v with
  | some scopes => (.ok v, { m with scopes })
  | none => (.error (name.fault (.undefinedVariable name.lexeme)), m)

/-- Applies a function of two numbers to operands that have to be numbers. -/
def onNumbers (operator : Token) (f : Float → Float → Value) : Value → Value →
    Except Interrupt Value
  | .number x, .number y => .ok (f x y)
  | _, _ => .error (operator.fault (.notNumbers operator.lexeme))

/-- Applies a binary operator. A plus also puts two texts together. -/
def applyBinary (operator : Token) (l r : Value) : Except Interrupt Value :=
  match operator.lexeme with
  | "+" =>
    match l, r with
    | .text s, .text t => .ok (.text (s ++ t))
    | _, _ => onNumbers operator (fun x y ↦ .number (x + y)) l r
  | "-" => onNumbers operator (fun x y ↦ .number (x - y)) l r
  | "*" => onNumbers operator (fun x y ↦ .number (x * y)) l r
  | "/" => onNumbers operator (fun x y ↦ .number (x / y)) l r
  | "<" => onNumbers operator (fun x y ↦ .boolean (decide (x < y))) l r
  | "<=" => onNumbers operator (fun x y ↦ .boolean (decide (x ≤ y))) l r
  | ">" => onNumbers operator (fun x y ↦ .boolean (decide (y < x))) l r
  | ">=" => onNumbers operator (fun x y ↦ .boolean (decide (y ≤ x))) l r
  | "==" => .ok (.boolean (l.equals r))
  | "!=" => .ok (.boolean (!l.equals r))
  | other => .error (operator.fault (.unknownBinary other))

/-- Whether the left operand of a logical operator is already its value. -/
def settles (operator : Token) (l : Value) : Except Interrupt Bool :=
  match operator.lexeme with
  | "or" => .ok l.isTruthy
  | "and" => .ok (!l.isTruthy)
  | other => .error (operator.fault (.unknownLogical other))

/-- Applies a unary operator. -/
def applyUnary (operator : Token) (v : Value) : Except Interrupt Value :=
  match operator.lexeme, v with
  | "-", .number x => .ok (.number (-x))
  | "!", v => .ok (.boolean (!v.isTruthy))
  | other, _ => .error (operator.fault (.badOperand other))

/-- Evaluates an expression, operands from the left. -/
def evaluate : Expr → Machine → Outcome Value
  | .assign name value, m =>
    match evaluate value m with
    | (.ok v, m) => assign name v m
    | (.error i, m) => (.error i, m)
  | .binary left operator right, m =>
    match evaluate left m with
    | (.ok l, m) =>
      match evaluate right m with
      | (.ok r, m) => (applyBinary operator l r, m)
      | (.error i, m) => (.error i, m)
    | (.error i, m) => (.error i, m)
  | .call _ paren _, m => (.error (paren.fault .callUnsupported), m)
  | .grouping inner, m => evaluate inner m
  | .literal value, m => (.ok value, m)
  | .logical left operator right, m =>
    match evaluate left m with
    | (.ok l, m) =>
      match settles operator l with
      | .ok true => (.ok l, m)
      | .ok false => evaluate right m
      | .error i => (.error i, m)
    | (.error i, m) => (.error i, m)
  | .unary operator right, m =>
    match evaluate right m with
    | (.ok v, m) => (applyUnary operator v, m)
    | (.error i, m) => (.error i, m)
  | .reference name, m => (lookup name m, m)

/-! ## Statements -/

/-- Goes on with a value in the state reached, or stops with the interrupt. -/
def Outcome.andThen {α β : Type} (o : Outcome α) (next : α → Machine → Option (Outcome β)) :
    Option (Outcome β) :=
  match o with
  | (.ok a, m) => next a m
  | (.error i, m) => some (.error i, m)

/-- Repeats `body` while `condition` holds, for less than the given number of rounds. A break from
the body ends the loop as if the condition had failed. -/
def repeatWhile (condition : Machine → Outcome Value) (body : Machine → Option (Outcome Unit)) :
    Nat → Machine → Option (Outcome Unit)
  | 0, _ => none
  | rounds + 1, m =>
    (condition m).andThen fun v m ↦
      if v.isTruthy then
        match body m with
        | none => none
        | some (.ok (), m) => repeatWhile condition body rounds m
        | some (.error .breakLoop, m) => some (.ok (), m)
        | some (.error (.fault line fault), m) => some (.error (.fault line fault), m)
      else
        some (.ok (), m)

mutual

/-- Executes a statement, with less than `rounds` rounds for every loop. -/
def execute (rounds : Nat) : Stmt → Machine → Option (Outcome Unit)
  | .block statements, m =>
    match executeAll rounds statements m.push with
    | none => none
    | some (result, m) => some (result, m.pop)
  | .breakLoop _, m => some (.error .breakLoop, m)
  | .expression e, m => (evaluate e m).andThen fun _ m ↦ some (.ok (), m)
  | .function name _ _, m => some (.error (name.fault .functionUnsupported), m)
  | .ifThen condition consequence, m =>
    (evaluate condition m).andThen fun v m ↦
      if v.isTruthy then execute rounds consequence m else some (.ok (), m)
  | .ifElse condition consequence alternative, m =>
    (evaluate condition m).andThen fun v m ↦
      if v.isTruthy then execute rounds consequence m else execute rounds alternative m
  | .print e, m => (evaluate e m).andThen fun v m ↦ some (.ok (), m.print v.display)
  | .returnValue keyword _, m => some (.error (keyword.fault .strayReturn), m)
  | .declare name none, m => some (.ok (), m.define name.lexeme .nil)
  | .declare name (some e), m =>
    (evaluate e m).andThen fun v m ↦ some (.ok (), m.define name.lexeme v)
  | .whileLoop condition body, m =>
    repeatWhile (evaluate condition) (execute rounds body) rounds m

/-- Executes statements in order and stops at the first interrupt. -/
def executeAll (rounds : Nat) : List Stmt → Machine → Option (Outcome Unit)
  | [], m => some (.ok (), m)
  | s :: rest, m =>
    match execute rounds s m with
    | none => none
    | some (.ok (), m) => executeAll rounds rest m
    | some (.error i, m) => some (.error i, m)

end

/-- A run of `program` from `m` that comes to an end, with this outcome. -/
def Ends (program : List Stmt) (m : Machine) (outcome : Outcome Unit) : Prop :=
  ∃ rounds, executeAll rounds program m = some outcome

end AstSchema.Lox
