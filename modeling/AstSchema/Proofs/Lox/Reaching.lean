import AstSchema.Lox.Evaluation
import Mathlib.Logic.Relation

/-!
# What a run gets to

Executing a program gives how it ends and in which state. What happens on the way is not part of
that, and a run that goes on for ever gives nothing at all, though it may have declared variables
and printed lines.

A `Point` is what is left of a list of statements together with the state in front of it, and
`Enters` relates a point to the ones that its execution gets to next: the rest of the list once a
statement is done, and the parts of a statement that is begun. Every part of a run that lies behind
a point on this way has come to an end, so that facts about ends apply to it. With `Reaches`, the
declarations of a run are described without its end (`Declares`). That executing a program makes no
other ones is `Ends.preframe`.
-/

namespace AstSchema.Lox

/-- Statements that are executed next and the state in front of them. -/
abbrev Point := List Stmt × Machine

/-- Executing the statements of the one point gets to those of the other, which are the statements
behind the first one or a part of it. -/
inductive Enters : Point → Point → Prop
  /-- The first statement has been executed to its end. -/
  | behind {s : Stmt} {rest : List Stmt} {m m' : Machine} (rounds : Nat)
      (h : execute rounds s m = some (.ok (), m')) : Enters (s :: rest, m) (rest, m')
  /-- The statements of a block. -/
  | block {statements rest : List Stmt} {m : Machine} :
      Enters (.block statements :: rest, m) (statements, m.push)
  /-- The only branch of a conditional. -/
  | branch {condition : Expr} {consequence : Stmt} {rest : List Stmt} {m m' : Machine} {v : Value}
      (h : evaluate condition m = (.ok v, m')) (hv : v.isTruthy = true) :
      Enters (.ifThen condition consequence :: rest, m) ([consequence], m')
  /-- The first of two branches. -/
  | consequence {condition : Expr} {consequence alternative : Stmt} {rest : List Stmt}
      {m m' : Machine} {v : Value} (h : evaluate condition m = (.ok v, m'))
      (hv : v.isTruthy = true) :
      Enters (.ifElse condition consequence alternative :: rest, m) ([consequence], m')
  /-- The second of two branches. -/
  | alternative {condition : Expr} {consequence alternative : Stmt} {rest : List Stmt}
      {m m' : Machine} {v : Value} (h : evaluate condition m = (.ok v, m'))
      (hv : v.isTruthy = false) :
      Enters (.ifElse condition consequence alternative :: rest, m) ([alternative], m')
  /-- The body of a loop. -/
  | round {condition : Expr} {body : Stmt} {rest : List Stmt} {m m' : Machine} {v : Value}
      (h : evaluate condition m = (.ok v, m')) (hv : v.isTruthy = true) :
      Enters (.whileLoop condition body :: rest, m) ([body], m')
  /-- The same loop behind a round. -/
  | again {condition : Expr} {body : Stmt} {rest : List Stmt} {m m' m'' : Machine} {v : Value}
      (rounds : Nat) (h : evaluate condition m = (.ok v, m')) (hv : v.isTruthy = true)
      (hbody : execute rounds body m' = some (.ok (), m'')) :
      Enters (.whileLoop condition body :: rest, m) (.whileLoop condition body :: rest, m'')

/-- A run from the one point gets to the other. -/
abbrev Reaches : Point → Point → Prop := Relation.ReflTransGen Enters

/-- A run of the program from `m` declares a variable with its value in a state. Whether and how the
run ends does not matter. -/
inductive Declares (program : List Stmt) (m : Machine) : String → Value → Machine → Prop
  /-- A declaration without a value. -/
  | empty {name : Token} {rest : List Stmt} {m' : Machine}
      (h : Reaches (program, m) (.declare name none :: rest, m')) :
      Declares program m name.lexeme .nil m'
  /-- A declaration with a value, which is evaluated first. -/
  | value {name : Token} {e : Expr} {rest : List Stmt} {v : Value} {m' m'' : Machine}
      (h : Reaches (program, m) (.declare name (some e) :: rest, m'))
      (he : evaluate e m' = (.ok v, m'')) : Declares program m name.lexeme v m''

/-- What a run declares from a point that it gets to, it declares. -/
theorem Declares.of_reaches {p q : Point} (h : Reaches p q) {x : String} {v : Value} {m : Machine}
    (hdeclares : Declares q.1 q.2 x v m) : Declares p.1 p.2 x v m := by
  cases hdeclares with
  | empty hq => exact .empty (h.trans hq)
  | value hq he => exact .value (h.trans hq) he

end AstSchema.Lox
