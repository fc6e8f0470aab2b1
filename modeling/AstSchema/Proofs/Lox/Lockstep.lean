import AstSchema.Proofs.Lox.Parts
import AstSchema.Lox.Evaluation

/-!
# Runs in lockstep

A run acts on the values of variables and on the texts of tokens. The line of a token is only handed
on with a fault, and what has been printed before is only added to. So if a program is written on
other lines, and if it is run behind lines that were printed earlier, it runs as before: every loop
takes the same rounds, and the end is the same, with the fault on another line and the earlier lines
in front of the output (`Outcome.recast`).

Of expressions this is shown once (`evaluate_relabel`). A statement does nothing with its
expressions but evaluate them, so they may be replaced as well, by whatever evaluates in step with
them (`InStep`). This is why the step from expressions to statements is made for any replacement
(`ends_recast_iff`): other lines are one case of it, and so are parentheses that are left out.
-/

namespace AstSchema.Lox

/-! ## Other lines and earlier output -/

/-- The token on another line. -/
def Token.relabel (f : Nat → Nat) (token : Token) : Token := { token with line := f token.line }

mutual

/-- The expression with all of its tokens on other lines. -/
def Expr.relabel (f : Nat → Nat) : Expr → Expr
  | .assign name value => .assign (name.relabel f) (value.relabel f)
  | .binary left operator right =>
    .binary (left.relabel f) (operator.relabel f) (right.relabel f)
  | .call callee paren arguments =>
    .call (callee.relabel f) (paren.relabel f) (Expr.relabelAll f arguments)
  | .grouping inner => .grouping (inner.relabel f)
  | .literal value => .literal value
  | .logical left operator right =>
    .logical (left.relabel f) (operator.relabel f) (right.relabel f)
  | .unary operator right => .unary (operator.relabel f) (right.relabel f)
  | .reference name => .reference (name.relabel f)

/-- The expressions with all of their tokens on other lines. -/
def Expr.relabelAll (f : Nat → Nat) : List Expr → List Expr
  | [] => []
  | e :: rest => e.relabel f :: Expr.relabelAll f rest

end

/-- The interrupt with its fault, if it is one, on another line. -/
def Interrupt.relabel (f : Nat → Nat) : Interrupt → Interrupt
  | .breakLoop => .breakLoop
  | .fault line cause => .fault (f line) cause

/-- The state behind lines that were printed earlier. -/
def Machine.after (printed : List String) (m : Machine) : Machine :=
  { m with output := printed ++ m.output }

@[simp] theorem Machine.after_nil (m : Machine) : m.after [] = m := rfl

theorem Machine.print_after (printed : List String) (m : Machine) (line : String) :
    (m.after printed).print line = (m.print line).after printed := by
  rw [print, print, after, after, List.append_assoc]

/-- The outcome of the same run on other lines and behind lines that were printed earlier. -/
def Outcome.recast {α : Type} (f : Nat → Nat) (printed : List String) (o : Outcome α) :
    Outcome α :=
  (o.1.mapError (Interrupt.relabel f), o.2.after printed)

theorem Outcome.recast_ok {α : Type} (f : Nat → Nat) (printed : List String) (a : α) (m : Machine) :
    Outcome.recast f printed (.ok a, m) = (.ok a, m.after printed) := rfl

theorem Outcome.recast_error {α : Type} (f : Nat → Nat) (printed : List String) (i : Interrupt)
    (m : Machine) :
    Outcome.recast f printed (.error i, m) =
      ((.error (i.relabel f), m.after printed) : Outcome α) := rfl

/-- What is evaluated behind lines that were printed earlier, in place of an expression, ends as the
expression does, but for the line of a fault. -/
def InStep (f : Nat → Nat) (printed : List String) (g : Expr → Expr) : Prop :=
  ∀ e m, evaluate (g e) (m.after printed) = (evaluate e m).recast f printed

mutual

/-- The statement with its tokens on other lines and with other expressions, those in the bodies of
functions included. -/
def Stmt.recast (f : Nat → Nat) (g : Expr → Expr) : Stmt → Stmt
  | .block statements => .block (Lox.recast f g statements)
  | .breakLoop keyword => .breakLoop (keyword.relabel f)
  | .expression e => .expression (g e)
  | .function name parameters body =>
    .function (name.relabel f) (parameters.map (Token.relabel f)) (Lox.recast f g body)
  | .ifThen condition consequence => .ifThen (g condition) (consequence.recast f g)
  | .ifElse condition consequence alternative =>
    .ifElse (g condition) (consequence.recast f g) (alternative.recast f g)
  | .print e => .print (g e)
  | .returnValue keyword value => .returnValue (keyword.relabel f) (value.map g)
  | .declare name initializer => .declare (name.relabel f) (initializer.map g)
  | .whileLoop condition body => .whileLoop (g condition) (body.recast f g)

/-- The statements with their tokens on other lines and with other expressions. -/
def recast (f : Nat → Nat) (g : Expr → Expr) : List Stmt → List Stmt
  | [] => []
  | s :: rest => s.recast f g :: recast f g rest

end

/-! ### The same lines -/

theorem Token.relabel_id (token : Token) : token.relabel id = token := rfl

mutual

theorem Expr.relabel_id (e : Expr) : e.relabel id = e := by
  match e with
  | .assign name value => rw [relabel, name.relabel_id, value.relabel_id]
  | .binary left operator right | .logical left operator right =>
    rw [relabel, left.relabel_id, operator.relabel_id, right.relabel_id]
  | .call callee paren arguments =>
    rw [relabel, callee.relabel_id, paren.relabel_id, relabelAll_id arguments]
  | .grouping inner => rw [relabel, inner.relabel_id]
  | .unary operator right => rw [relabel, operator.relabel_id, right.relabel_id]
  | .literal _ | .reference _ => rfl

theorem Expr.relabelAll_id (es : List Expr) : Expr.relabelAll id es = es := by
  match es with
  | [] => rfl
  | e :: rest => rw [relabelAll, e.relabel_id, relabelAll_id rest]

end

theorem Interrupt.relabel_id (i : Interrupt) : i.relabel id = i := by
  cases i with
  | breakLoop => rfl
  | fault line cause => rfl

/-- On the same lines the result is the same. -/
theorem Outcome.recast_id {α : Type} (printed : List String) (o : Outcome α) :
    o.recast id printed = (o.1, o.2.after printed) := by
  obtain ⟨i | a, m⟩ := o
  · rw [recast_error, i.relabel_id]
  · rfl

mutual

theorem Stmt.recast_id (s : Stmt) : s.recast id id = s := by
  match s with
  | .block statements => rw [Stmt.recast, Lox.recast_id statements]
  | .breakLoop _ | .expression _ | .print _ => rfl
  | .function name parameters body =>
    have hparameters : parameters.map (Token.relabel id) = parameters := List.map_id parameters
    rw [Stmt.recast, name.relabel_id, hparameters, Lox.recast_id body]
  | .ifThen _ consequence => rw [Stmt.recast, consequence.recast_id, id]
  | .ifElse _ consequence alternative =>
    rw [Stmt.recast, consequence.recast_id, alternative.recast_id, id]
  | .returnValue _ value => rw [Stmt.recast, Option.map_id, Token.relabel_id, id]
  | .declare _ initializer => rw [Stmt.recast, Option.map_id, Token.relabel_id, id]
  | .whileLoop _ body => rw [Stmt.recast, body.recast_id, id]

/-- On the same lines and with the same expressions the program is the same. -/
theorem recast_id (statements : List Stmt) : recast id id statements = statements := by
  match statements with
  | [] => rfl
  | s :: rest => rw [recast, s.recast_id, recast_id rest]

end

/-! ### Replaced expressions -/

section

variable (f : Nat → Nat) (g : Expr → Expr)

mutual

theorem Stmt.expressions_recast (s : Stmt) :
    (s.recast f g).expressions = s.expressions.map g := by
  match s with
  | .block statements => exact Lox.expressions_recast statements
  | .breakLoop _ | .expression _ | .print _ => rfl
  | .function _ _ body => exact Lox.expressions_recast body
  | .ifThen condition consequence =>
    rw [Stmt.recast, Stmt.expressions, Stmt.expressions, consequence.expressions_recast,
      List.map_cons]
  | .ifElse condition consequence alternative =>
    rw [Stmt.recast, Stmt.expressions, Stmt.expressions, consequence.expressions_recast,
      alternative.expressions_recast, List.map_cons, List.map_append]
  | .returnValue _ none | .returnValue _ (some _) | .declare _ none | .declare _ (some _) => rfl
  | .whileLoop condition body =>
    rw [Stmt.recast, Stmt.expressions, Stmt.expressions, body.expressions_recast, List.map_cons]

/-- The expressions of a program are replaced, each by its own replacement. -/
theorem expressions_recast (statements : List Stmt) :
    expressions (recast f g statements) = (expressions statements).map g := by
  match statements with
  | [] => rfl
  | s :: rest =>
    rw [recast, expressions, expressions, s.expressions_recast, expressions_recast rest,
      List.map_append]

end

end

section

variable (f : Nat → Nat) (printed : List String)

/-! ## Expressions -/

theorem onNumbers_relabel (operator : Token) (g : Float → Float → Value) (l r : Value) :
    onNumbers (operator.relabel f) g l r =
      (onNumbers operator g l r).mapError (Interrupt.relabel f) := by
  unfold onNumbers
  split
  · rfl
  · rfl

theorem applyBinary_relabel (operator : Token) (l r : Value) :
    applyBinary (operator.relabel f) l r =
      (applyBinary operator l r).mapError (Interrupt.relabel f) := by
  obtain ⟨lexeme, line⟩ := operator
  have hnumbers := onNumbers_relabel f ⟨lexeme, line⟩
  unfold applyBinary
  simp only [Token.relabel] at hnumbers ⊢
  split
  · split
    · rfl
    · exact hnumbers _ _ _
  · exact hnumbers _ _ _
  · exact hnumbers _ _ _
  · exact hnumbers _ _ _
  · exact hnumbers _ _ _
  · exact hnumbers _ _ _
  · exact hnumbers _ _ _
  · exact hnumbers _ _ _
  · rfl
  · rfl
  · rfl

theorem settles_relabel (operator : Token) (l : Value) :
    settles (operator.relabel f) l = (settles operator l).mapError (Interrupt.relabel f) := by
  obtain ⟨lexeme, line⟩ := operator
  unfold settles
  simp only [Token.relabel]
  split
  · rfl
  · rfl
  · rfl

theorem applyUnary_relabel (operator : Token) (v : Value) :
    applyUnary (operator.relabel f) v =
      (applyUnary operator v).mapError (Interrupt.relabel f) := by
  obtain ⟨lexeme, line⟩ := operator
  unfold applyUnary
  simp only [Token.relabel]
  split
  · rfl
  · rfl
  · rfl

theorem lookup_relabel (name : Token) (m : Machine) :
    lookup (name.relabel f) (m.after printed) =
      (lookup name m).mapError (Interrupt.relabel f) := by
  unfold lookup
  simp only [Token.relabel, Machine.after]
  split
  · rfl
  · rfl

theorem assign_relabel (name : Token) (v : Value) (m : Machine) :
    assign (name.relabel f) v (m.after printed) = (assign name v m).recast f printed := by
  unfold assign
  simp only [Token.relabel, Machine.after]
  split
  · rfl
  · rfl

/-- An expression on other lines evaluates in step. -/
theorem evaluate_relabel : InStep f printed (Expr.relabel f) := by
  intro e m
  match e with
  | .assign name value =>
    rw [Expr.relabel, evaluate, evaluate, evaluate_relabel value m]
    obtain ⟨_ | v, m'⟩ := evaluate value m
    · rfl
    · exact assign_relabel f printed name v m'
  | .binary left operator right =>
    rw [Expr.relabel, evaluate, evaluate, evaluate_relabel left m]
    obtain ⟨_ | l, m'⟩ := evaluate left m
    · rfl
    · simp only [Outcome.recast_ok]
      rw [evaluate_relabel right m']
      obtain ⟨_ | r, m''⟩ := evaluate right m'
      · rfl
      · exact congrArg (·, m''.after printed) (applyBinary_relabel f operator l r)
  | .logical left operator right =>
    rw [Expr.relabel, evaluate, evaluate, evaluate_relabel left m]
    obtain ⟨_ | l, m'⟩ := evaluate left m
    · rfl
    · simp only [Outcome.recast_ok]
      rw [settles_relabel]
      obtain _ | settled := settles operator l
      · rfl
      · cases settled
        · exact evaluate_relabel right m'
        · rfl
  | .unary operator right =>
    rw [Expr.relabel, evaluate, evaluate, evaluate_relabel right m]
    obtain ⟨_ | v, m'⟩ := evaluate right m
    · rfl
    · exact congrArg (·, m'.after printed) (applyUnary_relabel f operator v)
  | .grouping inner => exact evaluate_relabel inner m
  | .reference name => exact congrArg (·, m.after printed) (lookup_relabel f printed name m)
  | .call _ _ _ | .literal _ => rfl

/-! ## Statements -/

variable {f printed}

/-- Going on keeps in step if what is gone on with does. -/
theorem andThen_recast {α β : Type} {o : Outcome α} {next next' : α → Machine → Option (Outcome β)}
    (hnext : ∀ a m, next' a (m.after printed) = (next a m).map (Outcome.recast f printed)) :
    (o.recast f printed).andThen next' = (o.andThen next).map (Outcome.recast f printed) := by
  obtain ⟨_ | a, m⟩ := o
  · rfl
  · exact hnext a m

/-- A loop keeps in step, round by round, if its condition and its body do. -/
theorem repeatWhile_recast {condition condition' : Machine → Outcome Value}
    {body body' : Machine → Option (Outcome Unit)}
    (hcondition : ∀ m, condition' (m.after printed) = (condition m).recast f printed)
    (hbody : ∀ m, body' (m.after printed) = (body m).map (Outcome.recast f printed))
    (rounds : Nat) (m : Machine) :
    repeatWhile condition' body' rounds (m.after printed) =
      (repeatWhile condition body rounds m).map (Outcome.recast f printed) := by
  induction rounds generalizing m with
  | zero => rfl
  | succ rounds ih =>
    rw [repeatWhile, repeatWhile, hcondition]
    apply andThen_recast
    intro v m'
    by_cases hv : v.isTruthy = true
    · rw [if_pos hv, if_pos hv, hbody]
      cases body m' with
      | none => rfl
      | some inside =>
        obtain ⟨(_ | ⟨line, fault⟩) | ⟨⟩, m''⟩ := inside
        · rfl
        · rfl
        · exact ih m''
    · rw [if_neg hv, if_neg hv]
      rfl

variable {g : Expr → Expr}

mutual

/-- A statement on other lines, with expressions that evaluate in step, is executed in step. -/
theorem execute_recast (hg : InStep f printed g) (rounds : Nat) (s : Stmt) (m : Machine) :
    execute rounds (s.recast f g) (m.after printed) =
      (execute rounds s m).map (Outcome.recast f printed) := by
  match s with
  | .block statements =>
    have hinside : executeAll rounds (recast f g statements) (m.after printed).push =
        (executeAll rounds statements m.push).map (Outcome.recast f printed) :=
      executeAll_recast hg rounds statements m.push
    rw [Stmt.recast, execute, execute, hinside]
    cases executeAll rounds statements m.push with
    | none => rfl
    | some inside => rfl
  | .breakLoop _ | .function _ _ _ | .returnValue _ _ | .declare _ none => rfl
  | .expression e =>
    rw [Stmt.recast, execute, execute, hg]
    apply andThen_recast
    intro v m'
    rfl
  | .ifThen condition consequence =>
    rw [Stmt.recast, execute, execute, hg]
    apply andThen_recast
    intro v m'
    by_cases hv : v.isTruthy = true
    · rw [if_pos hv, if_pos hv]
      exact execute_recast hg rounds consequence m'
    · rw [if_neg hv, if_neg hv]
      rfl
  | .ifElse condition consequence alternative =>
    rw [Stmt.recast, execute, execute, hg]
    apply andThen_recast
    intro v m'
    by_cases hv : v.isTruthy = true
    · rw [if_pos hv, if_pos hv]
      exact execute_recast hg rounds consequence m'
    · rw [if_neg hv, if_neg hv]
      exact execute_recast hg rounds alternative m'
  | .print e =>
    rw [Stmt.recast, execute, execute, hg]
    apply andThen_recast
    intro v m'
    rw [Machine.print_after]
    rfl
  | .declare name (some e) =>
    rw [Stmt.recast, Option.map_some, execute, execute, hg]
    apply andThen_recast
    intro v m'
    rfl
  | .whileLoop condition body =>
    rw [Stmt.recast, execute, execute]
    exact repeatWhile_recast (hg condition) (execute_recast hg rounds body) rounds m

/-- Statements on other lines, with expressions that evaluate in step, are executed in step. -/
theorem executeAll_recast (hg : InStep f printed g) (rounds : Nat) (statements : List Stmt)
    (m : Machine) :
    executeAll rounds (recast f g statements) (m.after printed) =
      (executeAll rounds statements m).map (Outcome.recast f printed) := by
  match statements with
  | [] => rfl
  | s :: rest =>
    rw [recast, executeAll, executeAll, execute_recast hg rounds s m]
    cases execute rounds s m with
    | none => rfl
    | some first =>
      obtain ⟨_ | ⟨⟩, m'⟩ := first
      · rfl
      · exact executeAll_recast hg rounds rest m'

end

/-- A program on other lines, with expressions that evaluate in step, ends where the program does,
and nowhere else. -/
theorem ends_recast_iff (hg : InStep f printed g) (program : List Stmt) (m : Machine)
    (o : Outcome Unit) :
    Ends (recast f g program) (m.after printed) o ↔
      ∃ o', Ends program m o' ∧ o = o'.recast f printed := by
  constructor
  · rintro ⟨rounds, h⟩
    rw [executeAll_recast hg] at h
    obtain ⟨o', h', rfl⟩ := Option.map_eq_some_iff.mp h
    exact ⟨o', ⟨rounds, h'⟩, rfl⟩
  · rintro ⟨o', ⟨rounds, h⟩, rfl⟩
    refine ⟨rounds, ?_⟩
    rw [executeAll_recast hg, h, Option.map_some]

end

/-! ## Lines -/

/-- The program on other lines. -/
def relabel (f : Nat → Nat) (program : List Stmt) : List Stmt := recast f (Expr.relabel f) program

/-- **Lines only say where a fault is.** On other lines a program ends exactly when it did, in the
same state and with the same result, but for the line of a fault. -/
theorem ends_relabel_iff (f : Nat → Nat) (program : List Stmt) (m m' : Machine)
    (result : Except Interrupt Unit) :
    Ends (relabel f program) m (result, m') ↔
      ∃ result', Ends program m (result', m') ∧
        result = result'.mapError (Interrupt.relabel f) := by
  have hiff := ends_recast_iff (evaluate_relabel f []) program m (result, m')
  rw [Machine.after_nil] at hiff
  constructor
  · intro h
    obtain ⟨⟨result', m''⟩, hends, heq⟩ := hiff.mp h
    cases heq
    exact ⟨result', hends, rfl⟩
  · rintro ⟨result', hends, rfl⟩
    exact hiff.mpr ⟨(result', m'), hends, rfl⟩

example : executeAll 0 (relabel (· + 10) [.print (.reference ⟨"a", 2⟩)]) .start =
    some (.error (.fault 12 (.undefinedVariable "a")), .start) := rfl

end AstSchema.Lox
