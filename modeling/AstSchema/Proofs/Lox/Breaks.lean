import AstSchema.Proofs.Lox.Frames

/-!
# Breaks stay in their loops

A break is an interrupt and takes the way of a fault: out of lists of statements, blocks and
branches. A loop is where the two part, since a break from its body ends the loop and nothing else.
So a loop never ends with a break, whatever its body is, and what a program ends with is decided by
the breaks that no loop surrounds (`hasStrayBreak`).

Expressions hold no statements and have faults only. This is what makes a loop safe on both of its
ways out, as its condition is evaluated where a break would pass the loop by.
-/

namespace AstSchema.Lox

/-! ## Breaks outside of loops -/

mutual

/-- Whether a break in the statement stands outside of all its loops. The body of a function is
never run, so a break in it does not count. -/
def Stmt.hasStrayBreak : Stmt → Bool
  | .block statements => Lox.hasStrayBreak statements
  | .breakLoop _ => true
  | .ifThen _ consequence => consequence.hasStrayBreak
  | .ifElse _ consequence alternative => consequence.hasStrayBreak || alternative.hasStrayBreak
  | .whileLoop _ _ => false
  | .expression _ | .function _ _ _ | .print _ | .returnValue _ _ | .declare _ _ => false

/-- Whether a break in the statements stands outside of all their loops. -/
def hasStrayBreak : List Stmt → Bool
  | [] => false
  | s :: rest => s.hasStrayBreak || hasStrayBreak rest

end

/-! ## Expressions -/

theorem fault_ne_breakLoop {α : Type} (token : Token) (fault : Fault) :
    (.error (token.fault fault) : Except Interrupt α) ≠ .error .breakLoop := by
  simp [Token.fault]

theorem ok_ne_breakLoop {α : Type} (a : α) :
    (.ok a : Except Interrupt α) ≠ .error .breakLoop := by
  simp

theorem assign_ne_breakLoop (name : Token) (v : Value) (m : Machine) :
    (assign name v m).1 ≠ .error .breakLoop := by
  unfold assign
  split
  · exact ok_ne_breakLoop v
  · exact fault_ne_breakLoop name _

theorem lookup_ne_breakLoop (name : Token) (m : Machine) : lookup name m ≠ .error .breakLoop := by
  unfold lookup
  split
  · exact ok_ne_breakLoop _
  · exact fault_ne_breakLoop name _

theorem applyBinary_ne_breakLoop (operator : Token) (l r : Value) :
    applyBinary operator l r ≠ .error .breakLoop :=
  applyBinary_end (Q := (· ≠ .error .breakLoop)) ok_ne_breakLoop
    (fun fault _ ↦ fault_ne_breakLoop operator fault) l r

theorem settles_ne_breakLoop (operator : Token) (l : Value) :
    settles operator l ≠ .error .breakLoop :=
  settles_end (Q := (· ≠ .error .breakLoop)) ok_ne_breakLoop
    (fun fault _ ↦ fault_ne_breakLoop operator fault) l

theorem applyUnary_ne_breakLoop (operator : Token) (v : Value) :
    applyUnary operator v ≠ .error .breakLoop :=
  applyUnary_end (Q := (· ≠ .error .breakLoop)) ok_ne_breakLoop
    (fun fault _ ↦ fault_ne_breakLoop operator fault) v

/-- Evaluating an expression never breaks. -/
theorem evaluate_ne_breakLoop (e : Expr) (m : Machine) :
    (evaluate e m).1 ≠ .error .breakLoop := by
  have herror {e : Expr} {m m' : Machine} {i : Interrupt} (h : evaluate e m = (.error i, m'))
      (ih : (evaluate e m).1 ≠ .error .breakLoop) :
      (.error i : Except Interrupt Value) ≠ .error .breakLoop := by
    rwa [h] at ih
  fun_induction evaluate e m
  case case1 => exact assign_ne_breakLoop _ _ _
  case case2 h ih | case5 h ih | case12 h ih | case14 h ih => exact herror h ih
  case case3 => exact applyBinary_ne_breakLoop _ _ _
  case case4 hright _ ihright => exact herror hright ihright
  case case6 => exact fault_ne_breakLoop _ _
  case case7 ih => exact ih
  case case8 | case9 => exact ok_ne_breakLoop _
  case case10 ihright => exact ihright
  case case11 hsettles _ =>
    rintro ⟨⟩
    exact settles_ne_breakLoop _ _ hsettles
  case case13 => exact applyUnary_ne_breakLoop _ _
  case case15 => exact lookup_ne_breakLoop _ _

/-! ## Statements -/

theorem andThen_ne_breakLoop {α β : Type} {o : Outcome α}
    {next : α → Machine → Option (Outcome β)} {m' : Machine} {result : Except Interrupt β}
    (ho : o.1 ≠ .error .breakLoop)
    (hnext : ∀ a result m', next a o.2 = some (result, m') → result ≠ .error .breakLoop)
    (h : o.andThen next = some (result, m')) : result ≠ .error .breakLoop := by
  rcases Outcome.andThen_eq_some h with ⟨a, -, hgo⟩ | ⟨i, herror, heq⟩
  · exact hnext a result m' hgo
  · cases heq
    rintro ⟨⟩
    exact ho herror

/-- A loop never ends with a break, whatever its body ends with. -/
theorem execute_whileLoop_ne_breakLoop {rounds : Nat} {condition : Expr} {body : Stmt}
    {m m' : Machine} {result : Except Interrupt Unit}
    (h : execute rounds (.whileLoop condition body) m = some (result, m')) :
    result ≠ .error .breakLoop := by
  rw [execute] at h
  have hcondition (m : Machine) (_ : True) : True ∧ ∀ i, (evaluate condition m).1 = .error i →
      (.error i : Except Interrupt Unit) ≠ .error .breakLoop := by
    refine ⟨trivial, fun i herror hbreak ↦ evaluate_ne_breakLoop condition m ?_⟩
    rw [herror, Except.error.inj hbreak]
  -- Nothing is asked of the body: where it breaks, the loop does not.
  exact (repeatWhile_invariant hcondition (fun _ _ _ _ _ ↦ ⟨trivial, id⟩) (ok_ne_breakLoop ())
    trivial h).2

mutual

/-- A statement without a stray break never ends with a break. -/
theorem execute_ne_breakLoop (rounds : Nat) (s : Stmt) {m m' : Machine}
    {result : Except Interrupt Unit} (hs : s.hasStrayBreak = false)
    (h : execute rounds s m = some (result, m')) : result ≠ .error .breakLoop := by
  match s with
  | .block statements =>
    rw [Stmt.hasStrayBreak] at hs
    rw [execute] at h
    split at h
    · cases h
    · next hinner =>
      cases h
      exact executeAll_ne_breakLoop rounds statements hs hinner
  | .breakLoop _ => cases hs
  | .function _ _ _ | .returnValue _ _ =>
    rw [execute] at h
    cases h
    exact fault_ne_breakLoop _ _
  | .expression e =>
    rw [execute] at h
    refine andThen_ne_breakLoop (evaluate_ne_breakLoop e m) (fun v result m' hgo ↦ ?_) h
    cases hgo
    exact ok_ne_breakLoop ()
  | .ifThen condition consequence =>
    rw [Stmt.hasStrayBreak] at hs
    rw [execute] at h
    refine andThen_ne_breakLoop (evaluate_ne_breakLoop condition m) (fun v result m' hgo ↦ ?_) h
    split at hgo
    · exact execute_ne_breakLoop rounds consequence hs hgo
    · cases hgo
      exact ok_ne_breakLoop ()
  | .ifElse condition consequence alternative =>
    rw [Stmt.hasStrayBreak, Bool.or_eq_false_iff] at hs
    rw [execute] at h
    refine andThen_ne_breakLoop (evaluate_ne_breakLoop condition m) (fun v result m' hgo ↦ ?_) h
    split at hgo
    · exact execute_ne_breakLoop rounds consequence hs.1 hgo
    · exact execute_ne_breakLoop rounds alternative hs.2 hgo
  | .print e =>
    rw [execute] at h
    refine andThen_ne_breakLoop (evaluate_ne_breakLoop e m) (fun v result m' hgo ↦ ?_) h
    cases hgo
    exact ok_ne_breakLoop ()
  | .declare name none =>
    rw [execute] at h
    cases h
    exact ok_ne_breakLoop ()
  | .declare name (some e) =>
    rw [execute] at h
    refine andThen_ne_breakLoop (evaluate_ne_breakLoop e m) (fun v result m' hgo ↦ ?_) h
    cases hgo
    exact ok_ne_breakLoop ()
  | .whileLoop condition body => exact execute_whileLoop_ne_breakLoop h

/-- Statements without a stray break never end with a break. -/
theorem executeAll_ne_breakLoop (rounds : Nat) (statements : List Stmt) {m m' : Machine}
    {result : Except Interrupt Unit} (hs : hasStrayBreak statements = false)
    (h : executeAll rounds statements m = some (result, m')) : result ≠ .error .breakLoop := by
  match statements with
  | [] =>
    cases h
    exact ok_ne_breakLoop ()
  | s :: rest =>
    rw [hasStrayBreak, Bool.or_eq_false_iff] at hs
    rw [executeAll] at h
    split at h
    · cases h
    · exact executeAll_ne_breakLoop rounds rest hs.2 h
    · next hfirst =>
      cases h
      exact execute_ne_breakLoop rounds s hs.1 hfirst

end

/-! ## Containment -/

/-- **A break never leaves its loop.** No expression breaks, no loop ends with a break, and neither
does any run of a program in which each break stands inside of a loop. -/
theorem breakLoop_contained :
    (∀ e m, (evaluate e m).1 ≠ .error .breakLoop) ∧
    (∀ condition body m result m', Ends [.whileLoop condition body] m (result, m') →
      result ≠ .error .breakLoop) ∧
    ∀ program, hasStrayBreak program = false →
      ∀ m result m', Ends program m (result, m') → result ≠ .error .breakLoop := by
  have hprogram (program : List Stmt) (hs : hasStrayBreak program = false) (m : Machine)
      (result : Except Interrupt Unit) (m' : Machine) (h : Ends program m (result, m')) :
      result ≠ .error .breakLoop := by
    obtain ⟨rounds, hrun⟩ := h
    exact executeAll_ne_breakLoop rounds program hs hrun
  refine ⟨evaluate_ne_breakLoop, fun condition body ↦ ?_, hprogram⟩
  exact hprogram _ rfl

/-- A loop in a loop, a break from the inner one and a fault behind both. -/
def brokenProgram : List Stmt :=
  [.whileLoop (.reference ⟨"a", 1⟩)
      (.block
        [.whileLoop (.literal (.boolean true))
          (.ifThen (.reference ⟨"a", 2⟩) (.block [.breakLoop ⟨"break", 2⟩])),
          .expression (.assign ⟨"a", 3⟩ (.literal (.boolean false)))]),
    .returnValue ⟨"return", 4⟩ none]

/-- The break ends the inner loop only, and the run ends with the fault. The same break without a
loop around it is what the run ends with. -/
theorem breakLoop_contained_nested :
    hasStrayBreak brokenProgram = false ∧
      Ends brokenProgram ⟨[[("a", .boolean true)]], []⟩
        (.error (.fault 4 .strayReturn), ⟨[[("a", .boolean false)]], []⟩) ∧
      (.error (.fault 4 .strayReturn) : Except Interrupt Unit) ≠ .error .breakLoop ∧
      Ends [.block [.breakLoop ⟨"break", 2⟩]] .start (.error .breakLoop, .start) := by
  have hends : Ends brokenProgram ⟨[[("a", .boolean true)]], []⟩
      (.error (.fault 4 .strayReturn), ⟨[[("a", .boolean false)]], []⟩) := ⟨3, rfl⟩
  exact ⟨rfl, hends, breakLoop_contained.2.2 brokenProgram rfl _ _ _ hends, 0, rfl⟩

end AstSchema.Lox
