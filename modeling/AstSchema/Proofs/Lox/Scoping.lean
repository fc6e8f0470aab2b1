import AstSchema.Proofs.Lox.Frames
import Mathlib.Data.Set.Insert

/-!
# Well-scoped programs

Whether a program can meet an undefined variable is not decided by its text, since a declaration
may stand in a branch that is not taken. A program is well-scoped if every name in it is declared
in front of it, in the same list of statements or around it, or was known from the start
(`WellScoped`). Such a program never meets an undefined variable, whatever branches it takes and
however it ends otherwise.

The names that are declared statically are bound at run time (`Machine.Covers`). As nothing takes a
binding away but the end of a block, this has to be shown of declarations only. For all else it
follows from the frame of scopes.
-/

namespace AstSchema.Lox

/-! ## Names -/

mutual

/-- The names of variables in an expression, those in operands that may go unused included. -/
def Expr.names : Expr → List String
  | .assign name value => name.lexeme :: value.names
  | .binary left _ right => left.names ++ right.names
  | .call callee _ arguments => callee.names ++ Expr.namesOfAll arguments
  | .grouping inner => inner.names
  | .literal _ => []
  | .logical left _ right => left.names ++ right.names
  | .unary _ right => right.names
  | .reference name => [name.lexeme]

/-- The names of variables in some expressions. -/
def Expr.namesOfAll : List Expr → List String
  | [] => []
  | e :: rest => e.names ++ Expr.namesOfAll rest

end

/-- All names in the expression are in the set. -/
def Expr.Within (D : Set String) (e : Expr) : Prop := ∀ x ∈ e.names, x ∈ D

/-- The names that are known behind a statement: a declaration adds one, and what is declared inside
of other statements is forgotten. -/
def Stmt.behind (D : Set String) : Stmt → Set String
  | .declare name _ => insert name.lexeme D
  | _ => D

mutual

/-- All names in the expressions of the statement are known where they stand. The body of a function
is never run, so nothing is asked of it. -/
def Stmt.WellScoped (D : Set String) : Stmt → Prop
  | .block statements => Lox.WellScoped D statements
  | .breakLoop _ => True
  | .expression e => e.Within D
  | .function _ _ _ => True
  | .ifThen condition consequence => condition.Within D ∧ consequence.WellScoped D
  | .ifElse condition consequence alternative =>
    condition.Within D ∧ consequence.WellScoped D ∧ alternative.WellScoped D
  | .print e => e.Within D
  | .returnValue _ value => ∀ e ∈ value, e.Within D
  | .declare _ initializer => ∀ e ∈ initializer, e.Within D
  | .whileLoop condition body => condition.Within D ∧ body.WellScoped D

/-- Each statement is well-scoped with the names that are known behind the statements before it. -/
def WellScoped (D : Set String) : List Stmt → Prop
  | [] => True
  | s :: rest => s.WellScoped D ∧ WellScoped (s.behind D) rest

end

/-! ## Bindings -/

theorem Scope.exists_lookup_of_mem {s : Scope} {x : String} (h : x ∈ s.names) :
    ∃ v, List.lookup x s = some v := by
  cases hlookup : List.lookup x s with
  | some v => exact ⟨v, rfl⟩
  | none =>
    obtain ⟨binding, hbinding, rfl⟩ := List.mem_map.mp h
    exact absurd (List.lookup_eq_none_iff.mp hlookup binding hbinding) (by simp)

namespace Scopes

/-- Some scope binds the name. -/
def Binds (scopes : Scopes) (x : String) : Prop := ∃ s ∈ scopes, x ∈ s.names

theorem Binds.exists_lookup? {scopes : Scopes} {x : String} (h : scopes.Binds x) :
    ∃ v, scopes.lookup? x = some v := by
  induction scopes with
  | nil =>
    obtain ⟨s, hs, -⟩ := h
    exact absurd hs List.not_mem_nil
  | cons s below ih =>
    rw [lookup?]
    split
    · next v _ => exact ⟨v, rfl⟩
    · next hnone =>
      obtain ⟨s', hs', hx⟩ := h
      rcases List.mem_cons.mp hs' with rfl | hs'
      · obtain ⟨v, hv⟩ := Scope.exists_lookup_of_mem hx
        rw [hv] at hnone
        cases hnone
      · exact ih ⟨s', hs', hx⟩

theorem Binds.exists_assign? {scopes : Scopes} {x : String} (h : scopes.Binds x) (v : Value) :
    ∃ scopes', scopes.assign? x v = some scopes' := by
  induction scopes with
  | nil =>
    obtain ⟨s, hs, -⟩ := h
    exact absurd hs List.not_mem_nil
  | cons s below ih =>
    rw [assign?]
    split
    · exact ⟨_, rfl⟩
    · next hbinds =>
      obtain ⟨s', hs', hx⟩ := h
      rcases List.mem_cons.mp hs' with rfl | hs'
      · exact absurd (List.contains_iff_mem.mpr hx) hbinds
      · obtain ⟨below', hbelow⟩ := ih ⟨s', hs', hx⟩
        exact ⟨s :: below', by rw [hbelow]; rfl⟩

theorem Extends.binds {scopes scopes' : Scopes} (h : scopes.Extends scopes') {x : String}
    (hx : scopes.Binds x) : scopes'.Binds x := by
  obtain ⟨s, hs, hx⟩ := hx
  cases scopes with
  | nil => exact absurd hs List.not_mem_nil
  | cons inner below =>
    obtain ⟨inner', below', rfl, hinner, hbelow⟩ := h
    rcases List.mem_cons.mp hs with rfl | hs
    · exact ⟨inner', List.mem_cons_self, hinner hx⟩
    · have hnames : s.names ∈ below'.map Scope.names := hbelow ▸ List.mem_map_of_mem hs
      obtain ⟨s', hs', heq⟩ := List.mem_map.mp hnames
      exact ⟨s', List.mem_cons_of_mem _ hs', heq ▸ hx⟩

theorem binds_define {scopes : Scopes} (h : scopes ≠ []) (x : String) (v : Value) :
    (scopes.define x v).Binds x := by
  obtain ⟨s, below, rfl⟩ := List.exists_cons_of_ne_nil h
  refine ⟨s.put x v, List.mem_cons_self, ?_⟩
  rw [Scope.names_put]
  split
  · next hbinds => exact List.contains_iff_mem.mp hbinds
  · exact List.mem_append_right _ (List.mem_singleton_self x)

end Scopes

/-- There is a scope, and the scopes bind all of the names. -/
structure Machine.Covers (m : Machine) (D : Set String) : Prop where
  /-- There is a scope to declare in. -/
  scopes_ne_nil : m.scopes ≠ []
  /-- All of the names are bound. -/
  binds : ∀ x ∈ D, m.scopes.Binds x

namespace Machine.Covers

variable {m m' : Machine} {D : Set String}

theorem of_extends (hm : m.Covers D) (h : m.scopes.Extends m'.scopes) : m'.Covers D where
  scopes_ne_nil := h.ne_nil hm.scopes_ne_nil
  binds x hx := h.binds (hm.binds x hx)

theorem push (hm : m.Covers D) : m.push.Covers D where
  scopes_ne_nil := List.cons_ne_nil _ _
  binds x hx := by
    obtain ⟨s, hs, hnames⟩ := hm.binds x hx
    exact ⟨s, List.mem_cons_of_mem _ hs, hnames⟩

theorem define (hm : m.Covers D) (x : String) (v : Value) :
    (m.define x v).Covers (insert x D) where
  scopes_ne_nil := (hm.of_extends (isFrame_extends.define m x v)).scopes_ne_nil
  binds := by
    rintro y (rfl | hy)
    · exact Scopes.binds_define hm.scopes_ne_nil y v
    · exact (isFrame_extends.define m x v).binds (hm.binds y hy)

theorem evaluate (hm : m.Covers D) (e : Expr) : (evaluate e m).2.Covers D :=
  hm.of_extends (evaluate_frame isFrame_extends.toIsPreframe e m)

/-- Behind a statement that has been executed to its end, what is known is bound. -/
theorem execute (hm : m.Covers D) {rounds : Nat} {s : Stmt}
    (h : execute rounds s m = some (.ok (), m')) : m'.Covers (s.behind D) := by
  -- Only a declaration that has been executed to its end adds a name.
  have hsame := hm.of_extends (execute_frame isFrame_extends rounds s h)
  cases s with
  | declare name initializer =>
    cases initializer with
    | none =>
      rw [Lox.execute] at h
      cases h
      exact hm.define name.lexeme .nil
    | some e =>
      rw [Lox.execute] at h
      rcases Outcome.andThen_eq_some h with ⟨v, -, hgo⟩ | ⟨i, -, heq⟩
      · cases hgo
        exact (hm.evaluate e).define name.lexeme v
      · cases heq
  | _ => exact hsame

end Machine.Covers

/-! ## Soundness -/

section

variable {α β : Type}

/-- The result is not that a variable is undefined. -/
def Defined (result : Except Interrupt α) : Prop :=
  ∀ line name, result ≠ .error (.fault line (.undefinedVariable name))

theorem defined_ok (a : α) : Defined (.ok a : Except Interrupt α) := fun _ _ h ↦ nomatch h

theorem defined_fault (token : Token) {fault : Fault}
    (h : ∀ name, fault ≠ .undefinedVariable name) :
    Defined (.error (token.fault fault) : Except Interrupt α) := by
  rintro line name ⟨⟩
  exact h name rfl

/-- An interrupt that is handed on is the same. -/
theorem Defined.of_error {result : Except Interrupt α} {i : Interrupt} (h : Defined result)
    (heq : result = .error i) : Defined (.error i : Except Interrupt β) := by
  rintro line name ⟨⟩
  exact h line name heq

end

theorem defined_applyBinary (operator : Token) (l r : Value) :
    Defined (applyBinary operator l r) :=
  applyBinary_end defined_ok (fun _ h ↦ defined_fault operator h) l r

theorem defined_settles (operator : Token) (l : Value) : Defined (settles operator l) :=
  settles_end defined_ok (fun _ h ↦ defined_fault operator h) l

theorem defined_applyUnary (operator : Token) (v : Value) : Defined (applyUnary operator v) :=
  applyUnary_end defined_ok (fun _ h ↦ defined_fault operator h) v

variable {D : Set String} {m m' : Machine}

/-- Names that are bound can be looked up and assigned to. -/
theorem defined_evaluate {e : Expr} (he : e.Within D) (hm : m.Covers D) :
    Defined (evaluate e m).1 := by
  have hcovers {e : Expr} {m m' : Machine} {result : Except Interrupt Value}
      (h : evaluate e m = (result, m')) (hm : m.Covers D) : m'.Covers D := by
    have hafter := hm.evaluate e
    rwa [h] at hafter
  have herror {e : Expr} {m m' : Machine} {i : Interrupt}
      (h : evaluate e m = (.error i, m')) (ih : Defined (evaluate e m).1) :
      Defined (.error i : Except Interrupt Value) := ih.of_error (by rw [h])
  fun_induction evaluate e m
  case case1 name value m v m₁ h ih =>
    obtain ⟨hname, -⟩ := List.forall_mem_cons.mp he
    obtain ⟨scopes, hassign⟩ := ((hcovers h hm).binds name.lexeme hname).exists_assign? v
    simp only [assign, hassign]
    exact defined_ok v
  case case2 h ih => exact herror h (ih (List.forall_mem_cons.mp he).2 hm)
  case case3 => exact defined_applyBinary _ _ _
  case case4 hleft _ _ hright _ ihright =>
    exact herror hright (ihright (List.forall_mem_append.mp he).2 (hcovers hleft hm))
  case case5 h ih | case12 h ih => exact herror h (ih (List.forall_mem_append.mp he).1 hm)
  case case6 => exact defined_fault _ (by simp)
  case case7 ih => exact ih he hm
  case case8 | case9 => exact defined_ok _
  case case10 hleft _ _ ihright =>
    exact ihright (List.forall_mem_append.mp he).2 (hcovers hleft hm)
  case case11 hsettles _ => exact (defined_settles _ _).of_error hsettles
  case case13 => exact defined_applyUnary _ _
  case case14 h ih => exact herror h (ih he hm)
  case case15 name m =>
    obtain ⟨v, hlookup⟩ := (hm.binds name.lexeme (he _ List.mem_cons_self)).exists_lookup?
    simp only [lookup, hlookup]
    exact defined_ok v

/-- Going on meets no undefined variable if neither of the parts does. -/
theorem defined_andThen {α β : Type} {o : Outcome α} {next : α → Machine → Option (Outcome β)}
    {result : Except Interrupt β} (ho : Defined o.1)
    (hnext : ∀ a result m', next a o.2 = some (result, m') → Defined result)
    (h : o.andThen next = some (result, m')) : Defined result := by
  rcases Outcome.andThen_eq_some h with ⟨a, -, hgo⟩ | ⟨i, herror, heq⟩
  · exact hnext a result m' hgo
  · cases heq
    exact ho.of_error herror

mutual

/-- Executing a well-scoped statement meets no undefined variable. -/
theorem defined_execute (rounds : Nat) (s : Stmt) {D : Set String} {m m' : Machine}
    {result : Except Interrupt Unit} (hs : s.WellScoped D) (hm : m.Covers D)
    (h : execute rounds s m = some (result, m')) : Defined result := by
  match s with
  | .block statements =>
    rw [execute] at h
    split at h
    · cases h
    · next hinner =>
      cases h
      exact defined_executeAll rounds statements hs hm.push hinner
  | .breakLoop _ =>
    rw [execute] at h
    cases h
    exact fun _ _ h ↦ nomatch h
  | .function _ _ _ | .returnValue _ _ =>
    rw [execute] at h
    cases h
    exact defined_fault _ (by simp)
  | .expression e =>
    rw [execute] at h
    refine defined_andThen (defined_evaluate hs hm) (fun v result m' hgo ↦ ?_) h
    cases hgo
    exact defined_ok ()
  | .ifThen condition consequence =>
    obtain ⟨hcondition, hconsequence⟩ := hs
    rw [execute] at h
    refine defined_andThen (defined_evaluate hcondition hm) (fun v result m' hgo ↦ ?_) h
    split at hgo
    · exact defined_execute rounds consequence hconsequence (hm.evaluate condition) hgo
    · cases hgo
      exact defined_ok ()
  | .ifElse condition consequence alternative =>
    obtain ⟨hcondition, hconsequence, halternative⟩ := hs
    rw [execute] at h
    refine defined_andThen (defined_evaluate hcondition hm) (fun v result m' hgo ↦ ?_) h
    split at hgo
    · exact defined_execute rounds consequence hconsequence (hm.evaluate condition) hgo
    · exact defined_execute rounds alternative halternative (hm.evaluate condition) hgo
  | .print e =>
    rw [execute] at h
    refine defined_andThen (defined_evaluate hs hm) (fun v result m' hgo ↦ ?_) h
    cases hgo
    exact defined_ok ()
  | .declare name none =>
    rw [execute] at h
    cases h
    exact defined_ok ()
  | .declare name (some e) =>
    rw [execute] at h
    refine defined_andThen (defined_evaluate (hs e rfl) hm) (fun v result m' hgo ↦ ?_) h
    cases hgo
    exact defined_ok ()
  | .whileLoop condition body =>
    obtain ⟨hcondition, hbody⟩ := hs
    rw [execute] at h
    -- The invariant is that the names in front of the loop stay bound.
    have hround : ∀ m result m', m.Covers D → execute rounds body m = some (result, m') →
        m'.Covers D ∧ (result ≠ .error .breakLoop → Defined result) := fun m result m' hm hrun ↦
      ⟨hm.of_extends (execute_frame isFrame_extends rounds body hrun),
        fun _ ↦ defined_execute rounds body hbody hm hrun⟩
    have htest : ∀ m, m.Covers D → (evaluate condition m).2.Covers D ∧
        ∀ i, (evaluate condition m).1 = .error i → Defined (.error i : Except Interrupt Unit) :=
      fun m hm ↦ ⟨hm.evaluate condition, fun i ↦ (defined_evaluate hcondition hm).of_error⟩
    exact (repeatWhile_invariant htest hround (defined_ok ()) hm h).2

/-- Executing well-scoped statements meets no undefined variable. -/
theorem defined_executeAll (rounds : Nat) (statements : List Stmt) {D : Set String}
    {m m' : Machine} {result : Except Interrupt Unit} (hs : WellScoped D statements)
    (hm : m.Covers D) (h : executeAll rounds statements m = some (result, m')) :
    Defined result := by
  match statements with
  | [] =>
    cases h
    exact defined_ok ()
  | s :: rest =>
    obtain ⟨hfirst, hrest⟩ := hs
    rw [executeAll] at h
    split at h
    · cases h
    · next hrun => exact defined_executeAll rounds rest hrest (hm.execute hrun) h
    · next hrun =>
      cases h
      exact defined_execute rounds s hfirst hm hrun

end

/-! ## Messages -/

/-- The message of an undefined variable is that of no other fault: its first three characters are
enough to tell. -/
theorem Fault.message_ne {fault : Fault} (h : ∀ name, fault ≠ .undefinedVariable name)
    (name : String) : fault.message ≠ (Fault.undefinedVariable name).message := by
  have hstart (s t u : String) (hs : 3 ≤ s.toList.length) :
      (s ++ t ++ u).toList.take 3 = s.toList.take 3 := by
    rw [String.append_assoc, String.toList_append, List.take_append_of_le_length hs]
  intro heq
  have hsame : fault.message.toList.take 3 = ['u', 'n', 'd'] := by
    rw [heq]
    exact (hstart "undefined variable '" name "'" (by decide)).trans (by decide)
  cases fault with
  | undefinedVariable other => exact h other rfl
  | notNumbers operator =>
    have hother := hstart "operands of '" operator "' must be numbers" (by decide)
    exact absurd (hother.symm.trans hsame) (by decide)
  | unknownBinary operator =>
    have hother := hstart "unknown binary operator '" operator "'" (by decide)
    exact absurd (hother.symm.trans hsame) (by decide)
  | unknownLogical operator =>
    have hother := hstart "unknown logical operator '" operator "'" (by decide)
    exact absurd (hother.symm.trans hsame) (by decide)
  | badOperand operator =>
    have hother := hstart "bad operand for unary '" operator "'" (by decide)
    exact absurd (hother.symm.trans hsame) (by decide)
  | callUnsupported | functionUnsupported | strayReturn => exact absurd hsame (by decide)

/-- **A well-scoped program never meets an undefined variable.** If a scope binds each of the names
known from the start, and there is a scope, no run ends with the message of an undefined
variable. -/
theorem Ends.message_ne_of_wellScoped {D : Set String} {program : List Stmt} {m m' : Machine}
    {result : Except Interrupt Unit} (hprogram : WellScoped D program)
    (hbinds : ∀ x ∈ D, ∃ s ∈ m.scopes, x ∈ s.names) (hscope : D = ∅ → m.scopes ≠ [])
    (h : Ends program m (result, m')) (line : Nat) (fault : Fault)
    (hfault : result = .error (.fault line fault)) (name : String) :
    fault.message ≠ (Fault.undefinedVariable name).message := by
  obtain ⟨rounds, hrun⟩ := h
  have hscopes : m.scopes ≠ [] := by
    rcases D.eq_empty_or_nonempty with hempty | ⟨x, hx⟩
    · exact hscope hempty
    · obtain ⟨s, hs, -⟩ := hbinds x hx
      exact List.ne_nil_of_mem hs
  have hdefined := defined_executeAll rounds program hprogram ⟨hscopes, hbinds⟩ hrun
  refine Fault.message_ne (fun other hother ↦ ?_) name
  exact hdefined line other (by rw [hfault, hother])

/-- A loop over a variable from outside, whose body declares one, and a return behind it. -/
def loopedProgram : List Stmt :=
  [.whileLoop (.reference ⟨"a", 1⟩)
      (.block
        [.declare ⟨"b", 2⟩ (some (.unary ⟨"!", 2⟩ (.reference ⟨"a", 2⟩))),
          .expression (.assign ⟨"a", 3⟩ (.reference ⟨"b", 3⟩))]),
    .returnValue ⟨"return", 4⟩ none]

/-- The return is a fault, but not one of an undefined variable. -/
theorem Ends.message_ne_of_wellScoped_looped :
    Ends loopedProgram ⟨[[("a", .boolean true)]], []⟩
        (.error (.fault 4 .strayReturn), ⟨[[("a", .boolean false)]], []⟩) ∧
      ∀ name, Fault.strayReturn.message ≠ (Fault.undefinedVariable name).message := by
  have hends : Ends loopedProgram ⟨[[("a", .boolean true)]], []⟩
      (.error (.fault 4 .strayReturn), ⟨[[("a", .boolean false)]], []⟩) := ⟨2, rfl⟩
  have hprogram : WellScoped {"a"} loopedProgram := by
    simp [WellScoped, Stmt.WellScoped, Stmt.behind, loopedProgram, Expr.Within, Expr.names]
  have hbinds : ∀ x ∈ ({"a"} : Set String), ∃ s ∈ [[("a", Value.boolean true)]],
      x ∈ Scope.names s := by
    rintro x rfl
    exact ⟨_, List.mem_singleton_self _, List.mem_singleton_self _⟩
  exact ⟨hends, Ends.message_ne_of_wellScoped hprogram hbinds (fun _ ↦ List.cons_ne_nil _ _) hends 4
    .strayReturn rfl⟩

end AstSchema.Lox
