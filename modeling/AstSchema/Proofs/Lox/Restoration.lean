import AstSchema.Proofs.Lox.Frames

/-!
# Scopes are restored

A block begins with a new scope and gives it up at its end, whether it runs to that end or is left
by a break or a fault. That the scopes behind a run are those in front of it, but for values and for
names in the innermost one, is the frame of scopes and holds of every run that comes to an end.

A declaration is made in the middle of a run, and the run may go on for ever behind it. On the way
to it, what the run has left behind has come to an end, so the frame of scopes applies, and a step
into a block only adds a scope. Hence there is a scope wherever a declaration is made, and no
declaration is lost.
-/

namespace AstSchema.Lox

/-! ## There is a scope everywhere -/

theorem scopes_ne_nil_of_evaluate {e : Expr} {m m' : Machine} {result : Except Interrupt Value}
    (h : evaluate e m = (result, m')) (hm : m.scopes ≠ []) : m'.scopes ≠ [] := by
  have hextends := evaluate_frame isFrame_extends.toIsPreframe e m
  rw [h] at hextends
  exact hextends.ne_nil hm

theorem scopes_ne_nil_of_execute {rounds : Nat} {s : Stmt} {m m' : Machine}
    {result : Except Interrupt Unit} (h : execute rounds s m = some (result, m'))
    (hm : m.scopes ≠ []) : m'.scopes ≠ [] :=
  (execute_frame isFrame_extends rounds s h).ne_nil hm

theorem Enters.scopes_ne_nil {p q : Point} (h : Enters p q) (hp : p.2.scopes ≠ []) :
    q.2.scopes ≠ [] := by
  cases h with
  | behind rounds h => exact scopes_ne_nil_of_execute h hp
  | block => exact List.cons_ne_nil _ _
  | branch h _ => exact scopes_ne_nil_of_evaluate h hp
  | consequence h _ => exact scopes_ne_nil_of_evaluate h hp
  | alternative h _ => exact scopes_ne_nil_of_evaluate h hp
  | round h _ => exact scopes_ne_nil_of_evaluate h hp
  | again rounds h _ hbody => exact scopes_ne_nil_of_execute hbody (scopes_ne_nil_of_evaluate h hp)

theorem Reaches.scopes_ne_nil {p q : Point} (h : Reaches p q) (hp : p.2.scopes ≠ []) :
    q.2.scopes ≠ [] := by
  induction h with
  | refl => exact hp
  | tail _ hstep ih => exact hstep.scopes_ne_nil ih

theorem Declares.scopes_ne_nil {program : List Stmt} {m m' : Machine} {x : String} {v : Value}
    (h : Declares program m x v m') (hm : m.scopes ≠ []) : m'.scopes ≠ [] := by
  cases h with
  | empty h => exact Reaches.scopes_ne_nil h hm
  | value h he => exact scopes_ne_nil_of_evaluate he (Reaches.scopes_ne_nil h hm)

/-- Where there is a scope, a declaration takes effect. -/
theorem Scopes.lookup?_define {scopes : Scopes} (h : scopes ≠ []) (x : String) (v : Value) :
    (scopes.define x v).lookup? x = some v := by
  obtain ⟨s, below, rfl⟩ := List.exists_cons_of_ne_nil h
  rw [define, lookup?, Scope.lookup_put_self]

/-! ## Restoration -/

/-- **The scopes are restored.** However a run ends, there are as many scopes behind it as in front
of it, those below the innermost bind the same names, and the innermost one has lost none. A run
from the start never makes a declaration without a scope, so that no declaration is lost. -/
theorem scopes_restored (program : List Stmt) :
    (∀ m m' result, m.scopes ≠ [] → Ends program m (result, m') →
      m'.scopes.length = m.scopes.length ∧
      m'.scopes.tail.map Scope.names = m.scopes.tail.map Scope.names ∧
      ∀ s ∈ m.scopes.head?, ∃ s' ∈ m'.scopes.head?, s.names ⊆ s'.names) ∧
    ∀ x v m, Declares program .start x v m →
      m.scopes ≠ [] ∧ (m.define x v).scopes.lookup? x = some v := by
  constructor
  · intro m m' result hm hends
    have hextends : m.scopes.Extends m'.scopes := hends.frame isFrame_extends
    obtain ⟨s, below, hscopes⟩ := List.exists_cons_of_ne_nil hm
    rw [hscopes] at hextends ⊢
    obtain ⟨s', below', hscopes', hinnermost, hbelow⟩ := id hextends
    refine ⟨hextends.length_eq, ?_, ?_⟩
    · rw [hscopes']
      exact hbelow
    · rintro t ⟨⟩
      rw [hscopes']
      exact ⟨s', rfl, hinnermost⟩
  · intro x v m h
    have hm : m.scopes ≠ [] := h.scopes_ne_nil (List.cons_ne_nil _ _)
    exact ⟨hm, Scopes.lookup?_define hm x v⟩

/-- A declaration, a loop whose only round is left by a break from two blocks, and a fault in a
third one. -/
def nestedProgram : List Stmt :=
  [.declare ⟨"f", 1⟩ none,
    .whileLoop (.literal (.boolean true))
      (.block
        [.declare ⟨"b", 2⟩ (some (.literal (.boolean true))),
          .block [.declare ⟨"c", 3⟩ (some (.reference ⟨"b", 3⟩)), .breakLoop ⟨"break", 4⟩]]),
    .block
      [.declare ⟨"d", 5⟩ none, .expression (.assign ⟨"z", 6⟩ (.reference ⟨"d", 6⟩)),
        .print (.reference ⟨"e", 7⟩)]]

/-- Neither the break nor the fault leaves a scope behind. In a run from the start, the declaration
in front of the break is made three scopes deep. -/
theorem scopes_restored_nested :
    Ends nestedProgram ⟨[[("a", .nil)], [("z", .boolean true)]], []⟩
        (.error (.fault 7 (.undefinedVariable "e")),
          ⟨[[("a", .nil), ("f", .nil)], [("z", .nil)]], []⟩) ∧
      ([[("a", .nil), ("f", .nil)], [("z", .nil)]] : Scopes).length =
        ([[("a", .nil)], [("z", .boolean true)]] : Scopes).length ∧
      Declares nestedProgram .start "c" (.boolean true)
        ⟨[[], [("b", .boolean true)], [("f", .nil)]], []⟩ ∧
      Scopes.lookup? "c" [[("c", .boolean true)], [("b", .boolean true)], [("f", .nil)]] =
        some (.boolean true) := by
  obtain ⟨hrestored, hdeclared⟩ := scopes_restored nestedProgram
  have hends : Ends nestedProgram ⟨[[("a", .nil)], [("z", .boolean true)]], []⟩
      (.error (.fault 7 (.undefinedVariable "e")),
        ⟨[[("a", .nil), ("f", .nil)], [("z", .nil)]], []⟩) := ⟨2, rfl⟩
  have hreaches : Reaches (nestedProgram, .start)
      (.declare ⟨"c", 3⟩ (some (.reference ⟨"b", 3⟩)) :: [.breakLoop ⟨"break", 4⟩],
        ⟨[[], [("b", .boolean true)], [("f", .nil)]], []⟩) := by
    -- Behind a declaration, into the body and its block, behind a declaration and into a block.
    refine .head (.behind 0 rfl) (.head (.round rfl rfl) (.head .block ?_))
    exact .head (.behind 0 rfl) (.single .block)
  have hdeclares : Declares nestedProgram .start "c" (.boolean true)
      ⟨[[], [("b", .boolean true)], [("f", .nil)]], []⟩ := .value hreaches rfl
  exact ⟨hends, (hrestored _ _ _ (List.cons_ne_nil _ _) hends).1, hdeclares,
    (hdeclared _ _ _ hdeclares).2⟩

end AstSchema.Lox
