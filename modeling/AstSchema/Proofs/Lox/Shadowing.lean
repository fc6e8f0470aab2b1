import AstSchema.Proofs.Lox.Endings

/-!
# Shadowing

A variable that is declared in a block hides the ones of the same name outside. A declaration binds
in the innermost scope, wherever it stands: as a branch or as the body of a loop without a block of
its own, it binds in the scope of the block around them. So what a run keeps, part by part, is what
the scopes below the innermost one bind the name to, and only at the end of a block does this become
true of all scopes that are left.

An assignment is no declaration and reaches for the innermost binding. The block must not assign to
the name, though it may do so to any other.
-/

namespace AstSchema.Lox

/-! ## Assignments to other names -/

/-- An assignment to another name keeps what the scopes bind the name to. -/
theorem Scopes.map_lookup_assign? {x y : String} (h : x ≠ y) {v : Value} {scopes scopes' : Scopes}
    (hassign : scopes.assign? y v = some scopes') :
    scopes'.map (List.lookup x) = scopes.map (List.lookup x) := by
  induction scopes generalizing scopes' with
  | nil => cases hassign
  | cons s below ih =>
    rw [assign?] at hassign
    by_cases hbinds : s.binds y = true
    · rw [if_pos hbinds] at hassign
      cases hassign
      rw [List.map_cons, List.map_cons, Scope.lookup_put_of_ne h]
    · rw [if_neg hbinds] at hassign
      obtain ⟨below', hbelow, rfl⟩ := Option.map_eq_some_iff.mp hassign
      rw [List.map_cons, List.map_cons, ih hbelow]

/-! ## The scopes below -/

/-- Below the innermost scope, each scope binds the name to what it was bound to. -/
def KeepsBelow (x : String) (m m' : Machine) : Prop :=
  m'.scopes.tail.map (List.lookup x) = m.scopes.tail.map (List.lookup x)

theorem isBareframe_keepsBelow (x : String) : IsBareframe (KeepsBelow x) where
  refl _ := rfl
  trans h h' := Eq.trans h' h
  print _ _ := rfl
  block {m m'} h := by
    -- The scopes below the new one are those in front of the block.
    have hpop : m'.pop.scopes.map (List.lookup x) = m.scopes.map (List.lookup x) := h
    rw [KeepsBelow, List.map_tail, List.map_tail, hpop]

theorem keepsBelow_define (x y : String) (v : Value) (m : Machine) :
    KeepsBelow x m (m.define y v) := by
  obtain ⟨_ | ⟨s, below⟩, output⟩ := m
  · rfl
  · rfl

theorem keepsBelow_evaluate {x : String} {e : Expr} (hx : x ∉ e.targets) (m : Machine) :
    KeepsBelow x m (evaluate e m).2 := by
  apply evaluate_bareframe (isBareframe_keepsBelow x)
  intro y hy m v scopes hassign
  have hne : x ≠ y := by
    rintro rfl
    exact hx hy
  rw [KeepsBelow, List.map_tail, List.map_tail, Scopes.map_lookup_assign? hne hassign]

/-- A run that nowhere assigns to a name keeps its bindings below the innermost scope. -/
theorem Ends.keepsBelow {program : List Stmt} {x : String} (hx : x ∉ targets program)
    {m m' : Machine} {result : Except Interrupt Unit} (h : Ends program m (result, m')) :
    KeepsBelow x m m' := by
  refine h.bareframe (isBareframe_keepsBelow x) ?_ fun y v m₁ _ ↦ keepsBelow_define x y v m₁
  intro e he m
  apply keepsBelow_evaluate
  intro htarget
  exact hx (List.mem_flatMap.mpr ⟨e, he, htarget⟩)

/-! ## Blocks -/

/-- **A block leaves what it shadows alone.** However a block ends that nowhere assigns to a name,
every scope binds the name to what it did before, or still does not bind it. -/
theorem Ends.map_lookup_of_block {statements : List Stmt} {x : String}
    (hx : x ∉ targets statements) {m m' : Machine} {result : Except Interrupt Unit}
    (h : Ends [.block statements] m (result, m')) :
    m'.scopes.map (List.lookup x) = m.scopes.map (List.lookup x) := by
  obtain ⟨inside, hinside, heq⟩ := ends_block_iff.mp h
  cases heq
  exact hinside.keepsBelow hx

/-- Declarations of one variable as a branch, in a block and as the body of a loop, an assignment to
another one, and a break. -/
def hidingStatements : List Stmt :=
  [.ifThen (.reference ⟨"b", 1⟩) (.declare ⟨"a", 1⟩ (some (.literal (.text "inside")))),
    .whileLoop (.reference ⟨"b", 2⟩)
      (.block [.declare ⟨"a", 3⟩ none, .expression (.assign ⟨"b", 4⟩ (.reference ⟨"a", 4⟩))]),
    .whileLoop (.reference ⟨"a", 5⟩) (.declare ⟨"a", 5⟩ (some (.literal (.boolean false)))),
    .breakLoop ⟨"break", 6⟩]

/-- The break leaves a block that has declared the variable in three ways. Outside it is still bound
in the scope that bound it, to the same value, and in no other. -/
theorem Ends.map_lookup_of_block_hiding :
    "a" ∉ targets hidingStatements ∧
      Ends [.block hidingStatements]
        ⟨[[("c", .nil)], [("a", .boolean true), ("b", .boolean true)]], []⟩
        (.error .breakLoop, ⟨[[("c", .nil)], [("a", .boolean true), ("b", .nil)]], []⟩) ∧
      [[("c", .nil)], [("a", .boolean true), ("b", .nil)]].map (List.lookup "a") =
        [[("c", .nil)], [("a", .boolean true), ("b", Value.boolean true)]].map
          (List.lookup "a") := by
  have hx : "a" ∉ targets hidingStatements := by decide
  have hends : Ends [.block hidingStatements]
      ⟨[[("c", .nil)], [("a", .boolean true), ("b", .boolean true)]], []⟩
      (.error .breakLoop, ⟨[[("c", .nil)], [("a", .boolean true), ("b", .nil)]], []⟩) := ⟨2, rfl⟩
  exact ⟨hx, hends, hends.map_lookup_of_block hx⟩

end AstSchema.Lox
