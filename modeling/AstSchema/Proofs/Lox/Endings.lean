import AstSchema.Proofs.Lox.Frames

/-!
# Ends of runs

Execution takes a number of rounds that no single loop may exceed, and a run ends if there is a
number that is enough. The number has no other part in the outcome: with more rounds the outcome
stays the same (`execute_mono`). So a run ends in one way at most (`Ends.unique`), and its end can
be told from the ends of its parts without a word about rounds: `ends_cons_iff` says so of
statements one after another, `ends_block_iff` of blocks, `ends_ifThen_iff` and `ends_ifElse_iff` of
conditionals, and `Ends.of_whileLoop` of loops.
-/

namespace AstSchema.Lox

/-! ## More rounds -/

theorem Outcome.andThen_mono {α β : Type} {o : Outcome α}
    {next next' : α → Machine → Option (Outcome β)} {result : Outcome β}
    (hnext : ∀ a, next a o.2 = some result → next' a o.2 = some result)
    (h : o.andThen next = some result) : o.andThen next' = some result := by
  obtain ⟨_ | a, m⟩ := o
  · exact h
  · exact hnext a h

theorem repeatWhile_mono {condition : Machine → Outcome Value}
    {body body' : Machine → Option (Outcome Unit)}
    (hbody : ∀ m o, body m = some o → body' m = some o) {rounds rounds' : Nat}
    (hle : rounds ≤ rounds') {m : Machine} {o : Outcome Unit}
    (h : repeatWhile condition body rounds m = some o) :
    repeatWhile condition body' rounds' m = some o := by
  induction rounds generalizing rounds' m with
  | zero => cases h
  | succ rounds ih =>
    obtain ⟨more, rfl⟩ := Nat.exists_eq_add_of_le hle
    rw [Nat.add_right_comm, repeatWhile]
    rw [repeatWhile] at h
    refine Outcome.andThen_mono (fun v hv ↦ ?_) h
    by_cases htruthy : v.isTruthy = true
    · rw [if_pos htruthy] at hv ⊢
      cases hrun : body (condition m).2 with
      | none =>
        rw [hrun] at hv
        cases hv
      | some inside =>
        rw [hrun] at hv
        rw [hbody _ _ hrun]
        obtain ⟨(_ | ⟨line, fault⟩) | ⟨⟩, m'⟩ := inside
        · exact hv
        · exact hv
        · exact ih (Nat.le_add_right rounds more) hv
    · rw [if_neg htruthy] at hv ⊢
      exact hv

mutual

/-- With more rounds a statement ends as it does with fewer. -/
theorem execute_mono {rounds rounds' : Nat} (hle : rounds ≤ rounds') (s : Stmt) {m : Machine}
    {o : Outcome Unit} (h : execute rounds s m = some o) : execute rounds' s m = some o := by
  match s with
  | .block statements =>
    rw [execute] at h ⊢
    cases hrun : executeAll rounds statements m.push with
    | none =>
      rw [hrun] at h
      cases h
    | some inside =>
      rw [hrun] at h
      rw [executeAll_mono hle statements hrun]
      exact h
  | .breakLoop _ | .expression _ | .function _ _ _ | .print _ | .returnValue _ _
  | .declare _ none | .declare _ (some _) =>
    rw [execute] at h ⊢
    exact h
  | .ifThen condition consequence =>
    rw [execute] at h ⊢
    refine Outcome.andThen_mono (fun v hv ↦ ?_) h
    by_cases htruthy : v.isTruthy = true
    · rw [if_pos htruthy] at hv ⊢
      exact execute_mono hle consequence hv
    · rw [if_neg htruthy] at hv ⊢
      exact hv
  | .ifElse condition consequence alternative =>
    rw [execute] at h ⊢
    refine Outcome.andThen_mono (fun v hv ↦ ?_) h
    by_cases htruthy : v.isTruthy = true
    · rw [if_pos htruthy] at hv ⊢
      exact execute_mono hle consequence hv
    · rw [if_neg htruthy] at hv ⊢
      exact execute_mono hle alternative hv
  | .whileLoop condition body =>
    rw [execute] at h ⊢
    exact repeatWhile_mono (fun m o ↦ execute_mono hle body) hle h

/-- With more rounds statements end as they do with fewer. -/
theorem executeAll_mono {rounds rounds' : Nat} (hle : rounds ≤ rounds') (statements : List Stmt)
    {m : Machine} {o : Outcome Unit} (h : executeAll rounds statements m = some o) :
    executeAll rounds' statements m = some o := by
  match statements with
  | [] =>
    rw [executeAll] at h ⊢
    exact h
  | s :: rest =>
    rw [executeAll] at h ⊢
    cases hfirst : execute rounds s m with
    | none =>
      rw [hfirst] at h
      cases h
    | some first =>
      rw [hfirst] at h
      rw [execute_mono hle s hfirst]
      obtain ⟨_ | ⟨⟩, m'⟩ := first
      · exact h
      · exact executeAll_mono hle rest h

end

/-- A run ends in one way at most. -/
theorem Ends.unique {program : List Stmt} {m : Machine} {o o' : Outcome Unit}
    (h : Ends program m o) (h' : Ends program m o') : o = o' := by
  obtain ⟨rounds, h⟩ := h
  obtain ⟨rounds', h'⟩ := h'
  have hmore := executeAll_mono (Nat.le_max_left rounds rounds') program h
  have hmore' := executeAll_mono (Nat.le_max_right rounds rounds') program h'
  exact Option.some.inj (hmore.symm.trans hmore')

/-! ## Ends from the ends of parts -/

theorem executeAll_singleton (rounds : Nat) (s : Stmt) (m : Machine) :
    executeAll rounds [s] m = execute rounds s m := by
  rw [executeAll]
  split
  · next h => exact h.symm
  · next h => exact h.symm
  · next h => exact h.symm

theorem ends_singleton_iff {s : Stmt} {m : Machine} {o : Outcome Unit} :
    Ends [s] m o ↔ ∃ rounds, execute rounds s m = some o := by
  simp only [Ends, executeAll_singleton]

/-- Statements one after another end as those behind the first, from where it ends, or with the
interrupt of the first. -/
theorem ends_cons_iff {s : Stmt} {rest : List Stmt} {m : Machine} {o : Outcome Unit} :
    Ends (s :: rest) m o ↔
      (∃ m', Ends [s] m (.ok (), m') ∧ Ends rest m' o) ∨
        (∃ i, o.1 = .error i) ∧ Ends [s] m o := by
  constructor
  · rintro ⟨rounds, h⟩
    rw [executeAll] at h
    split at h
    · cases h
    · next m' hfirst =>
      exact .inl ⟨m', ends_singleton_iff.mpr ⟨rounds, hfirst⟩, rounds, h⟩
    · next i m' hfirst =>
      cases h
      exact .inr ⟨⟨i, rfl⟩, ends_singleton_iff.mpr ⟨rounds, hfirst⟩⟩
  · rintro (⟨m', hfirst, rounds', hrest⟩ | ⟨⟨i, hi⟩, hfirst⟩)
    · obtain ⟨rounds, hfirst⟩ := ends_singleton_iff.mp hfirst
      refine ⟨max rounds rounds', ?_⟩
      rw [executeAll, execute_mono (Nat.le_max_left rounds rounds') s hfirst]
      exact executeAll_mono (Nat.le_max_right rounds rounds') rest hrest
    · obtain ⟨rounds, hfirst⟩ := ends_singleton_iff.mp hfirst
      obtain ⟨result, m'⟩ := o
      obtain rfl : result = .error i := hi
      refine ⟨rounds, ?_⟩
      rw [executeAll, hfirst]

/-- A block ends as its statements do in a new scope, and gives the scope up. -/
theorem ends_block_iff {statements : List Stmt} {m : Machine} {o : Outcome Unit} :
    Ends [.block statements] m o ↔
      ∃ inside, Ends statements m.push inside ∧ o = (inside.1, inside.2.pop) := by
  rw [ends_singleton_iff]
  constructor
  · rintro ⟨rounds, h⟩
    rw [execute] at h
    split at h
    · cases h
    · next result m' hinside =>
      cases h
      exact ⟨(result, m'), ⟨rounds, hinside⟩, rfl⟩
  · rintro ⟨⟨result, m'⟩, ⟨rounds, hinside⟩, rfl⟩
    refine ⟨rounds, ?_⟩
    rw [execute, hinside]

/-- A conditional without an alternative ends as its branch does, if its condition holds. -/
theorem ends_ifThen_iff {condition : Expr} {consequence : Stmt} {m m' : Machine} {v : Value}
    {o : Outcome Unit} (hcondition : evaluate condition m = (.ok v, m'))
    (hv : v.isTruthy = true) :
    Ends [.ifThen condition consequence] m o ↔ Ends [consequence] m' o := by
  simp only [ends_singleton_iff, execute, hcondition, Outcome.andThen, if_pos hv]

/-- A conditional with an alternative ends as the branch does that its condition picks. -/
theorem ends_ifElse_iff {condition : Expr} {consequence alternative : Stmt} {m m' : Machine}
    {v : Value} {o : Outcome Unit} (hcondition : evaluate condition m = (.ok v, m')) :
    Ends [.ifElse condition consequence alternative] m o ↔
      Ends [if v.isTruthy then consequence else alternative] m' o := by
  simp only [ends_singleton_iff, execute, hcondition, Outcome.andThen]
  split
  · rfl
  · rfl

/-- A loop whose condition holds has a first round. Behind the round, the same loop is what is left,
or a break or a fault has been the end of it. -/
theorem Ends.of_whileLoop {condition : Expr} {body : Stmt} {m m' : Machine} {v : Value}
    {o : Outcome Unit} (hcondition : evaluate condition m = (.ok v, m'))
    (hv : v.isTruthy = true) (h : Ends [.whileLoop condition body] m o) :
    (∃ m'', Ends [body] m' (.ok (), m'') ∧ Ends [.whileLoop condition body] m'' o) ∨
      ∃ i, Ends [body] m' (.error i, o.2) := by
  obtain ⟨rounds, h⟩ := ends_singleton_iff.mp h
  rw [execute] at h
  cases rounds with
  | zero => cases h
  | succ rounds =>
    rw [repeatWhile, hcondition] at h
    simp only [Outcome.andThen, if_pos hv] at h
    split at h
    · cases h
    · next m'' hround =>
      refine .inl ⟨m'', ends_singleton_iff.mpr ⟨_, hround⟩, ?_⟩
      refine ends_singleton_iff.mpr ⟨rounds + 1, ?_⟩
      rw [execute]
      exact repeatWhile_mono (fun m o ↦ id) (Nat.le_succ rounds) h
    · next m'' hround =>
      cases h
      exact .inr ⟨_, ends_singleton_iff.mpr ⟨_, hround⟩⟩
    · next m'' hround =>
      cases h
      exact .inr ⟨_, ends_singleton_iff.mpr ⟨_, hround⟩⟩

end AstSchema.Lox
