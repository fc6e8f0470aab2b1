import AstSchema.Proofs.Lox.Parts
import AstSchema.Proofs.Lox.Reaching

/-!
# What runs leave alone

A part of a program changes the state in few ways: it assigns to a variable, declares one, prints a
line, or does this in a scope of its own. A relation between states that each of these keeps is a
frame (`IsFrame`), and then it holds between the states before and after any part of a program,
however that part ends.

A part of a program does not do all of this. The variables that it assigns to can be read off its
text, and those that it declares are declared at points that a run gets to. A relation that is not
kept by every assignment or every declaration is still kept by a run that makes none of the others
(`Ends.bareframe`).

The frame that matters for names is that nothing but the innermost scope gets any
(`Scopes.Extends`). It is kept by a block because the block begins with a new scope, which is then
the innermost, and ends by giving it up again.
-/

namespace AstSchema.Lox

/-! ## Ends of parts -/

/-- A part with another one behind it goes on or stops. -/
theorem Outcome.andThen_eq_some {α β : Type} {o : Outcome α}
    {next : α → Machine → Option (Outcome β)} {result : Outcome β}
    (h : o.andThen next = some result) :
    (∃ a, o.1 = .ok a ∧ next a o.2 = some result) ∨
      ∃ i, o.1 = .error i ∧ result = (.error i, o.2) := by
  obtain ⟨_ | a, m⟩ := o
  · exact .inr ⟨_, rfl, (Option.some.inj h).symm⟩
  · exact .inl ⟨a, rfl, h⟩

/-- The rule for loops. In front of every round `I` holds, and `J` holds of every way out: a
condition that stops or fails, a break and a fault. -/
theorem repeatWhile_rule {condition : Machine → Outcome Value}
    {body : Machine → Option (Outcome Unit)} {I : Machine → Prop} {J : Outcome Unit → Prop}
    (hstop : ∀ m i m₁, I m → condition m = (.error i, m₁) → J (.error i, m₁))
    (hexit : ∀ m v m₁, I m → condition m = (.ok v, m₁) → J (.ok (), m₁))
    (hround : ∀ m v m₁ result m', I m → condition m = (.ok v, m₁) → v.isTruthy = true →
      body m₁ = some (result, m') → (result = .ok () → I m') ∧
        (result = .error .breakLoop → J (.ok (), m')) ∧
        ∀ line fault, result = .error (.fault line fault) → J (result, m'))
    {rounds : Nat} {m : Machine} {o : Outcome Unit} (hm : I m)
    (h : repeatWhile condition body rounds m = some o) : J o := by
  induction rounds generalizing m with
  | zero => cases h
  | succ rounds ih =>
    rw [repeatWhile] at h
    rcases hcondition : condition m with ⟨i | v, m₁⟩
    · rw [hcondition] at h
      cases h
      exact hstop m i m₁ hm hcondition
    · rw [hcondition] at h
      simp only [Outcome.andThen] at h
      split at h
      · next hv =>
        split at h
        · cases h
        · next hbody => exact ih ((hround m v m₁ _ _ hm hcondition hv hbody).1 rfl) h
        · next hbody =>
          cases h
          exact (hround m v m₁ _ _ hm hcondition hv hbody).2.1 rfl
        · next hbody =>
          cases h
          exact (hround m v m₁ _ _ hm hcondition hv hbody).2.2 _ _ rfl
      · cases h
        exact hexit m v m₁ hm hcondition

/-- What a condition and a round of a loop keep, the loop keeps. Its end is that of the condition
or of a round, but for breaks. -/
theorem repeatWhile_invariant {condition : Machine → Outcome Value}
    {body : Machine → Option (Outcome Unit)} {I : Machine → Prop}
    {Q : Except Interrupt Unit → Prop}
    (hcondition : ∀ m, I m → I (condition m).2 ∧ ∀ i, (condition m).1 = .error i → Q (.error i))
    (hbody : ∀ m result m', I m → body m = some (result, m') →
      I m' ∧ (result ≠ .error .breakLoop → Q result)) (hok : Q (.ok ()))
    {rounds : Nat} {m m' : Machine} {result : Except Interrupt Unit} (hm : I m)
    (h : repeatWhile condition body rounds m = some (result, m')) : I m' ∧ Q result := by
  have hafter {m m₁ : Machine} {result : Except Interrupt Value} (hm : I m)
      (h : condition m = (result, m₁)) : I m₁ ∧ ∀ i, result = .error i → Q (.error i) := by
    have := hcondition m hm
    rwa [h] at this
  refine repeatWhile_rule (J := fun o ↦ I o.2 ∧ Q o.1) ?_ ?_ ?_ hm h
  · exact fun m i m₁ hm h ↦ ⟨(hafter hm h).1, (hafter hm h).2 i rfl⟩
  · exact fun m v m₁ hm h ↦ ⟨(hafter hm h).1, hok⟩
  · intro m v m₁ result m' hm h _ hrun
    obtain ⟨hm', hresult⟩ := hbody m₁ result m' (hafter hm h).1 hrun
    refine ⟨fun _ ↦ hm', fun _ ↦ ⟨hm', hok⟩, fun line fault hfault ↦ ⟨hm', hresult ?_⟩⟩
    rw [hfault]
    simp

/-! ## Ends of operators -/

section

/- An operator gives a value or fails at its token, and never because of a variable. What holds of
both kinds of ends holds of all of them. -/
variable {operator : Token} {Q : Except Interrupt Value → Prop} (hok : ∀ v, Q (.ok v))
  (hfault : ∀ fault, (∀ name, fault ≠ .undefinedVariable name) →
    Q (.error (operator.fault fault)))

include hok hfault

theorem onNumbers_end (f : Float → Float → Value) (l r : Value) :
    Q (onNumbers operator f l r) := by
  unfold onNumbers
  split
  · exact hok _
  · exact hfault _ (by simp)

theorem applyBinary_end (l r : Value) : Q (applyBinary operator l r) := by
  have hnumbers := onNumbers_end hok hfault
  unfold applyBinary
  split
  · split
    · exact hok _
    · exact hnumbers _ _ _
  · exact hnumbers _ _ _
  · exact hnumbers _ _ _
  · exact hnumbers _ _ _
  · exact hnumbers _ _ _
  · exact hnumbers _ _ _
  · exact hnumbers _ _ _
  · exact hnumbers _ _ _
  · exact hok _
  · exact hok _
  · exact hfault _ (by simp)

theorem applyUnary_end (v : Value) : Q (applyUnary operator v) := by
  unfold applyUnary
  split
  · exact hok _
  · exact hok _
  · exact hfault _ (by simp)

omit hok hfault

theorem settles_end {Q : Except Interrupt Bool → Prop} (hok : ∀ b, Q (.ok b))
    (hfault : ∀ fault, (∀ name, fault ≠ .undefinedVariable name) →
      Q (.error (operator.fault fault))) (l : Value) : Q (settles operator l) := by
  unfold settles
  split
  · exact hok _
  · exact hok _
  · exact hfault _ (by simp)

end

/-! ## Frames -/

/-- The relation is kept by everything that changes the state, but for what changes a binding. -/
structure IsBareframe (R : Machine → Machine → Prop) : Prop where
  /-- Doing nothing. -/
  refl (m : Machine) : R m m
  /-- Doing one thing after another. -/
  trans {m m' m'' : Machine} : R m m' → R m' m'' → R m m''
  /-- Printing a line. -/
  print (m : Machine) (line : String) : R m (m.print line)
  /-- Doing something in a scope of its own. -/
  block {m m' : Machine} : R m.push m' → R m m'.pop

/-- The relation is kept by everything that changes the state, but for declarations. -/
structure IsPreframe (R : Machine → Machine → Prop) : Prop extends IsBareframe R where
  /-- Assigning to a variable. -/
  assign {m : Machine} {x : String} {v : Value} {scopes : Scopes} :
    m.scopes.assign? x v = some scopes → R m { m with scopes }

/-- The relation is kept by everything that changes the state. -/
structure IsFrame (R : Machine → Machine → Prop) : Prop extends IsPreframe R where
  /-- Declaring a variable. -/
  define (m : Machine) (x : String) (v : Value) : R m (m.define x v)

section

variable {R : Machine → Machine → Prop} (hR : IsBareframe R)

include hR

theorem assign_bareframe (name : Token) (v : Value) (m : Machine)
    (hassign : ∀ scopes, m.scopes.assign? name.lexeme v = some scopes → R m { m with scopes }) :
    R m (assign name v m).2 := by
  unfold assign
  split
  · next h => exact hassign _ h
  · exact hR.refl m

/-- A relation that is kept by assigning to each of the variables that an expression assigns to is
kept by evaluating the expression. -/
theorem evaluate_bareframe (e : Expr) (m : Machine)
    (hassign : ∀ x ∈ e.targets, ∀ (m : Machine) v scopes,
      m.scopes.assign? x v = some scopes → R m { m with scopes }) :
    R m (evaluate e m).2 := by
  have hafter {e : Expr} {m m' : Machine} {result : Except Interrupt Value}
      (h : evaluate e m = (result, m')) (ih : R m (evaluate e m).2) : R m m' := by
    rwa [h] at ih
  fun_induction evaluate e m
  case case6 | case8 | case15 => exact hR.refl _
  case case7 ih => exact ih hassign
  case case1 h ih =>
    obtain ⟨hname, hvalue⟩ := List.forall_mem_cons.mp hassign
    exact hR.trans (hafter h (ih hvalue)) (assign_bareframe hR _ _ _ fun _ ↦ hname _ _ _)
  case case2 h ih => exact hafter h (ih (List.forall_mem_cons.mp hassign).2)
  case case3 hleft _ _ hright ihleft ihright | case4 hleft _ _ hright ihleft ihright =>
    obtain ⟨htargets, htargets'⟩ := List.forall_mem_append.mp hassign
    exact hR.trans (hafter hleft (ihleft htargets)) (hafter hright (ihright htargets'))
  case case10 hleft _ ihleft ihright =>
    obtain ⟨htargets, htargets'⟩ := List.forall_mem_append.mp hassign
    exact hR.trans (hafter hleft (ihleft htargets)) (ihright htargets')
  case case9 h _ ih | case11 h _ _ ih => exact hafter h (ih (List.forall_mem_append.mp hassign).1)
  case case5 h ih | case12 h ih => exact hafter h (ih (List.forall_mem_append.mp hassign).1)
  case case13 h ih | case14 h ih => exact hafter h (ih hassign)

/-! ## Statements -/

/-- Going on keeps a frame if each of the parts does. -/
theorem andThen_frame {α β : Type} {o : Outcome α} {next : α → Machine → Option (Outcome β)}
    {m m' : Machine} {result : Except Interrupt β} (ho : R m o.2)
    (hnext : ∀ a result m', o = (.ok a, o.2) → next a o.2 = some (result, m') → R o.2 m')
    (h : o.andThen next = some (result, m')) : R m m' := by
  rcases Outcome.andThen_eq_some h with ⟨a, ha, hgo⟩ | ⟨i, -, heq⟩
  · exact hR.trans ho (hnext a result m' (Prod.ext ha rfl) hgo)
  · cases heq
    exact ho

mutual

/-- A relation that is kept by everything but changes of bindings, by evaluating each expression of a
statement and by each declaration that is made, is kept by executing the statement. The statements
behind it do not matter. -/
theorem execute_bareframe (rounds : Nat) (s : Stmt) (rest : List Stmt) {m m' : Machine}
    {result : Except Interrupt Unit} (hevaluate : ∀ e ∈ s.expressions, ∀ m, R m (evaluate e m).2)
    (hdefine : ∀ x v m₁, Declares (s :: rest) m x v m₁ → R m₁ (m₁.define x v))
    (h : execute rounds s m = some (result, m')) : R m m' := by
  match s with
  | .block statements =>
    rw [execute] at h
    split at h
    · cases h
    · next hinner =>
      cases h
      refine hR.block (executeAll_bareframe rounds statements hevaluate
        (fun x v m₁ hinside ↦ ?_) hinner)
      exact hdefine x v m₁ (hinside.of_reaches (.single .block))
  | .breakLoop _ | .function _ _ _ | .returnValue _ _ =>
    rw [execute] at h
    cases h
    exact hR.refl m
  | .expression e =>
    rw [execute] at h
    refine andThen_frame hR (hevaluate e List.mem_cons_self m) (fun v result m' _ hgo ↦ ?_) h
    cases hgo
    exact hR.refl _
  | .ifThen condition consequence =>
    obtain ⟨hcondition, hconsequence⟩ := List.forall_mem_cons.mp hevaluate
    rw [execute] at h
    refine andThen_frame hR (hcondition m) (fun v result m' hv hgo ↦ ?_) h
    split at hgo
    · next htruthy =>
      refine execute_bareframe rounds consequence [] hconsequence (fun x v m₁ hinside ↦ ?_) hgo
      exact hdefine x v m₁ (hinside.of_reaches (.single (.branch hv htruthy)))
    · cases hgo
      exact hR.refl _
  | .ifElse condition consequence alternative =>
    obtain ⟨hcondition, hbranches⟩ := List.forall_mem_cons.mp hevaluate
    obtain ⟨hconsequence, halternative⟩ := List.forall_mem_append.mp hbranches
    rw [execute] at h
    refine andThen_frame hR (hcondition m) (fun v result m' hv hgo ↦ ?_) h
    split at hgo
    · next htruthy =>
      refine execute_bareframe rounds consequence [] hconsequence (fun x v m₁ hinside ↦ ?_) hgo
      exact hdefine x v m₁ (hinside.of_reaches (.single (.consequence hv htruthy)))
    · next htruthy =>
      refine execute_bareframe rounds alternative [] halternative (fun x v m₁ hinside ↦ ?_) hgo
      exact hdefine x v m₁ (hinside.of_reaches
        (.single (.alternative hv (Bool.eq_false_iff.mpr htruthy))))
  | .print e =>
    rw [execute] at h
    refine andThen_frame hR (hevaluate e List.mem_cons_self m) (fun v result m' _ hgo ↦ ?_) h
    cases hgo
    exact hR.print _ _
  | .declare name none =>
    rw [execute] at h
    cases h
    exact hdefine _ _ m (.empty .refl)
  | .declare name (some e) =>
    rw [execute] at h
    refine andThen_frame hR (hevaluate e List.mem_cons_self m) (fun v result m' hv hgo ↦ ?_) h
    cases hgo
    exact hdefine _ _ _ (.value .refl hv)
  | .whileLoop condition body =>
    obtain ⟨htest, hbody⟩ := List.forall_mem_cons.mp hevaluate
    rw [execute] at h
    have hcondition {m₁ m₂ : Machine} {result : Except Interrupt Value}
        (h : evaluate condition m₁ = (result, m₂)) : R m₁ m₂ := by
      have := htest m₁
      rwa [h] at this
    -- In front of each round, the run has got to the same loop.
    refine repeatWhile_rule (J := fun o ↦ R m o.2)
      (I := fun m₁ ↦ R m m₁ ∧
        Reaches (.whileLoop condition body :: rest, m) (.whileLoop condition body :: rest, m₁))
      (fun m₁ i m₂ hm₁ h ↦ hR.trans hm₁.1 (hcondition h))
      (fun m₁ v m₂ hm₁ h ↦ hR.trans hm₁.1 (hcondition h))
      (fun m₁ v m₂ result m' hm₁ h hv hrun ↦ ?_) ⟨hR.refl m, .refl⟩ h
    have hround : R m₂ m' := by
      refine execute_bareframe rounds body [] hbody (fun x v m₁ hinside ↦ ?_) hrun
      exact hdefine x v m₁ (hinside.of_reaches (hm₁.2.tail (.round h hv)))
    have hm' : R m m' := hR.trans (hR.trans hm₁.1 (hcondition h)) hround
    refine ⟨?_, fun _ ↦ hm', fun _ _ _ ↦ hm'⟩
    rintro rfl
    exact ⟨hm', hm₁.2.tail (.again rounds h hv hrun)⟩

/-- The same for statements one after another. -/
theorem executeAll_bareframe (rounds : Nat) (statements : List Stmt) {m m' : Machine}
    {result : Except Interrupt Unit}
    (hevaluate : ∀ e ∈ expressions statements, ∀ m, R m (evaluate e m).2)
    (hdefine : ∀ x v m₁, Declares statements m x v m₁ → R m₁ (m₁.define x v))
    (h : executeAll rounds statements m = some (result, m')) : R m m' := by
  match statements with
  | [] =>
    cases h
    exact hR.refl m
  | s :: rest =>
    obtain ⟨hs, hrest⟩ := List.forall_mem_append.mp hevaluate
    rw [executeAll] at h
    split at h
    · cases h
    · next hfirst =>
      refine hR.trans (execute_bareframe rounds s rest hs hdefine hfirst)
        (executeAll_bareframe rounds rest hrest (fun x v m₁ hbehind ↦ ?_) h)
      exact hdefine x v m₁ (hbehind.of_reaches (.single (.behind rounds hfirst)))
    · next hfirst =>
      cases h
      exact execute_bareframe rounds s rest hs hdefine hfirst

end

/-- What is kept by everything but changes of bindings, by evaluating the expressions of a program
and by each declaration that a run makes, the run keeps. -/
theorem Ends.bareframe {program : List Stmt} {m m' : Machine} {result : Except Interrupt Unit}
    (hevaluate : ∀ e ∈ expressions program, ∀ m, R m (evaluate e m).2)
    (hdefine : ∀ x v m₁, Declares program m x v m₁ → R m₁ (m₁.define x v))
    (h : Ends program m (result, m')) : R m m' := by
  obtain ⟨rounds, h⟩ := h
  exact executeAll_bareframe hR rounds program hevaluate hdefine h

end

section

variable {R : Machine → Machine → Prop} (hR : IsPreframe R)

include hR

/-- Evaluating an expression keeps every frame. -/
theorem evaluate_frame (e : Expr) (m : Machine) : R m (evaluate e m).2 :=
  evaluate_bareframe hR.toIsBareframe e m fun _ _ _ _ _ ↦ hR.assign

/-- A run declares no variable but those of `Declares`: a relation that is kept by each of these
declarations and by everything else that changes the state is kept by the run. -/
theorem Ends.preframe {program : List Stmt} {m m' : Machine} {result : Except Interrupt Unit}
    (hdefine : ∀ x v m₁, Declares program m x v m₁ → R m₁ (m₁.define x v))
    (h : Ends program m (result, m')) : R m m' :=
  h.bareframe hR.toIsBareframe (fun e _ ↦ evaluate_frame hR e) hdefine

end

section

variable {R : Machine → Machine → Prop} (hR : IsFrame R)

include hR

/-- Executing a statement keeps every frame, however it ends. -/
theorem execute_frame (rounds : Nat) (s : Stmt) {m m' : Machine}
    {result : Except Interrupt Unit} (h : execute rounds s m = some (result, m')) : R m m' :=
  execute_bareframe hR.toIsBareframe rounds s []
    (fun e _ ↦ evaluate_frame hR.toIsPreframe e) (fun x v m₁ _ ↦ hR.define m₁ x v) h

/-- A run keeps every frame. -/
theorem Ends.frame {program : List Stmt} {m m' : Machine} {result : Except Interrupt Unit}
    (h : Ends program m (result, m')) : R m m' :=
  h.preframe hR.toIsPreframe fun x v m₁ _ ↦ hR.define m₁ x v

end

/-! ## Scopes -/

/-- A name that the scope binds keeps its place, and another one comes last. -/
theorem Scope.names_put (x : String) (v : Value) (s : Scope) :
    (s.put x v).names = if s.binds x then s.names else s.names ++ [x] := by
  induction s with
  | nil => rfl
  | cons binding rest ih =>
    obtain ⟨y, w⟩ := binding
    by_cases hy : y = x
    · simp [put, hy, names, binds]
    · have hbinds : binds ((y, w) :: rest) x = binds rest x := by
        simp [binds, names, Ne.symm hy]
      have hnames (s : Scope) : names ((y, w) :: s) = y :: names s := rfl
      rw [hbinds, put, if_neg hy, hnames, hnames, ih]
      split <;> rfl

namespace Scopes

/-- The same scopes, but for values and for more names in the innermost one. -/
def Extends : Scopes → Scopes → Prop
  | [], t => t = []
  | s :: below, t =>
    ∃ s' below', t = s' :: below' ∧ s.names ⊆ s'.names ∧
      below'.map Scope.names = below.map Scope.names

/-- An assignment binds no name anew. -/
theorem map_names_assign? {scopes scopes' : Scopes} {x : String} {v : Value}
    (h : scopes.assign? x v = some scopes') :
    scopes'.map Scope.names = scopes.map Scope.names := by
  induction scopes generalizing scopes' with
  | nil => cases h
  | cons s below ih =>
    rw [assign?] at h
    split at h
    · next hbinds =>
      cases h
      rw [List.map_cons, List.map_cons, Scope.names_put, if_pos hbinds]
    · obtain ⟨below', hbelow, rfl⟩ := Option.map_eq_some_iff.mp h
      rw [List.map_cons, List.map_cons, ih hbelow]

namespace Extends

/-- New values alone change no scope. -/
theorem of_map_names {scopes scopes' : Scopes}
    (h : scopes'.map Scope.names = scopes.map Scope.names) : scopes.Extends scopes' := by
  cases scopes with
  | nil => exact List.map_eq_nil_iff.mp h
  | cons s below =>
    obtain ⟨s', below', rfl, hs, hbelow⟩ := List.map_eq_cons_iff.mp h
    exact ⟨s', below', rfl, hs ▸ List.Subset.refl _, hbelow⟩

theorem refl (scopes : Scopes) : scopes.Extends scopes := of_map_names rfl

theorem trans {scopes scopes' scopes'' : Scopes} (h : scopes.Extends scopes')
    (h' : scopes'.Extends scopes'') : scopes.Extends scopes'' := by
  cases scopes with
  | nil =>
    obtain rfl := h
    exact h'
  | cons s below =>
    obtain ⟨s', below', rfl, hs, hbelow⟩ := h
    obtain ⟨s'', below'', rfl, hs', hbelow'⟩ := h'
    exact ⟨s'', below'', rfl, List.Subset.trans hs hs', hbelow'.trans hbelow⟩

theorem define (scopes : Scopes) (x : String) (v : Value) : scopes.Extends (scopes.define x v) := by
  cases scopes with
  | nil => rfl
  | cons s below =>
    refine ⟨_, below, rfl, ?_, rfl⟩
    rw [Scope.names_put]
    split
    · exact List.Subset.refl _
    · exact List.subset_append_left _ _

theorem length_eq {scopes scopes' : Scopes} (h : scopes.Extends scopes') :
    scopes'.length = scopes.length := by
  cases scopes with
  | nil =>
    obtain rfl := h
    rfl
  | cons s below =>
    obtain ⟨s', below', rfl, -, hbelow⟩ := h
    simpa using congrArg List.length hbelow

theorem ne_nil {scopes scopes' : Scopes} (h : scopes.Extends scopes') (hne : scopes ≠ []) :
    scopes' ≠ [] := by
  rw [← List.length_pos_iff, h.length_eq]
  exact List.length_pos_iff.mpr hne

/-- The scopes below a new one are the same but for values. -/
theorem tail {scopes scopes' : Scopes} (h : Extends ([] :: scopes) scopes') :
    scopes.Extends scopes'.tail := by
  obtain ⟨s', below', rfl, -, hbelow⟩ := h
  exact of_map_names hbelow

end Extends

end Scopes

/-- Nothing but the innermost scope gets names. -/
theorem isFrame_extends : IsFrame fun m m' ↦ m.scopes.Extends m'.scopes where
  refl m := .refl m.scopes
  trans := .trans
  assign h := .of_map_names (Scopes.map_names_assign? h)
  define m := .define m.scopes
  print m _ := .refl m.scopes
  block := .tail

end AstSchema.Lox
