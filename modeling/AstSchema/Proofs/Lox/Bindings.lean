import AstSchema.Proofs.Lox.Shadowing

/-!
# Bindings

Looking a name up and assigning to it are two searches, and each goes from the innermost scope
outwards. They meet the same binding: one succeeds if and only if the other does, and what was
assigned is what is found. `Scopes.Rebinds` says what an assignment does to the scopes as a whole. A
declaration searches for nothing and binds in the innermost scope, so it may change which binding a
later assignment meets.

A scope that is given up takes its declarations with it, and the assignments to what it declared.
What is left of the updates made inside it are the assignments that reached for a scope outside
(`AssignsOutside`). To all other names the scopes that are left give the values that they had.
-/

namespace AstSchema.Lox

/-! ## The search for a binding -/

namespace Scope

theorem lookup_eq_none_iff {s : Scope} {x : String} : s.lookup x = none ↔ x ∉ s.names := by
  rw [List.lookup_eq_none_iff]
  constructor
  · intro h hx
    obtain ⟨binding, hmem, rfl⟩ := List.mem_map.mp hx
    exact absurd (h binding hmem) (by simp)
  · intro h binding hmem
    have hne : x ≠ binding.1 := by
      rintro rfl
      exact h (List.mem_map_of_mem hmem)
    simpa using hne

theorem binds_iff {s : Scope} {x : String} : s.binds x = true ↔ x ∈ s.names :=
  List.contains_iff_mem

/-- A scope that binds the name binds no other names behind it. -/
theorem names_put_of_mem {s : Scope} {x : String} (h : x ∈ s.names) (v : Value) :
    (s.put x v).names = s.names := by
  rw [names_put, if_pos (binds_iff.mpr h)]

end Scope

namespace Scopes

variable {scopes scopes' : Scopes} {x : String} {v : Value}

theorem lookup?_eq_findSome? (x : String) (scopes : Scopes) :
    scopes.lookup? x = (scopes.map (List.lookup x)).findSome? id := by
  induction scopes with
  | nil => rfl
  | cons s outer ih =>
    rw [lookup?, List.map_cons, List.findSome?_cons, ih]
    cases List.lookup x s <;> rfl

/-- What a name is bound to is all that its value depends on. -/
theorem lookup?_congr (h : scopes'.map (List.lookup x) = scopes.map (List.lookup x)) :
    scopes'.lookup? x = scopes.lookup? x := by
  rw [lookup?_eq_findSome?, lookup?_eq_findSome?, h]

/-- The two searches fail alike. -/
theorem assign?_eq_none_iff : scopes.assign? x v = none ↔ scopes.lookup? x = none := by
  induction scopes with
  | nil => exact iff_of_true rfl rfl
  | cons s outer ih =>
    rw [assign?, lookup?]
    by_cases hx : x ∈ s.names
    · have hne : s.lookup x ≠ none := fun hnone ↦ Scope.lookup_eq_none_iff.mp hnone hx
      obtain ⟨w, hw⟩ := Option.ne_none_iff_exists'.mp hne
      rw [if_pos (Scope.binds_iff.mpr hx), hw]
      exact iff_of_false (Option.some_ne_none _) (Option.some_ne_none _)
    · rw [if_neg fun h ↦ hx (Scope.binds_iff.mp h), Scope.lookup_eq_none_iff.mpr hx,
        Option.map_eq_none_iff]
      exact ih

/-- The innermost scope that binds `x` binds it to `v` from now on. Nothing else is different. -/
def Rebinds (x : String) (v : Value) (scopes scopes' : Scopes) : Prop :=
  ∃ (inner : Scopes) (s s' : Scope) (outer : Scopes),
    scopes = inner ++ s :: outer ∧ scopes' = inner ++ s' :: outer ∧
    (∀ t ∈ inner, x ∉ t.names) ∧ x ∈ s.names ∧
    s'.names = s.names ∧ s'.lookup x = some v ∧ ∀ y, y ≠ x → s'.lookup y = s.lookup y

theorem rebinds_of_assign? (h : scopes.assign? x v = some scopes') :
    Rebinds x v scopes scopes' := by
  induction scopes generalizing scopes' with
  | nil => cases h
  | cons s outer ih =>
    rw [assign?] at h
    by_cases hx : x ∈ s.names
    · rw [if_pos (Scope.binds_iff.mpr hx)] at h
      obtain rfl := Option.some.inj h
      exact ⟨[], s, s.put x v, outer, rfl, rfl, by simp, hx, Scope.names_put_of_mem hx v,
        Scope.lookup_put_self x v s, fun y hy ↦ Scope.lookup_put_of_ne hy v s⟩
    · rw [if_neg fun hbinds ↦ hx (Scope.binds_iff.mp hbinds)] at h
      obtain ⟨outer', houter, rfl⟩ := Option.map_eq_some_iff.mp h
      obtain ⟨inner, t, t', rest, rfl, rfl, hinner, ht⟩ := ih houter
      exact ⟨s :: inner, t, t', rest, rfl, rfl, List.forall_mem_cons.mpr ⟨hx, hinner⟩, ht⟩

/-- The search finds what the innermost scope that binds the name was made to bind it to. -/
theorem Rebinds.lookup? (h : Rebinds x v scopes scopes') : scopes'.lookup? x = some v := by
  obtain ⟨inner, s, s', outer, -, rfl, hinner, -, -, hlookup, -⟩ := h
  have hnone : (inner.map (List.lookup x)).findSome? id = none := by
    rw [List.findSome?_eq_none_iff]
    intro result hresult
    obtain ⟨t, ht, rfl⟩ := List.mem_map.mp hresult
    exact Scope.lookup_eq_none_iff.mpr (hinner t ht)
  rw [lookup?_eq_findSome?, List.map_append, List.findSome?_append, hnone, List.map_cons, hlookup]
  rfl

end Scopes

/-! ## Variables of a machine -/

section

variable {m m' : Machine} {x y : Token} {v : Value}

theorem lookup_eq_ok_iff : lookup x m = .ok v ↔ m.scopes.lookup? x.lexeme = some v := by
  rw [lookup]
  cases m.scopes.lookup? x.lexeme <;> simp

theorem lookup_congr
    (h : m'.scopes.map (List.lookup y.lexeme) = m.scopes.map (List.lookup y.lexeme)) :
    lookup y m' = lookup y m := by
  rw [lookup, lookup, Scopes.lookup?_congr h]

/-- An assignment meets a binding or leaves everything as it is. -/
theorem assign_cases (x : Token) (v : Value) (m : Machine) :
    (∃ scopes, m.scopes.assign? x.lexeme v = some scopes ∧
      assign x v m = (.ok v, { m with scopes })) ∨
    m.scopes.assign? x.lexeme v = none ∧
      assign x v m = (.error (x.fault (.undefinedVariable x.lexeme)), m) := by
  rw [assign]
  cases m.scopes.assign? x.lexeme v with
  | none => exact .inr ⟨rfl, rfl⟩
  | some scopes => exact .inl ⟨scopes, rfl, rfl⟩

theorem exists_assign_iff :
    (∃ w, (assign x v m).1 = .ok w) ↔ ∃ w, lookup x m = .ok w := by
  simp only [lookup_eq_ok_iff]
  rcases assign_cases x v m with ⟨scopes, hassign, heq⟩ | ⟨hassign, heq⟩
  · have hsome : m.scopes.lookup? x.lexeme ≠ none := by
      rw [ne_eq, ← Scopes.assign?_eq_none_iff (v := v), hassign]
      exact Option.some_ne_none _
    rw [heq]
    exact iff_of_true ⟨v, rfl⟩ (Option.ne_none_iff_exists'.mp hsome)
  · rw [heq, Scopes.assign?_eq_none_iff.mp hassign]
    simp

theorem lookup_define_of_ne (h : y.lexeme ≠ x.lexeme) (v : Value) (m : Machine) :
    lookup y (m.define x.lexeme v) = lookup y m := by
  apply lookup_congr
  obtain ⟨_ | ⟨s, outer⟩, output⟩ := m
  · rfl
  · exact congrArg (· :: _) (Scope.lookup_put_of_ne h v s)

end

/-! ## Updates inside a scope -/

/-- A change to what names are bound to. -/
inductive Update
  /-- A declaration. -/
  | define (name : Token) (v : Value)
  /-- An assignment, which need not succeed. -/
  | assign (name : Token) (v : Value)

namespace Update

/-- The state behind the update. -/
def run : Update → Machine → Machine
  | define name v, m => m.define name.lexeme v
  | assign name v, m => (Lox.assign name v m).2

/-- The update assigns to `x`, and it is not the innermost scope that binds `x`. -/
def AssignsOutside (x : String) : Update → Machine → Prop
  | define _ _, _ => False
  | assign name v, m =>
    name.lexeme = x ∧ (∃ w, (Lox.assign name v m).1 = .ok w) ∧
      ∀ s ∈ m.scopes.head?, x ∉ s.names

end Update

/-- The state behind some updates. -/
def runUpdates : List Update → Machine → Machine
  | [], m => m
  | update :: rest, m => runUpdates rest (update.run m)

/-- One of the updates assigns to `x` when its turn comes, and it is not the innermost scope that
binds `x` then. -/
def AssignsOutside (x : String) : List Update → Machine → Prop
  | [], _ => False
  | update :: rest, m => update.AssignsOutside x m ∨ AssignsOutside x rest (update.run m)

/-- What is assigned in the innermost scope is kept there. -/
theorem keepsBelow_assign {name : Token} {v : Value} {x : String} {m : Machine}
    (h : ¬(Update.assign name v).AssignsOutside x m) :
    KeepsBelow x m (assign name v m).2 := by
  rcases assign_cases name v m with ⟨scopes, hassign, heq⟩ | ⟨-, heq⟩
  · rw [heq]
    by_cases hname : name.lexeme = x
    · have hbinds : ¬∀ s ∈ m.scopes.head?, x ∉ s.names := fun hnone ↦
        h ⟨hname, ⟨v, congrArg Prod.fst heq⟩, hnone⟩
      obtain ⟨_ | ⟨s, outer⟩, output⟩ := m
      · exact absurd (by simp) hbinds
      · have hx : x ∈ s.names := by simpa using hbinds
        rw [Scopes.assign?, hname, if_pos (Scope.binds_iff.mpr hx)] at hassign
        obtain rfl := Option.some.inj hassign
        rfl
    · rw [KeepsBelow, List.map_tail, List.map_tail,
        Scopes.map_lookup_assign? (Ne.symm hname) hassign]
  · rw [heq]
    rfl

theorem Update.keepsBelow {update : Update} {x : String} {m : Machine}
    (h : ¬update.AssignsOutside x m) : KeepsBelow x m (update.run m) := by
  cases update with
  | define name v => exact keepsBelow_define x name.lexeme v m
  | assign name v => exact keepsBelow_assign h

theorem keepsBelow_runUpdates {updates : List Update} {x : String} {m : Machine}
    (h : ¬AssignsOutside x updates m) : KeepsBelow x m (runUpdates updates m) := by
  induction updates generalizing m with
  | nil => rfl
  | cons update rest ih =>
    have hfirst : ¬update.AssignsOutside x m := fun hx ↦ h (.inl hx)
    have hrest : ¬AssignsOutside x rest (update.run m) := fun hx ↦ h (.inr hx)
    exact (isBareframe_keepsBelow x).trans (Update.keepsBelow hfirst) (ih hrest)

/-! ## One binding for both -/

/-- **Looking up and assigning meet the same binding.** An assignment succeeds if and only if the
name can be looked up. If it fails it changes nothing, and if it succeeds only the innermost scope
that binds the name changes. A declaration binds in the innermost scope. What is declared or assigned
in a scope of its own is given up with it, but for the assignments that reach outside. -/
theorem lookup_assign_define (m : Machine) (x : Token) (v : Value) :
    ((∃ w, (assign x v m).1 = .ok w) ↔ ∃ w, lookup x m = .ok w) ∧
    (∀ i m', assign x v m = (.error i, m') → m' = m) ∧
    (∀ w m', assign x v m = (.ok w, m') →
      lookup x m' = .ok v ∧
      (∀ y : Token, y.lexeme ≠ x.lexeme → lookup y m' = lookup y m) ∧
      m.scopes.Rebinds x.lexeme v m'.scopes ∧
      m'.scopes.map Scope.names = m.scopes.map Scope.names) ∧
    (m.scopes ≠ [] →
      lookup x (m.define x.lexeme v) = .ok v ∧
      (∀ y : Token, y.lexeme ≠ x.lexeme → lookup y (m.define x.lexeme v) = lookup y m) ∧
      (m.define x.lexeme v).scopes.tail = m.scopes.tail) ∧
    ∀ (updates : List Update) (y : Token), ¬AssignsOutside y.lexeme updates m.push →
      lookup y (runUpdates updates m.push).pop = lookup y m := by
  refine ⟨exists_assign_iff, ?_, ?_, ?_, ?_⟩
  · intro i m' h
    rcases assign_cases x v m with ⟨_, -, heq⟩ | ⟨-, heq⟩
    · exact absurd (congrArg Prod.fst (heq.symm.trans h)) (by simp)
    · exact (congrArg Prod.snd (heq.symm.trans h)).symm
  · intro w m' h
    rcases assign_cases x v m with ⟨scopes, hassign, heq⟩ | ⟨-, heq⟩
    · obtain rfl : { m with scopes } = m' := congrArg Prod.snd (heq.symm.trans h)
      have hrebinds := Scopes.rebinds_of_assign? hassign
      exact ⟨lookup_eq_ok_iff.mpr hrebinds.lookup?,
        fun y hy ↦ lookup_congr (Scopes.map_lookup_assign? hy hassign), hrebinds,
        Scopes.map_names_assign? hassign⟩
    · exact absurd (congrArg Prod.fst (heq.symm.trans h)) (by simp)
  · intro hm
    obtain ⟨s, outer, hscopes⟩ := List.exists_cons_of_ne_nil hm
    refine ⟨?_, fun y hy ↦ lookup_define_of_ne hy v m, ?_⟩
    · rw [lookup_eq_ok_iff, Machine.define, hscopes, Scopes.define, Scopes.lookup?,
        Scope.lookup_put_self]
    · rw [Machine.define, hscopes]
      rfl
  · intro updates y hy
    apply lookup_congr
    have hbelow := keepsBelow_runUpdates hy
    rw [KeepsBelow] at hbelow
    exact hbelow

/-- Two scopes that both bind one of the names. -/
def hiddenMachine : Machine :=
  ⟨[[("a", .nil)], [("b", .boolean true), ("a", .text "outside")]], []⟩

/-- An assignment that reaches outside, a declaration, an assignment to what it declared, and one to
a name that is unknown. -/
def hidingUpdates : List Update :=
  [.assign ⟨"a", 1⟩ (.boolean true), .define ⟨"b", 2⟩ (.text "inside"),
    .assign ⟨"b", 3⟩ .nil, .assign ⟨"c", 4⟩ .nil]

/-- The inner one of two bindings is assigned to, an unknown name to neither, and a name that was
declared inside is outside what it was. -/
theorem lookup_assign_define_hidden :
    assign ⟨"a", 1⟩ (.boolean true) hiddenMachine = (.ok (.boolean true),
        ⟨[[("a", .boolean true)], [("b", .boolean true), ("a", .text "outside")]], []⟩) ∧
      hiddenMachine.scopes.Rebinds "a" (.boolean true)
        [[("a", .boolean true)], [("b", .boolean true), ("a", .text "outside")]] ∧
      assign ⟨"c", 4⟩ .nil hiddenMachine =
        (.error (.fault 4 (.undefinedVariable "c")), hiddenMachine) ∧
      lookup ⟨"b", 2⟩ (hiddenMachine.define "b" .nil) = .ok .nil ∧
      ¬AssignsOutside "b" hidingUpdates hiddenMachine.push ∧
      lookup ⟨"b", 5⟩ (runUpdates hidingUpdates hiddenMachine.push).pop =
        lookup ⟨"b", 5⟩ hiddenMachine := by
  obtain ⟨-, -, hassigned, -, hgivenUp⟩ :=
    lookup_assign_define hiddenMachine ⟨"a", 1⟩ (.boolean true)
  obtain ⟨-, -, -, hdefined, -⟩ := lookup_assign_define hiddenMachine ⟨"b", 2⟩ .nil
  have hassign : assign ⟨"a", 1⟩ (.boolean true) hiddenMachine = (.ok (.boolean true),
      ⟨[[("a", .boolean true)], [("b", .boolean true), ("a", .text "outside")]], []⟩) := rfl
  have hinside : ¬AssignsOutside "b" hidingUpdates hiddenMachine.push := by
    simp [AssignsOutside, Update.AssignsOutside, hidingUpdates, hiddenMachine, Update.run,
      Machine.push, Machine.define, assign, Scopes.assign?, Scopes.define, Scope.binds,
      Scope.names, Scope.put]
  exact ⟨hassign, (hassigned _ _ hassign).2.2.1, rfl, (hdefined (List.cons_ne_nil _ _)).1, hinside,
    hgivenUp hidingUpdates ⟨"b", 5⟩ hinside⟩

end AstSchema.Lox
