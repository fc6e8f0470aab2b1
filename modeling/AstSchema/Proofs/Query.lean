import AstSchema.Inputs

/-!
# Looking without touching

Much of what a run does is to look at the files: it expands patterns, reads manifests, and reads
outputs to compare them. Such a computation is a query. It leaves the files and everything that
was reported as they are, and what it answers depends on the files alone.

Queries are closed under sequencing, so a computation put together from requests that only look is
a query by the way it is put together. The search behind a pattern is the largest of them. A
computation that also makes remarks is not a query, but `World.remark` says all that it changes.
-/

namespace AstSchema

/-! ## Remarks -/

namespace World

/-- The world after some remarks. -/
def remark (w : World) (notices : List Notice) : World :=
  { w with events := w.events ++ notices.map .notice }

@[simp] theorem files_remark (w : World) (notices : List Notice) :
    (w.remark notices).files = w.files := rfl

@[simp] theorem remark_nil (w : World) : w.remark [] = w := by simp [remark]

@[simp] theorem remark_remark (w : World) (notices more : List Notice) :
    (w.remark notices).remark more = w.remark (notices ++ more) := by simp [remark]

/-- A remark is no generated text. -/
@[simp] theorem generated_remark (w : World) (notices : List Notice) :
    (w.remark notices).generated = w.generated := by
  have hnone : (notices.map Event.notice).filterMap Event.generated? = [] := by
    simp [List.filterMap_eq_nil_iff, Event.generated?]
  rw [generated, remark, List.filterMap_append, hnone, List.append_nil, generated]

end World

/-! ## Queries -/

/-- A result that has a value is that value. -/
theorem eq_ok_of_toOption {ε α : Type} {result : Except ε α} {a : α}
    (h : result.toOption = some a) : result = .ok a := by
  cases result with
  | error e => exact absurd h (by simp [Except.toOption])
  | ok b => exact congrArg _ (Option.some.inj h)

/-- What a computation gives in a world, and the world that it leaves. -/
def World.run {α : Type} (w : World) (action : StateM World α) : α × World := StateT.run action w

theorem World.run_pure {α : Type} (w : World) (a : α) : w.run (Pure.pure a) = (a, w) := rfl

/-- A computation goes on with the result and in the world that its first part leaves. -/
theorem World.run_bind {α β : Type} {w w' : World} {action : StateM World α} {a : α}
    (h : w.run action = (a, w')) (next : α → StateM World β) :
    w.run (action >>= next) = w'.run (next a) := by
  show (w.run action).2.run (next (w.run action).1) = _
  rw [h]

/-- What a computation answers about the files. -/
def FileTree.ask {α : Type} (t : FileTree) (query : StateM World α) : α :=
  (World.run ⟨t, []⟩ query).1

/-- The computation looks at the files and leaves everything as it is. -/
def IsQuery {α : Type} (query : StateM World α) : Prop :=
  ∀ w : World, w.run query = (w.files.ask query, w)

namespace IsQuery

variable {α β : Type}

theorem of_run {query : StateM World α} (f : FileTree → α)
    (h : ∀ w : World, w.run query = (f w.files, w)) : IsQuery query := by
  intro w
  rw [h w, FileTree.ask, h]

theorem pure (a : α) : IsQuery (Pure.pure a : StateM World α) := fun _ ↦ rfl

theorem bind {query : StateM World α} {next : α → StateM World β} (hquery : IsQuery query)
    (hnext : ∀ a, IsQuery (next a)) : IsQuery (query >>= next) := by
  refine of_run (fun t ↦ t.ask (next (t.ask query))) fun w ↦ ?_
  rw [World.run_bind (hquery w)]
  exact hnext _ w

theorem ite {c : Prop} [Decidable c] {query query' : StateM World α} (h : IsQuery query)
    (h' : IsQuery query') : IsQuery (if c then query else query') := by
  split
  · exact h
  · exact h'

theorem mapM {query : α → StateM World β} (h : ∀ a, IsQuery (query a)) (as : List α) :
    IsQuery (as.mapM query) := by
  induction as with
  | nil => exact pure []
  | cons a as ih =>
    rw [List.mapM_cons]
    exact (h a).bind fun b ↦ ih.bind fun bs ↦ pure (b :: bs)

theorem readFile (p : Path) : IsQuery (Host.readFile p) := fun _ ↦ rfl

theorem names (p : Path) : IsQuery (Host.names p) := fun _ ↦ rfl

theorem isDirectory (p : Path) : IsQuery (Host.isDirectory p) := fun _ ↦ rfl

theorem isPresent (p : Path) : IsQuery (Host.isPresent p) := fun _ ↦ rfl

theorem readText (p : Path) : IsQuery (AstSchema.readText p) := by
  refine (readFile p).bind fun result ↦ ?_
  cases result with
  | error e => exact pure _
  | ok content =>
    dsimp only
    cases String.fromUTF8? content with
    | none => exact pure _
    | some text => exact pure _

end IsQuery

/-! ## Patterns -/

namespace Glob

theorem isQuery_candidates (p : Path) (components : List (List Token)) :
    IsQuery (candidates p components) := by
  induction components generalizing p with
  | nil => exact .pure []
  | cons component rest ih =>
    have hgoOn (next : Path) : IsQuery
        (if rest.isEmpty then Pure.pure [.hit next] else candidates next rest) :=
      .ite (.pure _) (ih next)
    rw [candidates]
    cases plainText? component with
    | some name =>
      have hnext (next : Path) (there : Bool) := IsQuery.ite (c := there) (hgoOn next) (.pure [])
      exact .ite (.bind (.isDirectory p) (hnext _)) (.bind (.isPresent _) (hnext _))
    | none =>
      refine .bind (.isDirectory p) fun there ↦ .ite (.bind (.names p) fun listing ↦ ?_) (.pure [])
      cases listing with
      | error e => exact .pure _
      | ok names =>
        exact .bind (.ite (hgoOn _) (.pure [])) fun above ↦
          .bind (.ite (hgoOn _) (.pure [])) fun same ↦ .pure _

theorem isQuery_expandCandidate (directories : Bool) (fuel : Nat) (candidate : Candidate) :
    IsQuery (expandCandidate directories fuel candidate) := by
  induction fuel generalizing candidate with
  | zero =>
    rw [expandCandidate.eq_def]
    exact .pure []
  | succ fuel ih =>
    have hhit (p : Path) : IsQuery (if directories then do
        if ← Host.isDirectory p then pure [.ok p] else pure [] else pure [.ok p]
        : StateM World (List (Except ListingError Path))) :=
      .ite (.bind (.isDirectory p) fun _ ↦ .ite (.pure _) (.pure _)) (.pure _)
    rw [expandCandidate.eq_def]
    cases candidate with
    | failed e => exact .pure _
    | hit p => exact hhit p
    | «open» p components =>
      dsimp -zeta only
      extract_lets expandAll compare
      have hexpandAll (cs : List Candidate) : IsQuery (expandAll cs) :=
        .bind (.mapM ih cs) fun _ ↦ .pure _
      have hcompare (components : List (List Token)) : IsQuery (compare components) := by
        dsimp only [compare]
        split
        · exact .ite (.ite (hhit p) (.bind (isQuery_candidates p _) hexpandAll)) (.pure _)
        · exact .pure []
      cases components with
      | nil => exact .pure []
      | cons component rest =>
        have hbelow (here : List (Except ListingError Path)) (components : List (List Token)) :
            IsQuery (do return here ++ (← expandAll (← candidates p components))) :=
          .bind (isQuery_candidates p _) fun found ↦ .bind (hexpandAll found) fun _ ↦ .pure _
        refine .ite (.bind (.isDirectory p) fun _ ↦ .ite (.ite ?_ ?_) ?_) (hcompare _)
        · exact .bind (.pure _) fun here ↦ hbelow here _
        · exact .bind (hcompare _) fun here ↦ hbelow here _
        · exact .ite (.pure _) (hcompare _)

theorem isQuery_expand (pattern : Pattern) : IsQuery (expand pattern) :=
  .bind (isQuery_candidates _ _) fun found ↦
    .bind (.mapM (isQuery_expandCandidate _ _) found) fun _ ↦ .pure _

end Glob

/-! ## Inputs -/

theorem isQuery_resolveInput (input : String) : IsQuery (resolveInput input) := by
  refine .ite ?_ (.pure _)
  cases Glob.Pattern.read input with
  | error fault => exact .pure _
  | ok pattern =>
    refine .bind (Glob.isQuery_expand pattern) fun result ↦ ?_
    cases result with
    | error e => exact .pure _
    | ok paths =>
      cases paths with
      | nil => exact .pure _
      | cons p paths => exact .pure _

end AstSchema
