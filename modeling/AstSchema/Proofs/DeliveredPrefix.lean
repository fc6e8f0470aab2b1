import AstSchema.Proofs.LastWriter

/-!
# How far a delivery gets

A delivery takes its artifacts one after the other and stops at the first that is refused. What it
leaves is therefore a matter of the artifacts in front of that one, and `HasDelivered` says of all
three things that can be left what they are: files hold the sources that were written last, a
directory is only new where an output needed it, and there is one event for each artifact.

The artifact that is refused takes part in the directories alone. Some of those above its output
may have been made before it turned out that another cannot be.

What the standard output shows follows from the events. These are generated texts and notices of
files written, so it shows exactly the sources without an output as long as such notices are not
asked for.
-/

namespace AstSchema

open FileTree

/-! ## Directories on the way to an output -/

namespace FileTree

/-- A path leads to a directory if it has no names to walk or they lead through directories to
one. -/
theorem resolve_eq_directory_iff {t : FileTree} {p : Path} {loc : Location} :
    t.resolve p = .ok (loc, .directory) ↔
      pathError? p = none ∧ (p.names.getLast? = none ∧ loc = [] ∨ ∃ last place,
        p.names.getLast? = some last ∧ t.walk (t.origin p) p.names.dropLast = .ok place ∧
        t.step place last = .ok loc ∧ t.node? loc = some .directory) := by
  constructor
  · intro h
    rw [resolve] at h
    split at h
    · exact absurd h (by simp)
    next herror =>
    split at h
    · next hlast =>
      obtain ⟨rfl, -⟩ := Prod.mk.inj (Except.ok.inj h)
      exact ⟨herror, .inl ⟨hlast, rfl⟩⟩
    next last hlast =>
    split at h
    · exact absurd h (by simp)
    next place hwalk =>
    split at h
    · exact absurd h (by simp)
    next loc' hstep =>
    split at h
    · exact absurd h (by simp)
    · next hnode =>
      obtain ⟨rfl, -⟩ := Prod.mk.inj (Except.ok.inj h)
      exact ⟨herror, .inr ⟨last, place, hlast, hwalk, hstep, hnode⟩⟩
    · split at h <;> exact absurd h (by simp)
  · rintro ⟨herror, ⟨hlast, rfl⟩ | ⟨last, place, hlast, hwalk, hstep, hnode⟩⟩
    · simp [resolve, herror, hlast]
    · simp [resolve, herror, hlast, hwalk, hstep, hnode]

/-- A path goes on leading to the same directory. -/
theorem Grows.resolve_directory {t t' : FileTree} (h : Grows t t') {p : Path} {loc : Location}
    (hp : t.resolve p = .ok (loc, .directory)) : t'.resolve p = .ok (loc, .directory) := by
  obtain ⟨herror, hnone | ⟨last, place, hlast, hwalk, hstep, hnode⟩⟩ :=
    resolve_eq_directory_iff.mp hp
  · exact resolve_eq_directory_iff.mpr ⟨herror, .inl hnone⟩
  · have horigin : t'.origin p = t.origin p := by rw [origin, h.here, origin]
    exact resolve_eq_directory_iff.mpr ⟨herror, .inr ⟨last, place, hlast, horigin ▸ h.walk hwalk,
      h.step hstep, h.directory loc hnode⟩⟩

/-- The tree has grown, and every directory that is new is one of those that the paths lead to. -/
structure Makes (paths : List Path) (t t' : FileTree) : Prop extends Grows t t' where
  /-- A directory was there or one of the paths leads to it. -/
  made : ∀ loc, t'.node? loc = some .directory → t.node? loc = some .directory ∨
    ∃ p ∈ paths, t'.resolve p = .ok (loc, .directory)

namespace Makes

variable {paths more : List Path} {t t' t'' : FileTree}

theorem refl (paths : List Path) (t : FileTree) : Makes paths t t :=
  ⟨.refl t, fun _ hloc ↦ .inl hloc⟩

theorem mono (h : Makes paths t t') (hpaths : ∀ p ∈ paths, p ∈ more) : Makes more t t' := by
  refine ⟨h.toGrows, fun loc hloc ↦ (h.made loc hloc).imp_right ?_⟩
  rintro ⟨p, hp, hresolve⟩
  exact ⟨p, hpaths p hp, hresolve⟩

theorem trans (h : Makes paths t t') (h' : Makes paths t' t'') : Makes paths t t'' := by
  refine ⟨h.toGrows.trans h'.toGrows, fun loc hloc ↦ ?_⟩
  rcases h'.made loc hloc with hloc | hnew
  · refine (h.made loc hloc).imp_right ?_
    rintro ⟨p, hp, hresolve⟩
    exact ⟨p, hp, h'.toGrows.resolve_directory hresolve⟩
  · exact .inr hnew

end Makes

theorem makes_of_makeDirectory {t t' : FileTree} {p : Path} (h : t.makeDirectory p = .ok t') :
    Makes [p] t t' := by
  have hgrows := (addsDirectories_of_makeDirectory h).toGrows
  obtain ⟨place, name, htarget, hlong, -, rfl⟩ := makeDirectory_eq_ok h
  obtain ⟨herror, hlast, hwalk, hpoint, hpoints⟩ := target_eq_some htarget
  refine ⟨hgrows, fun loc hloc ↦ ?_⟩
  by_cases hnew : loc = place ++ [name]
  · subst hnew
    refine .inr ⟨p, List.mem_singleton.mpr rfl, resolve_eq_directory_iff.mpr ⟨herror, .inr ?_⟩⟩
    exact ⟨name, place, hlast, hgrows.walk hwalk, step_put hpoint hpoints hlong _, hloc⟩
  · rw [node?_put_of_ne t hnew] at hloc
    exact .inl hloc

/-- Writing a file makes no directory. -/
theorem makes_of_write {t t' : FileTree} {p : Path} {content : ByteArray}
    (h : t.write p content = .ok t') : Makes [] t t' := by
  obtain ⟨_, hstores⟩ := exists_stores_of_write h
  obtain ⟨place, name, -, -, -, -, rfl⟩ := write_eq_ok h
  refine ⟨hstores.toGrows, fun loc hloc ↦ .inl ?_⟩
  have hne : loc ≠ place ++ [name] := by
    rintro rfl
    rw [node?_put_self t (by simp)] at hloc
    exact absurd hloc (by simp)
  rwa [node?_put_of_ne t hne] at hloc

end FileTree

theorem makes_makeDirectory (p : Path) (w : World) :
    Makes [p] w.files (w.run (Host.makeDirectory p)).2.files := by
  rcases run_makeDirectory_cases p w with ⟨_, -, hrun⟩ | ⟨files, hmake, hrun⟩
  all_goals rw [hrun]
  · exact .refl _ _
  · exact makes_of_makeDirectory hmake

theorem makes_makeParent (output : Path) (w : World) :
    Makes output.ancestors w.files (w.run (makeParent output)).2.files :=
  rel_makeParent (R := fun w w' ↦ Makes output.ancestors w.files w'.files)
    (fun w ↦ .refl _ w.files) .trans output
    (fun q hq w ↦ (makes_makeDirectory q w).mono fun _ hp ↦ List.mem_singleton.mp hp ▸ hq) w

theorem makes_writeText (output : Path) (text : String) (w : World) :
    Makes output.ancestors w.files (w.run (writeText output text)).2.files := by
  have hparent := makes_makeParent output w
  rcases run_writeText_cases output text w with
    ⟨_, _, hmake, hrun⟩ | ⟨w₁, hmake, ⟨_, _, hrun⟩ | ⟨files, hwrite, hrun⟩⟩
  all_goals
    rw [hmake] at hparent
    rw [hrun]
  · exact hparent
  · exact hparent
  · exact hparent.trans ((makes_of_write hwrite).mono fun _ hp ↦ absurd hp List.not_mem_nil)

/-! ## One artifact -/

namespace Artifact

/-- The directories above the output of an artifact. -/
def ancestors (artifact : Artifact) : List Path := artifact.output.elim [] Path.ancestors

/-- What is reported when an artifact has been delivered. -/
def event (artifact : Artifact) : Event :=
  match artifact.output with
  | none => .generated artifact.source
  | some output => .notice (.wrote artifact.base output)

/-- The artifact cannot be delivered. -/
inductive IsRefused (artifact : Artifact) (w : World) : Failure → Prop
  /-- A directory above its output cannot be made. -/
  | noDirectory {output directory : Path} {error : FileError}
      (houtput : artifact.output = some output) (hparent : output.parent? = some directory)
      (herror : (w.run (makeDirectories directory)).1 = .error error) :
      IsRefused artifact w (.noDirectory directory error)
  /-- Its directory is there, but the output cannot be written. -/
  | unwritable {output : Path} {error : FileError} {w' : World}
      (houtput : artifact.output = some output) (hparent : w.run (makeParent output) = (.ok (), w'))
      (herror : w'.files.write output artifact.source.toUTF8 = .error error) :
      IsRefused artifact w (.unwritable output error)

end Artifact

/-- What is left once some artifacts have been delivered and no others than those reached have been
tried. -/
structure HasDelivered (done reached : List Artifact) (w w' : World) : Prop where
  /-- The sources are in their files, and no other file has changed. -/
  writes : Writes done w.files w'.files
  /-- Directories are only new above the outputs reached. -/
  makes : Makes (reached.flatMap Artifact.ancestors) w.files w'.files
  /-- Every artifact delivered is reported, in order. -/
  events : w'.events = w.events ++ done.map Artifact.event

namespace HasDelivered

variable {done reached done' reached' : List Artifact} {w w' w'' : World}

theorem refl (w : World) : HasDelivered [] [] w w :=
  ⟨(AddsDirectories.refl _).writes, .refl _ _, by simp⟩

theorem trans (h : HasDelivered done reached w w') (h' : HasDelivered done' reached' w' w'') :
    HasDelivered (done ++ done') (reached ++ reached') w w'' := by
  refine ⟨h.writes.trans h'.writes, ?_, ?_⟩
  · rw [List.flatMap_append]
    exact (h.makes.mono fun _ ↦ List.mem_append_left _).trans
      (h'.makes.mono fun _ ↦ List.mem_append_right _)
  · rw [h'.events, h.events, List.map_append, List.append_assoc]

end HasDelivered

theorem makes_of_writeText {artifact : Artifact} {output : Path} {w w' : World}
    {result : Except Failure Unit} (houtput : artifact.output = some output)
    (h : w.run (writeText output artifact.source) = (result, w')) :
    Makes ([artifact].flatMap Artifact.ancestors) w.files w'.files := by
  have hmakes := makes_writeText output artifact.source w
  rw [h] at hmakes
  refine hmakes.mono fun p hp ↦ ?_
  rw [List.flatMap_singleton, Artifact.ancestors, houtput]
  exact hp

/-- An artifact that was delivered is reported, and its source is in its file. -/
theorem hasDelivered_of_deliver {artifact : Artifact} {w w' : World}
    (h : w.run artifact.deliver = (.ok (), w')) : HasDelivered [artifact] [artifact] w w' := by
  have hwrites := writes_of_deliver h
  rcases run_deliver_cases artifact w with
    ⟨houtput, hrun⟩ | ⟨output, houtput, ⟨_, _, -, hrun⟩ | ⟨w₁, hwrite, hrun⟩⟩
  · obtain ⟨-, rfl⟩ := Prod.mk.inj (hrun.symm.trans h)
    exact ⟨hwrites, .refl _ _, by simp [World.report, Artifact.event, houtput]⟩
  · exact absurd (congrArg Prod.fst (hrun.symm.trans h)) (by simp)
  · obtain ⟨-, rfl⟩ := Prod.mk.inj (hrun.symm.trans h)
    have hmakes := makes_of_writeText houtput hwrite
    have hevents : w₁.events = w.events := by
      simpa [hwrite] using events_writeText output artifact.source w
    exact ⟨hwrites, hmakes, by simp [World.report, Artifact.event, houtput, hevents]⟩

theorem exists_of_makeParent_error {output : Path} {failure : Failure} {w w' : World}
    (h : w.run (makeParent output) = (.error failure, w')) :
    ∃ directory error, output.parent? = some directory ∧
      (w.run (makeDirectories directory)).1 = .error error ∧
      failure = .noDirectory directory error := by
  rw [makeParent] at h
  cases hparent : output.parent? with
  | none =>
    rw [hparent] at h
    exact absurd (congrArg Prod.fst h) (by simp [World.run_pure])
  | some directory =>
    rw [hparent] at h
    dsimp only at h
    rcases hrun : w.run (makeDirectories directory) with ⟨error | u, w₁⟩
    · rw [World.run_bind hrun] at h
      have hfailure : Failure.noDirectory directory error = failure :=
        Except.error.inj (congrArg Prod.fst h)
      exact ⟨directory, error, rfl, congrArg Prod.fst hrun, hfailure.symm⟩
    · rw [World.run_bind hrun] at h
      exact absurd (congrArg Prod.fst h) (by simp [World.run_pure])

/-- An artifact that was refused has left directories at most. -/
theorem isRefused_of_deliver {artifact : Artifact} {failure : Failure} {w w' : World}
    (h : w.run artifact.deliver = (.error failure, w')) :
    artifact.IsRefused w failure ∧ HasDelivered [] [artifact] w w' := by
  rcases run_deliver_cases artifact w with
    ⟨-, hrun⟩ | ⟨output, houtput, ⟨_, w₁, hwrite, hrun⟩ | ⟨_, -, hrun⟩⟩
  · exact absurd (congrArg Prod.fst (hrun.symm.trans h)) (by simp)
  · obtain ⟨hfailure, rfl⟩ := Prod.mk.inj (hrun.symm.trans h)
    obtain rfl := Except.error.inj hfailure
    have hevents : w₁.events = w.events := by
      simpa [hwrite] using events_writeText output artifact.source w
    have hdirectories := addsDirectories_makeParent output w
    have hleft (hparent : (w.run (makeParent output)).2 = w₁) :
        HasDelivered [] [artifact] w w₁ := by
      rw [hparent] at hdirectories
      exact ⟨hdirectories.writes, makes_of_writeText houtput hwrite, by simpa using hevents⟩
    -- Where the source was not written, the world is the one that making the directory left.
    rcases run_writeText_cases output artifact.source w with
      ⟨_, _, hparent, hrun'⟩ | ⟨_, hparent, ⟨error, hfile, hrun'⟩ | ⟨_, -, hrun'⟩⟩
    · obtain ⟨hfailure, rfl⟩ := Prod.mk.inj (hrun'.symm.trans hwrite)
      obtain rfl := Except.error.inj hfailure
      obtain ⟨directory, error, hdirectory, herror, rfl⟩ := exists_of_makeParent_error hparent
      exact ⟨.noDirectory houtput hdirectory herror, hleft (congrArg Prod.snd hparent)⟩
    · obtain ⟨hfailure, rfl⟩ := Prod.mk.inj (hrun'.symm.trans hwrite)
      obtain rfl := Except.error.inj hfailure
      exact ⟨.unwritable houtput hparent hfile, hleft (congrArg Prod.snd hparent)⟩
    · exact absurd (congrArg Prod.fst (hrun'.symm.trans hwrite)) (by simp)
  · exact absurd (congrArg Prod.fst (hrun.symm.trans h)) (by simp)

/-! ## A list of artifacts -/

/-- A delivery is done or stops at an artifact that is refused. -/
theorem run_deliverAll_prefix (artifacts : List Artifact) (w : World) :
    ∃ before after result w₁ w', artifacts = before ++ after ∧
      w.run (deliverAll artifacts) = (result, w') ∧ w.run (deliverAll before) = (.ok (), w₁) ∧
      (after = [] ∧ result = .ok () ∨ ∃ artifact rest failure, after = artifact :: rest ∧
        result = .error failure ∧ artifact.IsRefused w₁ failure) ∧
      HasDelivered before (before ++ after.take 1) w w' := by
  induction artifacts generalizing w with
  | nil => exact ⟨[], [], _, w, w, rfl, rfl, rfl, .inl ⟨rfl, rfl⟩, .refl w⟩
  | cons artifact artifacts ih =>
    rcases hrun : w.run artifact.deliver with ⟨failure | u, w₁⟩
    · obtain ⟨hrefused, hleft⟩ := isRefused_of_deliver hrun
      have hall : w.run (deliverAll (artifact :: artifacts)) = (.error failure, w₁) := by
        rw [deliverAll, World.run_bind hrun]
        rfl
      exact ⟨[], artifact :: artifacts, _, w, w₁, rfl, hall, rfl,
        .inr ⟨artifact, artifacts, failure, rfl, rfl, hrefused⟩, hleft⟩
    · have hfirst := hasDelivered_of_deliver hrun
      obtain ⟨before, after, result, w₂, w', rfl, hall, hbefore, hend, hleft⟩ := ih w₁
      have hcons : ∀ rest, w.run (deliverAll (artifact :: rest)) = w₁.run (deliverAll rest) := by
        intro rest
        rw [deliverAll, World.run_bind hrun]
      exact ⟨artifact :: before, after, result, w₂, w', rfl, (hcons _).trans hall,
        (hcons _).trans hbefore, hend, hfirst.trans hleft⟩

/-! ## What is shown -/

/-- The sources that are in no file, one behind the other. -/
def shownSources (artifacts : List Artifact) : String :=
  String.join ((artifacts.filter (·.output.isNone)).map (·.source))

theorem shownSources_cons (artifact : Artifact) (rest : List Artifact) :
    shownSources (artifact :: rest) =
      (if artifact.output.isNone then artifact.source else "") ++ shownSources rest := by
  rw [shownSources, shownSources, List.filter_cons]
  split <;> simp

theorem join_generated_events (artifacts : List Artifact) :
    String.join ((artifacts.map Artifact.event).filterMap Event.generated?) =
      shownSources artifacts := by
  induction artifacts with
  | nil => rfl
  | cons artifact rest ih =>
    rw [shownSources_cons, ← ih, List.map_cons, List.filterMap_cons, Artifact.event]
    cases artifact.output <;> simp [Event.generated?]

/-- Where no files are announced, the sources that are in no file are all that is shown. -/
theorem join_standardOutput_events {level : LogLevel} (h : level.rank < LogLevel.info.rank)
    (artifacts : List Artifact) :
    String.join (artifacts.map fun artifact ↦ artifact.event.standardOutput level) =
      shownSources artifacts := by
  induction artifacts with
  | nil => rfl
  | cons artifact rest ih =>
    rw [shownSources_cons, ← ih, List.map_cons, String.join_cons, Artifact.event]
    cases artifact.output with
    | none => rfl
    | some output =>
      have hhidden : ¬(Notice.wrote artifact.base output).level.rank ≤ level.rank :=
        Nat.not_le.mpr h
      simp [Event.standardOutput, hhidden]

namespace HasDelivered

variable {done reached : List Artifact} {w w' : World}

theorem generated (h : HasDelivered done reached w w') :
    w'.generated = w.generated ++ shownSources done := by
  rw [World.generated, h.events, List.filterMap_append, String.join_append,
    join_generated_events, World.generated]

theorem standardOutput (h : HasDelivered done reached w w') (level : LogLevel) :
    w'.standardOutput level = w.standardOutput level ++
      String.join (done.map fun artifact ↦ artifact.event.standardOutput level) := by
  rw [World.standardOutput, h.events, List.map_append, String.join_append, List.map_map,
    World.standardOutput]
  rfl

end HasDelivered

/-- **A delivery is a clean prefix.** It is done with all artifacts or fails at the first that is
refused, and what it leaves is due to those in front of it alone: their sources in their files, the
last one counting where several lead to one file, and one event for each. Directories are only new
above outputs that were reached. The standard output shows the sources without an output in order,
and where notices of files written are asked for also these, each at its place. -/
theorem run_deliver_write (artifacts : List Artifact) (w : World) :
    ∃ before after result w₁ w', artifacts = before ++ after ∧
      w.run (deliver artifacts false) = (result, w') ∧
      w.run (deliverAll before) = (.ok (), w₁) ∧
      (after = [] ∧ result = .ok .done ∨ ∃ artifact rest failure, after = artifact :: rest ∧
        result = .error failure ∧ artifact.IsRefused w₁ failure) ∧
      HasDelivered before (before ++ after.take 1) w w' ∧
      w'.generated = w.generated ++ shownSources before ∧
      ∀ level, w'.standardOutput level = w.standardOutput level ++
          String.join (before.map fun artifact ↦ artifact.event.standardOutput level) ∧
        (level.rank < LogLevel.info.rank →
          w'.standardOutput level = w.standardOutput level ++ shownSources before) := by
  obtain ⟨before, after, result, w₁, w', hsplit, hrun, hbefore, hend, hleft⟩ :=
    run_deliverAll_prefix artifacts w
  have hshown (level : LogLevel) (hlevel : level.rank < LogLevel.info.rank) :
      w'.standardOutput level = w.standardOutput level ++ shownSources before := by
    rw [hleft.standardOutput, join_standardOutput_events hlevel]
  rcases hend with ⟨hafter, rfl⟩ | ⟨artifact, rest, failure, hafter, rfl, hrefused⟩
  · have hdeliver : w.run (deliver artifacts false) = (.ok .done, w') := by
      rw [deliver, if_neg Bool.false_ne_true, World.run_bind hrun]
      rfl
    exact ⟨before, after, _, w₁, w', hsplit, hdeliver, hbefore, .inl ⟨hafter, rfl⟩, hleft,
      hleft.generated, fun level ↦ ⟨hleft.standardOutput level, hshown level⟩⟩
  · have hdeliver : w.run (deliver artifacts false) = (.error failure, w') := by
      rw [deliver, if_neg Bool.false_ne_true, World.run_bind hrun]
      rfl
    exact ⟨before, after, _, w₁, w', hsplit, hdeliver, hbefore,
      .inr ⟨artifact, rest, failure, hafter, rfl, hrefused⟩, hleft, hleft.generated,
      fun level ↦ ⟨hleft.standardOutput level, hshown level⟩⟩

/-- The standard output can show more than sources. -/
theorem standardOutput_deliver_write :
    ¬∀ (artifacts : List Artifact) (w : World) (level : LogLevel),
      (w.run (deliver artifacts false)).1.toOption = some .done →
        (w.run (deliver artifacts false)).2.standardOutput level =
          w.standardOutput level ++ shownSources artifacts := by
  intro h
  have hwritten := h [⟨"E", some ⟨"e.rs"⟩, ""⟩] ⟨⟨[], []⟩, []⟩ .info (by decide +kernel)
  exact absurd hwritten (by decide +kernel)

end AstSchema
