import AstSchema.Proofs.Comparison
import AstSchema.Proofs.Growth
import Mathlib.Data.List.Basic
import Mathlib.Data.List.Pairwise

/-!
# What is left after writing

Outputs are written one after the other. Several of them may lead to one file, perhaps by different
spellings, and then the last one wins. `run_deliverAll` says so of the files as a whole: the
content of any file is the source of the last artifact whose output leads to it, and every other
file is as it was.

A comparison right behind the writing therefore finds every output, and finds it outdated exactly
if another artifact with another source has been written over it.
-/

namespace AstSchema

open FileTree

/-! ## Making directories -/

theorem run_makeDirectory_cases (p : Path) (w : World) :
    (∃ e, w.files.makeDirectory p = .error e ∧ w.run (Host.makeDirectory p) = (.error e, w)) ∨
    ∃ files, w.files.makeDirectory p = .ok files ∧
      w.run (Host.makeDirectory p) = (.ok (), w.withFiles files) := by
  simp only [World.run, StateT.run, Host.makeDirectory]
  cases w.files.makeDirectory p with
  | error e => exact .inl ⟨e, rfl, rfl⟩
  | ok files => exact .inr ⟨files, rfl, rfl⟩

theorem addsDirectories_makeDirectory (p : Path) (w : World) :
    AddsDirectories w.files (w.run (Host.makeDirectory p)).2.files := by
  rcases run_makeDirectory_cases p w with ⟨_, -, hrun⟩ | ⟨files, hmake, hrun⟩
  all_goals rw [hrun]
  · exact .refl _
  · exact addsDirectories_of_makeDirectory hmake

theorem events_makeDirectory (p : Path) (w : World) :
    (w.run (Host.makeDirectory p)).2.events = w.events := by
  rcases run_makeDirectory_cases p w with ⟨_, -, hrun⟩ | ⟨_, -, hrun⟩
  all_goals exact congrArg (fun result ↦ result.2.events) hrun

theorem run_unlessDirectory (p : Path) (e : FileError) (w : World) :
    (w.run (unlessDirectory p e)).2 = w := by
  rw [unlessDirectory, World.run_bind (IsQuery.isDirectory p w)]
  cases w.files.ask (Host.isDirectory p) <;> rfl

/-- The directories above a path, the nearest first. -/
def Path.ancestors (p : Path) : List Path :=
  match _hparent : p.parent? with
  | none => []
  | some parent => parent :: parent.ancestors
termination_by p.text.toList.length
decreasing_by exact length_parent? _hparent

theorem Path.ancestors_of_parent? {p parent : Path} (h : p.parent? = some parent) :
    p.ancestors = parent :: parent.ancestors := by
  rw [ancestors]
  split
  · next hnone => exact absurd (h.symm.trans hnone) (by simp)
  · next q hsome =>
    obtain rfl := Option.some.inj (h.symm.trans hsome)
    rfl

section

variable {R : World → World → Prop} (hrefl : ∀ w, R w w)
  (htrans : ∀ {w w' w''}, R w w' → R w' w'' → R w w'')

include hrefl htrans

/-- Whatever comes of making directories, it comes of making one after another. -/
theorem rel_makeDirectories (p : Path)
    (hmake : ∀ q ∈ p :: p.ancestors, ∀ w, R w (w.run (Host.makeDirectory q)).2) (w : World) :
    R w (w.run (makeDirectories p)).2 := by
  rw [makeDirectories]
  split
  · exact hrefl w
  have hfirst := hmake p List.mem_cons_self w
  rcases hrun : w.run (Host.makeDirectory p) with ⟨result, w₁⟩
  rw [hrun] at hfirst
  rw [World.run_bind hrun]
  split
  · exact hfirst
  · split
    · exact hfirst
    next parent hparent =>
    have hparents := rel_makeDirectories parent (fun q hq ↦ hmake q (List.mem_cons_of_mem _
      (by rwa [Path.ancestors_of_parent? hparent]))) w₁
    rcases hrun' : w₁.run (makeDirectories parent) with ⟨result', w₂⟩
    rw [hrun'] at hparents
    rw [World.run_bind hrun']
    cases result' with
    | error e => exact htrans hfirst hparents
    | ok u =>
      have hagain := hmake p List.mem_cons_self w₂
      rcases hrun'' : w₂.run (Host.makeDirectory p) with ⟨result'', w₃⟩
      rw [hrun''] at hagain
      dsimp only
      rw [World.run_bind hrun'']
      have hall := htrans (htrans hfirst hparents) hagain
      cases result'' with
      | ok u => exact hall
      | error e =>
        rw [run_unlessDirectory]
        exact hall
  · rw [run_unlessDirectory]
    exact hfirst
termination_by p.text.toList.length
decreasing_by exact Path.length_parent? ‹_›

theorem rel_makeParent (output : Path)
    (hmake : ∀ q ∈ output.ancestors, ∀ w, R w (w.run (Host.makeDirectory q)).2) (w : World) :
    R w (w.run (makeParent output)).2 := by
  rw [makeParent]
  cases hparent : output.parent? with
  | none => exact hrefl w
  | some directory =>
    rw [Path.ancestors_of_parent? hparent] at hmake
    have hall := rel_makeDirectories hrefl htrans directory hmake w
    rcases hrun : w.run (makeDirectories directory) with ⟨result, w'⟩
    rw [hrun] at hall
    dsimp only
    rw [World.run_bind hrun]
    cases result <;> exact hall

end

/-! ## Writing one output -/

/-- Whatever comes of making the directory of a file, no file is touched. -/
theorem addsDirectories_makeParent (output : Path) (w : World) :
    AddsDirectories w.files (w.run (makeParent output)).2.files :=
  rel_makeParent (R := fun w w' ↦ AddsDirectories w.files w'.files) (fun w ↦ .refl w.files)
    .trans output (fun p _ ↦ addsDirectories_makeDirectory p) w

/-- A text is written once the directory of its file is made, and neither has to succeed. -/
theorem run_writeText_cases (output : Path) (text : String) (w : World) :
    (∃ failure w₁, w.run (makeParent output) = (.error failure, w₁) ∧
      w.run (writeText output text) = (.error failure, w₁)) ∨
    ∃ w₁, w.run (makeParent output) = (.ok (), w₁) ∧
      ((∃ error, w₁.files.write output text.toUTF8 = .error error ∧
        w.run (writeText output text) = (.error (.unwritable output error), w₁)) ∨
      ∃ files, w₁.files.write output text.toUTF8 = .ok files ∧
        w.run (writeText output text) = (.ok (), w₁.withFiles files)) := by
  rcases hparent : w.run (makeParent output) with ⟨_ | _, w₁⟩
  · refine .inl ⟨_, w₁, rfl, ?_⟩
    rw [writeText, World.run_bind hparent]
    rfl
  refine .inr ⟨w₁, rfl, ?_⟩
  cases hfiles : w₁.files.write output text.toUTF8 with
  | error e =>
    have hwrite : w₁.run (Host.writeFile output text.toUTF8) = (.error e, w₁) := by
      simp only [World.run, StateT.run, Host.writeFile, hfiles]
    refine .inl ⟨e, rfl, ?_⟩
    rw [writeText, World.run_bind hparent]
    dsimp only
    rw [World.run_bind hwrite]
    rfl
  | ok files =>
    have hwrite : w₁.run (Host.writeFile output text.toUTF8) = (.ok (), w₁.withFiles files) := by
      simp only [World.run, StateT.run, Host.writeFile, hfiles]
    refine .inr ⟨files, rfl, ?_⟩
    rw [writeText, World.run_bind hparent]
    dsimp only
    rw [World.run_bind hwrite]
    rfl

/-- Writing a file reports nothing. -/
theorem events_writeText (output : Path) (text : String) (w : World) :
    (w.run (writeText output text)).2.events = w.events := by
  -- The frame is having the same events, which every directory that is made keeps.
  have hparent : (w.run (makeParent output)).2.events = w.events :=
    rel_makeParent (R := fun w w' ↦ w'.events = w.events) (fun _ ↦ rfl) (fun h h' ↦ h'.trans h)
      output (fun p _ ↦ events_makeDirectory p) w
  rcases run_writeText_cases output text w with
    ⟨_, w₁, hmake, hrun⟩ | ⟨w₁, hmake, ⟨_, _, hrun⟩ | ⟨_, _, hrun⟩⟩
  all_goals
    rw [hmake] at hparent
    rw [hrun]
    exact hparent

theorem AddsDirectories.stores {t t' t'' : FileTree} {p : Path} {loc : Location}
    {content : ByteArray} (h : AddsDirectories t t') (h' : Stores t' t'' p loc content) :
    Stores t t'' p loc content :=
  ⟨h.toGrows.trans h'.toGrows, h'.fileAt?, fun other ↦ by rw [h'.content?, h.content?]⟩

theorem exists_stores_of_writeText {output : Path} {text : String} {w w' : World}
    (h : w.run (writeText output text) = (.ok (), w')) :
    ∃ loc, Stores w.files w'.files output loc text.toUTF8 := by
  have hparent := addsDirectories_makeParent output w
  rcases run_writeText_cases output text w with
    ⟨_, _, _, hrun⟩ | ⟨w₁, hmake, ⟨_, _, hrun⟩ | ⟨files, hwrite, hrun⟩⟩
  · exact absurd (congrArg Prod.fst (hrun.symm.trans h)) (by simp)
  · exact absurd (congrArg Prod.fst (hrun.symm.trans h)) (by simp)
  · obtain rfl : w₁.withFiles files = w' := congrArg Prod.snd (hrun.symm.trans h)
    rw [hmake] at hparent
    obtain ⟨loc, hloc⟩ := exists_stores_of_write hwrite
    exact ⟨loc, AddsDirectories.stores hparent hloc⟩

/-! ## Writing all outputs -/

namespace Artifact

/-- The location of the file that the output of the artifact leads to. -/
def place? (artifact : Artifact) (t : FileTree) : Option Location :=
  artifact.output.bind t.fileAt?

/-- The last of the artifacts whose output leads to the location. -/
def lastInto (t : FileTree) (artifacts : List Artifact) (loc : Location) : Option Artifact :=
  (artifacts.filter (·.place? t == some loc)).getLast?

theorem lastInto_singleton (t : FileTree) (artifact : Artifact) (loc : Location) :
    lastInto t [artifact] loc = if artifact.place? t = some loc then some artifact else none := by
  by_cases h : artifact.place? t = some loc <;> simp [lastInto, h]

theorem lastInto_append (t : FileTree) (artifacts others : List Artifact) (loc : Location) :
    lastInto t (artifacts ++ others) loc =
      (lastInto t others loc).or (lastInto t artifacts loc) := by
  rw [lastInto, List.filter_append, List.getLast?_append]
  rfl

/-- Which artifact is the last one depends on where the outputs lead to. -/
theorem lastInto_congr {t t' : FileTree} {artifacts : List Artifact}
    (h : ∀ artifact ∈ artifacts, artifact.place? t = artifact.place? t') (loc : Location) :
    lastInto t artifacts loc = lastInto t' artifacts loc := by
  rw [lastInto, lastInto, List.filter_congr fun artifact hmem ↦ by rw [h artifact hmem]]

theorem lastInto_eq_some {t : FileTree} {artifacts : List Artifact} {loc : Location}
    {last : Artifact} (h : lastInto t artifacts loc = some last) :
    last ∈ artifacts ∧ last.place? t = some loc := by
  have hmem := List.mem_of_getLast? h
  rw [List.mem_filter] at hmem
  exact ⟨hmem.1, by simpa using hmem.2⟩

theorem exists_lastInto {t : FileTree} {artifacts : List Artifact} {artifact : Artifact}
    {loc : Location} (hmem : artifact ∈ artifacts) (hplace : artifact.place? t = some loc) :
    ∃ last, lastInto t artifacts loc = some last := by
  have hne : artifacts.filter (·.place? t == some loc) ≠ [] :=
    List.ne_nil_of_mem (List.mem_filter.mpr ⟨hmem, by simpa using hplace⟩)
  exact ⟨_, List.getLast?_eq_some_getLast hne⟩

end Artifact

/-- A path that leads to a file leads there for good. -/
theorem FileTree.Grows.place?_eq {t t' : FileTree} {artifact : Artifact} (h : Grows t t')
    (hplace : ∀ output, artifact.output = some output → (artifact.place? t).isSome) :
    artifact.place? t' = artifact.place? t := by
  cases houtput : artifact.output with
  | none => rw [Artifact.place?, Artifact.place?, houtput]; rfl
  | some output =>
    obtain ⟨loc, hloc⟩ := Option.isSome_iff_exists.mp (hplace output houtput)
    rw [hloc]
    rw [Artifact.place?, houtput] at hloc ⊢
    exact h.fileAt? hloc

/-- The sources are in the files that the outputs lead to, and nothing else has changed but for
directories that are new. -/
structure Writes (artifacts : List Artifact) (t t' : FileTree) : Prop extends Grows t t' where
  /-- Every output leads to a file. -/
  placed : ∀ artifact ∈ artifacts, ∀ output, artifact.output = some output →
    (artifact.place? t').isSome
  /-- A file holds the source that was written last to it, and every other file what it held. -/
  content : ∀ loc, t'.content? loc =
    ((Artifact.lastInto t' artifacts loc).map (·.source.toUTF8)).or (t.content? loc)

theorem FileTree.AddsDirectories.writes {t t' : FileTree} (h : AddsDirectories t t') :
    Writes [] t t' :=
  ⟨h.toGrows, by simp, h.content?⟩

/-- Of an artifact without an output there is nothing to write. -/
theorem writes_of_output_eq_none {artifact : Artifact} (h : artifact.output = none)
    (t : FileTree) : Writes [artifact] t t := by
  have hplace : artifact.place? t = none := by
    rw [Artifact.place?, h]
    rfl
  refine ⟨.refl t, by simp [h], fun loc ↦ ?_⟩
  simp [Artifact.lastInto_singleton, hplace]

theorem FileTree.Stores.writes {artifact : Artifact} {output : Path} {loc : Location}
    {t t' : FileTree} (h : Stores t t' output loc artifact.source.toUTF8)
    (houtput : artifact.output = some output) :
    Writes [artifact] t t' := by
  have hplace : artifact.place? t' = some loc := by
    rw [Artifact.place?, houtput]
    exact h.fileAt?
  refine ⟨h.toGrows, by simp [hplace], fun other ↦ ?_⟩
  rw [Artifact.lastInto_singleton, hplace, h.content?]
  by_cases hother : other = loc
  · subst hother
    simp
  · simp [hother, Ne.symm hother]

theorem Writes.trans {artifacts others : List Artifact} {t t' t'' : FileTree}
    (h : Writes artifacts t t') (h' : Writes others t' t'') :
    Writes (artifacts ++ others) t t'' := by
  have hsame : ∀ artifact ∈ artifacts, artifact.place? t'' = artifact.place? t' :=
    fun artifact hmem ↦ h'.toGrows.place?_eq (h.placed artifact hmem)
  refine ⟨h.toGrows.trans h'.toGrows, ?_, fun loc ↦ ?_⟩
  · intro artifact hmem output houtput
    rcases List.mem_append.mp hmem with hmem | hmem
    · rw [hsame artifact hmem]
      exact h.placed artifact hmem output houtput
    · exact h'.placed artifact hmem output houtput
  · rw [h'.content, h.content, Artifact.lastInto_append, Artifact.lastInto_congr hsame]
    cases Artifact.lastInto t'' others loc <;> rfl

theorem run_deliver_cases (artifact : Artifact) (w : World) :
    (artifact.output = none ∧
      w.run artifact.deliver = (.ok (), w.report (.generated artifact.source))) ∨
    ∃ output, artifact.output = some output ∧
      ((∃ failure w₁, w.run (writeText output artifact.source) = (.error failure, w₁) ∧
        w.run artifact.deliver = (.error failure, w₁)) ∨
      ∃ w₁, w.run (writeText output artifact.source) = (.ok (), w₁) ∧
        w.run artifact.deliver =
          (.ok (), w₁.report (.notice (.wrote artifact.base output)))) := by
  obtain ⟨base, output, source⟩ := artifact
  cases output with
  | none => exact .inl ⟨rfl, rfl⟩
  | some output =>
    refine .inr ⟨output, rfl, ?_⟩
    rcases hrun : w.run (writeText output source) with ⟨failure | u, w₁⟩
    · refine .inl ⟨failure, w₁, rfl, ?_⟩
      rw [Artifact.deliver]
      dsimp only
      rw [World.run_bind hrun]
      rfl
    · refine .inr ⟨w₁, rfl, ?_⟩
      rw [Artifact.deliver]
      dsimp only
      rw [World.run_bind hrun]
      rfl

/-- What delivering an artifact does to the files. -/
theorem writes_of_deliver {artifact : Artifact} {w w' : World}
    (h : w.run artifact.deliver = (.ok (), w')) : Writes [artifact] w.files w'.files := by
  rcases run_deliver_cases artifact w with
    ⟨houtput, hrun⟩ | ⟨output, houtput, ⟨_, _, -, hrun⟩ | ⟨w₁, hwrite, hrun⟩⟩
  · obtain ⟨-, rfl⟩ := Prod.mk.inj (hrun.symm.trans h)
    exact writes_of_output_eq_none houtput w.files
  · exact absurd (congrArg Prod.fst (hrun.symm.trans h)) (by simp)
  · obtain ⟨-, rfl⟩ := Prod.mk.inj (hrun.symm.trans h)
    obtain ⟨loc, hstores⟩ := exists_stores_of_writeText hwrite
    exact hstores.writes houtput

theorem writes_of_deliverAll {artifacts : List Artifact} {w w' : World}
    (h : w.run (deliverAll artifacts) = (.ok (), w')) : Writes artifacts w.files w'.files := by
  induction artifacts generalizing w with
  | nil =>
    obtain rfl : w = w' := congrArg Prod.snd h
    exact (AddsDirectories.refl _).writes
  | cons artifact rest ih =>
    rcases hrun : w.run artifact.deliver with ⟨result, w₁⟩
    rw [deliverAll, World.run_bind hrun] at h
    cases result with
    | error failure => exact absurd (congrArg Prod.fst h) (by simp [World.run_pure])
    | ok u => exact (writes_of_deliver hrun).trans (ih h)

/-- **The last writer wins.** -/
theorem run_deliverAll {artifacts : List Artifact} {w w' : World}
    (h : w.run (deliverAll artifacts) = (.ok (), w')) :
    Grows w.files w'.files ∧
      (∀ artifact ∈ artifacts, ∀ output, artifact.output = some output →
        (artifact.place? w'.files).isSome) ∧
      ∀ loc, w'.files.content? loc =
        ((Artifact.lastInto w'.files artifacts loc).map (·.source.toUTF8)).or
          (w.files.content? loc) := by
  obtain ⟨hgrows, hplaced, hcontent⟩ := writes_of_deliverAll h
  exact ⟨hgrows, hplaced, hcontent⟩

/-! ## Comparing behind writing -/

namespace Artifact

/-- Whether the output has been written over with another source. -/
def isOverwritten (artifact : Artifact) (t : FileTree) (artifacts : List Artifact) : Bool :=
  ((artifact.place? t).bind (lastInto t artifacts)).any (·.source != artifact.source)

end Artifact

theorem ask_readText_of_fileAt? {t : FileTree} {p : Path} {loc : Location} {text : String}
    (hp : t.fileAt? p = some loc) (hcontent : t.content? loc = some text.toUTF8) :
    t.ask (readText p) = .ok text := by
  have hread : World.run ⟨t, []⟩ (Host.readFile p) = (.ok text.toUTF8, ⟨t, []⟩) := by
    show (t.read p, _) = _
    rw [read_of_fileAt? hp hcontent]
  have hdecode : String.fromUTF8? text.toUTF8 = some text := by
    rw [String.fromUTF8?, dif_pos (show text.toUTF8.IsValidUTF8 from text.isValidUTF8)]
    rfl
  rw [ask, readText, World.run_bind hread]
  dsimp only
  rw [hdecode]
  rfl

/-- Once everything is written, an output reads as the source that was written last. -/
theorem ask_readText_of_deliverAll {artifacts : List Artifact} {w w' : World}
    (h : w.run (deliverAll artifacts) = (.ok (), w')) {artifact : Artifact} {output : Path}
    (hmem : artifact ∈ artifacts) (houtput : artifact.output = some output) :
    ∃ loc last, artifact.place? w'.files = some loc ∧
      Artifact.lastInto w'.files artifacts loc = some last ∧
      w'.files.ask (readText output) = .ok last.source := by
  have hwrites := writes_of_deliverAll h
  obtain ⟨loc, hloc⟩ := Option.isSome_iff_exists.mp (hwrites.placed artifact hmem output houtput)
  obtain ⟨last, hlast⟩ := Artifact.exists_lastInto hmem hloc
  have hcontent : w'.files.content? loc = some last.source.toUTF8 := by
    rw [hwrites.content, hlast]
    rfl
  have hfile : w'.files.fileAt? output = some loc := by
    rw [Artifact.place?, houtput] at hloc
    exact hloc
  exact ⟨loc, last, hloc, hlast, ask_readText_of_fileAt? hfile hcontent⟩

theorem outdated?_of_deliverAll {artifacts : List Artifact} {w w' : World}
    (h : w.run (deliverAll artifacts) = (.ok (), w')) {artifact : Artifact}
    (hmem : artifact ∈ artifacts) :
    artifact.outdated? w'.files =
      if artifact.isOverwritten w'.files artifacts then artifact.output else none := by
  cases houtput : artifact.output with
  | none => simp [Artifact.outdated?, houtput]
  | some output =>
    obtain ⟨loc, last, hloc, hlast, hread⟩ := ask_readText_of_deliverAll h hmem houtput
    rw [Artifact.outdated?, houtput, Artifact.isOverwritten, hloc, Option.bind_some, hlast,
      Option.filter_some, FileTree.holds, hread]
    rfl

theorem run_deliver_false {artifacts : List Artifact} {w w' : World} {outcome : Outcome}
    (h : w.run (deliver artifacts false) = (.ok outcome, w')) :
    w.run (deliverAll artifacts) = (.ok (), w') := by
  rcases hrun : w.run (deliverAll artifacts) with ⟨result, w₁⟩
  rw [deliver, if_neg (by simp), World.run_bind hrun] at h
  cases result with
  | error failure => exact absurd (congrArg Prod.fst h) (by simp [World.run_pure])
  | ok u =>
    obtain rfl : w₁ = w' := congrArg Prod.snd h
    rfl

theorem comparison_of_deliverAll {artifacts : List Artifact} {w w' : World}
    (h : w.run (deliverAll artifacts) = (.ok (), w')) :
    w'.files.comparison artifacts = .ok ((artifacts.filter
      (·.isOverwritten w'.files artifacts)).filterMap (·.output)) := by
  have hcomparable : ∀ artifact ∈ artifacts, artifact.IsComparable w'.files := by
    intro artifact hmem output houtput
    obtain ⟨loc, last, -, -, hread⟩ := ask_readText_of_deliverAll h hmem houtput
    exact .inr ⟨last.source, hread⟩
  rw [comparison_of_comparable hcomparable, List.filterMap_filter, Except.ok.injEq]
  exact List.filterMap_congr fun artifact hmem ↦ outdated?_of_deliverAll h hmem

/-- An artifact is only written over by one that leads to the same file. -/
theorem Artifact.exists_of_isOverwritten {artifact : Artifact} {t : FileTree}
    {artifacts : List Artifact} (h : artifact.isOverwritten t artifacts = true) :
    ∃ loc, artifact.place? t = some loc ∧ ∃ last ∈ artifacts, last.place? t = some loc ∧
      last.source ≠ artifact.source := by
  rw [isOverwritten, Option.any_eq_true] at h
  obtain ⟨last, hbind, hsource⟩ := h
  obtain ⟨loc, hloc, hlast⟩ := Option.bind_eq_some_iff.mp hbind
  obtain ⟨hmem, hplace⟩ := lastInto_eq_some hlast
  exact ⟨loc, hloc, last, hmem, hplace, by simpa using hsource⟩

/-- Where all outputs lead to different files, an artifact is known by its file. -/
theorem Artifact.eq_of_place? {t : FileTree} {artifacts : List Artifact} {artifact other : Artifact}
    {loc : Location} (h : (artifacts.filterMap (·.place? t)).Nodup) (hmem : artifact ∈ artifacts)
    (hmem' : other ∈ artifacts) (hloc : artifact.place? t = some loc)
    (hloc' : other.place? t = some loc) : artifact = other := by
  by_contra hne
  have : Std.Symm fun a b : Artifact ↦
      ∀ l, a.place? t = some l → ∀ l', b.place? t = some l' → l ≠ l' :=
    ⟨fun a b hab l hl l' hl' ↦ (hab l' hl' l hl).symm⟩
  exact (List.pairwise_filterMap.mp h).forall hmem hmem' hne loc hloc loc hloc' rfl

/-- **A comparison behind writing finds what was written over.** It finds every output, and those
are outdated whose file was written once more, last of all with another source. -/
theorem run_deliver_check_of_written {artifacts : List Artifact} {w w' : World} {outcome : Outcome}
    (h : w.run (deliver artifacts false) = (.ok outcome, w')) :
    ∃ result notices, w'.run (deliver artifacts true) = (result, w'.remark notices) ∧
      (∀ artifact ∈ artifacts, ∀ output, artifact.output = some output →
        (artifact.place? w'.files).isSome) ∧
      result = .ok (.ofStale ((artifacts.filter
        (·.isOverwritten w'.files artifacts)).filterMap (·.output))) ∧
      ((artifacts.filterMap (·.place? w'.files)).Nodup → result = .ok .done) ∧
      ((∀ artifact ∈ artifacts, ∀ other ∈ artifacts, (artifact.place? w'.files).isSome →
        artifact.place? w'.files = other.place? w'.files → artifact.source = other.source) →
        result = .ok .done) := by
  have hall := run_deliver_false h
  have hnone (hsame : ∀ artifact ∈ artifacts, artifact.isOverwritten w'.files artifacts = false) :
      Outcome.ofStale ((artifacts.filter
        (·.isOverwritten w'.files artifacts)).filterMap (·.output)) = .done := by
    rw [List.filter_eq_nil_iff.mpr fun artifact hmem ↦ by simp [hsame artifact hmem]]
    rfl
  refine ⟨_, _, run_deliver_true artifacts w', (run_deliverAll hall).2.1, ?_, ?_, ?_⟩
  · rw [comparison_of_deliverAll hall]
    rfl
  · intro hnodup
    rw [comparison_of_deliverAll hall, Except.map, hnone]
    intro artifact hmem
    rw [Bool.eq_false_iff]
    intro hover
    obtain ⟨loc, hloc, last, hlast, hplace, hsource⟩ := Artifact.exists_of_isOverwritten hover
    exact hsource (congrArg Artifact.source (Artifact.eq_of_place? hnodup hlast hmem hplace hloc))
  · intro hsame
    rw [comparison_of_deliverAll hall, Except.map, hnone]
    intro artifact hmem
    rw [Bool.eq_false_iff]
    intro hover
    obtain ⟨loc, hloc, last, hlast, hplace, hsource⟩ := Artifact.exists_of_isOverwritten hover
    exact hsource (hsame artifact hmem last hlast (by rw [hloc]; rfl) (hloc.trans hplace.symm)).symm

/-- Two artifacts for one file, the second by way of a directory that is made for it, and one
without an output. -/
def sharedOutput : List Artifact :=
  [⟨"A", some ⟨"x.rs"⟩, "a"⟩, ⟨"B", some ⟨"d/../x.rs"⟩, "b"⟩, ⟨"C", none, "c"⟩]

/-- Of two artifacts that share a file the first is outdated. -/
theorem run_deliver_check_of_written_shared :
    ∃ w', World.run ⟨⟨[], []⟩, []⟩ (deliver sharedOutput false) = (.ok .done, w') ∧
      ∃ notices, w'.run (deliver sharedOutput true) =
        (.ok (.stale [⟨"x.rs"⟩]), w'.remark notices) := by
  have hdone : (World.run ⟨⟨[], []⟩, []⟩ (deliver sharedOutput false)).1 = .ok .done :=
    eq_ok_of_toOption (by decide +kernel)
  have hwritten : World.run ⟨⟨[], []⟩, []⟩ (deliver sharedOutput false) =
      (.ok .done, (World.run ⟨⟨[], []⟩, []⟩ (deliver sharedOutput false)).2) :=
    Prod.ext hdone rfl
  obtain ⟨result, notices, hrun, -, hstale, -⟩ := run_deliver_check_of_written hwritten
  refine ⟨_, hwritten, notices, hrun.trans ?_⟩
  rw [hstale]
  congr 2
  decide +kernel

end AstSchema
