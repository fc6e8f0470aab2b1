import AstSchema.Proofs.Query
import AstSchema.Run
import Mathlib.Data.List.Forall2

/-!
# The failure that a run reports

Compiling manifests goes through three stages: every input is resolved, then every manifest is
read, then every entry is compiled. A stage works through a list and stops at the first element it
fails on, and a later stage only starts when the one before it got through. Nothing is delivered
before all three are over.

`CompileCommand.compiled` is the three stages as a function of the files, without remarks, and
`CompileCommand.run_artifacts` says that a run computes it and only adds remarks. The failure that
is reported is therefore the first one: `CompileCommand.FirstFailure` says where it occurs and
that everything in front of it is sound, and nothing behind it is mentioned.
-/

namespace AstSchema

/-! ## Lists on which a stage fails -/

section

variable {ε α β : Type}

/-- The error is that of the first of `as` on which `f` fails. -/
def IsFirstError (f : α → Except ε β) (as : List α) (error : ε) : Prop :=
  ∃ before a after, as = before ++ a :: after ∧ (∀ b ∈ before, ∃ c, f b = .ok c) ∧
    f a = .error error

theorem map_eq_error_iff {f : α → β} {result : Except ε α} {error : ε} :
    result.map f = .error error ↔ result = .error error := by
  cases result <;> simp [Except.map]

theorem exists_map_eq_ok_iff {f : α → β} {result : Except ε α} :
    (∃ b, result.map f = .ok b) ↔ ∃ a, result = .ok a := by
  cases result <;> simp [Except.map]

theorem mapM_cons_of_ok {f : α → Except ε β} {a : α} {b : β} (h : f a = .ok b) (as : List α) :
    (a :: as).mapM f = (as.mapM f).map (b :: ·) := by
  rw [List.mapM_cons, h]
  rfl

theorem mapM_cons_of_error {f : α → Except ε β} {a : α} {error : ε} (h : f a = .error error)
    (as : List α) : (a :: as).mapM f = .error error := by
  rw [List.mapM_cons, h]
  rfl

theorem mapM_eq_ok_iff {f : α → Except ε β} {as : List α} {bs : List β} :
    as.mapM f = .ok bs ↔ List.Forall₂ (fun a b ↦ f a = .ok b) as bs := by
  induction as generalizing bs with
  | nil => cases bs <;> simp [Pure.pure, Except.pure]
  | cons a as ih =>
    cases hf : f a with
    | error e => cases bs <;> simp [mapM_cons_of_error hf, hf]
    | ok b =>
      rw [mapM_cons_of_ok hf]
      cases bs with
      | nil => cases as.mapM f <;> simp [Except.map]
      | cons b' bs =>
        rw [List.forall₂_cons, ← ih, hf]
        cases as.mapM f <;> simp [Except.map]

theorem mapM_eq_error_iff {f : α → Except ε β} {as : List α} {error : ε} :
    as.mapM f = .error error ↔ IsFirstError f as error := by
  constructor
  · intro h
    induction as with
    | nil => exact absurd h (by simp [Pure.pure, Except.pure])
    | cons a as ih =>
      cases hf : f a with
      | error e =>
        rw [mapM_cons_of_error hf, Except.error.injEq] at h
        exact ⟨[], a, as, rfl, by simp, h ▸ hf⟩
      | ok b =>
        rw [mapM_cons_of_ok hf] at h
        cases hrest : as.mapM f with
        | ok bs =>
          rw [hrest] at h
          exact absurd h (by simp [Except.map])
        | error e =>
          rw [hrest] at h ih
          obtain ⟨before, a', after, rfl, hbefore, ha'⟩ := ih h
          exact ⟨a :: before, a', after, rfl, by simpa [hf] using hbefore, ha'⟩
  · rintro ⟨before, a, after, rfl, hbefore, ha⟩
    induction before with
    | nil => exact mapM_cons_of_error ha after
    | cons b before ih =>
      obtain ⟨c, hc⟩ := hbefore b List.mem_cons_self
      rw [List.cons_append, mapM_cons_of_ok hc,
        ih fun b' hb' ↦ hbefore b' (List.mem_cons_of_mem b hb')]
      rfl

/-- A list that a stage gets through holds nothing that it fails on. -/
theorem exists_of_mapM_eq_ok {f : α → Except ε β} {as : List α} {bs : List β} {a : α}
    (h : as.mapM f = .ok bs) (ha : a ∈ as) : ∃ b ∈ bs, f a = .ok b := by
  rw [mapM_eq_ok_iff] at h
  induction h with
  | nil => exact absurd ha List.not_mem_nil
  | @cons a' b' as bs hhead _ ih =>
    rcases List.mem_cons.mp ha with rfl | ha
    · exact ⟨b', List.mem_cons_self, hhead⟩
    · obtain ⟨b, hb, hfb⟩ := ih ha
      exact ⟨b, List.mem_cons_of_mem b' hb, hfb⟩

end

/-! ## The stages -/

namespace FileTree

/-- The paths that an input stands for. -/
def pathsOf (t : FileTree) (input : String) : Except Failure (List Path) :=
  t.ask (resolveInput input)

/-- The manifest at a path. -/
def manifestAt (t : FileTree) (origin : Path) : Except Failure FoundManifest :=
  t.ask (loadManifest origin)

/-- The entries of all manifests that some inputs stand for. -/
def entriesOf (t : FileTree) (inputs : List String) : Except Failure (List FoundEntry) := do
  let paths ← inputs.mapM t.pathsOf
  let found ← paths.flatten.mapM t.manifestAt
  return found.flatMap FoundManifest.entries

end FileTree

theorem run_resolveInputs (inputs : List String) (w : World) :
    w.run (resolveInputs inputs) = ((inputs.mapM w.files.pathsOf).map List.flatten, w) := by
  induction inputs with
  | nil => rfl
  | cons input rest ih =>
    have hrun : w.run (resolveInput input) = (w.files.pathsOf input, w) :=
      isQuery_resolveInput input w
    rw [resolveInputs, World.run_bind hrun]
    cases hinput : w.files.pathsOf input with
    | error failure =>
      rw [mapM_cons_of_error hinput]
      rfl
    | ok paths =>
      rw [mapM_cons_of_ok hinput, World.run_bind ih]
      cases rest.mapM w.files.pathsOf <;> rfl

theorem run_loadManifest_eq (origin : Path) (w : World) :
    w.run (loadManifest origin) =
      (match w.files.ask (readText origin) with
        | .error error => .error (.unreadableManifest origin error)
        | .ok text =>
          match Manifest.ofJson text with
          | .error error => .error (.invalidManifest origin error)
          | .ok manifest => .ok ⟨origin, manifest⟩, w.remark [.loading origin]) := by
  have hreport : w.run (Host.report (.notice (.loading origin))) =
      ((), w.remark [.loading origin]) := rfl
  rw [loadManifest, World.run_bind hreport, World.run_bind (IsQuery.readText origin _),
    World.files_remark]
  cases w.files.ask (readText origin) with
  | error e => rfl
  | ok text =>
    dsimp only
    cases Manifest.ofJson text <;> rfl

theorem run_loadManifest (origin : Path) (w : World) :
    w.run (loadManifest origin) = (w.files.manifestAt origin, w.remark [.loading origin]) := by
  rw [run_loadManifest_eq, FileTree.manifestAt, FileTree.ask.eq_def w.files (loadManifest origin),
    run_loadManifest_eq]

/-- A manifest is what its text says. -/
theorem FileTree.manifestAt_eq_ok {t : FileTree} {origin : Path} {text : String}
    {manifest : Manifest} (hread : t.ask (readText origin) = .ok text)
    (hjson : Manifest.ofJson text = .ok manifest) :
    t.manifestAt origin = .ok ⟨origin, manifest⟩ := by
  rw [manifestAt, ask, run_loadManifest_eq, hread]
  dsimp only
  rw [hjson]

namespace FileTree

/-- The remarks on manifests that are read, up to the first that cannot be loaded. -/
def loadings (t : FileTree) : List Path → List Notice
  | [] => []
  | origin :: rest =>
    .loading origin ::
      match t.manifestAt origin with
      | .error _ => []
      | .ok _ => t.loadings rest

/-- The remarks on the manifests that some inputs stand for. -/
def loadingsOf (t : FileTree) (inputs : List String) : List Notice :=
  match inputs.mapM t.pathsOf with
  | .error _ => []
  | .ok paths => t.loadings paths.flatten

/-- Where all manifests are loaded, each is remarked on. -/
theorem loadings_of_forall₂ {t : FileTree} {origins : List Path} {found : List FoundManifest}
    (h : List.Forall₂ (fun origin m ↦ t.manifestAt origin = .ok m) origins found) :
    t.loadings origins = origins.map .loading := by
  induction h with
  | nil => rfl
  | cons horigin _ ih =>
    rw [loadings, horigin, List.map_cons, ← ih]

end FileTree

/-- Reading manifests only remarks on what is read. -/
theorem run_loadManifests (origins : List Path) (w : World) :
    w.run (loadManifests origins) =
      (origins.mapM w.files.manifestAt, w.remark (w.files.loadings origins)) := by
  induction origins generalizing w with
  | nil =>
    rw [FileTree.loadings, World.remark_nil]
    rfl
  | cons origin rest ih =>
    rw [loadManifests, World.run_bind (run_loadManifest origin w), FileTree.loadings]
    cases horigin : w.files.manifestAt origin with
    | error failure =>
      rw [mapM_cons_of_error horigin]
      rfl
    | ok found =>
      have hrest := ih (w.remark [.loading origin])
      rw [World.files_remark, World.remark_remark, List.singleton_append] at hrest
      rw [mapM_cons_of_ok horigin, World.run_bind hrest]
      cases rest.mapM w.files.manifestAt <;> rfl

theorem run_loadEntries (inputs : List String) (w : World) :
    w.run (loadEntries inputs) =
      (w.files.entriesOf inputs, w.remark (w.files.loadingsOf inputs)) := by
  rw [loadEntries, FileTree.entriesOf, FileTree.loadingsOf,
    World.run_bind (run_resolveInputs inputs w)]
  cases inputs.mapM w.files.pathsOf with
  | error failure =>
    rw [World.remark_nil]
    rfl
  | ok paths =>
    refine (World.run_bind (run_loadManifests paths.flatten w) _).trans ?_
    show _ = ((paths.flatten.mapM w.files.manifestAt >>= fun found ↦
      Except.ok (found.flatMap FoundManifest.entries)), w.remark (w.files.loadings paths.flatten))
    cases paths.flatten.mapM w.files.manifestAt <;> rfl

theorem run_compileEntries (outDir : Option Path) (entries : List FoundEntry) (w : World) :
    ∃ notices, w.run (compileEntries outDir entries) =
      (entries.mapM (·.compile outDir), w.remark notices) := by
  induction entries generalizing w with
  | nil => exact ⟨[], by rw [World.remark_nil]; rfl⟩
  | cons found rest ih =>
    have hreport : w.run (Host.report (.notice (.compiling found.entry.base found.origin))) =
        ((), w.remark [.compiling found.entry.base found.origin]) := rfl
    rw [compileEntries, World.run_bind hreport]
    cases hfound : found.compile outDir with
    | error failure =>
      rw [mapM_cons_of_error (f := fun found : FoundEntry ↦ found.compile outDir) hfound]
      exact ⟨_, rfl⟩
    | ok artifact =>
      obtain ⟨notices, hrest⟩ := ih (w.remark [.compiling found.entry.base found.origin])
      rw [World.remark_remark] at hrest
      refine ⟨.compiling found.entry.base found.origin :: notices, ?_⟩
      rw [mapM_cons_of_ok (f := fun found : FoundEntry ↦ found.compile outDir) hfound,
        World.run_bind hrest]
      cases rest.mapM (·.compile outDir) <;> rfl

namespace CompileCommand

/-- What a command compiles, as far as the files decide it. -/
def compiled (command : CompileCommand) (t : FileTree) : Except Failure (List Artifact) := do
  let entries ← t.entriesOf command.inputs
  entries.mapM (·.compile command.outDir)

/-- Compiling only remarks on what it does. -/
theorem run_artifacts (command : CompileCommand) (w : World) :
    ∃ notices, w.run command.artifacts = (command.compiled w.files, w.remark notices) := by
  rw [artifacts, World.run_bind (run_loadEntries command.inputs w), compiled]
  cases w.files.entriesOf command.inputs with
  | error failure => exact ⟨_, rfl⟩
  | ok entries =>
    obtain ⟨compiling, hcompile⟩ := run_compileEntries command.outDir entries
      (w.remark (w.files.loadingsOf command.inputs))
    refine ⟨w.files.loadingsOf command.inputs ++ compiling, hcompile.trans ?_⟩
    rw [World.remark_remark]
    rfl

end CompileCommand

/-! ## Where a stage fails -/

namespace FoundEntry

/-- The source of an entry's schema. -/
def source (found : FoundEntry) : Except SchemaError String :=
  compileWith found.entry.preamble found.entry.base found.entry.variants

theorem compile_eq_error_iff {found : FoundEntry} {outDir : Option Path} {failure : Failure} :
    found.compile outDir = .error failure ↔
      ∃ error, found.source = .error error ∧
        failure = .rejectedSchema found.entry.base found.origin error := by
  simp only [compile, source]
  cases compileWith found.entry.preamble found.entry.base found.entry.variants <;>
    simp [eq_comm]

theorem exists_compile_eq_ok_iff {found : FoundEntry} {outDir : Option Path} :
    (∃ artifact, found.compile outDir = .ok artifact) ↔ ∃ text, found.source = .ok text := by
  simp only [compile, source]
  cases compileWith found.entry.preamble found.entry.base found.entry.variants <;> simp

end FoundEntry

namespace FileTree

theorem entriesOf_eq_ok_iff {t : FileTree} {inputs : List String} {entries : List FoundEntry} :
    t.entriesOf inputs = .ok entries ↔ ∃ paths found,
      List.Forall₂ (fun input ps ↦ t.pathsOf input = .ok ps) inputs paths ∧
      List.Forall₂ (fun origin m ↦ t.manifestAt origin = .ok m) paths.flatten found ∧
      found.flatMap FoundManifest.entries = entries := by
  simp only [← mapM_eq_ok_iff, entriesOf]
  cases inputs.mapM t.pathsOf with
  | error failure => simp [Bind.bind, Except.bind]
  | ok paths =>
    cases hfound : paths.flatten.mapM t.manifestAt <;>
      simp [Bind.bind, Except.bind, Pure.pure, Except.pure, hfound]

/-- Where there are entries, every manifest has been loaded and is remarked on. -/
theorem exists_loadingsOf {t : FileTree} {inputs : List String} {entries : List FoundEntry}
    (h : t.entriesOf inputs = .ok entries) :
    ∃ paths, List.Forall₂ (fun input ps ↦ t.pathsOf input = .ok ps) inputs paths ∧
      t.loadingsOf inputs = paths.flatten.map .loading := by
  obtain ⟨paths, found, hpaths, hfound, -⟩ := entriesOf_eq_ok_iff.mp h
  refine ⟨paths, hpaths, ?_⟩
  rw [loadingsOf, mapM_eq_ok_iff.mpr hpaths]
  exact loadings_of_forall₂ hfound

theorem entriesOf_eq_error_iff {t : FileTree} {inputs : List String} {failure : Failure} :
    t.entriesOf inputs = .error failure ↔ IsFirstError t.pathsOf inputs failure ∨
      ∃ paths, List.Forall₂ (fun input ps ↦ t.pathsOf input = .ok ps) inputs paths ∧
        IsFirstError t.manifestAt paths.flatten failure := by
  simp only [← mapM_eq_ok_iff, ← mapM_eq_error_iff, entriesOf]
  cases inputs.mapM t.pathsOf with
  | error failure' => simp [Bind.bind, Except.bind]
  | ok paths =>
    cases hfound : paths.flatten.mapM t.manifestAt <;>
      simp [Bind.bind, Except.bind, Pure.pure, Except.pure, hfound]

end FileTree

namespace CompileCommand

variable {command : CompileCommand} {t : FileTree} {failure : Failure}

/-- Some input, some manifest that an input leads to, or some schema in such a manifest is not
what it should be. -/
inductive Flawed (command : CompileCommand) (t : FileTree) : Prop
  /-- An input cannot be resolved. -/
  | input {input : String} {failure : Failure} (hinput : input ∈ command.inputs)
      (h : t.pathsOf input = .error failure)
  /-- A manifest cannot be loaded. -/
  | manifest {input : String} {paths : List Path} {origin : Path} {failure : Failure}
      (hinput : input ∈ command.inputs) (hpaths : t.pathsOf input = .ok paths)
      (horigin : origin ∈ paths) (h : t.manifestAt origin = .error failure)
  /-- A schema is rejected. -/
  | schema {input : String} {paths : List Path} {origin : Path} {found : FoundManifest}
      {entry : FoundEntry} {error : SchemaError} (hinput : input ∈ command.inputs)
      (hpaths : t.pathsOf input = .ok paths) (horigin : origin ∈ paths)
      (hfound : t.manifestAt origin = .ok found) (hentry : entry ∈ found.entries)
      (h : entry.source = .error error)

/-- The failure that comes first: inputs in their order, behind all of them the manifests in
theirs, and behind all of those the schemas in the order of manifests and entries. -/
inductive FirstFailure (command : CompileCommand) (t : FileTree) : Failure → Prop
  /-- An input cannot be resolved, and those in front of it can. -/
  | input {failure : Failure} (h : IsFirstError t.pathsOf command.inputs failure) :
      FirstFailure command t failure
  /-- All inputs are resolved. A manifest cannot be loaded, and those in front of it can. -/
  | manifest {paths : List (List Path)} {failure : Failure}
      (hpaths : List.Forall₂ (fun input ps ↦ t.pathsOf input = .ok ps) command.inputs paths)
      (h : IsFirstError t.manifestAt paths.flatten failure) : FirstFailure command t failure
  /-- All manifests are loaded. A schema is rejected, and those in front of it are not. -/
  | schema {paths : List (List Path)} {found : List FoundManifest}
      {before after : List FoundEntry} {entry : FoundEntry} {error : SchemaError}
      (hpaths : List.Forall₂ (fun input ps ↦ t.pathsOf input = .ok ps) command.inputs paths)
      (hfound : List.Forall₂ (fun origin m ↦ t.manifestAt origin = .ok m) paths.flatten found)
      (hentries : found.flatMap FoundManifest.entries = before ++ entry :: after)
      (hbefore : ∀ e ∈ before, ∃ text, e.source = .ok text) (h : entry.source = .error error) :
      FirstFailure command t (.rejectedSchema entry.entry.base entry.origin error)

theorem compiled_eq_error_iff : command.compiled t = .error failure ↔
    t.entriesOf command.inputs = .error failure ∨
      ∃ entries, t.entriesOf command.inputs = .ok entries ∧
        IsFirstError (·.compile command.outDir) entries failure := by
  simp only [← mapM_eq_error_iff, compiled]
  cases t.entriesOf command.inputs <;> simp [Bind.bind, Except.bind]

/-- Compiling fails with the failure that comes first. -/
theorem compiled_eq_error_iff_firstFailure :
    command.compiled t = .error failure ↔ command.FirstFailure t failure := by
  rw [compiled_eq_error_iff, FileTree.entriesOf_eq_error_iff]
  simp only [FileTree.entriesOf_eq_ok_iff]
  constructor
  · rintro ((h | ⟨paths, hpaths, h⟩) |
      ⟨_, ⟨paths, found, hpaths, hfound, rfl⟩, before, entry, after, hentries, hbefore, h⟩)
    · exact .input h
    · exact .manifest hpaths h
    · obtain ⟨error, herror, rfl⟩ := FoundEntry.compile_eq_error_iff.mp h
      exact .schema hpaths hfound hentries
        (fun e he ↦ FoundEntry.exists_compile_eq_ok_iff.mp (hbefore e he)) herror
  · rintro (h | ⟨hpaths, h⟩ | ⟨hpaths, hfound, hentries, hbefore, h⟩)
    · exact .inl (.inl h)
    · exact .inl (.inr ⟨_, hpaths, h⟩)
    · exact .inr ⟨_, ⟨_, _, hpaths, hfound, rfl⟩, _, _, _, hentries,
        fun e he ↦ FoundEntry.exists_compile_eq_ok_iff.mpr (hbefore e he),
        FoundEntry.compile_eq_error_iff.mpr ⟨_, h, rfl⟩⟩

/-- What is flawed is not compiled, wherever the flaw is. -/
theorem Flawed.exists_compiled_eq_error (h : command.Flawed t) :
    ∃ failure, command.compiled t = .error failure := by
  cases hcompiled : command.compiled t with
  | error failure => exact ⟨failure, rfl⟩
  | ok artifacts =>
    obtain ⟨entries, hentries, hsources⟩ : ∃ entries, t.entriesOf command.inputs = .ok entries ∧
        entries.mapM (·.compile command.outDir) = .ok artifacts := by
      rw [compiled] at hcompiled
      cases hentries : t.entriesOf command.inputs with
      | error failure => exact absurd hcompiled (by simp [hentries, Bind.bind, Except.bind])
      | ok entries => exact ⟨entries, rfl, by rwa [hentries] at hcompiled⟩
    obtain ⟨paths, found, hpaths, hfound, rfl⟩ := FileTree.entriesOf_eq_ok_iff.mp hentries
    rw [← mapM_eq_ok_iff] at hpaths hfound
    -- Every element in front of a flaw got through, so the flaw stands in a list that did as well.
    cases h with
    | input hinput h =>
      obtain ⟨ps, -, hps⟩ := exists_of_mapM_eq_ok hpaths hinput
      exact absurd (hps.symm.trans h) (by simp)
    | manifest hinput hps horigin h =>
      obtain ⟨ps, hmem, hps'⟩ := exists_of_mapM_eq_ok hpaths hinput
      obtain rfl := Except.ok.inj (hps.symm.trans hps')
      obtain ⟨m, -, hm⟩ := exists_of_mapM_eq_ok hfound (List.mem_flatten_of_mem hmem horigin)
      exact absurd (hm.symm.trans h) (by simp)
    | schema hinput hps horigin hm hentry h =>
      obtain ⟨ps, hmem, hps'⟩ := exists_of_mapM_eq_ok hpaths hinput
      obtain rfl := Except.ok.inj (hps.symm.trans hps')
      obtain ⟨m, hmem', hm'⟩ := exists_of_mapM_eq_ok hfound (List.mem_flatten_of_mem hmem horigin)
      obtain rfl := Except.ok.inj (hm.symm.trans hm')
      obtain ⟨artifact, -, hartifact⟩ :=
        exists_of_mapM_eq_ok hsources (List.mem_flatMap_of_mem hmem' hentry)
      obtain ⟨text, htext⟩ := FoundEntry.exists_compile_eq_ok_iff.mp ⟨artifact, hartifact⟩
      exact absurd (htext.symm.trans h) (by simp)

theorem run_eq (command : CompileCommand) (w : World) :
    ∃ notices, w.run command.run =
      match command.compiled w.files with
      | .error failure => (.error failure, w.remark notices)
      | .ok artifacts => (w.remark notices).run (deliver artifacts command.check) := by
  obtain ⟨notices, h⟩ := command.run_artifacts w
  refine ⟨notices, (World.run_bind h _).trans ?_⟩
  cases command.compiled w.files <;> rfl

end CompileCommand

/-- **A run that compiles delivers nothing if anything is flawed.** It fails with the failure that
comes first, and all it leaves are remarks. -/
theorem Invocation.run_compile_of_flawed {log : LogLevel} {command : CompileCommand} {w : World}
    (hdescribe : command.describe = false) (h : command.Flawed w.files) :
    ∃ failure notices,
      w.run (Invocation.run ⟨log, .compile command⟩) = (.error failure, w.remark notices) ∧
      (w.remark notices).files = w.files ∧ (w.remark notices).generated = w.generated ∧
      (∀ other, command.FirstFailure w.files other ↔ other = failure) ∧
      ∀ base manifest error, failure = .rejectedSchema base manifest error →
        failure.chain = ["schema `" ++ base ++ "` in " ++ manifest.text, error.message] := by
  obtain ⟨failure, hcompiled⟩ := h.exists_compiled_eq_error
  obtain ⟨notices, hrun⟩ := command.run_eq w
  rw [hcompiled] at hrun
  have hasked : (Invocation.run ⟨log, .compile command⟩ : StateM World _) = command.run :=
    if_neg (by simp [Command.isDescribed, hdescribe])
  refine ⟨failure, notices, ?_, rfl, w.generated_remark notices, fun other ↦ ?_, ?_⟩
  · rw [hasked, hrun]
  · rw [← CompileCommand.compiled_eq_error_iff_firstFailure, hcompiled, Except.error.injEq, eq_comm]
  · rintro base manifest error rfl
    rfl

/-- The files of a manifest whose second schema lacks its colon and whose third has no name. -/
def flawedFiles : FileTree :=
  ⟨[(["m.json"], .file "[[[\"E\",[\"A: a T\"]],[\"F\",[\"B\"]],[\"\",[]]]]".toUTF8)], []⟩

/-- The missing colon is reported, and not the missing name behind it. -/
theorem run_compile_of_flawed_colon :
    ∃ notices, World.run ⟨flawedFiles, []⟩
        (Invocation.run ⟨.warning, .compile { inputs := ["m.json"] }⟩) =
      (.error (.rejectedSchema "F" ⟨"m.json"⟩ (.malformed 0 .missingSeparator)),
        World.remark ⟨flawedFiles, []⟩ notices) := by
  have hresolve : flawedFiles.pathsOf "m.json" = .ok [⟨"m.json"⟩] := rfl
  have hread : (flawedFiles.ask (readText ⟨"m.json"⟩)).toOption =
      some "[[[\"E\",[\"A: a T\"]],[\"F\",[\"B\"]],[\"\",[]]]]" := by decide +kernel
  have hjson : (Manifest.ofJson "[[[\"E\",[\"A: a T\"]],[\"F\",[\"B\"]],[\"\",[]]]]").toOption =
      some ⟨[⟨"E", ["A: a T"], none, [], [], none⟩, ⟨"F", ["B"], none, [], [], none⟩,
        ⟨"", [], none, [], [], none⟩]⟩ := by decide +kernel
  have hload := FileTree.manifestAt_eq_ok (eq_ok_of_toOption hread) (eq_ok_of_toOption hjson)
  have hcolon : FoundEntry.source ⟨⟨"m.json"⟩, ⟨"F", ["B"], none, [], [], none⟩⟩ =
      .error (.malformed 0 .missingSeparator) := rfl
  have hflawed : CompileCommand.Flawed { inputs := ["m.json"] } flawedFiles :=
    .schema List.mem_cons_self hresolve List.mem_cons_self hload
      (List.mem_cons_of_mem _ List.mem_cons_self) hcolon
  have hpaths : List.Forall₂ (fun input ps ↦ flawedFiles.pathsOf input = .ok ps)
      ["m.json"] [[⟨"m.json"⟩]] := .cons hresolve .nil
  have hmanifests : List.Forall₂ (fun origin m ↦ flawedFiles.manifestAt origin = .ok m)
      [⟨"m.json"⟩] [_] := .cons hload .nil
  have hbefore : ∀ found ∈ ([⟨⟨"m.json"⟩, ⟨"E", ["A: a T"], none, [], [], none⟩⟩] :
      List FoundEntry), ∃ text, found.source = .ok text := by
    intro found hfound
    obtain rfl := List.mem_singleton.mp hfound
    exact ⟨_, rfl⟩
  have hfirst : CompileCommand.FirstFailure { inputs := ["m.json"] } flawedFiles
      (.rejectedSchema "F" ⟨"m.json"⟩ (.malformed 0 .missingSeparator)) :=
    .schema hpaths hmanifests rfl hbefore hcolon
  obtain ⟨failure, notices, hrun, -, -, hiff, -⟩ :=
    Invocation.run_compile_of_flawed (w := ⟨flawedFiles, []⟩) rfl hflawed
  rw [(hiff _).mp hfirst]
  exact ⟨notices, hrun⟩

end AstSchema
