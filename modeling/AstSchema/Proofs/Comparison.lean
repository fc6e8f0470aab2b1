import AstSchema.Delivery
import AstSchema.Proofs.Query

/-!
# Comparing outputs with what would be written

A comparison reads the output of one artifact after the other. A missing output is as good as one
with the wrong text, and an output that is there but cannot be read ends the comparison. Nothing is
written on the way and no generated text is shown. The remarks are another matter: they are log
lines, and log lines go to the standard output, so `run_deliver_check` says which there are and
`standardOutput_deliver_check` that they can be seen.

What a comparison finds is a function of the files, put together artifact by artifact:
`Artifact.unreadable?`, `Artifact.outdated?` and `Artifact.notice?` look at one of them, and
`run_staleOutputs` says that the loop is the first failure or else all outdated outputs.
-/

namespace AstSchema

/-! ## One artifact -/

/-- Whether a file holds exactly this text. -/
def FileTree.holds (t : FileTree) (output : Path) (text : String) : Bool :=
  match t.ask (readText output) with
  | .ok current => current == text
  | .error _ => false

theorem FileTree.holds_iff {t : FileTree} {output : Path} {text : String} :
    t.holds output text = true ↔ t.ask (readText output) = .ok text := by
  rw [holds]
  cases t.ask (readText output) <;> simp

namespace Artifact

/-- The output of the artifact, if there is one, is missing or a text. -/
def IsComparable (artifact : Artifact) (t : FileTree) : Prop :=
  ∀ output, artifact.output = some output →
    t.ask (readText output) = .error .missing ∨ ∃ text, t.ask (readText output) = .ok text

/-- The failure to read an output that is there. -/
def unreadable? (artifact : Artifact) (t : FileTree) : Option Failure :=
  match artifact.output with
  | none => none
  | some output =>
    match t.ask (readText output) with
    | .ok _ => none
    | .error .missing => none
    | .error error => some (.unreadableOutput output error)

/-- The output, if it does not hold the source. -/
def outdated? (artifact : Artifact) (t : FileTree) : Option Path :=
  artifact.output.filter fun output ↦ !t.holds output artifact.source

/-- What is remarked about an artifact that can be compared. -/
def notice? (artifact : Artifact) (t : FileTree) : Option Notice :=
  match artifact.output with
  | none => some (.nothingToCheck artifact.base)
  | some _ => (artifact.outdated? t).map .outOfDate

/-- Comparing makes no remarks but warnings. -/
theorem level_of_notice? {artifact : Artifact} {t : FileTree} {notice : Notice}
    (h : artifact.notice? t = some notice) : notice.level = .warning := by
  rw [notice?] at h
  split at h
  · obtain rfl := Option.some.inj h
    rfl
  · obtain ⟨output, -, rfl⟩ := Option.map_eq_some_iff.mp h
    rfl

theorem unreadable?_eq_none_iff {artifact : Artifact} {t : FileTree} :
    artifact.unreadable? t = none ↔ artifact.IsComparable t := by
  rw [unreadable?, IsComparable]
  cases artifact.output with
  | none => simp
  | some output =>
    cases hread : t.ask (readText output) with
    | ok text => simp [hread]
    | error e => cases e <;> simp [hread]

theorem unreadable?_eq_some_iff {artifact : Artifact} {t : FileTree} {failure : Failure} :
    artifact.unreadable? t = some failure ↔ ∃ output error, artifact.output = some output ∧
      t.ask (readText output) = .error error ∧ error ≠ .missing ∧
      failure = .unreadableOutput output error := by
  rw [unreadable?]
  cases artifact.output with
  | none => simp
  | some output =>
    cases hread : t.ask (readText output) with
    | ok text => simp [hread]
    | error e => cases e <;> simp [hread, eq_comm]

/-- Comparing one artifact leaves the files alone. -/
theorem run_stale? (artifact : Artifact) (w : World) :
    w.run artifact.stale? =
      match artifact.unreadable? w.files with
      | some failure => (.error failure, w)
      | none =>
        (.ok (artifact.outdated? w.files), w.remark (artifact.notice? w.files).toList) := by
  obtain ⟨base, output, source⟩ := artifact
  cases output with
  | none => rfl
  | some output =>
    have hread := IsQuery.readText output w
    simp only [stale?, unreadable?, notice?, outdated?, Option.filter_some, FileTree.holds]
    cases htext : w.files.ask (readText output) with
    | ok text =>
      have hholds : w.run (holds output source) = (.ok (text == source), w) := by
        rw [holds, World.run_bind hread, htext]
        rfl
      rw [World.run_bind hholds]
      rcases Bool.eq_false_or_eq_true (text == source) with hsame | hsame
      · simp only [hsame, Bool.not_true, Bool.false_eq_true, if_false, Option.map_none,
          Option.toList_none, World.remark_nil]
        rfl
      · simp only [hsame]
        rfl
    | error e =>
      by_cases he : e = .missing
      · subst he
        have hholds : w.run (holds output source) = (.ok false, w) := by
          rw [holds, World.run_bind hread, htext]
          rfl
        rw [World.run_bind hholds]
        rfl
      · have hholds : w.run (holds output source) =
            (.error (.unreadableOutput output e), w) := by
          rw [holds, World.run_bind hread, htext]
          cases e <;> first | rfl | exact absurd rfl he
        rw [World.run_bind hholds]
        cases e <;> first | rfl | exact absurd rfl he

end Artifact

/-! ## A list of artifacts -/

namespace FileTree

variable {t : FileTree} {artifact : Artifact}

/-- What a comparison finds. -/
def comparison (t : FileTree) (artifacts : List Artifact) : Except Failure (List Path) :=
  match artifacts.findSome? (·.unreadable? t) with
  | some failure => .error failure
  | none => .ok (artifacts.filterMap (·.outdated? t))

/-- What is remarked in a comparison, which ends in front of an artifact that is unreadable. -/
def comparisonNotices (t : FileTree) (artifacts : List Artifact) : List Notice :=
  (artifacts.takeWhile fun artifact ↦ (artifact.unreadable? t).isNone).filterMap (·.notice? t)

theorem comparison_cons_of_some {failure : Failure} (h : artifact.unreadable? t = some failure)
    (rest : List Artifact) : t.comparison (artifact :: rest) = .error failure := by
  rw [comparison, List.findSome?_cons, h]

theorem comparison_cons_of_none (h : artifact.unreadable? t = none) (rest : List Artifact) :
    t.comparison (artifact :: rest) =
      (t.comparison rest).map ((artifact.outdated? t).toList ++ ·) := by
  rw [comparison, List.findSome?_cons, h, comparison]
  dsimp only
  cases rest.findSome? (·.unreadable? t) with
  | some failure => rfl
  | none => cases houtdated : artifact.outdated? t <;> simp [houtdated, Except.map]

theorem comparisonNotices_cons_of_some {failure : Failure}
    (h : artifact.unreadable? t = some failure) (rest : List Artifact) :
    t.comparisonNotices (artifact :: rest) = [] := by
  simp [comparisonNotices, h]

theorem comparisonNotices_cons_of_none (h : artifact.unreadable? t = none)
    (rest : List Artifact) :
    t.comparisonNotices (artifact :: rest) =
      (artifact.notice? t).toList ++ t.comparisonNotices rest := by
  cases hnotice : artifact.notice? t <;> simp [comparisonNotices, h, hnotice]

theorem comparison_of_comparable {artifacts : List Artifact}
    (h : ∀ artifact ∈ artifacts, artifact.IsComparable t) :
    t.comparison artifacts = .ok (artifacts.filterMap (·.outdated? t)) := by
  have hnone : artifacts.findSome? (·.unreadable? t) = none :=
    List.findSome?_eq_none_iff.mpr fun a ha ↦ Artifact.unreadable?_eq_none_iff.mpr (h a ha)
  rw [comparison, hnone]

/-- A comparison that does not get through fails with the first output that is unreadable. -/
theorem exists_comparison_eq_error {artifacts : List Artifact}
    (h : ¬∀ artifact ∈ artifacts, artifact.IsComparable t) :
    ∃ before artifact after output error, artifacts = before ++ artifact :: after ∧
      (∀ other ∈ before, other.IsComparable t) ∧ artifact.output = some output ∧
      t.ask (readText output) = .error error ∧ error ≠ .missing ∧
      t.comparison artifacts = .error (.unreadableOutput output error) := by
  cases hfind : artifacts.findSome? (·.unreadable? t) with
  | none =>
    rw [List.findSome?_eq_none_iff] at hfind
    exact absurd (fun a ha ↦ Artifact.unreadable?_eq_none_iff.mp (hfind a ha)) h
  | some failure =>
    have hcomparison : t.comparison artifacts = .error failure := by rw [comparison, hfind]
    obtain ⟨before, artifact, after, rfl, hfailure, hbefore⟩ := List.findSome?_eq_some_iff.mp hfind
    obtain ⟨output, error, houtput, hread, hne, rfl⟩ := Artifact.unreadable?_eq_some_iff.mp hfailure
    exact ⟨before, artifact, after, output, error, rfl,
      fun a ha ↦ Artifact.unreadable?_eq_none_iff.mp (hbefore a ha), houtput, hread, hne,
      hcomparison⟩

end FileTree

theorem Outcome.ofStale_eq_done_iff {outputs : List Path} :
    ofStale outputs = done ↔ outputs = [] := by
  cases outputs <;> simp [ofStale]

theorem run_staleOutputs (artifacts : List Artifact) (w : World) :
    w.run (staleOutputs artifacts) =
      (w.files.comparison artifacts, w.remark (w.files.comparisonNotices artifacts)) := by
  induction artifacts generalizing w with
  | nil =>
    show ((.ok [], w) : Except Failure (List Path) × World) = (.ok [], w.remark [])
    rw [World.remark_nil]
  | cons artifact rest ih =>
    have hstale := artifact.run_stale? w
    cases hunreadable : artifact.unreadable? w.files with
    | some failure =>
      rw [hunreadable] at hstale
      rw [staleOutputs, World.run_bind hstale, FileTree.comparison_cons_of_some hunreadable,
        FileTree.comparisonNotices_cons_of_some hunreadable, World.remark_nil]
      rfl
    | none =>
      rw [hunreadable] at hstale
      have hrest := ih (w.remark (artifact.notice? w.files).toList)
      rw [World.files_remark, World.remark_remark,
        ← FileTree.comparisonNotices_cons_of_none hunreadable] at hrest
      rw [staleOutputs, World.run_bind hstale, FileTree.comparison_cons_of_none hunreadable]
      dsimp only
      rw [World.run_bind hrest]
      cases w.files.comparison rest <;> rfl

/-- Comparing instead of writing gives what the comparison finds. -/
theorem run_deliver_true (artifacts : List Artifact) (w : World) :
    w.run (deliver artifacts true) =
      ((w.files.comparison artifacts).map .ofStale,
        w.remark (w.files.comparisonNotices artifacts)) := by
  rw [deliver, if_pos rfl, World.run_bind (run_staleOutputs artifacts w)]
  cases w.files.comparison artifacts <;> rfl

/-- **A comparison changes no file and is exact.** All it leaves are remarks: one for each artifact
without an output and for each outdated one, up to the first artifact that is unreadable. If there
is none of these, the outdated outputs are the result, and else the failure to read it. -/
theorem run_deliver_check (artifacts : List Artifact) (w : World) :
    ∃ result notices, w.run (deliver artifacts true) = (result, w.remark notices) ∧
      (w.remark notices).files = w.files ∧ (w.remark notices).generated = w.generated ∧
      notices = (artifacts.takeWhile fun artifact ↦
        (artifact.unreadable? w.files).isNone).filterMap (·.notice? w.files) ∧
      (∀ notice ∈ notices, notice.level = .warning) ∧
      ((∀ artifact ∈ artifacts, artifact.IsComparable w.files) →
        result = .ok (.ofStale (artifacts.filterMap (·.outdated? w.files)))) ∧
      (result = .ok .done ↔ (∀ artifact ∈ artifacts, artifact.IsComparable w.files) ∧
        artifacts.filterMap (·.outdated? w.files) = []) ∧
      (¬(∀ artifact ∈ artifacts, artifact.IsComparable w.files) →
        ∃ before artifact after output error, artifacts = before ++ artifact :: after ∧
          (∀ other ∈ before, other.IsComparable w.files) ∧ artifact.output = some output ∧
          w.files.ask (readText output) = .error error ∧ error ≠ .missing ∧
          result = .error (.unreadableOutput output error) ∧
          (Failure.unreadableOutput output error).chain =
            ["failed to read " ++ output.text, error.message]) := by
  refine ⟨_, _, run_deliver_true artifacts w, rfl, w.generated_remark _, rfl, ?_, ?_, ?_, ?_⟩
  · intro notice hnotice
    obtain ⟨artifact, -, h⟩ := List.mem_filterMap.mp hnotice
    exact Artifact.level_of_notice? h
  · intro h
    rw [FileTree.comparison_of_comparable h]
    rfl
  · by_cases h : ∀ artifact ∈ artifacts, artifact.IsComparable w.files
    · rw [FileTree.comparison_of_comparable h, Except.map, Except.ok.injEq,
        Outcome.ofStale_eq_done_iff]
      exact ⟨fun hnil ↦ ⟨h, hnil⟩, fun hnil ↦ hnil.2⟩
    · obtain ⟨-, -, -, output, error, -, -, -, -, -, herror⟩ :=
        FileTree.exists_comparison_eq_error h
      rw [herror]
      exact ⟨fun hdone ↦ absurd hdone (by simp [Except.map]), fun hall ↦ absurd hall.1 h⟩
  · intro h
    obtain ⟨before, artifact, after, output, error, hsplit, hbefore, houtput, hread, hne, herror⟩ :=
      FileTree.exists_comparison_eq_error h
    refine ⟨before, artifact, after, output, error, hsplit, hbefore, houtput, hread, hne, ?_, rfl⟩
    rw [herror]
    rfl

/-- The remarks of a comparison can be seen on the standard output. -/
theorem standardOutput_deliver_check :
    ¬∀ (artifacts : List Artifact) (w : World) (level : LogLevel),
      (w.run (deliver artifacts true)).2.standardOutput level = w.standardOutput level := by
  intro h
  have hmissing := h [⟨"E", some ⟨"e.rs"⟩, ""⟩] ⟨⟨[], []⟩, []⟩ .warning
  exact absurd hmissing (by decide)

end AstSchema
