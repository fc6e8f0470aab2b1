import AstSchema.Inputs

/-!
# Delivery

What was compiled is delivered in its order. Text with an output goes to that file, whose
directories are made where they are missing, and text without one is generated text of the run.
Delivery stops at the first file that cannot be written; what was delivered before stays.

In place of being written, files can be compared with what would be written. Nothing changes then,
and the files that differ or do not exist are the result.
-/

namespace AstSchema

/-- A compiled schema. -/
structure Artifact where
  /-- The name of the category, as the user wrote it. -/
  base : String
  /-- The file that the source belongs in. -/
  output : Option Path
  /-- The source. -/
  source : String
  deriving DecidableEq, Repr

/-- How a run ends that does not fail. -/
inductive Outcome
  /-- All that was asked for is done. -/
  | done
  /-- Some files are not what they should be. -/
  | stale (outputs : List Path)
  deriving DecidableEq, Repr

/-- The outcome of a comparison. -/
def Outcome.ofStale : List Path → Outcome
  | [] => done
  | output :: rest => stale (output :: rest)

section

variable {m : Type → Type} [Monad m] [Host m]

/-! ## Writing -/

/-- Makes the directory of a file. -/
def makeParent (output : Path) : m (Except Failure Unit) := do
  match output.parent? with
  | none => return .ok ()
  | some directory =>
    match ← makeDirectories directory with
    | .error error => return .error (.noDirectory directory error)
    | .ok () => return .ok ()

/-- Writes a text to a file and makes its directory before. -/
def writeText (output : Path) (text : String) : m (Except Failure Unit) := do
  match ← makeParent output with
  | .error failure => return .error failure
  | .ok () =>
    match ← Host.writeFile output text.toUTF8 with
    | .error error => return .error (.unwritable output error)
    | .ok () => return .ok ()

/-- Delivers one artifact. -/
def Artifact.deliver (artifact : Artifact) : m (Except Failure Unit) := do
  match artifact.output with
  | none =>
    Host.report (.generated artifact.source)
    return .ok ()
  | some output =>
    match ← writeText output artifact.source with
    | .error failure => return .error failure
    | .ok () =>
      Host.report (.notice (.wrote artifact.base output))
      return .ok ()

/-- Delivers artifacts up to the first that cannot be written. -/
def deliverAll : List Artifact → m (Except Failure Unit)
  | [] => pure (.ok ())
  | artifact :: rest => do
    match ← artifact.deliver with
    -- What was delivered before stays.
    | .error failure => return .error failure
    | .ok () => deliverAll rest

/-! ## Comparing -/

/-- Whether a file holds exactly this text. A file that does not exist holds none. -/
def holds (output : Path) (text : String) : m (Except Failure Bool) := do
  match ← readText output with
  | .error .missing => return .ok false
  | .error error => return .error (.unreadableOutput output error)
  | .ok current => return .ok (current == text)

/-- The output of an artifact, if it has one that is not up to date. -/
def Artifact.stale? (artifact : Artifact) : m (Except Failure (Option Path)) := do
  match artifact.output with
  | none =>
    Host.report (.notice (.nothingToCheck artifact.base))
    return .ok none
  | some output =>
    match ← holds output artifact.source with
    | .error failure => return .error failure
    | .ok true => return .ok none
    | .ok false =>
      Host.report (.notice (.outOfDate output))
      return .ok (some output)

/-- The outputs that are not up to date, in their order. -/
def staleOutputs : List Artifact → m (Except Failure (List Path))
  | [] => pure (.ok [])
  | artifact :: rest => do
    match ← artifact.stale? with
    | .error failure => return .error failure
    | .ok stale =>
      match ← staleOutputs rest with
      | .error failure => return .error failure
      | .ok others => return .ok (stale.toList ++ others)

/-- Delivers artifacts, or with `check` compares them with what is there. -/
def deliver (artifacts : List Artifact) (check : Bool) : m (Except Failure Outcome) := do
  if check then
    match ← staleOutputs artifacts with
    | .error failure => return .error failure
    | .ok outputs => return .ok (.ofStale outputs)
  else
    match ← deliverAll artifacts with
    | .error failure => return .error failure
    | .ok () => return .ok .done

end

end AstSchema
