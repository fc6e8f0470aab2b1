import AstSchema.Glob
import AstSchema.Host

/-!
# Expanding patterns

Expanding a pattern finds the paths that it stands for. The components are taken one after another:
one that stands for itself is looked up without listing a directory, and any other is compared
with the names in a directory, in the order of the names.

A component for any depth is compared with nothing. It takes every directory below, each of them
before its contents, and the component behind it is compared with every name that is met, starting
with the names in the directory where the search began.

Directories nest only as deep as a path may be long, and that is the fuel of the search.
-/

namespace AstSchema.Glob

/-- A pattern cut into components. -/
structure Pattern where
  /-- Whether the search starts at the root. -/
  absolute : Bool
  /-- Whether only directories are wanted. -/
  directories : Bool
  /-- The components. -/
  components : List (List Token)

/-- The components of a pattern, without the empty one behind a slash at its end. -/
def cut (cs : List Char) : List (List Char) :=
  let all := Path.pieces cs
  if all.getLast? = some [] then all.dropLast else all

/-- Reads every component of a pattern by itself. -/
def readComponents : List (List Char) → Except Fault (List (List Token))
  | [] => .ok []
  | component :: rest =>
    match read component with
    | .error fault => .error fault
    | .ok tokens =>
      match readComponents rest with
      | .error fault => .error fault
      | .ok components => .ok (tokens :: components)

/-- Reads a pattern, as a whole and by its components. -/
def Pattern.read (s : String) : Except Fault Pattern :=
  let cs := s.toList
  match Glob.read cs with
  | .error fault => .error fault
  | .ok _ =>
    let absolute := cs.head? == some '/'
    match readComponents (cut (if absolute then cs.tail else cs)) with
    | .error fault => .error fault
    | .ok components => .ok ⟨absolute, cs.getLast? == some '/', components⟩

/-- Whether a component stands for any number of directories. -/
def isDeep (component : List Token) : Bool := component == [.anyDepth]

/-- A directory that could not be listed, and why. -/
structure ListingError where
  /-- The directory. -/
  path : Path
  /-- Why it could not be listed. -/
  error : FileError
  deriving DecidableEq, Repr

/-- The message for the user. -/
def ListingError.message (e : ListingError) : String :=
  "attempting to read `" ++ e.path.text ++ "` resulted in an error: " ++ e.error.message

/-- A path met in a search. -/
inductive Candidate
  /-- A path that the whole pattern stands for, but perhaps for being no directory. -/
  | hit (path : Path)
  /-- A path whose last name is still to be compared with the first of these components. -/
  | open (path : Path) (components : List (List Token))
  /-- A directory that could not be listed. -/
  | failed (error : ListingError)

/-- Whether a path is another spelling of the point that leads nowhere. -/
def isPoint (p : Path) : Bool := !p.isAbsolute && !p.names.isEmpty && p.names.all (· == ".")

/-- The path of `name` in the directory `p`. The directory where a search starts is not shown. -/
def child (p : Path) (name : String) : Path := if isPoint p then ⟨name⟩ else p.join ⟨name⟩

/-- The components behind a component for any depth and those that follow it directly. -/
def afterDeep : List (List Token) → List (List Token)
  | [] => []
  | component :: rest => if isDeep component then afterDeep rest else component :: rest

section

variable {m : Type → Type} [Monad m] [Host m]

/-- What the first of the components stands for in `p`, as far as names alone can tell. -/
def candidates (p : Path) : List (List Token) → m (List Candidate)
  | [] => pure []
  | component :: rest =>
    let goOn (next : Path) : m (List Candidate) :=
      if rest.isEmpty then pure [.hit next] else candidates next rest
    match plainText? component with
    | some name => do
      let name := String.ofList name
      let next := child p name
      let there ← if name = "." ∨ name = ".." then Host.isDirectory p else Host.isPresent next
      if there then goOn next else pure []
    | none => do
      if ← Host.isDirectory p then
        match ← Host.names p with
        | .error e => pure [.failed ⟨p, e⟩]
        | .ok names =>
          let ordered := names.mergeSort fun a b ↦ decide (a ≤ b)
          let children := ordered.map fun name ↦ .open (child p name) (component :: rest)
          -- Every directory has these two, but they are met only where a point is asked for.
          let special (name : String) : m (List Candidate) :=
            if component.head? = some (.literal '.') ∧ «matches» component name.toList then
              goOn (p.join ⟨name⟩)
            else pure []
          return (← special "..") ++ (← special ".") ++ children
      else pure []

/-- All paths that come of a candidate. -/
def expandCandidate (directories : Bool) : Nat → Candidate → m (List (Except ListingError Path))
  | 0, _ => pure []
  | _, .failed e => pure [.error e]
  | _, .hit p => do
    if directories then
      if ← Host.isDirectory p then pure [.ok p] else pure []
    else pure [.ok p]
  | fuel + 1, .open p components => do
    let expandAll (cs : List Candidate) : m (List (Except ListingError Path)) := do
      return (← cs.mapM (expandCandidate directories fuel)).flatten
    let compare (components : List (List Token)) : m (List (Except ListingError Path)) := do
      match components, p.fileName? with
      | component :: rest, some name =>
        if «matches» component name.toList then
          if rest.isEmpty then
            if directories then
              if ← Host.isDirectory p then pure [.ok p] else pure []
            else pure [.ok p]
          else expandAll (← candidates p rest)
        else pure []
      | _, _ => pure []
    match components with
    | [] => pure []
    | component :: rest =>
      if isDeep component then
        let behind := afterDeep rest
        if ← Host.isDirectory p then
          let here ← if behind.isEmpty then pure [.ok p] else compare behind
          let below ← expandAll (← candidates p (component :: behind))
          return here ++ below
        else if behind.isEmpty then pure []
        else compare behind
      else compare (component :: rest)

/-- The paths that a pattern stands for, up to the first directory that cannot be listed. -/
def expand (pattern : Pattern) : m (Except ListingError (List Path)) := do
  let start : Path := ⟨if pattern.absolute then "/" else "."⟩
  let depth := FileTree.maxPath + pattern.components.length
  let found ← (← candidates start pattern.components).mapM
    (expandCandidate pattern.directories depth)
  return found.flatten.mapM id

end

end AstSchema.Glob
