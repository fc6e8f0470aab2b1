import AstSchema.Path

/-!
# Trees of files

A file tree says which files and directories there are, by location: the names that lead from the
root to them. The root is always a directory and is not listed. There are no links, so a location
is all there is to being the same file, however differently two paths to it may be spelt.

A path is walked name by name. A point stays, two points go up, and any other name has to be there
already; everything walked through has to be a directory. Reading, writing and making a directory
differ only in what they ask of the last name.

The files of a system know more ways to refuse than a tree does. In a tree nothing is forbidden and
there is room for everything, so a path and what it leads to are the only reasons to refuse, and
`FileError.other` never arises. An operation that is refused leaves the tree as it was. In
particular a failed write changes nothing, where a system may have written some of the bytes.
-/

namespace AstSchema

/-! ## Errors -/

/-- Why the files refuse an operation. -/
inductive FileError
  /-- Something on the way or at the end of a path does not exist. -/
  | missing
  /-- Something exists where a directory is to be made. -/
  | occupied
  /-- A path leads through a file. -/
  | notDirectory
  /-- A directory is read or written as if it were a file. -/
  | isDirectory
  /-- A name or a path is longer than it may be. -/
  | tooLong
  /-- A path holds a character that no path may hold. -/
  | badPath
  /-- The content of a file is no text. -/
  | notText
  /-- An error of the system of any other kind. No file tree gives it. -/
  | other (text : String)
  deriving DecidableEq, Repr

/-- The message for the user. -/
def FileError.message : FileError → String
  | missing => "No such file or directory (os error 2)"
  | occupied => "File exists (os error 17)"
  | notDirectory => "Not a directory (os error 20)"
  | isDirectory => "Is a directory (os error 21)"
  | tooLong => "File name too long (os error 36)"
  | badPath => "file name contained an unexpected NUL byte"
  | notText => "stream did not contain valid UTF-8"
  | other text => text

/-! ## Trees -/

/-- The names that lead from the root to a place. -/
abbrev Location := List String

/-- What is at a place. -/
inductive Node
  /-- A directory. -/
  | directory
  /-- A file with its bytes. -/
  | file (content : ByteArray)
  deriving BEq

/-- Files and directories by location, and the directory that relative paths start from. -/
structure FileTree where
  /-- What is at each location but the root. -/
  nodes : List (Location × Node)
  /-- The directory that relative paths start from. -/
  here : Location

namespace FileTree

/-- What is at a location. -/
def node? (t : FileTree) (loc : Location) : Option Node :=
  if loc = [] then some .directory else t.nodes.lookup loc

/-- The tree with nothing at a location. -/
def remove (t : FileTree) (loc : Location) : FileTree :=
  { t with nodes := t.nodes.filter (·.1 != loc) }

/-- The tree with something else, or something new, at a location. -/
def put (t : FileTree) (loc : Location) (node : Node) : FileTree :=
  { t with nodes := (loc, node) :: (t.remove loc).nodes }

@[simp] theorem here_put (t : FileTree) (loc : Location) (node : Node) :
    (t.put loc node).here = t.here := rfl

theorem node?_put_self (t : FileTree) {loc : Location} (h : loc ≠ []) (node : Node) :
    (t.put loc node).node? loc = some node := by
  simp [node?, put, h]

theorem lookup_filter_ne {loc other : Location} (h : other ≠ loc) (nodes : List (Location × Node)) :
    (nodes.filter (·.1 != loc)).lookup other = nodes.lookup other := by
  have hbeq : (other == loc) = false := by simpa using h
  induction nodes with
  | nil => rfl
  | cons n rest ih =>
    obtain ⟨place, node⟩ := n
    by_cases hp : place = loc
    · subst hp
      simp [List.lookup_cons, hbeq, ih]
    · simp [hp, List.lookup_cons, ih]

theorem node?_put_of_ne (t : FileTree) {loc other : Location} (h : other ≠ loc) (node : Node) :
    (t.put loc node).node? other = t.node? other := by
  have hbeq : (other == loc) = false := by simpa using h
  simp [node?, put, remove, List.lookup_cons, hbeq, lookup_filter_ne h]

/-! ## Walking -/

/-- The bytes that a name may have. -/
def maxName : Nat := 255

/-- The bytes that a path may have. -/
def maxPath : Nat := 4095

/-- Goes from a directory to what `name` leads to. -/
def step (t : FileTree) (place : Location) (name : String) : Except FileError Location :=
  if name = "." then .ok place
  else if name = ".." then .ok place.dropLast
  else if maxName < name.utf8ByteSize then .error .tooLong
  else if (t.node? (place ++ [name])).isSome then .ok (place ++ [name])
  else .error .missing

/-- Walks from a directory through names that all have to lead to directories. -/
def walk (t : FileTree) (place : Location) : List String → Except FileError Location
  | [] => .ok place
  | name :: rest =>
    match t.step place name with
    | .error e => .error e
    | .ok next =>
      match t.node? next with
      | some .directory => walk t next rest
      | some (.file _) => .error .notDirectory
      | none => .error .missing

/-- The directory that a path starts from. -/
def origin (t : FileTree) (p : Path) : Location := if p.isAbsolute then [] else t.here

/-- What is wrong with a path whatever the files are. -/
def pathError? (p : Path) : Option FileError :=
  if p.text.isEmpty then some .missing
  else if p.text.toList.contains '\x00' then some .badPath
  else if maxPath < p.text.utf8ByteSize then some .tooLong
  else none

/-- The place that a path leads to, and what is there. -/
def resolve (t : FileTree) (p : Path) : Except FileError (Location × Node) :=
  match pathError? p with
  | some e => .error e
  | none =>
    match p.names.getLast? with
    | none => .ok ([], .directory)
    | some last =>
      match t.walk (t.origin p) p.names.dropLast with
      | .error e => .error e
      | .ok place =>
        match t.step place last with
        | .error e => .error e
        | .ok loc =>
          match t.node? loc with
          | none => .error .missing
          | some .directory => .ok (loc, .directory)
          | some (.file content) =>
            if p.endsInSlash then .error .notDirectory else .ok (loc, .file content)

/-- The directory that holds the last name of a path, and that name, or `none` where the path
leads to a directory by its very form. -/
def target (t : FileTree) (p : Path) : Except FileError (Option (Location × String)) :=
  match pathError? p with
  | some e => .error e
  | none =>
    match p.names.getLast? with
    | none => .ok none
    | some last =>
      match t.walk (t.origin p) p.names.dropLast with
      | .error e => .error e
      | .ok place => .ok (if last = "." ∨ last = ".." then none else some (place, last))

/-! ## Operations -/

/-- Whether a path leads to anything. -/
def isPresent (t : FileTree) (p : Path) : Bool :=
  match t.resolve p with
  | .ok _ => true
  | .error _ => false

/-- Whether a path leads to a directory. -/
def isDirectory (t : FileTree) (p : Path) : Bool :=
  match t.resolve p with
  | .ok (_, .directory) => true
  | _ => false

/-- The bytes of a file. -/
def read (t : FileTree) (p : Path) : Except FileError ByteArray :=
  match t.resolve p with
  | .error e => .error e
  | .ok (_, .directory) => .error .isDirectory
  | .ok (_, .file content) => .ok content

/-- The names in a directory, in no particular order. -/
def names (t : FileTree) (p : Path) : Except FileError (List String) :=
  match t.resolve p with
  | .error e => .error e
  | .ok (_, .file _) => .error .notDirectory
  | .ok (loc, .directory) =>
    .ok (t.nodes.filterMap fun (other, _) ↦
      if other.dropLast = loc then other.getLast? else none)

/-- Replaces the bytes of a file, which is made where it does not exist. A path that ends in a
slash can only lead to a directory. -/
def write (t : FileTree) (p : Path) (content : ByteArray) : Except FileError FileTree :=
  match t.target p with
  | .error e => .error e
  | .ok none => .error .isDirectory
  | .ok (some (place, name)) =>
    if p.endsInSlash then .error .isDirectory
    else if maxName < name.utf8ByteSize then .error .tooLong
    else
      match t.node? (place ++ [name]) with
      | some .directory => .error .isDirectory
      | _ => .ok (t.put (place ++ [name]) (.file content))

/-- Makes a directory in an existing one. -/
def makeDirectory (t : FileTree) (p : Path) : Except FileError FileTree :=
  match t.target p with
  | .error e => .error e
  | .ok none => .error .occupied
  | .ok (some (place, name)) =>
    if maxName < name.utf8ByteSize then .error .tooLong
    else
      match t.node? (place ++ [name]) with
      | some _ => .error .occupied
      | none => .ok (t.put (place ++ [name]) .directory)

end FileTree

end AstSchema
