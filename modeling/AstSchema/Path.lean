/-!
# Paths

A path is a text in which slashes separate components. Only what has to be decided from the text
alone is here: the component list, the parent, and joining. Texts are kept as they were written,
so joining `a//b` and `./c` shows both spellings; what a path leads to is a matter of the files.

A component that is a single point leads nowhere and is passed over, but for a point at the very
start of a path, which says that the path is meant from here. Repeated and trailing slashes count
for nothing.
-/

namespace AstSchema

/-- A path, as it was written. -/
structure Path where
  /-- The text. -/
  text : String
  deriving DecidableEq, Repr, Inhabited

namespace Path

/-- The pieces between slashes, empty ones included. -/
def pieces : List Char → List (List Char)
  | [] => [[]]
  | c :: cs =>
    if c = '/' then [] :: pieces cs
    else
      match pieces cs with
      | [] => [[c]]
      | piece :: rest => (c :: piece) :: rest

/-- Whether the path starts at the root. -/
def isAbsolute (p : Path) : Bool := p.text.toList.head? == some '/'

/-- The names that lead from the start of the path to its end, points included. -/
def names (p : Path) : List String :=
  ((pieces p.text.toList).filter (!·.isEmpty)).map String.ofList

/-- Whether the path ends in a slash, which says that it leads to a directory. -/
def endsInSlash (p : Path) : Bool := p.text.toList.getLast? == some '/'

/-- `p / q`. An absolute `q` stands for itself, and a slash is put between the two unless `p` is
empty or brings one. -/
def join (p q : Path) : Path :=
  if q.isAbsolute then q
  else if p.text.isEmpty || p.endsInSlash then ⟨p.text ++ q.text⟩
  else ⟨p.text ++ "/" ++ q.text⟩

/-! ## Parents -/

/-- Drops slashes and points that are components of their own from the end of a path, given and
returned last character first. -/
def dropIdle : List Char → List Char
  | [] => []
  | '/' :: cs => if cs.isEmpty then ['/'] else dropIdle cs
  | '.' :: '/' :: cs => if cs.isEmpty then ['/'] else dropIdle cs
  | cs => cs

/-- The path without its last component, or `none` for the empty path and for the root. What would
stand idle at the end of the parent is dropped as well. -/
def parent? (p : Path) : Option Path :=
  match dropIdle p.text.toList.reverse with
  | [] => none
  | ['/'] => none
  | cs => some ⟨String.ofList (dropIdle (cs.dropWhile (· != '/'))).reverse⟩

theorem length_dropIdle_le (cs : List Char) : (dropIdle cs).length ≤ cs.length := by
  fun_induction dropIdle cs with
  | case1 => simp
  | case2 cs h => simp
  | case3 cs h ih => exact Nat.le_succ_of_le ih
  | case4 cs h => simp
  | case5 cs h ih => exact Nat.le_trans ih (Nat.le_add_right _ 2)
  | case6 => exact Nat.le_refl _

/-- What is left of a path without idle components is the root or ends in a name. -/
theorem head?_dropIdle (cs : List Char) (h : dropIdle cs ≠ ['/']) :
    (dropIdle cs).head? ≠ some '/' := by
  fun_induction dropIdle cs with
  | case1 => simp
  | case2 cs hcs => exact absurd rfl h
  | case3 cs hcs ih => exact ih h
  | case4 cs hcs => exact absurd rfl h
  | case5 cs hcs ih => exact ih h
  | case6 cs hempty hslash hpoint =>
    cases cs with
    | nil => simp
    | cons c cs =>
      simp only [List.head?_cons, ne_eq, Option.some.injEq]
      rintro rfl
      exact hslash cs rfl

/-- The parent of a path is shorter than the path. -/
theorem length_parent? {p q : Path} (h : p.parent? = some q) :
    q.text.toList.length < p.text.toList.length := by
  unfold parent? at h
  have hle := length_dropIdle_le p.text.toList.reverse
  split at h
  · exact absurd h (by simp)
  · exact absurd h (by simp)
  · next cs hempty hroot =>
    simp only [Option.some.injEq] at h
    have hhead := head?_dropIdle p.text.toList.reverse hroot
    rw [← h, String.toList_ofList, List.length_reverse]
    generalize dropIdle p.text.toList.reverse = ds at hle hhead hempty
    cases ds with
    | nil => exact absurd rfl hempty
    | cons d ds =>
      simp only [List.head?_cons, ne_eq, Option.some.injEq] at hhead
      have hdrop := length_dropIdle_le (ds.dropWhile (· != '/'))
      have hsub := (List.dropWhile_sublist (· != '/') (l := ds)).length_le
      simp only [List.length_reverse, List.length_cons] at hle
      rw [List.dropWhile_cons, if_pos (by simpa using hhead)]
      omega

/-- The last component, unless it leads upwards. -/
def fileName? (p : Path) : Option String :=
  match dropIdle p.text.toList.reverse with
  | [] => none
  | ['/'] => none
  | ['.'] => none
  | cs =>
    let name := String.ofList (cs.takeWhile (· != '/')).reverse
    if name = ".." then none else some name

end Path

end AstSchema
