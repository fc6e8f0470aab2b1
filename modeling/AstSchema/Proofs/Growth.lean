import AstSchema.Proofs.Query

/-!
# Trees that grow

Writing a file and making a directory add to a tree and take nothing away: a directory stays a
directory, a file stays a file, and a path that leads somewhere goes on leading there. What can
change is the content of a file, so contents are kept apart from `FileTree.Grows`.

A write is determined by two facts. The path that was written to leads to a file from then on, and
the content of every other file is what it was. `FileTree.Stores` says both at once.
-/

namespace AstSchema

namespace FileTree

/-- The bytes of the file at a location. -/
def content? (t : FileTree) (loc : Location) : Option ByteArray :=
  match t.node? loc with
  | some (.file content) => some content
  | _ => none

/-- The location of the file that a path leads to. -/
def fileAt? (t : FileTree) (p : Path) : Option Location :=
  match t.resolve p with
  | .ok (loc, .file _) => some loc
  | _ => none

/-- Directories stay directories and files stay files. -/
structure Grows (t t' : FileTree) : Prop where
  /-- Relative paths start where they did. -/
  here : t'.here = t.here
  /-- A directory stays a directory. -/
  directory : ∀ loc, t.node? loc = some .directory → t'.node? loc = some .directory
  /-- A file stays a file. -/
  file : ∀ loc, (t.content? loc).isSome → (t'.content? loc).isSome

theorem content?_eq_some_iff {t : FileTree} {loc : Location} {content : ByteArray} :
    t.content? loc = some content ↔ t.node? loc = some (.file content) := by
  rw [content?]
  split <;> simp_all

namespace Grows

variable {t t' t'' : FileTree}

theorem refl (t : FileTree) : Grows t t := ⟨rfl, fun _ h ↦ h, fun _ h ↦ h⟩

theorem trans (h : Grows t t') (h' : Grows t' t'') : Grows t t'' :=
  ⟨h'.here.trans h.here, fun loc hloc ↦ h'.directory loc (h.directory loc hloc),
    fun loc hloc ↦ h'.file loc (h.file loc hloc)⟩

theorem exists_file (h : Grows t t') {loc : Location} {content : ByteArray}
    (hloc : t.node? loc = some (.file content)) :
    ∃ content', t'.node? loc = some (.file content') := by
  have hfile := h.file loc (by rw [content?_eq_some_iff.mpr hloc]; rfl)
  obtain ⟨content', hcontent'⟩ := Option.isSome_iff_exists.mp hfile
  exact ⟨content', content?_eq_some_iff.mp hcontent'⟩

theorem isSome_node? (h : Grows t t') {loc : Location} (hloc : (t.node? loc).isSome) :
    (t'.node? loc).isSome := by
  obtain ⟨node, hnode⟩ := Option.isSome_iff_exists.mp hloc
  cases node with
  | directory => rw [h.directory loc hnode]; rfl
  | file content =>
    obtain ⟨content', hcontent'⟩ := h.exists_file hnode
    rw [hcontent']
    rfl

theorem step (h : Grows t t') {place next : Location} {name : String}
    (hstep : t.step place name = .ok next) : t'.step place name = .ok next := by
  rw [FileTree.step] at hstep ⊢
  split at hstep
  · next hname => rw [if_pos hname, hstep]
  split at hstep
  · next hname hname' => rw [if_neg hname, if_pos hname', hstep]
  split at hstep
  · exact absurd hstep (by simp)
  split at hstep
  · next hname hname' hlong hthere =>
    rw [if_neg hname, if_neg hname', if_neg hlong, if_pos (h.isSome_node? hthere), hstep]
  · exact absurd hstep (by simp)

theorem walk (h : Grows t t') {place end' : Location} {names : List String}
    (hwalk : t.walk place names = .ok end') : t'.walk place names = .ok end' := by
  induction names generalizing place with
  | nil => exact hwalk
  | cons name rest ih =>
    rw [FileTree.walk] at hwalk
    cases hstep : t.step place name with
    | error e => rw [hstep] at hwalk; exact absurd hwalk (by simp)
    | ok next =>
      rw [hstep] at hwalk
      dsimp only at hwalk
      split at hwalk
      · next hnode =>
        rw [FileTree.walk, h.step hstep]
        dsimp only
        rw [h.directory next hnode]
        exact ih hwalk
      · exact absurd hwalk (by simp)
      · exact absurd hwalk (by simp)

end Grows

/-! ## Paths to files -/

/-- A path leads to a file if its names lead through directories to a file, and it does not end in
a slash. -/
theorem resolve_eq_file_iff {t : FileTree} {p : Path} {loc : Location} {content : ByteArray} :
    t.resolve p = .ok (loc, .file content) ↔
      pathError? p = none ∧ p.endsInSlash = false ∧ ∃ last place,
        p.names.getLast? = some last ∧ t.walk (t.origin p) p.names.dropLast = .ok place ∧
        t.step place last = .ok loc ∧ t.node? loc = some (.file content) := by
  constructor
  · intro h
    rw [resolve] at h
    split at h
    · exact absurd h (by simp)
    split at h
    · exact absurd h (by simp)
    split at h
    · exact absurd h (by simp)
    next _ herror _ last hlast _ place hwalk =>
    split at h
    · exact absurd h (by simp)
    next loc' hstep =>
    split at h
    · exact absurd h (by simp)
    · exact absurd h (by simp)
    next content' hnode =>
    split at h
    · exact absurd h (by simp)
    next hslash =>
    obtain ⟨rfl, hfile⟩ := Prod.mk.inj (Except.ok.inj h)
    obtain rfl := Node.file.inj hfile
    exact ⟨herror, by simpa using hslash, last, place, hlast, hwalk, hstep, hnode⟩
  · rintro ⟨herror, hslash, last, place, hlast, hwalk, hstep, hnode⟩
    simp [resolve, herror, hslash, hlast, hwalk, hstep, hnode]

theorem fileAt?_eq_some_iff {t : FileTree} {p : Path} {loc : Location} :
    t.fileAt? p = some loc ↔ ∃ content, t.resolve p = .ok (loc, .file content) := by
  rw [fileAt?]
  constructor
  · intro h
    split at h
    · next loc' content hresolve =>
      obtain rfl := Option.some.inj h
      exact ⟨content, hresolve⟩
    · exact absurd h (by simp)
  · rintro ⟨content, hresolve⟩
    rw [hresolve]

/-- A path goes on leading to the same file. -/
theorem Grows.fileAt? {t t' : FileTree} (h : Grows t t') {p : Path} {loc : Location}
    (hp : t.fileAt? p = some loc) : t'.fileAt? p = some loc := by
  obtain ⟨content, hresolve⟩ := fileAt?_eq_some_iff.mp hp
  obtain ⟨herror, hslash, last, place, hlast, hwalk, hstep, hnode⟩ :=
    resolve_eq_file_iff.mp hresolve
  obtain ⟨content', hnode'⟩ := h.exists_file hnode
  have horigin : t'.origin p = t.origin p := by rw [origin, h.here, origin]
  rw [fileAt?_eq_some_iff]
  exact ⟨content', resolve_eq_file_iff.mpr ⟨herror, hslash, last, place, hlast,
    horigin ▸ h.walk hwalk, h.step hstep, hnode'⟩⟩

/-- What is read is the content of the file that the path leads to. -/
theorem read_of_fileAt? {t : FileTree} {p : Path} {loc : Location} {content : ByteArray}
    (hp : t.fileAt? p = some loc) (hcontent : t.content? loc = some content) :
    t.read p = .ok content := by
  obtain ⟨content', hresolve⟩ := fileAt?_eq_some_iff.mp hp
  obtain ⟨-, -, last, place, -, -, -, hnode⟩ := resolve_eq_file_iff.mp hresolve
  rw [content?_eq_some_iff, hnode] at hcontent
  obtain rfl := Node.file.inj (Option.some.inj hcontent)
  rw [read, hresolve]

/-! ## Changing a tree -/

theorem content?_put_file {t : FileTree} {loc : Location} (hloc : loc ≠ []) (content : ByteArray)
    (other : Location) :
    (t.put loc (.file content)).content? other =
      if other = loc then some content else t.content? other := by
  by_cases h : other = loc
  · subst h
    rw [if_pos rfl, content?_eq_some_iff, node?_put_self t hloc]
  · rw [if_neg h, content?, node?_put_of_ne t h, content?]

theorem content?_put_directory {t : FileTree} {loc : Location} (hloc : loc ≠ [])
    (hnode : t.node? loc = none) (other : Location) :
    (t.put loc .directory).content? other = t.content? other := by
  by_cases h : other = loc
  · subst h
    rw [content?, node?_put_self t hloc, content?, hnode]
  · rw [content?, node?_put_of_ne t h, content?]

theorem grows_put_file {t : FileTree} {loc : Location} (hloc : loc ≠ [])
    (hnode : t.node? loc ≠ some .directory) (content : ByteArray) :
    Grows t (t.put loc (.file content)) := by
  refine ⟨rfl, fun other hother ↦ ?_, fun other hother ↦ ?_⟩
  · have hne : other ≠ loc := by
      rintro rfl
      exact hnode hother
    rw [node?_put_of_ne t hne, hother]
  · rw [content?_put_file hloc]
    split
    · rfl
    · exact hother

theorem grows_put_directory {t : FileTree} {loc : Location} (hloc : loc ≠ [])
    (hnode : t.node? loc = none) : Grows t (t.put loc .directory) := by
  refine ⟨rfl, fun other hother ↦ ?_, fun other hother ↦ ?_⟩
  · have hne : other ≠ loc := by
      rintro rfl
      rw [hnode] at hother
      exact absurd hother (by simp)
    rw [node?_put_of_ne t hne, hother]
  · rwa [content?_put_directory hloc hnode]

/-- The path leads to a file with this content, and nothing else has changed but for directories
that are new. -/
structure Stores (t t' : FileTree) (p : Path) (loc : Location) (content : ByteArray) : Prop
    extends Grows t t' where
  /-- The path leads to the file. -/
  fileAt? : t'.fileAt? p = some loc
  /-- The file has the content, and every other file has the content that it had. -/
  content? : ∀ other, t'.content? other = if other = loc then some content else t.content? other

/-- Only directories are new. -/
structure AddsDirectories (t t' : FileTree) : Prop extends Grows t t' where
  /-- Every file has the content that it had. -/
  content? : ∀ loc, t'.content? loc = t.content? loc

theorem AddsDirectories.refl (t : FileTree) : AddsDirectories t t := ⟨.refl t, fun _ ↦ rfl⟩

theorem AddsDirectories.trans {t t' t'' : FileTree} (h : AddsDirectories t t')
    (h' : AddsDirectories t' t'') : AddsDirectories t t'' :=
  ⟨h.toGrows.trans h'.toGrows, fun loc ↦ (h'.content? loc).trans (h.content? loc)⟩

theorem target_eq_some {t : FileTree} {p : Path} {place : Location} {name : String}
    (h : t.target p = .ok (some (place, name))) :
    pathError? p = none ∧ p.names.getLast? = some name ∧
      t.walk (t.origin p) p.names.dropLast = .ok place ∧ name ≠ "." ∧ name ≠ ".." := by
  rw [target] at h
  split at h
  · exact absurd h (by simp)
  split at h
  · exact absurd h (by simp)
  split at h
  · exact absurd h (by simp)
  next _ herror _ last hlast _ place' hwalk =>
  split at h
  · exact absurd h (by simp)
  next hname =>
  obtain ⟨rfl, rfl⟩ := Prod.mk.inj (Option.some.inj (Except.ok.inj h))
  rw [not_or] at hname
  exact ⟨herror, hlast, hwalk, hname⟩

/-- A write that succeeds puts a file where there is no directory. -/
theorem write_eq_ok {t t' : FileTree} {p : Path} {content : ByteArray}
    (h : t.write p content = .ok t') :
    ∃ place name, t.target p = .ok (some (place, name)) ∧ p.endsInSlash = false ∧
      ¬maxName < name.utf8ByteSize ∧ t.node? (place ++ [name]) ≠ some .directory ∧
      t' = t.put (place ++ [name]) (.file content) := by
  rw [write] at h
  split at h
  · exact absurd h (by simp)
  · exact absurd h (by simp)
  next place name htarget =>
  split at h
  · exact absurd h (by simp)
  next hslash =>
  split at h
  · exact absurd h (by simp)
  next hlong =>
  split at h
  · exact absurd h (by simp)
  next hnode =>
  obtain rfl := Except.ok.inj h
  exact ⟨place, name, htarget, by simpa using hslash, hlong, hnode, rfl⟩

/-- A directory that could be made is put where nothing was. -/
theorem makeDirectory_eq_ok {t t' : FileTree} {p : Path} (h : t.makeDirectory p = .ok t') :
    ∃ place name, t.target p = .ok (some (place, name)) ∧ ¬maxName < name.utf8ByteSize ∧
      t.node? (place ++ [name]) = none ∧ t' = t.put (place ++ [name]) .directory := by
  rw [makeDirectory] at h
  split at h
  · exact absurd h (by simp)
  · exact absurd h (by simp)
  next place name htarget =>
  split at h
  · exact absurd h (by simp)
  next hlong =>
  split at h
  · exact absurd h (by simp)
  next hnode =>
  obtain rfl := Except.ok.inj h
  exact ⟨place, name, htarget, hlong, hnode, rfl⟩

/-- A name that something has been put at can be walked to. -/
theorem step_put {t : FileTree} {place : Location} {name : String} (hpoint : name ≠ ".")
    (hpoints : name ≠ "..") (hlong : ¬maxName < name.utf8ByteSize) (node : Node) :
    (t.put (place ++ [name]) node).step place name = .ok (place ++ [name]) := by
  rw [step, if_neg hpoint, if_neg hpoints, if_neg hlong, node?_put_self t (by simp)]
  rfl

theorem exists_stores_of_write {t t' : FileTree} {p : Path} {content : ByteArray}
    (h : t.write p content = .ok t') : ∃ loc, Stores t t' p loc content := by
  obtain ⟨place, name, htarget, hslash, hlong, hnode, rfl⟩ := write_eq_ok h
  obtain ⟨herror, hlast, hwalk, hpoint, hpoints⟩ := target_eq_some htarget
  have hloc : place ++ [name] ≠ [] := by simp
  have hgrows : Grows t (t.put (place ++ [name]) (.file content)) :=
    grows_put_file hloc hnode content
  refine ⟨place ++ [name], hgrows, ?_, content?_put_file hloc content⟩
  exact fileAt?_eq_some_iff.mpr ⟨content, resolve_eq_file_iff.mpr ⟨herror, hslash, name, place,
    hlast, hgrows.walk hwalk, step_put hpoint hpoints hlong _, node?_put_self t hloc _⟩⟩

theorem addsDirectories_of_makeDirectory {t t' : FileTree} {p : Path}
    (h : t.makeDirectory p = .ok t') : AddsDirectories t t' := by
  obtain ⟨place, name, -, -, hnode, rfl⟩ := makeDirectory_eq_ok h
  have hloc : place ++ [name] ≠ [] := by simp
  exact ⟨grows_put_directory hloc hnode, content?_put_directory hloc hnode⟩

end FileTree

end AstSchema
