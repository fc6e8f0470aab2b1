import AstSchema.Proofs.FirstFailure
import AstSchema.Proofs.LastWriter

/-!
# Outputs stay below their directory

Where a directory is given for the outputs, an output that does not lead upwards stays below it. The
names of a joined path are those of its two parts (`Path.names_join`), and a walk through names
none of which leads upwards only goes deeper (`FileTree.prefix_of_walk`).

Making the directory of a file makes what is missing above it, and the names of a parent are the
first names of its path. So a directory that is made lies below the given one or on the way to it.
`FileTree.Confined` says of two trees that they differ in no other place. It is kept by every
request that a delivery makes, and therefore by a whole run, whether that succeeds or fails.
-/

namespace AstSchema

open FileTree

/-! ## Names of paths -/

namespace Path

/-- The names in a text. -/
def namesIn (cs : List Char) : List String :=
  ((pieces cs).filter (!·.isEmpty)).map String.ofList

theorem names_eq (p : Path) : p.names = namesIn p.text.toList := rfl

@[simp] theorem namesIn_nil : namesIn [] = [] := rfl

theorem pieces_ne_nil (cs : List Char) : pieces cs ≠ [] := by
  cases cs with
  | nil => exact List.cons_ne_nil _ _
  | cons c cs =>
    rw [pieces]
    split
    · exact List.cons_ne_nil _ _
    · split <;> exact List.cons_ne_nil _ _

theorem pieces_append_slash (cs ds : List Char) :
    pieces (cs ++ '/' :: ds) = pieces cs ++ pieces ds := by
  induction cs with
  | nil => rfl
  | cons c cs ih =>
    rw [List.cons_append, pieces, pieces, ih]
    by_cases hc : c = '/'
    · rw [if_pos hc, if_pos hc, List.cons_append]
    · obtain ⟨piece, rest, heq⟩ := List.exists_cons_of_ne_nil (pieces_ne_nil cs)
      rw [if_neg hc, if_neg hc, heq]
      rfl

theorem namesIn_append_slash (cs ds : List Char) :
    namesIn (cs ++ '/' :: ds) = namesIn cs ++ namesIn ds := by
  rw [namesIn, pieces_append_slash, List.filter_append, List.map_append]
  rfl

/-- Only slashes hold no name. -/
theorem eq_slash_of_namesIn_eq_nil {cs : List Char} (h : namesIn cs = []) : ∀ c ∈ cs, c = '/' := by
  induction cs with
  | nil => simp
  | cons c cs ih =>
    have hc : c = '/' := by
      by_contra hne
      obtain ⟨piece, rest, heq⟩ := List.exists_cons_of_ne_nil (pieces_ne_nil cs)
      rw [namesIn, pieces, if_neg hne, heq] at h
      exact absurd h (by simp)
    subst hc
    rw [← List.nil_append ('/' :: cs), namesIn_append_slash] at h
    exact List.forall_mem_cons.mpr ⟨rfl, ih h⟩

/-- The path starts where it is taken from, and no name in it leads upwards. -/
def IsDescending (p : Path) : Prop := p.isAbsolute = false ∧ ".." ∉ p.names

/-- The three ways to put a relative path behind another one. -/
theorem join_cases {q : Path} (hq : q.isAbsolute = false) (p : Path) :
    (p.text = "" ∧ p.join q = q) ∨
    (∃ cs, p.text.toList = cs ++ ['/'] ∧ p.join q = ⟨p.text ++ q.text⟩) ∨
    (p.text ≠ "" ∧ p.join q = ⟨p.text ++ "/" ++ q.text⟩) := by
  rw [join, hq, if_neg Bool.false_ne_true]
  by_cases hempty : p.text = ""
  · refine .inl ⟨hempty, ?_⟩
    simp [hempty]
  · refine .inr ?_
    by_cases hslash : p.endsInSlash = true
    · rw [if_pos (by simp [hslash])]
      rw [endsInSlash, beq_iff_eq] at hslash
      obtain ⟨cs, hcs⟩ := List.getLast?_eq_some_iff.mp hslash
      exact .inl ⟨cs, hcs, rfl⟩
    · rw [if_neg (by simp [hslash, hempty])]
      exact .inr ⟨hempty, rfl⟩

theorem names_join {q : Path} (hq : q.isAbsolute = false) (p : Path) :
    (p.join q).names = p.names ++ q.names := by
  rcases join_cases hq p with ⟨hempty, heq⟩ | ⟨cs, hcs, heq⟩ | ⟨-, heq⟩
  · rw [heq, names_eq p, hempty]
    rfl
  · rw [heq, names_eq, names_eq p, String.toList_append, hcs, List.append_assoc,
      List.singleton_append, namesIn_append_slash, namesIn_append_slash, namesIn_nil,
      List.append_nil]
    rfl
  · rw [heq, names_eq, String.toList_append, String.toList_append, List.append_assoc]
    exact namesIn_append_slash p.text.toList q.text.toList

theorem isAbsolute_join {q : Path} (hq : q.isAbsolute = false) (p : Path) :
    (p.join q).isAbsolute = p.isAbsolute := by
  have hhead {cs ds : List Char} (hne : cs ≠ []) : (cs ++ ds).head? = cs.head? :=
    List.head?_append_of_ne_nil _ hne
  rcases join_cases hq p with ⟨hempty, heq⟩ | ⟨cs, hcs, heq⟩ | ⟨hne, heq⟩
  · rw [heq, hq, isAbsolute, hempty]
    rfl
  · rw [heq, isAbsolute, isAbsolute, String.toList_append, hhead (by simp [hcs])]
  · rw [heq, isAbsolute, isAbsolute, String.toList_append, String.toList_append,
      List.append_assoc, hhead (by simpa using hne)]

/-- A joined path that does not end in a slash has a name behind the first part. -/
theorem names_ne_nil_of_join {p q : Path} (hq : q.isAbsolute = false)
    (herror : pathError? (p.join q) = none) (hslash : (p.join q).endsInSlash = false) :
    q.names ≠ [] := by
  intro hnil
  have hslashes := eq_slash_of_namesIn_eq_nil hnil
  -- A relative path without a name is empty.
  have hempty : q.text.toList = [] := by
    rw [List.eq_nil_iff_forall_not_mem]
    intro c hc
    obtain ⟨d, ds, hds⟩ := List.exists_cons_of_ne_nil (List.ne_nil_of_mem hc)
    have hd := hslashes d (by rw [hds]; exact List.mem_cons_self)
    rw [isAbsolute, hds, hd] at hq
    exact absurd hq (by simp)
  rcases join_cases hq p with ⟨-, heq⟩ | ⟨cs, hcs, heq⟩ | ⟨-, heq⟩
  · rw [heq, pathError?, if_pos (by simpa using hempty)] at herror
    cases herror
  · rw [heq, endsInSlash, String.toList_append, hempty, hcs] at hslash
    simp at hslash
  · rw [heq, endsInSlash, String.toList_append, String.toList_append, hempty] at hslash
    simp at hslash

/-! ## Names of parents -/

theorem getLast?_dropIdle (cs : List Char) : (dropIdle cs).getLast? = cs.getLast? := by
  fun_induction dropIdle cs with
  | case1 => rfl
  | case2 cs hempty => simp_all
  | case3 cs hne ih =>
    rw [ih, List.getLast?_cons]
    cases hlast : cs.getLast? with
    | none => simp_all
    | some c => rfl
  | case4 cs hempty => simp_all
  | case5 cs hne ih =>
    rw [ih, List.getLast?_cons, List.getLast?_cons]
    cases hlast : cs.getLast? with
    | none => simp_all
    | some c => rfl
  | case6 => rfl

/-- Dropping what stands idle at the end of a path drops last names at most. -/
theorem namesIn_dropIdle (cs : List Char) :
    namesIn (dropIdle cs).reverse <+: namesIn cs.reverse := by
  fun_induction dropIdle cs with
  | case1 => exact List.prefix_refl _
  | case2 cs hempty =>
    obtain rfl := List.isEmpty_iff.mp hempty
    exact List.prefix_refl _
  | case3 cs hne ih =>
    rw [List.reverse_cons, namesIn_append_slash, namesIn_nil, List.append_nil]
    exact ih
  | case4 cs hempty => exact List.nil_prefix
  | case5 cs hne ih =>
    rw [List.reverse_cons, List.reverse_cons, List.append_assoc, List.singleton_append,
      namesIn_append_slash]
    exact ih.trans (List.prefix_append _ _)
  | case6 => exact List.prefix_refl _

/-- The first names of a path lead to its parent, from where the path starts. -/
structure IsFrontOf (q p : Path) : Prop where
  /-- The names are the first names of the path. -/
  names : q.names <+: p.names
  /-- The two start in the same place. -/
  isAbsolute : q.isAbsolute = p.isAbsolute

theorem IsFrontOf.trans {p q r : Path} (h : r.IsFrontOf q) (h' : q.IsFrontOf p) : r.IsFrontOf p :=
  ⟨h.names.trans h'.names, h.isAbsolute.trans h'.isAbsolute⟩

/-- The names in front of the last slash are first names of the text. -/
theorem namesIn_dropWhile (cs : List Char) :
    namesIn (cs.dropWhile (· != '/')).reverse <+: namesIn cs.reverse := by
  have hhead := List.head?_dropWhile_not (· != '/') cs
  have hcs := List.takeWhile_append_dropWhile (p := (· != '/')) (l := cs)
  generalize cs.dropWhile (· != '/') = ds at hhead hcs ⊢
  cases ds with
  | nil => exact List.nil_prefix
  | cons d ds =>
    obtain rfl : d = '/' := by simpa using hhead
    rw [← hcs, List.reverse_append, List.reverse_cons, List.append_assoc, List.singleton_append,
      namesIn_append_slash, namesIn_append_slash, namesIn_nil, List.append_nil]
    exact List.prefix_append _ _

theorem isSlash_getLast?_dropWhile (cs : List Char) :
    ((cs.dropWhile (· != '/')).getLast? == some '/') = (cs.getLast? == some '/') := by
  induction cs with
  | nil => rfl
  | cons c cs ih =>
    by_cases hc : c = '/'
    · rw [List.dropWhile_cons_of_neg (by simp [hc])]
    · rw [List.dropWhile_cons_of_pos (by simp [hc]), ih, List.getLast?_cons]
      cases cs.getLast? with
      | none => simp [hc]
      | some d => rfl

theorem isFrontOf_of_parent? {p q : Path} (h : p.parent? = some q) : q.IsFrontOf p := by
  rw [parent?] at h
  split at h
  · cases h
  · cases h
  · obtain rfl := Option.some.inj h
    constructor
    · have hdropped := (namesIn_dropIdle _).trans
        (namesIn_dropWhile (dropIdle p.text.toList.reverse))
      have hidle := namesIn_dropIdle p.text.toList.reverse
      rw [List.reverse_reverse] at hidle
      rw [names_eq, String.toList_ofList]
      exact hdropped.trans hidle
    · rw [isAbsolute, String.toList_ofList, List.head?_reverse, getLast?_dropIdle,
        isSlash_getLast?_dropWhile, getLast?_dropIdle, List.getLast?_reverse]
      rfl

theorem isFrontOf_of_mem_ancestors {p q : Path} (h : q ∈ p.ancestors) : q.IsFrontOf p := by
  rw [ancestors] at h
  split at h
  · cases h
  · next parent hparent =>
    have hfront := isFrontOf_of_parent? hparent
    rcases List.mem_cons.mp h with rfl | hq
    · exact hfront
    · exact (isFrontOf_of_mem_ancestors hq).trans hfront
termination_by p.text.toList.length
decreasing_by exact length_parent? ‹_›

end Path

namespace FileTree

/-! ## Walking down -/

theorem walk_append_eq_ok_iff {t : FileTree} {place loc : Location} {names more : List String} :
    t.walk place (names ++ more) = .ok loc ↔
      ∃ mid, t.walk place names = .ok mid ∧ t.walk mid more = .ok loc := by
  induction names generalizing place with
  | nil => simp [walk]
  | cons name rest ih =>
    rw [List.cons_append, walk, walk]
    cases t.step place name with
    | error e => simp
    | ok next =>
      dsimp only
      cases t.node? next with
      | none => simp
      | some node =>
        cases node with
        | directory => exact ih
        | file content => simp

theorem prefix_of_step {t : FileTree} {place next : Location} {name : String}
    (hname : name ≠ "..") (h : t.step place name = .ok next) : place <+: next := by
  rw [step, if_neg hname] at h
  split at h
  · obtain rfl := Except.ok.inj h
    exact List.prefix_refl _
  split at h
  · cases h
  split at h
  · obtain rfl := Except.ok.inj h
    exact List.prefix_append _ _
  · cases h

/-- Without a name that leads upwards, a walk only goes deeper. -/
theorem prefix_of_walk {t : FileTree} {place loc : Location} {names : List String}
    (hnames : ".." ∉ names) (h : t.walk place names = .ok loc) : place <+: loc := by
  induction names generalizing place with
  | nil =>
    obtain rfl := Except.ok.inj h
    exact List.prefix_refl _
  | cons name rest ih =>
    rw [walk] at h
    cases hstep : t.step place name with
    | error e =>
      rw [hstep] at h
      cases h
    | ok next =>
      rw [hstep] at h
      dsimp only at h
      split at h
      · have hname : name ≠ ".." := fun heq ↦ hnames (heq ▸ List.mem_cons_self)
        have hrest : ".." ∉ rest := fun hmem ↦ hnames (List.mem_cons_of_mem _ hmem)
        exact (prefix_of_step hname hstep).trans (ih hrest h)
      · cases h
      · cases h

/-! ## Where a directory lies -/

/-- The path leads to the directory at the location, or through it. -/
def Passes (t : FileTree) (p : Path) (loc : Location) : Prop :=
  ∃ front, front <+: p.names ∧ t.walk (t.origin p) front = .ok loc

/-- The location lies below the directory that the path leads to. -/
def IsBelow (t : FileTree) (p : Path) (loc : Location) : Prop :=
  ∃ place, t.walk (t.origin p) p.names = .ok place ∧ place <+: loc ∧ place ≠ loc

variable {t t' t'' : FileTree} {dir : Path} {loc : Location}

theorem Grows.origin_eq (h : Grows t t') (p : Path) : t'.origin p = t.origin p := by
  rw [origin, h.here, origin]

theorem Grows.passes (h : Grows t t') (hloc : t.Passes dir loc) : t'.Passes dir loc := by
  obtain ⟨front, hfront, hwalk⟩ := hloc
  exact ⟨front, hfront, h.origin_eq dir ▸ h.walk hwalk⟩

theorem Grows.isBelow (h : Grows t t') (hloc : t.IsBelow dir loc) : t'.IsBelow dir loc := by
  obtain ⟨place, hwalk, hbelow⟩ := hloc
  exact ⟨place, h.origin_eq dir ▸ h.walk hwalk, hbelow⟩

/-- What the first names of a path behind a directory lead to lies below the directory or on the way
to it. -/
theorem passes_or_isBelow {front names : List String} (hnames : ".." ∉ names)
    (hfront : front <+: dir.names ++ names) (hwalk : t.walk (t.origin dir) front = .ok loc) :
    t.IsBelow dir loc ∨ t.Passes dir loc := by
  obtain ⟨rest, happend⟩ := hfront
  rcases List.append_eq_append_iff.mp happend with ⟨more, hdir, -⟩ | ⟨behind, rfl, hbehind⟩
  · exact .inr ⟨front, ⟨more, hdir.symm⟩, hwalk⟩
  · obtain ⟨place, hplace, hdown⟩ := walk_append_eq_ok_iff.mp hwalk
    by_cases hloc : place = loc
    · subst hloc
      exact .inr ⟨dir.names, List.prefix_refl _, hplace⟩
    · have hbehind : ".." ∉ behind := fun hmem ↦
        hnames (hbehind ▸ List.mem_append_left _ hmem)
      exact .inl ⟨place, hplace, prefix_of_walk hbehind hdown, hloc⟩

/-! ## Changes in one place -/

/-- The tree has grown, and wherever it has changed is below a directory, or there is a new directory
on the way to it. -/
structure Confined (dir : Path) (t t' : FileTree) : Prop extends Grows t t' where
  /-- A place that has changed lies below the directory, or it is new and lies on the way. -/
  changed : ∀ loc, t'.node? loc ≠ t.node? loc → t'.IsBelow dir loc ∨
    t.node? loc = none ∧ t'.node? loc = some .directory ∧ t'.Passes dir loc

namespace Confined

theorem refl (dir : Path) (t : FileTree) : Confined dir t t :=
  ⟨.refl t, fun _ hloc ↦ absurd rfl hloc⟩

theorem trans (h : Confined dir t t') (h' : Confined dir t' t'') : Confined dir t t'' := by
  refine ⟨h.toGrows.trans h'.toGrows, fun loc hloc ↦ ?_⟩
  by_cases hsame : t''.node? loc = t'.node? loc
  · rw [hsame] at hloc
    rcases h.changed loc hloc with hbelow | ⟨hnone, hdirectory, hpasses⟩
    · exact .inl (h'.toGrows.isBelow hbelow)
    · exact .inr ⟨hnone, h'.directory loc hdirectory, h'.toGrows.passes hpasses⟩
  · rcases h'.changed loc hsame with hbelow | ⟨hnone, hdirectory, hpasses⟩
    · exact .inl hbelow
    · -- What is not there after some growth was not there before.
      have hbefore : t.node? loc = none := by
        by_contra hne
        have hsome := h.toGrows.isSome_node? (Option.isSome_iff_ne_none.mpr hne)
        rw [hnone] at hsome
        cases hsome
      exact .inr ⟨hbefore, hdirectory, hpasses⟩

/-- Putting something in one place changes no other. -/
theorem of_put {node : Node} (hgrows : Grows t (t.put loc node))
    (h : (t.put loc node).IsBelow dir loc ∨ t.node? loc = none ∧
      (t.put loc node).node? loc = some .directory ∧ (t.put loc node).Passes dir loc) :
    Confined dir t (t.put loc node) := by
  refine ⟨hgrows, fun other hother ↦ ?_⟩
  by_cases heq : other = loc
  · subst heq
    exact h
  · exact absurd (node?_put_of_ne t heq node) hother

end Confined

variable {output : Path}

/-- Making a directory above an output changes nothing outside. -/
theorem confined_of_makeDirectory (houtput : output.IsDescending) {q : Path}
    (hq : q ∈ (dir.join output).ancestors) (h : t.makeDirectory q = .ok t') :
    Confined dir t t' := by
  have hgrows := (addsDirectories_of_makeDirectory h).toGrows
  obtain ⟨place, name, htarget, hlong, hnode, rfl⟩ := makeDirectory_eq_ok h
  obtain ⟨-, hlast, hwalk, hpoint, hpoints⟩ := target_eq_some htarget
  have hfront := Path.isFrontOf_of_mem_ancestors hq
  have hnames : q.names <+: dir.names ++ output.names :=
    Path.names_join houtput.1 dir ▸ hfront.names
  have horigin : t.origin q = t.origin dir := by
    rw [origin, hfront.isAbsolute, Path.isAbsolute_join houtput.1, origin]
  have hmade := node?_put_self t (List.append_ne_nil_of_right_ne_nil place
    (List.cons_ne_nil name [])) .directory
  -- The names of the path lead to the directory that is made.
  have hall : (t.put (place ++ [name]) .directory).walk (t.origin dir) q.names =
      .ok (place ++ [name]) := by
    obtain ⟨names, heq⟩ := List.getLast?_eq_some_iff.mp hlast
    rw [heq, List.dropLast_concat] at hwalk
    rw [heq, walk_append_eq_ok_iff]
    refine ⟨place, horigin ▸ hgrows.walk hwalk, ?_⟩
    rw [walk, step_put hpoint hpoints hlong]
    dsimp only
    rw [hmade, walk]
  refine .of_put hgrows ((passes_or_isBelow houtput.2 hnames ?_).imp_right fun hpasses ↦
    ⟨hnode, hmade, hpasses⟩)
  rw [hgrows.origin_eq]
  exact hall

/-- Writing an output changes nothing outside. -/
theorem confined_of_write (houtput : output.IsDescending) {content : ByteArray}
    (h : t.write (dir.join output) content = .ok t') : Confined dir t t' := by
  obtain ⟨place, name, htarget, hslash, -, hnode, rfl⟩ := write_eq_ok h
  obtain ⟨herror, -, hwalk, -, -⟩ := target_eq_some htarget
  have hgrows := grows_put_file (by simp) hnode content
  have horigin : t.origin (dir.join output) = t.origin dir := by
    rw [origin, Path.isAbsolute_join houtput.1, origin]
  have hne := Path.names_ne_nil_of_join houtput.1 herror hslash
  rw [Path.names_join houtput.1, List.dropLast_append_of_ne_nil hne, horigin,
    walk_append_eq_ok_iff] at hwalk
  obtain ⟨mid, hmid, hdown⟩ := hwalk
  have hnames : ".." ∉ output.names.dropLast := fun hmem ↦
    houtput.2 ((List.dropLast_sublist _).mem hmem)
  have hprefix := prefix_of_walk hnames hdown
  refine .of_put hgrows (.inl ⟨mid, ?_, hprefix.trans (List.prefix_append _ _), ?_⟩)
  · rw [hgrows.origin_eq]
    exact hgrows.walk hmid
  · rintro rfl
    have hlength := hprefix.length_le
    rw [List.length_append, List.length_singleton] at hlength
    omega

end FileTree

/-! ## Deliveries -/

section

variable {dir output : Path}

theorem confined_writeText (houtput : output.IsDescending) (text : String) (w : World) :
    Confined dir w.files (w.run (writeText (dir.join output) text)).2.files := by
  have hmake (q : Path) (hq : q ∈ (dir.join output).ancestors) (w : World) :
      Confined dir w.files (w.run (Host.makeDirectory q)).2.files := by
    rcases run_makeDirectory_cases q w with ⟨_, -, hrun⟩ | ⟨files, hfiles, hrun⟩
    all_goals rw [hrun]
    · exact .refl dir _
    · exact confined_of_makeDirectory houtput hq hfiles
  have hparent := rel_makeParent (R := fun w w' ↦ Confined dir w.files w'.files)
    (fun w ↦ .refl dir w.files) .trans (dir.join output) hmake w
  rcases run_writeText_cases (dir.join output) text w with
    ⟨_, _, hmade, hrun⟩ | ⟨w₁, hmade, ⟨_, _, hrun⟩ | ⟨files, hwrite, hrun⟩⟩
  all_goals
    rw [hmade] at hparent
    rw [hrun]
  · exact hparent
  · exact hparent
  · exact hparent.trans (confined_of_write houtput hwrite)

/-- The outputs of the artifacts are descending paths behind the directory. -/
def OutputsBehind (dir : Path) (artifacts : List Artifact) : Prop :=
  ∀ artifact ∈ artifacts, ∀ path, artifact.output = some path →
    ∃ output : Path, output.IsDescending ∧ path = dir.join output

theorem confined_deliverAll {artifacts : List Artifact} (h : OutputsBehind dir artifacts)
    (w : World) : Confined dir w.files (w.run (deliverAll artifacts)).2.files := by
  induction artifacts generalizing w with
  | nil => exact .refl dir _
  | cons artifact rest ih =>
    have hfirst : Confined dir w.files (w.run artifact.deliver).2.files := by
      rcases run_deliver_cases artifact w with
        ⟨-, hrun⟩ | ⟨path, hpath, hrun⟩
      · rw [hrun]
        exact .refl dir _
      · obtain ⟨output, houtput, rfl⟩ := h artifact List.mem_cons_self path hpath
        have hwrite : Confined dir w.files
            (w.run (writeText (dir.join output) artifact.source)).2.files :=
          confined_writeText houtput artifact.source w
        rcases hrun with ⟨_, _, hwritten, hrun⟩ | ⟨_, hwritten, hrun⟩
        all_goals
          rw [hwritten] at hwrite
          rw [hrun]
          exact hwrite
    rcases hrun : w.run artifact.deliver with ⟨result, w₁⟩
    rw [hrun] at hfirst
    rw [deliverAll, World.run_bind hrun]
    cases result with
    | error failure => exact hfirst
    | ok u => exact hfirst.trans (ih (fun other hother ↦ h other (List.mem_cons_of_mem _ hother)) w₁)

theorem confined_deliver {artifacts : List Artifact} (h : OutputsBehind dir artifacts)
    (check : Bool) (w : World) :
    Confined dir w.files (w.run (deliver artifacts check)).2.files := by
  cases check with
  | true =>
    rw [run_deliver_true]
    exact .refl dir _
  | false =>
    have hall := confined_deliverAll h w
    rcases hrun : w.run (deliverAll artifacts) with ⟨result, w₁⟩
    rw [hrun] at hall
    rw [deliver, if_neg Bool.false_ne_true, World.run_bind hrun]
    cases result <;> exact hall

end

/-! ## Runs -/

theorem FoundEntry.output_of_compile {found : FoundEntry} {dir : Path} {artifact : Artifact}
    (h : found.compile (some dir) = .ok artifact) :
    artifact.output = found.entry.output.map dir.join := by
  rw [compile] at h
  split at h
  · cases h
  · obtain rfl := Except.ok.inj h
    exact found.entry.outputPath?_some found.origin dir

/-- What is compiled goes where the directory and the outputs say, wherever the manifests lie. -/
theorem CompileCommand.exists_outputs_of_compiled {command : CompileCommand} {dir : Path}
    (hdir : command.outDir = some dir) {t : FileTree} {artifacts : List Artifact}
    (h : command.compiled t = .ok artifacts) :
    ∃ entries, t.entriesOf command.inputs = .ok entries ∧
      artifacts.map (·.output) = entries.map (·.entry.output.map dir.join) := by
  rw [compiled] at h
  cases hentries : t.entriesOf command.inputs with
  | error failure =>
    rw [hentries] at h
    cases h
  | ok entries =>
    rw [hentries] at h
    have hcompiled : entries.mapM (·.compile command.outDir) = .ok artifacts := h
    rw [hdir, mapM_eq_ok_iff] at hcompiled
    refine ⟨entries, rfl, ?_⟩
    clear h hentries
    induction hcompiled with
    | nil => rfl
    | cons hfound _ ih => rw [List.map_cons, List.map_cons, FoundEntry.output_of_compile hfound, ih]

/-- **Outputs stay below their directory.** However a run ends, a place that has changed lies below
the directory for outputs, or it is a directory on the way to that which was missing. Where a schema
goes is a matter of the directory and of its output alone. -/
theorem Invocation.run_compile_confined {log : LogLevel} {command : CompileCommand} {dir : Path}
    {w : World} (hdir : command.outDir = some dir)
    (houtputs : ∀ entries, w.files.entriesOf command.inputs = .ok entries →
      ∀ found ∈ entries, ∀ output, found.entry.output = some output → output.IsDescending) :
    ∃ result w', w.run (Invocation.run ⟨log, .compile command⟩) = (result, w') ∧
      (∀ loc, w'.files.node? loc ≠ w.files.node? loc → w'.files.IsBelow dir loc ∨
        w.files.node? loc = none ∧ w'.files.node? loc = some .directory ∧
          w'.files.Passes dir loc) ∧
      ∀ artifacts, command.compiled w.files = .ok artifacts →
        ∃ entries, w.files.entriesOf command.inputs = .ok entries ∧
          artifacts.map (·.output) = entries.map (·.entry.output.map dir.join) := by
  have hconfined : Confined dir w.files
      (w.run (Invocation.run ⟨log, .compile command⟩)).2.files := by
    by_cases hdescribe : command.describe = true
    · rw [run, if_pos (show (Command.compile command).isDescribed = true from hdescribe)]
      exact .refl dir _
    · have hasked : (Invocation.run ⟨log, .compile command⟩ : StateM World _) = command.run :=
        if_neg (by simp [Command.isDescribed, hdescribe])
      obtain ⟨notices, hrun⟩ := command.run_eq w
      rw [hasked, hrun]
      cases hcompiled : command.compiled w.files with
      | error failure => exact .refl dir _
      | ok artifacts =>
        obtain ⟨entries, hentries, hmap⟩ := command.exists_outputs_of_compiled hdir hcompiled
        refine confined_deliver (w := w.remark notices) ?_ command.check
        intro artifact hartifact path hpath
        have hmem : some path ∈ entries.map (·.entry.output.map dir.join) := by
          rw [← hmap, ← hpath]
          exact List.mem_map_of_mem hartifact
        obtain ⟨found, hfound, hjoin⟩ := List.mem_map.mp hmem
        obtain ⟨output, houtput, rfl⟩ := Option.map_eq_some_iff.mp hjoin
        exact ⟨output, houtputs entries hentries found hfound output houtput, rfl⟩
  exact ⟨_, _, rfl, hconfined.changed, fun artifacts ↦ command.exists_outputs_of_compiled hdir⟩

/-- The files of a manifest in a directory of its own, and a file with the name of its output. -/
def confinedFiles : FileTree :=
  ⟨[(["specs"], .directory),
    (["specs", "m.json"], .file "[[[\"E\",[\"A: a T\"],\"gen/./e.rs\"]]]".toUTF8),
    (["specs", "e.rs"], .file "kept".toUTF8)], []⟩

/-- Nothing changes outside `build`, and the output does not lie beside the manifest. -/
theorem Invocation.run_compile_confined_build :
    ∃ result w', World.run ⟨confinedFiles, []⟩ (Invocation.run ⟨.warning,
        .compile { inputs := ["specs/m.json"], outDir := some ⟨"build"⟩ }⟩) = (result, w') ∧
      (∀ loc, w'.files.node? loc ≠ confinedFiles.node? loc → w'.files.IsBelow ⟨"build"⟩ loc ∨
        confinedFiles.node? loc = none ∧ w'.files.node? loc = some .directory ∧
          w'.files.Passes ⟨"build"⟩ loc) ∧
      ∃ artifacts, CompileCommand.compiled
          { inputs := ["specs/m.json"], outDir := some ⟨"build"⟩ } confinedFiles = .ok artifacts ∧
        artifacts.map (·.output) = [some ⟨"build/gen/./e.rs"⟩] := by
  have hresolve : confinedFiles.pathsOf "specs/m.json" = .ok [⟨"specs/m.json"⟩] := rfl
  have hread : (confinedFiles.ask (readText ⟨"specs/m.json"⟩)).toOption =
      some "[[[\"E\",[\"A: a T\"],\"gen/./e.rs\"]]]" := by decide +kernel
  have hjson : (Manifest.ofJson "[[[\"E\",[\"A: a T\"],\"gen/./e.rs\"]]]").toOption =
      some ⟨[⟨"E", ["A: a T"], some ⟨"gen/./e.rs"⟩, [], [], none⟩]⟩ := by decide +kernel
  have hload := FileTree.manifestAt_eq_ok (eq_ok_of_toOption hread) (eq_ok_of_toOption hjson)
  have hentries : confinedFiles.entriesOf ["specs/m.json"] =
      .ok [⟨⟨"specs/m.json"⟩, ⟨"E", ["A: a T"], some ⟨"gen/./e.rs"⟩, [], [], none⟩⟩] :=
    FileTree.entriesOf_eq_ok_iff.mpr
      ⟨[[⟨"specs/m.json"⟩]], [_], .cons hresolve .nil, .cons hload .nil, rfl⟩
  have houtput : Path.IsDescending ⟨"gen/./e.rs"⟩ := ⟨by decide +kernel, by decide +kernel⟩
  have hdescending : ∀ entries, confinedFiles.entriesOf ["specs/m.json"] = .ok entries →
      ∀ found ∈ entries, ∀ output, found.entry.output = some output → output.IsDescending := by
    intro entries h found hfound output hout
    obtain rfl := Except.ok.inj (hentries.symm.trans h)
    obtain rfl := List.mem_singleton.mp hfound
    obtain rfl := Option.some.inj hout
    exact houtput
  obtain ⟨result, w', hrun, hchanged, houtputs⟩ := @Invocation.run_compile_confined .warning
    { inputs := ["specs/m.json"], outDir := some ⟨"build"⟩ } ⟨"build"⟩ ⟨confinedFiles, []⟩ rfl
    hdescending
  refine ⟨result, w', hrun, hchanged, ?_⟩
  obtain ⟨artifacts, hcompiled⟩ : ∃ artifacts, CompileCommand.compiled
      { inputs := ["specs/m.json"], outDir := some ⟨"build"⟩ } confinedFiles = .ok artifacts := by
    rw [CompileCommand.compiled, hentries]
    exact ⟨_, rfl⟩
  obtain ⟨entries, h, hmap⟩ := houtputs artifacts hcompiled
  obtain rfl := Except.ok.inj (hentries.symm.trans h)
  exact ⟨artifacts, hcompiled, hmap.trans (by decide +kernel)⟩

end AstSchema
