import AstSchema.Proofs.Recovery

/-!
# The lines of a source

A source is made as a list of lines, and where no name, type, import or derived trait holds a line
feed, cutting the text at its line feeds gives this list back. Only the header may hold line feeds,
because it is taken apart into lines before it is written. What can be said about the lines of the
file is then a look at what each of them starts with.

So whatever the header says, it stays in comments: there is one line that starts the enum and one
that starts the trait, in this order, and in front of the enum there are comments, imports and one
attribute. The name of the visitor's method is the category in lower case, and no letter has a line
feed for its small letter.
-/

namespace AstSchema

open AstSchema.Text

/-! ## Cutting at line feeds -/

namespace Text

/-- What stands between the line feeds of a text. -/
def cutAtFeeds (s : String) : List String := (s.toList.splitOn '\n').map String.ofList

/-- Whether a line starts with some text. -/
def begins (front line : String) : Bool := front.toList.isPrefixOf line.toList

/-- A line without the slashes of a comment and one blank behind them. -/
def uncomment (line : String) : String :=
  String.ofList (line.toList.drop (if begins "// " line then 3 else 2))

@[simp] theorem begins_append (front rest : String) : begins front (front ++ rest) = true := by
  simp [begins, List.isPrefixOf_iff_prefix]

theorem begins_append_of_begins {front line : String} (h : begins front line = true)
    (rest : String) : begins front (line ++ rest) = true := by
  rw [begins, List.isPrefixOf_iff_prefix] at h ⊢
  rw [String.toList_append]
  exact h.trans (List.prefix_append ..)

/-- A line starts with the first character of what it starts with. -/
theorem head?_of_begins {front line : String} (h : begins front line = true) (hne : front ≠ "") :
    line.toList.head? = front.toList.head? := by
  rw [begins, List.isPrefixOf_iff_prefix] at h
  obtain ⟨rest, hrest⟩ := h
  rw [← hrest, List.head?_append_of_ne_nil _ (by simpa using hne)]

/-- No line starts with what has another first character. -/
theorem filter_begins_eq_nil {front : String} {ls : List String} (hne : front ≠ "")
    (h : ∀ line ∈ ls, line.toList.head? ≠ front.toList.head?) : ls.filter (begins front) = [] :=
  List.filter_eq_nil_iff.mpr fun line hline hbegins ↦ h line hline (head?_of_begins hbegins hne)

/-- What stands in no part and not in the separator stands nowhere in the joined text. -/
theorem not_mem_intercalate {c : Char} {separator : List Char} {parts : List (List Char)}
    (hseparator : c ∉ separator) (hparts : ∀ part ∈ parts, c ∉ part) :
    c ∉ separator.intercalate parts := by
  induction parts with
  | nil => exact List.not_mem_nil
  | cons part parts ih =>
    rw [List.forall_mem_cons] at hparts
    cases parts with
    | nil => simpa using hparts.1
    | cons next parts =>
      rw [List.intercalate_cons_cons, List.mem_append, List.mem_append, not_or, not_or]
      exact ⟨⟨hparts.1, hseparator⟩, ih hparts.2⟩

/-- A line of a text holds no line feed. -/
theorem feed_not_mem_of_mem_lines {cs line : List Char} (h : line ∈ lines cs) : '\n' ∉ line := by
  fun_induction lines cs generalizing line with
  | case1 => exact absurd h List.not_mem_nil
  | case2 cs ih =>
    rcases List.mem_cons.mp h with rfl | h
    · exact List.not_mem_nil
    · exact ih h
  | case3 cs ih =>
    rcases List.mem_cons.mp h with rfl | h
    · exact List.not_mem_nil
    · exact ih h
  | case4 c cs hc _ hlines =>
    rw [List.mem_singleton.mp h, List.mem_singleton]
    exact fun heq ↦ hc heq.symm
  | case5 c cs hc _ first rest hlines ih =>
    rw [hlines] at ih
    rcases List.mem_cons.mp h with rfl | h
    · rw [List.mem_cons, not_or]
      exact ⟨fun heq ↦ hc heq.symm, ih List.mem_cons_self⟩
    · exact ih (List.mem_cons_of_mem _ h)

end Text

/-- Lines without line feeds are found again in the text that is made of them, and nothing stands
behind the last one. -/
theorem cutAtFeeds_textOfLines {ls : List String} (h : ∀ l ∈ ls, '\n' ∉ l.toList) :
    cutAtFeeds (textOfLines ls) = ls ++ [""] := by
  have htext : (textOfLines ls).toList = ['\n'].intercalate (ls.map String.toList ++ [[]]) := by
    rw [toList_textOfLines]
    clear h
    induction ls with
    | nil => rfl
    | cons l ls ih =>
      rw [List.flatMap_cons, ih]
      cases ls <;> simp [List.intercalate_cons_cons]
  have hfeeds : ∀ cs ∈ ls.map String.toList ++ [[]], '\n' ∉ cs :=
    List.forall_mem_append.mpr ⟨List.forall_mem_map.mpr h, by simp⟩
  rw [cutAtFeeds, htext, List.splitOn_intercalate '\n' hfeeds (by simp), List.map_append,
    List.map_map]
  simp [Function.comp_def]

/-! ## Lower case -/

namespace Text

theorem ofNat_ne_feed {n : Nat} (h : 10 < n) : Char.ofNat n ≠ '\n' := by
  intro heq
  by_cases hvalid : n.isValidChar
  · have hchar : Char.ofNat n = Char.ofNatAux n hvalid := dif_pos hvalid
    have hnat : n = 10 := congrArg Char.toNat (hchar.symm.trans heq)
    omega
  · have hchar : Char.ofNat n = '\x00' := dif_neg hvalid
    exact absurd (hchar.symm.trans heq) (by decide)

/-- No capital has a line feed for its small letter. -/
theorem eq_feed_of_smallLetter {c : Char} (h : smallLetter c = '\n') : c = '\n' := by
  have hruns : lowercaseRuns.all (fun run ↦ 10 < run.first + run.offset) = true := by decide
  rw [smallLetter] at h
  split at h
  · next run hfind =>
    have hrun := List.all_eq_true.mp hruns run (List.mem_of_find?_eq_some hfind)
    have hhas := List.find?_some hfind
    simp only [CaseRun.has, Bool.and_eq_true, decide_eq_true_eq] at hrun hhas
    exact absurd h (ofNat_ne_feed (by omega))
  · exact h

theorem feed_not_mem_lowercaseBehind {before cs : List Char} (h : '\n' ∉ cs) :
    '\n' ∉ lowercaseBehind before cs := by
  induction cs generalizing before with
  | nil => exact List.not_mem_nil
  | cons c cs ih =>
    rw [List.mem_cons, not_or] at h
    rw [lowercaseBehind, List.mem_append, not_or]
    refine ⟨?_, ih h.2⟩
    rw [lowercaseAt]
    split
    · split <;> simp
    split
    · simp
    · simpa using fun heq ↦ h.1 (eq_feed_of_smallLetter heq.symm).symm

end Text

/-! ## No line of a source holds a line feed -/

/-- No line feed stands in what a source takes from its preamble and its schema as it is. -/
structure IsSingleLined (preamble : Preamble) (schema : Schema) : Prop where
  /-- Imports are on one line. -/
  imports : ∀ path ∈ preamble.imports, '\n' ∉ trim path.toList
  /-- Derived traits are on one line. -/
  derives : ∀ trait ∈ preamble.derives, '\n' ∉ trim trait.toList
  /-- The name of the category is on one line. -/
  base : '\n' ∉ schema.base.toList
  /-- The names of the variants are on one line. -/
  names : ∀ variant ∈ schema.variants, '\n' ∉ variant.name.toList
  /-- The types of the fields are on one line. -/
  types : ∀ variant ∈ schema.variants, ∀ field ∈ variant.fields, '\n' ∉ field.type.toList

namespace Preamble

theorem feed_not_mem_of_mem_headerLines {header : Option String} {line : String}
    (h : line ∈ headerLines header) : '\n' ∉ line.toList := by
  cases header with
  | none => exact absurd h List.not_mem_nil
  | some header =>
    rcases List.mem_append.mp h with h | h
    · obtain ⟨_, hraw, rfl⟩ := List.mem_map.mp h
      obtain ⟨cs, hcs, rfl⟩ := List.mem_map.mp hraw
      have hfeed := feed_not_mem_of_mem_lines hcs
      rw [comment]
      split
      · decide
      · simp [hfeed]
    · rw [List.mem_singleton.mp h]
      decide

theorem feed_not_mem_of_mem_importLines {imports : List String} {line : String}
    (himports : ∀ path ∈ imports, '\n' ∉ trim path.toList) (h : line ∈ importLines imports) :
    '\n' ∉ line.toList := by
  cases imports with
  | nil => exact absurd h List.not_mem_nil
  | cons first rest =>
    rcases List.mem_append.mp h with h | h
    · obtain ⟨path, hpath, rfl⟩ := List.mem_map.mp h
      simp [trimmed, himports path hpath]
    · rw [List.mem_singleton.mp h]
      decide

theorem feed_not_mem_of_mem_deriveLines {derives : List String} {line : String}
    (hderives : ∀ trait ∈ derives, '\n' ∉ trim trait.toList) (h : line ∈ deriveLines derives) :
    '\n' ∉ line.toList := by
  cases derives with
  | nil => exact absurd h List.not_mem_nil
  | cons first rest =>
    have hnames : '\n' ∉ (String.intercalate ", " ((first :: rest).map trimmed)).toList := by
      rw [String.toList_intercalate]
      refine not_mem_intercalate (by decide) (List.forall_mem_map.mpr (List.forall_mem_map.mpr ?_))
      simpa [trimmed] using hderives
    rw [List.mem_singleton.mp h]
    simp only [String.toList_append, List.mem_append, not_or]
    exact ⟨⟨by decide, hnames⟩, by decide⟩

theorem feed_not_mem_of_mem_lines {preamble : Preamble} {schema : Schema} {line : String}
    (hsingle : IsSingleLined preamble schema) (h : line ∈ preamble.lines) :
    '\n' ∉ line.toList := by
  rcases List.mem_append.mp h with h | h
  · rcases List.mem_append.mp h with h | h
    · exact feed_not_mem_of_mem_headerLines h
    · exact feed_not_mem_of_mem_importLines hsingle.imports h
  · exact feed_not_mem_of_mem_deriveLines hsingle.derives h

end Preamble

theorem Variant.feed_not_mem_of_mem_lines {variant : Variant} {line : String}
    (hname : '\n' ∉ variant.name.toList)
    (hfields : ∀ field ∈ variant.fields, '\n' ∉ field.name.toList ∧ '\n' ∉ field.type.toList)
    (h : line ∈ variant.lines) : '\n' ∉ line.toList := by
  rw [Variant.lines, List.cons_append, List.mem_cons, List.mem_append] at h
  rcases h with rfl | h | h
  · simp [indent, hname]
  · obtain ⟨field, hfield, rfl⟩ := List.mem_map.mp h
    simp [Field.line, indent, hfields field hfield]
  · rw [List.mem_singleton.mp h]
    decide

namespace Schema

theorem feed_not_mem_of_mem_visitorLines {schema : Schema} {line : String}
    (hbase : '\n' ∉ schema.base.toList) (h : line ∈ schema.visitorLines) :
    '\n' ∉ line.toList := by
  have hstem : '\n' ∉ schema.stem.toList := by
    rw [stem, lowercase, String.toList_ofList]
    exact feed_not_mem_lowercaseBehind hbase
  have hparameter : '\n' ∉ (parameterName schema.stem).toList := by
    rw [parameterName]
    split
    · simp [hstem]
    split
    · simp [hstem]
    · exact hstem
  simp only [visitorLines, List.mem_cons, List.not_mem_nil, or_false] at h
  rcases h with rfl | rfl | rfl
  · decide
  · simp [indent, hstem, hparameter, hbase]
  · decide

theorem feed_not_mem_of_mem_sourceLines {preamble : Preamble} {schema : Schema} {line : String}
    (hrecoverable : ∀ variant ∈ schema.variants, variant.Recoverable)
    (hsingle : IsSingleLined preamble schema) (h : line ∈ schema.sourceLines preamble) :
    '\n' ∉ line.toList := by
  simp only [sourceLines, enumLines, List.mem_append, List.mem_cons, List.mem_flatMap,
    List.not_mem_nil, or_false] at h
  rcases h with ((h | (rfl | ⟨variant, hvariant, h⟩) | rfl) | rfl) | h
  · exact Preamble.feed_not_mem_of_mem_lines hsingle h
  · simp [hsingle.base]
  · refine Variant.feed_not_mem_of_mem_lines (hsingle.names variant hvariant) ?_ h
    intro field hfield
    refine ⟨fun hfeed ↦ ?_, hsingle.types variant hvariant field hfield⟩
    -- The name of a field was read without blanks, and a line feed is one.
    have hsolid := ((hrecoverable variant hvariant).fields_recoverable field hfield).name_solid
    exact absurd (hsolid '\n' hfeed) (by decide)
  · decide
  · decide
  · exact feed_not_mem_of_mem_visitorLines hsingle.base h

end Schema

/-! ## What lines start with -/

namespace Preamble

/-- A line in front of the enum is empty, a comment, an import or an attribute. -/
def IsFrontLine (line : String) : Prop :=
  line = "" ∨ begins "//" line = true ∨ begins "use " line = true ∨
    begins "#[derive(" line = true

theorem begins_comment (line : String) : begins "//" (comment line) = true := by
  rw [comment]
  split
  · rfl
  · exact begins_append_of_begins (by decide) line

theorem uncomment_comment (line : String) : uncomment (comment line) = line := by
  rw [comment]
  split
  · next hempty =>
    rw [String.isEmpty_iff.mp hempty]
    rfl
  · have hdrop : ("// ".toList ++ line.toList).drop 3 = line.toList := rfl
    rw [uncomment, begins_append, if_pos rfl, String.toList_append, hdrop, String.ofList_toList]

theorem begins_of_mem_headerLines {header : Option String} {line : String}
    (h : line ∈ headerLines header) : line = "" ∨ begins "//" line = true := by
  cases header with
  | none => exact absurd h List.not_mem_nil
  | some header =>
    rcases List.mem_append.mp h with h | h
    · obtain ⟨_, -, rfl⟩ := List.mem_map.mp h
      exact .inr (begins_comment _)
    · exact .inl (List.mem_singleton.mp h)

theorem begins_of_mem_importLines {imports : List String} {line : String}
    (h : line ∈ importLines imports) : line = "" ∨ begins "use " line = true := by
  cases imports with
  | nil => exact absurd h List.not_mem_nil
  | cons first rest =>
    rcases List.mem_append.mp h with h | h
    · obtain ⟨_, -, rfl⟩ := List.mem_map.mp h
      exact .inr (begins_append_of_begins (begins_append ..) _)
    · exact .inl (List.mem_singleton.mp h)

theorem begins_of_mem_deriveLines {derives : List String} {line : String}
    (h : line ∈ deriveLines derives) : begins "#[derive(" line = true := by
  cases derives with
  | nil => exact absurd h List.not_mem_nil
  | cons first rest =>
    rw [List.mem_singleton.mp h]
    exact begins_append_of_begins (begins_append ..) _

theorem isFrontLine_of_mem_lines {preamble : Preamble} {line : String}
    (h : line ∈ preamble.lines) : IsFrontLine line := by
  rcases List.mem_append.mp h with h | h
  · rcases List.mem_append.mp h with h | h
    · exact (begins_of_mem_headerLines h).imp_right .inl
    · exact (begins_of_mem_importLines h).imp_right fun huse ↦ .inr (.inl huse)
  · exact .inr (.inr (.inr (begins_of_mem_deriveLines h)))

theorem IsFrontLine.head?_ne {line : String} (h : IsFrontLine line) :
    line.toList.head? ≠ some 'p' := by
  rcases h with rfl | h | h | h
  · decide
  all_goals
    rw [head?_of_begins h (by decide)]
    decide

/-- The imports are the lines that start like one. -/
theorem filter_use_lines (preamble : Preamble) :
    preamble.lines.filter (begins "use ") =
      preamble.imports.map fun path ↦ "use " ++ trimmed path ++ ";" := by
  have hheader : (headerLines preamble.header).filter (begins "use ") = [] := by
    refine filter_begins_eq_nil (by decide) fun line hline ↦ ?_
    rcases begins_of_mem_headerLines hline with rfl | h
    · decide
    · rw [head?_of_begins h (by decide)]
      decide
  have hderives : (deriveLines preamble.derives).filter (begins "use ") = [] := by
    refine filter_begins_eq_nil (by decide) fun line hline ↦ ?_
    rw [head?_of_begins (begins_of_mem_deriveLines hline) (by decide)]
    decide
  have himports : (importLines preamble.imports).filter (begins "use ") =
      preamble.imports.map fun path ↦ "use " ++ trimmed path ++ ";" := by
    cases preamble.imports with
    | nil => rfl
    | cons first rest =>
      have hall : ∀ line ∈ (first :: rest).map (fun path ↦ "use " ++ trimmed path ++ ";"),
          begins "use " line = true := by
        intro line hline
        obtain ⟨_, -, rfl⟩ := List.mem_map.mp hline
        exact begins_append_of_begins (begins_append ..) _
      have hempty : [""].filter (begins "use ") = [] := by decide
      rw [importLines, List.filter_append, List.filter_eq_self.mpr hall, hempty, List.append_nil]
      simp
  rw [lines, List.filter_append, List.filter_append, hheader, himports, hderives, List.nil_append,
    List.append_nil]

/-- The comments of the header are the lines up to the first empty one. -/
theorem takeWhile_lines {preamble : Preamble} {header : String}
    (h : preamble.header = some header) (rest : List String) :
    (preamble.lines ++ rest).takeWhile (· ≠ "") = (linesOf header).map comment := by
  have hcomments : ∀ line ∈ (linesOf header).map comment, decide (line ≠ "") = true := by
    intro line hline
    obtain ⟨_, -, rfl⟩ := List.mem_map.mp hline
    refine decide_eq_true fun hempty ↦ ?_
    exact absurd (begins_comment _) (by rw [hempty]; decide)
  rw [lines, h, headerLines]
  simp only [List.append_assoc]
  rw [List.takeWhile_append_of_pos hcomments]
  simp

/-- No line of a preamble starts like the enum or the trait. -/
theorem filter_pub_lines {front : String} (h : front.toList.head? = some 'p')
    (preamble : Preamble) : preamble.lines.filter (begins front) = [] := by
  have hne : front ≠ "" := by
    rintro rfl
    exact absurd h (by decide)
  refine filter_begins_eq_nil hne fun line hline ↦ ?_
  rw [h]
  exact (isFrontLine_of_mem_lines hline).head?_ne

end Preamble

theorem Variant.head?_of_mem_lines {variant : Variant} {line : String}
    (h : line ∈ variant.lines) : line.toList.head? = some ' ' := by
  rw [lines, List.cons_append, List.mem_cons, List.mem_append] at h
  rcases h with rfl | h | h
  · simp [indent]
  · obtain ⟨field, -, rfl⟩ := List.mem_map.mp h
    simp [Field.line, indent]
  · rw [List.mem_singleton.mp h]
    rfl

namespace Schema

/-- The lines of a source that start with something are those of its preamble, unless they are not
indented. -/
theorem filter_sourceLines {front : String} (hne : front ≠ "")
    (hfront : front.toList.head? ≠ some ' ') (preamble : Preamble) (schema : Schema) :
    (schema.sourceLines preamble).filter (begins front) =
      preamble.lines.filter (begins front) ++
        (["pub enum " ++ schema.base ++ " \x7b"].filter (begins front) ++
          ["\x7d", "", "pub trait Visitor<R, E> \x7b", "\x7d"].filter (begins front)) := by
  have hvariants : (schema.variants.flatMap Variant.lines).filter (begins front) = [] := by
    refine filter_begins_eq_nil hne fun line hline ↦ ?_
    obtain ⟨variant, -, hline⟩ := List.mem_flatMap.mp hline
    rw [Variant.head?_of_mem_lines hline]
    exact hfront.symm
  have hmethod : [indent ++ "fn visit_" ++ schema.stem ++ "(&mut self, " ++
      parameterName schema.stem ++ ": &" ++ schema.base ++ ") -> Result<R, E>;"].filter
        (begins front) = [] :=
    filter_begins_eq_nil hne (by simpa [indent] using hfront.symm)
  have hlines : schema.sourceLines preamble = preamble.lines ++
      (["pub enum " ++ schema.base ++ " \x7b"] ++ (schema.variants.flatMap Variant.lines ++
        (["\x7d", "", "pub trait Visitor<R, E> \x7b"] ++
          ([indent ++ "fn visit_" ++ schema.stem ++ "(&mut self, " ++
            parameterName schema.stem ++ ": &" ++ schema.base ++ ") -> Result<R, E>;"] ++
              ["\x7d"])))) := by
    simp [sourceLines, enumLines, visitorLines]
  have hbraces : ["\x7d", "", "pub trait Visitor<R, E> \x7b", "\x7d"] =
      ["\x7d", "", "pub trait Visitor<R, E> \x7b"] ++ ["\x7d"] := rfl
  rw [hlines, hbraces]
  simp only [List.filter_append, hvariants, hmethod, List.nil_append]

theorem cutAtFeeds_emit {base : String} {ls : List String} {schema : Schema}
    (h : Schema.read base ls = .ok schema) {preamble : Preamble}
    (hsingle : IsSingleLined preamble schema) :
    cutAtFeeds (schema.emit preamble) = schema.sourceLines preamble ++ [""] :=
  cutAtFeeds_textOfLines fun _ hline ↦
    feed_not_mem_of_mem_sourceLines (recoverable_of_read h).2 hsingle hline

/-- **There is one enum and one trait, and a header cannot leave its comments.** In a source that
takes no line feed from elsewhere than its header, one line starts an enum and a later one the
trait. Every line in front of the enum is empty, a comment, an import or the attribute. The header
is what the comments up to the first empty line say, line by line, and the imports are the lines
that start like one. -/
theorem lines_of_compileWith {preamble : Preamble} {base : String} {ls : List String}
    {schema : Schema} {source : String} (hread : Schema.read base ls = .ok schema)
    (hsource : compileWith preamble base ls = .ok source)
    (hsingle : IsSingleLined preamble schema) :
    (∃ before enum between trait after,
      cutAtFeeds source = before ++ enum :: (between ++ trait :: after) ∧
        (cutAtFeeds source).filter (begins "pub enum ") = [enum] ∧
        (cutAtFeeds source).filter (begins "pub trait ") = [trait] ∧
        ∀ line ∈ before, Preamble.IsFrontLine line) ∧
      (∀ header ∈ preamble.header,
        (∀ line ∈ (cutAtFeeds source).takeWhile (· ≠ ""), begins "//" line = true) ∧
          ((cutAtFeeds source).takeWhile (· ≠ "")).map uncomment = linesOf header) ∧
      (cutAtFeeds source).filter (begins "use ") =
        preamble.imports.map fun path ↦ "use " ++ trimmed path ++ ";" := by
  obtain ⟨schema', hread', rfl⟩ := compileWith_eq_ok_iff.mp hsource
  obtain rfl := Except.ok.inj (hread.symm.trans hread')
  rw [cutAtFeeds_emit hread hsingle]
  refine ⟨⟨preamble.lines, "pub enum " ++ schema.base ++ " \x7b",
    schema.variants.flatMap Variant.lines ++ ["\x7d", ""], "pub trait Visitor<R, E> \x7b",
    schema.visitorLines.tail ++ [""], ?_, ?_, ?_, fun _ ↦ Preamble.isFrontLine_of_mem_lines⟩,
    ?_, ?_⟩
  · simp [sourceLines, enumLines, visitorLines]
  · rw [List.filter_append, filter_sourceLines (by decide) (by decide),
      Preamble.filter_pub_lines rfl,
      List.filter_eq_self.mpr (by simpa using begins_append_of_begins (begins_append ..) _)]
    rfl
  · rw [List.filter_append, filter_sourceLines (by decide) (by decide),
      Preamble.filter_pub_lines rfl, List.filter_eq_nil_iff.mpr (by simp [begins])]
    rfl
  · intro header hheader
    rw [sourceLines, List.append_assoc, List.append_assoc, List.append_assoc,
      Preamble.takeWhile_lines hheader, List.map_map]
    refine ⟨List.forall_mem_map.mpr fun line _ ↦ Preamble.begins_comment line, ?_⟩
    have hcomment : uncomment ∘ Preamble.comment = id := funext Preamble.uncomment_comment
    rw [hcomment, List.map_id]
  · rw [List.filter_append, filter_sourceLines (by decide) (by decide), Preamble.filter_use_lines,
      List.filter_eq_nil_iff.mpr (by simp [begins])]
    exact (List.append_nil _).trans (List.append_nil _)

/-- A header that looks like an import and an enum, with both kinds of line ends. -/
theorem lines_of_compileWith_lookalike :
    ∃ source, compileWith ⟨some "use a;\r\n\npub enum E \x7b", [" b::C "], ["Debug"]⟩ " E"
        ["A: t u"] = .ok source ∧
      (∃ enum, (cutAtFeeds source).filter (begins "pub enum ") = [enum]) ∧
      ((cutAtFeeds source).takeWhile (· ≠ "")).map uncomment =
        ["use a;", "", "pub enum E \x7b"] ∧
      (cutAtFeeds source).filter (begins "use ") = ["use b::C;"] := by
  have hread : Schema.read " E" ["A: t u"] = .ok ⟨"E", [⟨"A", [⟨"t", "u"⟩]⟩]⟩ := rfl
  obtain ⟨source, hsource⟩ : ∃ source, compileWith ⟨some "use a;\r\n\npub enum E \x7b",
    [" b::C "], ["Debug"]⟩ " E" ["A: t u"] = .ok source := ⟨_, rfl⟩
  obtain ⟨⟨_, enum, _, _, _, -, henum, -⟩, hheader, himports⟩ :=
    lines_of_compileWith hread hsource ⟨by decide, by decide, by decide, by decide, by decide⟩
  exact ⟨source, hsource, ⟨enum, henum⟩, (hheader _ rfl).2, himports⟩

end Schema

end AstSchema
