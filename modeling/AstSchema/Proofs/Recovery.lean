import AstSchema.Compilation
import AstSchema.Proofs.Spelling

/-!
# Recovering a schema from its source

Names and types go out unquoted, so a line of the generated source need not be a line: a name may
hold a brace and a line feed, and a type may hold a comma with a line feed behind it. The source
determines the schema all the same, since every part ends where something stands that the part
cannot hold. A variant's name has no colon and the name of its first field no blank, so the
variant's name ends in front of the last blank before the first colon. The name of a field ends
with the colon in front of the first blank, and its type in front of the first comma outside
brackets.

`Schema.recover` is a reader built on this, and `Schema.recover_emit` says that it recovers every
schema that was read from lines. Emission therefore loses nothing but padding.

Where a field starts with a `>`, its line was only read because a hyphen stood in front of the
comma, so the reader takes every field to stand behind a hyphen.
-/

namespace AstSchema

open AstSchema.Text

/-! ## The reader -/

/-- The text in front of the first comma outside brackets, and the text behind it. -/
def Nesting.cutAtComma (n : Nesting) : List Char → List Char × List Char
  | [] => ([], [])
  | c :: cs =>
    if c == ',' && n.atTop then ([], cs)
    else Prod.map (c :: ·) id ((n.advance c).cutAtComma cs)

namespace Field

/-- Reads the line of a field from its name on. -/
def recover (text : List Char) : Field × List Char :=
  let (line, rest) := Nesting.cutAtComma ⟨[], some '-'⟩ text
  let label := line.takeWhile (!isBlank ·)
  (⟨String.ofList label.dropLast, String.ofList (line.drop (label.length + 1))⟩, rest.drop 1)

theorem length_cutAtComma_le (n : Nesting) (text : List Char) :
    (n.cutAtComma text).2.length ≤ text.length := by
  induction text generalizing n with
  | nil => exact Nat.le_refl _
  | cons c cs ih =>
    rw [Nesting.cutAtComma]
    split
    · exact Nat.le_succ _
    · exact Nat.le_succ_of_le (ih _)

theorem length_recover_le (text : List Char) : (recover text).2.length ≤ text.length := by
  rw [recover, List.length_drop]
  exact Nat.le_trans (Nat.sub_le _ _) (length_cutAtComma_le _ text)

/-- Reads lines of fields as long as there are any. They are indented twice, and what stands behind
them only once. -/
def recoverAll (text : List Char) : List Field × List Char :=
  if (text.drop 4).head? = some ' ' then
    let field := recover (text.drop 8)
    Prod.map (field.1 :: ·) id (recoverAll field.2)
  else
    ([], text)
termination_by text.length
decreasing_by
  next h =>
  have hlength := length_recover_le (text.drop 8)
  have hpos := List.length_pos_of_mem (List.mem_of_mem_head? h)
  simp only [List.length_drop] at hlength hpos
  omega

theorem length_recoverAll_le (text : List Char) : (recoverAll text).2.length ≤ text.length := by
  fun_induction recoverAll text with
  | case1 text h field ih =>
    have hlength : field.2.length ≤ (text.drop 8).length := length_recover_le (text.drop 8)
    rw [List.length_drop] at hlength
    exact Nat.le_trans ih (Nat.le_trans hlength (Nat.sub_le _ _))
  | case2 text h => exact Nat.le_refl _

end Field

namespace Variant

/-- Reads the lines of a variant. What stands in front of the first colon, up to its last blank, is
the name between an indentation and a brace and the indentation of the first field. -/
def recover (text : List Char) : Variant × List Char :=
  let head := text.takeWhile (· != ':')
  let lead := (head.reverse.dropWhile (!isBlank ·)).reverse
  let name := (lead.drop 4).take (lead.length - 15)
  let fields := Field.recoverAll (text.drop (lead.length - 8))
  (⟨String.ofList name, fields.1⟩, fields.2.drop 7)

/-- Reads the lines of variants as long as there are any. They are indented, and the brace behind
them is not. -/
def recoverAll (text : List Char) : List Variant :=
  if text.head? = some ' ' then
    let variant := recover text
    variant.1 :: recoverAll variant.2
  else
    []
termination_by text.length
decreasing_by
  next h =>
  have hpos := List.length_pos_of_mem (List.mem_of_mem_head? h)
  simp only [recover, List.length_drop]
  have hlength := Field.length_recoverAll_le (text.drop
    (((text.takeWhile (· != ':')).reverse.dropWhile (!isBlank ·)).reverse.length - 8))
  simp only [List.length_drop] at hlength
  omega

end Variant

/-- The schema of a source text that was generated with the preamble for the category. -/
def Schema.recover (preamble : Preamble) (base : String) (source : String) : Schema :=
  let head := (textOfLines (preamble.lines ++ ["pub enum " ++ trimmed base ++ " \x7b"])).toList
  ⟨trimmed base, Variant.recoverAll (source.toList.drop head.length)⟩

/-! ## Recovering what was written -/

theorem Nesting.cutAtComma_append {n : Nesting} {cs : List Char} (h : n.inField cs = true)
    (ds : List Char) :
    n.cutAtComma (cs ++ ds) = Prod.map (cs ++ ·) id ((n.after cs).cutAtComma ds) := by
  induction cs generalizing n with
  | nil => rfl
  | cons c cs ih =>
    obtain ⟨hcomma, -, hcs⟩ := inField_cons.mp h
    rw [List.cons_append, cutAtComma, hcomma, if_neg Bool.false_ne_true, ih hcs]
    rfl

theorem Nesting.cutAtComma_field {n : Nesting} {cs : List Char} (h : n.isField cs = true)
    (rest : List Char) : n.cutAtComma (cs ++ ',' :: rest) = (cs, rest) := by
  obtain ⟨hin, htop⟩ := isField_iff.mp h
  rw [cutAtComma_append hin, cutAtComma, htop]
  simp

theorem toList_textOfLines (ls : List String) :
    (textOfLines ls).toList = ls.flatMap fun l ↦ l.toList ++ ['\n'] := by
  rw [textOfLines, String.toList_join, List.flatMap_map]
  simp

namespace Field

/-- What the reader relies on in a field. -/
structure Recoverable (field : Field) : Prop where
  /-- No blank stands in the name. -/
  name_solid : ∀ c ∈ field.name.toList, isBlank c = false
  /-- The field ends at the first comma outside brackets behind it. -/
  isField : Nesting.isField ⟨[], some '-'⟩
    (field.name.toList ++ ':' :: ' ' :: field.type.toList) = true

theorem recover_append {field : Field} (h : field.Recoverable) (rest : List Char) :
    recover (field.name.toList ++ ':' :: ' ' :: field.type.toList ++ ',' :: '\n' :: rest) =
      (field, rest) := by
  have hlabel : ∀ c ∈ field.name.toList ++ [':'], isBlank c = false := by
    intro c hc
    rcases List.mem_append.mp hc with hc | hc
    · exact h.name_solid c hc
    · rw [List.mem_singleton.mp hc]
      decide
  have htake := (cut_at_blank hlabel (by decide : isBlank ' ' = true) field.type.toList).1
  rw [List.append_assoc, List.singleton_append] at htake
  have hdrop : (field.name.toList ++ ':' :: ' ' :: field.type.toList).drop
      ((field.name.toList ++ [':']).length + 1) = field.type.toList := by
    have hline : field.name.toList ++ ':' :: ' ' :: field.type.toList =
        (field.name.toList ++ [':', ' ']) ++ field.type.toList := by simp
    rw [hline, List.drop_left' (by simp)]
  rw [recover, Nesting.cutAtComma_field h.isField]
  simp only [htake, hdrop]
  simp

theorem toList_line (field : Field) :
    field.line.toList ++ ['\n'] = "        ".toList ++
      (field.name.toList ++ ':' :: ' ' :: field.type.toList ++ ',' :: '\n' :: []) := by
  simp [line, indent]

theorem recoverAll_append {fields : List Field} (h : ∀ field ∈ fields, field.Recoverable)
    {rest : List Char} (hrest : (rest.drop 4).head? ≠ some ' ') :
    recoverAll ((textOfLines (fields.map line)).toList ++ rest) = (fields, rest) := by
  rw [toList_textOfLines]
  induction fields with
  | nil => rw [List.map_nil, List.flatMap_nil, List.nil_append, recoverAll, if_neg hrest]
  | cons field fields ih =>
    have hfields := ih fun f hf ↦ h f (List.mem_cons_of_mem _ hf)
    have hfield := recover_append (h field List.mem_cons_self)
      (((fields.map line).flatMap fun l ↦ l.toList ++ ['\n']) ++ rest)
    have htext : ((field :: fields).map line).flatMap (fun l ↦ l.toList ++ ['\n']) ++ rest =
        "        ".toList ++ (field.name.toList ++ ':' :: ' ' :: field.type.toList ++
          ',' :: '\n' :: (((fields.map line).flatMap fun l ↦ l.toList ++ ['\n']) ++ rest)) := by
      rw [List.map_cons, List.flatMap_cons, toList_line]
      simp
    rw [htext, recoverAll, if_pos (by rfl)]
    have hdrop : ∀ cs : List Char, ("        ".toList ++ cs).drop 8 = cs := fun _ ↦ rfl
    rw [hdrop, hfield]
    simp only [hfields]
    rfl

end Field

namespace Variant

/-- What the reader relies on in a variant. -/
structure Recoverable (variant : Variant) : Prop where
  /-- No colon stands in the name. -/
  name_colon : ':' ∉ variant.name.toList
  /-- The variant has a field. -/
  fields_ne : variant.fields ≠ []
  /-- Its fields can be recovered. -/
  fields_recoverable : ∀ field ∈ variant.fields, field.Recoverable

/-- What stands in front of the name of the first field. -/
def lead (variant : Variant) : List Char :=
  "    ".toList ++ variant.name.toList ++ " \x7b\n        ".toList

/-- Up to the last blank in front of the first colon stands what leads to the first field. -/
theorem lead_eq {variant : Variant} {field : Field} (hcolon : ':' ∉ variant.name.toList)
    (hname : ∀ c ∈ field.name.toList, isBlank c = false) (rest : List Char) :
    (((variant.lead ++ (field.name.toList ++ ':' :: rest)).takeWhile (· != ':')).reverse.dropWhile
      (!isBlank ·)).reverse = variant.lead := by
  have hnone : ':' ∉ variant.lead := by simp [lead, hcolon]
  have hlead : ∀ c ∈ variant.lead, (c != ':') = true := by
    intro c hc
    simpa using ne_of_mem_of_not_mem hc hnone
  have htake : (variant.lead ++ (field.name.toList ++ ':' :: rest)).takeWhile (· != ':') =
      variant.lead ++ field.name.toList.takeWhile (· != ':') := by
    rw [List.takeWhile_append_of_pos hlead, List.takeWhile_append]
    split
    · next hall =>
      rw [List.takeWhile_cons_of_neg (by simp), List.append_nil,
        (List.takeWhile_prefix _).eq_of_length hall]
    · rfl
  have hsolid : ∀ c ∈ (field.name.toList.takeWhile (· != ':')).reverse, (!isBlank c) = true := by
    intro c hc
    rw [hname c ((List.takeWhile_sublist _).mem (List.mem_reverse.mp hc))]
    rfl
  have hblank : variant.lead.reverse.dropWhile (!isBlank ·) = variant.lead.reverse := by
    rw [lead, List.reverse_append]
    rfl
  rw [htake, List.reverse_append, List.dropWhile_append_of_pos hsolid, hblank,
    List.reverse_reverse]

theorem toList_lines {variant : Variant} (rest : List Char) :
    (textOfLines variant.lines).toList ++ rest =
      ("    ".toList ++ variant.name.toList ++ " \x7b\n".toList) ++
        ((textOfLines (variant.fields.map Field.line)).toList ++
          ("    \x7d,\n".toList ++ rest)) := by
  simp [lines, toList_textOfLines, indent]

theorem recover_append {variant : Variant} (h : variant.Recoverable) (rest : List Char) :
    recover ((textOfLines variant.lines).toList ++ rest) = (variant, rest) := by
  obtain ⟨field, fields, hfields⟩ := List.exists_cons_of_ne_nil h.fields_ne
  have hfield := h.fields_recoverable field (by rw [hfields]; exact List.mem_cons_self)
  have htext : ∃ behind, (textOfLines variant.lines).toList ++ rest =
      variant.lead ++ (field.name.toList ++ ':' :: behind) := by
    rw [toList_lines, hfields, List.map_cons, toList_textOfLines, List.flatMap_cons,
      Field.toList_line]
    exact ⟨_, by simp [lead]; rfl⟩
  have hlead : (((((textOfLines variant.lines).toList ++ rest).takeWhile
      (· != ':')).reverse.dropWhile (!isBlank ·)).reverse) = variant.lead := by
    obtain ⟨behind, hbehind⟩ := htext
    rw [hbehind, lead_eq h.name_colon hfield.name_solid]
  have hname : (variant.lead.drop 4).take (variant.lead.length - 15) = variant.name.toList := by
    simp [lead]
  have hbehind : ((textOfLines variant.lines).toList ++ rest).drop (variant.lead.length - 8) =
      (textOfLines (variant.fields.map Field.line)).toList ++ ("    \x7d,\n".toList ++ rest) := by
    rw [toList_lines, List.drop_left' (by simp [lead])]
  rw [recover]
  simp only [hlead, hname, hbehind]
  rw [Field.recoverAll_append h.fields_recoverable (by simp)]
  simp

theorem recoverAll_append {variants : List Variant} (h : ∀ v ∈ variants, v.Recoverable)
    {rest : List Char} (hrest : rest.head? ≠ some ' ') :
    recoverAll ((textOfLines (variants.flatMap lines)).toList ++ rest) = variants := by
  induction variants with
  | nil =>
    rw [List.flatMap_nil, toList_textOfLines, List.flatMap_nil, List.nil_append, recoverAll,
      if_neg hrest]
  | cons variant variants ih =>
    have hvariants := ih fun v hv ↦ h v (List.mem_cons_of_mem _ hv)
    have hvariant := recover_append (h variant List.mem_cons_self)
      ((textOfLines (variants.flatMap lines)).toList ++ rest)
    rw [List.flatMap_cons, textOfLines_append, String.toList_append, List.append_assoc, recoverAll,
      if_pos (by rw [toList_lines]; rfl)]
    simp only [hvariant, hvariants]

end Variant

theorem Schema.recover_emit {schema : Schema} (h : ∀ v ∈ schema.variants, v.Recoverable)
    {base : String} (hbase : schema.base = trimmed base) (preamble : Preamble) :
    Schema.recover preamble base (schema.emit preamble) = schema := by
  have hsource : schema.emit preamble =
      textOfLines (preamble.lines ++ ["pub enum " ++ trimmed base ++ " \x7b"]) ++
        textOfLines (schema.variants.flatMap Variant.lines ++
          ("\x7d" :: "" :: schema.visitorLines)) := by
    rw [emit, ← textOfLines_append]
    simp [sourceLines, enumLines, hbase]
  have hbrace : (textOfLines ("\x7d" :: "" :: schema.visitorLines)).toList.head? ≠ some ' ' := by
    simp [toList_textOfLines]
  rw [recover, hsource, String.toList_append]
  simp only [List.drop_left]
  rw [textOfLines_append, String.toList_append, Variant.recoverAll_append h hbrace, ← hbase]

/-! ## What was read can be recovered -/

/-- A segment that is a whole field stays one when its padding is replaced by the colon and the
blank of its line. -/
theorem Field.recoverable_of_spelling {field : Field} {segment : List Char} (h : field.Solid)
    (hs : field.Spelling segment) {n : Nesting} (hn : n.enclosing = [])
    (hfield : n.isField segment = true) : field.Recoverable := by
  refine ⟨h.name_solid, ?_⟩
  obtain ⟨a, b, c, ha, hb, hc, hbne, rfl⟩ := hs
  rw [Nesting.isField_append_of_isBlank hc, Nesting.isField_append, Nesting.inField_append,
    Nesting.inField_append, Nesting.after_append _ (a ++ _), Nesting.after_append _ a] at hfield
  simp only [Bool.and_eq_true] at hfield
  obtain ⟨⟨⟨-, hname⟩, -⟩, htype⟩ := hfield
  -- The name is read as behind a hyphen, whatever stands in front of it.
  have hfront : (n.after a).enclosing = [] := by rw [Nesting.enclosing_after_of_isBlank ha, hn]
  have hagree := Nesting.inField_behind_hyphen hfront hname
  have hopen := hagree.enclosing_after
  rw [hagree.inField_eq] at hname
  -- The type stands behind a blank in both.
  have hcolon : [':', ' '].all isPlain = true := by decide
  have henclosing : (((n.after a).after field.name.toList).after b).enclosing =
      ((Nesting.after ⟨[], some '-'⟩ field.name.toList).after [':', ' ']).enclosing := by
    rw [Nesting.enclosing_after_of_isBlank hb, hopen, Nesting.enclosing_after_of_isPlain hcolon]
  have hspace : ((Nesting.after ⟨[], some '-'⟩ field.name.toList).after [':', ' ']).last ≠
      some '-' := by
    rw [Nesting.last_after _ [':', ' ']]
    simp
  have htypeAgree := Nesting.agree_of_ne_hyphen henclosing (Nesting.last_after_ne_hyphen hb hbne)
    hspace field.type.toList.head?
  rw [htypeAgree.isField_eq] at htype
  have hline : field.name.toList ++ ':' :: ' ' :: field.type.toList =
      field.name.toList ++ ([':', ' '] ++ field.type.toList) := rfl
  rw [hline, Nesting.isField_append, Nesting.isField_append, hname, htype,
    Nesting.inField_of_isPlain hcolon]
  rfl

theorem fields_recoverable_of_spelling {fields : List Field} {segments : List (List Char)}
    (h : ∀ field ∈ fields, field.Solid) (hs : List.Forall₂ Field.Spelling fields segments)
    {n : Nesting} (hn : n.enclosing = []) (hfields : n.areFields segments = true) :
    ∀ field ∈ fields, field.Recoverable := by
  induction hs generalizing n with
  | nil => exact fun _ hmem ↦ absurd hmem List.not_mem_nil
  | cons hspelling _ ih =>
    obtain ⟨hfield, hrest⟩ := Nesting.areFields_cons.mp hfields
    have htop := Nesting.atTop_iff.mp (Nesting.isField_iff.mp hfield).2
    intro field hmem
    rcases List.mem_cons.mp hmem with rfl | hmem
    · exact Field.recoverable_of_spelling (h _ List.mem_cons_self) hspelling hn hfield
    · exact ih (fun f hf ↦ h f (List.mem_cons_of_mem _ hf)) htop hrest field hmem

theorem Variant.recoverable_of_read {line : String} {variant : Variant}
    (h : read line = .ok variant) : variant.Recoverable := by
  obtain ⟨hsolid, segments, hfields, _, _, _, _, hsegments, _⟩ := spelling_of_read h
  exact ⟨hsolid.name_colon, hsolid.fields_ne,
    fields_recoverable_of_spelling hsolid.fields_solid hsegments rfl hfields⟩

theorem Variant.recoverable_of_readFrom {k : Nat} {lines : List String}
    {variants : List Variant} (h : readFrom k lines = .ok variants) :
    ∀ v ∈ variants, v.Recoverable := by
  induction lines generalizing k variants with
  | nil =>
    rw [readFrom] at h
    obtain rfl := Except.ok.inj h
    exact fun _ hmem ↦ absurd hmem List.not_mem_nil
  | cons line lines ih =>
    rw [readFrom] at h
    split at h
    · exact absurd h (by simp)
    next variant hvariant =>
    split at h
    · exact absurd h (by simp)
    next variants' hvariants =>
    obtain rfl := Except.ok.inj h
    intro v hmem
    rcases List.mem_cons.mp hmem with rfl | hmem
    · exact recoverable_of_read hvariant
    · exact ih hvariants v hmem

theorem Schema.recoverable_of_read {base : String} {lines : List String} {schema : Schema}
    (h : Schema.read base lines = .ok schema) :
    schema.base = trimmed base ∧ ∀ v ∈ schema.variants, v.Recoverable := by
  rw [Schema.read] at h
  split at h
  · exact absurd h (by simp)
  split at h
  · exact absurd h (by simp)
  next variants hvariants =>
  obtain rfl := Except.ok.inj h
  exact ⟨rfl, Variant.recoverable_of_readFrom hvariants⟩

theorem Schema.recover_of_read {base : String} {lines : List String} {schema : Schema}
    (h : Schema.read base lines = .ok schema) (preamble : Preamble) :
    Schema.recover preamble base (schema.emit preamble) = schema := by
  obtain ⟨hbase, hvariants⟩ := recoverable_of_read h
  exact recover_emit hvariants hbase preamble

/-- **Emission loses nothing.** A reader that knows only the preamble and the category recovers the
schema from its source, and lines that compile to the same source are read as the same schema. -/
theorem Schema.read_eq_recover {preamble : Preamble} {base : String} {lines : List String}
    {source : String} (h : compileWith preamble base lines = .ok source) :
    Schema.read base lines = .ok (Schema.recover preamble base source) ∧
      ∀ lines', compileWith preamble base lines' = .ok source →
        Schema.read base lines = Schema.read base lines' := by
  have hrecover : ∀ ls, compileWith preamble base ls = .ok source →
      Schema.read base ls = .ok (Schema.recover preamble base source) := by
    intro ls hls
    obtain ⟨schema, hread, rfl⟩ := compileWith_eq_ok_iff.mp hls
    rw [Schema.recover_of_read hread, hread]
  exact ⟨hrecover lines h, fun lines' h' ↦ (hrecover lines h).trans (hrecover lines' h').symm⟩

/-- A brace in a name, a comma in front of a line feed in a type, and an arrow across a comma. -/
theorem Schema.read_eq_recover_arrow :
    compileWith {} "E" ["A \x7b: x V<C,\n>-,> y"] =
        .ok ("pub enum E \x7b\n    A \x7b \x7b\n        x: V<C,\n>-,\n        >: y,\n    \x7d,\n" ++
          "\x7d\n\npub trait Visitor<R, E> \x7b\n" ++
          "    fn visit_e(&mut self, e: &E) -> Result<R, E>;\n\x7d\n") ∧
      Schema.read "E" ["A \x7b: x V<C,\n>-,> y"] =
        Schema.read "E" ["A \x7b :x\tV<C,\n>-,>\ty "] := by
  have h : compileWith {} "E" ["A \x7b: x V<C,\n>-,> y"] =
      .ok ("pub enum E \x7b\n    A \x7b \x7b\n        x: V<C,\n>-,\n        >: y,\n    \x7d,\n" ++
        "\x7d\n\npub trait Visitor<R, E> \x7b\n" ++
        "    fn visit_e(&mut self, e: &E) -> Result<R, E>;\n\x7d\n") := rfl
  exact ⟨h, (Schema.read_eq_recover h).2 _ rfl⟩

end AstSchema
