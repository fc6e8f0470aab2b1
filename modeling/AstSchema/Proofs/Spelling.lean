import AstSchema.Proofs.FieldList

/-!
# Spellings of a schema line

One variant can be written in many ways, which differ in the blanks around its parts. A spelling
relates a variant to a line of it: reading is the function from lines to variants, and the spelling
goes the other way and is not unique. `Field.ofSegment_eq_ok_iff` and `Variant.read_eq_ok_iff` tie
the two together. From the left they say that a line which is read is nothing but the parts of its
variant, blanks and separators; from the right, that the blanks of a line never matter.

A part is only told apart from its surroundings by what it does not hold. `Field.Solid` collects
what reading guarantees about a field. It is not enough for every spelling of the field to be read
back: brackets in a name are counted with those of the type, and are therefore admitted in some
company and rejected in other.
-/

namespace AstSchema

open AstSchema.Text

/-! ## One field -/

namespace Field

/-- The segment is the field with blanks around its name and its type. -/
def Spelling (field : Field) (segment : List Char) : Prop :=
  ∃ a b c : List Char, a.all isBlank = true ∧ b.all isBlank = true ∧ c.all isBlank = true ∧
    b ≠ [] ∧ segment = a ++ field.name.toList ++ b ++ field.type.toList ++ c

/-- What reading guarantees about a field. -/
structure Solid (field : Field) : Prop where
  /-- The field has a name. -/
  name_ne : field.name ≠ ""
  /-- No blank stands in the name. -/
  name_solid : ∀ c ∈ field.name.toList, isBlank c = false
  /-- The field has a type. -/
  type_ne : field.type ≠ ""
  /-- No blank stands at either end of the type. -/
  type_trimmed : Trimmed field.type.toList
  /-- The type does not run into another field. -/
  type_joined : TypeText.runsOn field.type.toList = false

/-- The segment is cut at its first blank into the name and the type of the field. The type may
still run into another field. -/
structure CutFrom (field : Field) (segment : List Char) : Prop where
  /-- The field has a name. -/
  name_ne : field.name ≠ ""
  /-- No blank stands in the name. -/
  name_solid : ∀ c ∈ field.name.toList, isBlank c = false
  /-- The field has a type. -/
  type_ne : field.type ≠ ""
  /-- No blank stands at either end of the type. -/
  type_trimmed : Trimmed field.type.toList
  /-- The segment consists of the two and of blanks. -/
  spelling : field.Spelling segment

theorem Solid.cutFrom {field : Field} (h : field.Solid) {segment : List Char}
    (hs : field.Spelling segment) : field.CutFrom segment where
  name_ne := h.name_ne
  name_solid := h.name_solid
  type_ne := h.type_ne
  type_trimmed := h.type_trimmed
  spelling := hs

/-- Whether a text is trimmed is decided by its two ends. -/
theorem trimmed_append_append {cs ds : List Char} (hcs : cs ≠ []) (hds : ds ≠ [])
    (hhead : ∀ c ∈ cs.head?, isBlank c = false) (hlast : ∀ c ∈ ds.getLast?, isBlank c = false)
    (w : List Char) : Trimmed (cs ++ w ++ ds) := by
  constructor
  · rwa [List.append_assoc, List.head?_append_of_ne_nil _ hcs]
  · rwa [List.getLast?_append_of_ne_nil _ hds]

theorem CutFrom.trimmed {field : Field} {segment : List Char} (h : field.CutFrom segment)
    (b : List Char) : Trimmed (field.name.toList ++ b ++ field.type.toList) := by
  have hname : field.name.toList ≠ [] := fun e ↦ h.name_ne (String.toList_eq_nil_iff.mp e)
  have htype : field.type.toList ≠ [] := fun e ↦ h.type_ne (String.toList_eq_nil_iff.mp e)
  exact trimmed_append_append hname htype
    (fun c hc ↦ h.name_solid c (List.mem_of_mem_head? hc)) h.type_trimmed.2 b

/-- Where a text is cut at its first blank. -/
theorem cut_at_blank {name : List Char} (hname : ∀ c ∈ name, isBlank c = false) {d : Char}
    (hd : isBlank d = true) (rest : List Char) :
    (name ++ d :: rest).takeWhile (!isBlank ·) = name ∧
      (name ++ d :: rest).dropWhile (!isBlank ·) = d :: rest := by
  have hall : ∀ c ∈ name, (!isBlank c) = true := fun c hc ↦ by rw [hname c hc]; rfl
  rw [List.takeWhile_append_of_pos hall, List.dropWhile_append_of_pos hall,
    List.takeWhile_cons_of_neg (by simp [hd]), List.dropWhile_cons_of_neg (by simp [hd])]
  exact ⟨List.append_nil name, rfl⟩

/-- What is cut from a segment is the field, unless its type runs into another one. -/
theorem ofSegment_of_cutFrom {field : Field} {segment : List Char} (h : field.CutFrom segment) :
    ofSegment segment =
      if TypeText.runsOn field.type.toList then .error (.missingComma field.name)
      else .ok field := by
  obtain ⟨a, b, c, ha, hb, hc, hbne, hsegment⟩ := h.spelling
  obtain ⟨d, b, rfl⟩ := List.exists_cons_of_ne_nil hbne
  rw [List.all_cons, Bool.and_eq_true] at hb
  have hspec : trim segment = field.name.toList ++ d :: (b ++ field.type.toList) := by
    have htrim := trim_append_append ha hc (h.trimmed (d :: b))
    simpa [hsegment] using htrim
  have htype : trim (b ++ field.type.toList) = field.type.toList := by
    have htrim := trim_append_append hb.2 (List.all_nil : [].all isBlank = true) h.type_trimmed
    simpa using htrim
  obtain ⟨htake, hdrop⟩ := cut_at_blank h.name_solid hb.1 (b ++ field.type.toList)
  simp only [ofSegment, hspec, htake, hdrop, htype]
  simp [List.isEmpty_iff]

theorem ofSegment_of_spelling {field : Field} {segment : List Char} (h : field.Solid)
    (hs : field.Spelling segment) : ofSegment segment = .ok field := by
  rw [ofSegment_of_cutFrom (h.cutFrom hs), h.type_joined, if_neg Bool.false_ne_true]

theorem spelling_of_ofSegment {field : Field} {segment : List Char}
    (h : ofSegment segment = .ok field) : field.Solid ∧ field.Spelling segment := by
  obtain ⟨w, w', hw, hw', hsegment⟩ := exists_trim segment
  have htrimmed := trimmed_trim segment
  simp only [ofSegment] at h
  split at h
  · exact absurd h (by simp)
  split at h
  · exact absurd h (by simp)
  next d rest hdrop =>
  split at h
  · exact absurd h (by simp)
  next hgap =>
  obtain rfl := Except.ok.inj h
  have hspec : trim segment = (trim segment).takeWhile (!isBlank ·) ++ d :: rest := by
    rw [← hdrop, List.takeWhile_append_dropWhile]
  have hd : isBlank d = true := by
    have hhead := List.head?_dropWhile_not (!isBlank ·) (trim segment)
    simpa [hdrop] using hhead
  obtain ⟨u, u', hu, hu', hrest⟩ := exists_trim rest
  refine ⟨⟨?_, ?_, ?_, ?_, ?_⟩, w, d :: u, u' ++ w', hw, ?_, ?_, by simp, ?_⟩
  · -- An empty name would put a blank in front of the text.
    intro hname
    rw [String.ofList_eq_empty_iff] at hname
    rw [hname, List.nil_append] at hspec
    simpa [hd] using htrimmed.1 d (by rw [hspec]; rfl)
  · intro c hc
    rw [String.toList_ofList] at hc
    simpa using List.all_eq_true.mp List.all_takeWhile c hc
  · -- An empty type would put a blank behind the text.
    intro htype
    rw [String.ofList_eq_empty_iff, trim_eq_nil_iff] at htype
    rw [hspec] at htrimmed
    exact absurd (htrimmed.eq_nil_of_append (by simp [hd, htype])) (List.cons_ne_nil d rest)
  · rw [String.toList_ofList]
    exact trimmed_trim rest
  · simpa using hgap
  · simp [hd, hu]
  · simp [hu', hw']
  · rw [String.toList_ofList, String.toList_ofList]
    calc segment = w ++ trim segment ++ w' := hsegment
      _ = w ++ ((trim segment).takeWhile (!isBlank ·) ++ d :: (u ++ trim rest ++ u')) ++ w' := by
        rw [← hrest, ← hspec]
      _ = _ := by simp

/-- A segment is read as a field if and only if it is a spelling of it, and the field is one that
can be told apart from its surroundings. -/
theorem ofSegment_eq_ok_iff {field : Field} {segment : List Char} :
    ofSegment segment = .ok field ↔ field.Solid ∧ field.Spelling segment :=
  ⟨spelling_of_ofSegment, fun ⟨h, hs⟩ ↦ ofSegment_of_spelling h hs⟩

theorem ofSegments_eq_ok_iff_spelling {segments : List (List Char)} {fields : List Field} :
    ofSegments segments = .ok fields ↔
      (∀ field ∈ fields, field.Solid) ∧ List.Forall₂ Spelling fields segments := by
  rw [ofSegments_eq_ok_iff, ← List.forall₂_and_left]
  simp only [ofSegment_eq_ok_iff]

end Field

/-! ## One line -/

namespace Variant

/-- The line is the variant with blanks around its name, and the segments behind the colon are its
fields. -/
def Spelling (variant : Variant) (segments : List (List Char)) (line : String) : Prop :=
  ∃ w w' : List Char, w.all isBlank = true ∧ w'.all isBlank = true ∧
    List.Forall₂ Field.Spelling variant.fields segments ∧
    line.toList = w ++ variant.name.toList ++ w' ++ ':' :: [','].intercalate segments

/-- A line is read behind its first colon. -/
theorem read_of_toList {line : String} {name list : List Char} (hname : ':' ∉ name)
    (hline : line.toList = name ++ ':' :: list) :
    read line =
      if (trim name).isEmpty then .error .emptyVariantName
      else (readFields list).map fun fields ↦ ⟨String.ofList (trim name), fields⟩ := by
  have hne : ∀ c ∈ name, (c != ':') = true := by
    intro c hc
    simpa using ne_of_mem_of_not_mem hc hname
  have hdrop : line.toList.dropWhile (· != ':') = ':' :: list := by
    rw [hline, List.dropWhile_append_of_pos hne, List.dropWhile_cons_of_neg (by simp)]
  have htake : line.toList.takeWhile (· != ':') = name := by
    rw [hline, List.takeWhile_append_of_pos hne, List.takeWhile_cons_of_neg (by simp),
      List.append_nil]
  simp only [read, hdrop, htake]
  split
  · rfl
  · cases readFields list <;> rfl

theorem exists_colon_of_read_eq_ok {line : String} {variant : Variant}
    (h : read line = .ok variant) :
    ∃ name list, ':' ∉ name ∧ line.toList = name ++ ':' :: list := by
  rw [read] at h
  split at h
  · exact absurd h (by simp)
  next c list hdrop =>
  obtain rfl : c = ':' := by
    have hhead := List.head?_dropWhile_not (· != ':') line.toList
    simpa [hdrop] using hhead
  refine ⟨line.toList.takeWhile (· != ':'), list, fun hmem ↦ ?_, ?_⟩
  · simpa using List.all_eq_true.mp List.all_takeWhile _ hmem
  · rw [← hdrop, List.takeWhile_append_dropWhile]

theorem readFields_eq_ok_iff {list : List Char} {fields : List Field} :
    readFields list = .ok fields ↔
      ∃ segments, segments ≠ [] ∧ Nesting.start.areFields segments = true ∧
        list = [','].intercalate segments ∧ Field.ofSegments segments = .ok fields := by
  rw [readFields]
  cases hsegments : segments list with
  | error segment =>
    have hnone : ∀ ss, ¬segmentsFrom .start [] list = .ok ss := by
      intro ss hss
      rw [← segments, hsegments] at hss
      exact absurd hss (by simp)
    simp only [reduceCtorEq, false_iff]
    rintro ⟨ss, hne, hss, hlist, -⟩
    exact hnone ss (segmentsFrom_eq_ok_iff.mpr ⟨hne, hss, hlist⟩)
  | ok ss =>
    obtain ⟨hne, hss, hlist⟩ := segmentsFrom_eq_ok_iff.mp hsegments
    constructor
    · exact fun h ↦ ⟨ss, hne, hss, hlist, h⟩
    · rintro ⟨ss', hne', hss', hlist', h⟩
      have hsame := segmentsFrom_eq_ok_iff.mpr ⟨hne', hss', hlist'⟩
      rw [← segments, hsegments] at hsame
      obtain rfl := Except.ok.inj hsame
      exact h

/-- What reading guarantees about a variant. -/
structure Solid (variant : Variant) : Prop where
  /-- The variant has a name. -/
  name_ne : variant.name ≠ ""
  /-- No blank stands at either end of the name. -/
  name_trimmed : Trimmed variant.name.toList
  /-- No colon stands in the name. -/
  name_colon : ':' ∉ variant.name.toList
  /-- The variant has a field. -/
  fields_ne : variant.fields ≠ []
  /-- Its fields can be told apart. -/
  fields_solid : ∀ field ∈ variant.fields, field.Solid

theorem colon_not_mem_of_padded {name w w' : List Char} (hcolon : ':' ∉ name)
    (hw : w.all isBlank = true) (hw' : w'.all isBlank = true) : ':' ∉ w ++ name ++ w' := by
  have hblank : ∀ u : List Char, u.all isBlank = true → ':' ∉ u := by
    intro u hu hmem
    exact absurd (List.all_eq_true.mp hu _ hmem) (by decide)
  simp [hcolon, hblank w hw, hblank w' hw']

/-- The padding of a variant's name does not matter. -/
theorem read_of_padded {line name : String} {w w' list : List Char} (hne : name ≠ "")
    (htrimmed : Trimmed name.toList) (hcolon : ':' ∉ name.toList) (hw : w.all isBlank = true)
    (hw' : w'.all isBlank = true)
    (hline : line.toList = w ++ name.toList ++ w' ++ ':' :: list) :
    read line = (readFields list).map fun fields ↦ ⟨name, fields⟩ := by
  rw [read_of_toList (colon_not_mem_of_padded hcolon hw hw') hline,
    trim_append_append hw hw' htrimmed, String.ofList_toList,
    if_neg (by simpa [List.isEmpty_iff] using hne)]

theorem read_of_spelling {line : String} {variant : Variant} {segments : List (List Char)}
    (h : variant.Solid) (hfields : Nesting.start.areFields segments = true)
    (hs : variant.Spelling segments line) : read line = .ok variant := by
  obtain ⟨w, w', hw, hw', hsegments, hline⟩ := hs
  have hne : segments ≠ [] := by
    rintro rfl
    exact h.fields_ne (List.forall₂_nil_right_iff.mp hsegments)
  have hread : readFields ([','].intercalate segments) = .ok variant.fields :=
    readFields_eq_ok_iff.mpr ⟨segments, hne, hfields, rfl,
      Field.ofSegments_eq_ok_iff_spelling.mpr ⟨h.fields_solid, hsegments⟩⟩
  rw [read_of_padded h.name_ne h.name_trimmed h.name_colon hw hw' hline, hread]
  rfl

theorem spelling_of_read {line : String} {variant : Variant} (h : read line = .ok variant) :
    variant.Solid ∧ ∃ segments, Nesting.start.areFields segments = true ∧
      variant.Spelling segments line := by
  obtain ⟨name, list, hcolon, hline⟩ := exists_colon_of_read_eq_ok h
  rw [read_of_toList hcolon hline] at h
  split at h
  · exact absurd h (by simp)
  next hname =>
  cases hread : readFields list with
  | error reason =>
    rw [hread] at h
    exact absurd h (by simp [Except.map])
  | ok fields =>
    rw [hread] at h
    obtain rfl := Except.ok.inj h
    obtain ⟨segments, hne, hfields, rfl, hsegments⟩ := readFields_eq_ok_iff.mp hread
    obtain ⟨hsolid, hspelling⟩ := Field.ofSegments_eq_ok_iff_spelling.mp hsegments
    obtain ⟨w, w', hw, hw', htrim⟩ := exists_trim name
    refine ⟨⟨?_, ?_, ?_, ?_, hsolid⟩, segments, hfields, w, w', hw, hw', hspelling, ?_⟩
    · rw [ne_eq, String.ofList_eq_empty_iff, ← List.isEmpty_iff]
      exact hname
    · rw [String.toList_ofList]
      exact trimmed_trim name
    · intro hmem
      rw [String.toList_ofList] at hmem
      refine hcolon ?_
      rw [htrim]
      exact List.mem_append_left _ (List.mem_append_right _ hmem)
    · rintro rfl
      exact hne (List.forall₂_nil_left_iff.mp hspelling)
    · rw [String.toList_ofList, ← htrim, hline]

/-- A line is read as a variant if and only if it is a spelling of it with segments that are whole
fields where they stand. -/
theorem read_eq_ok_iff {line : String} {variant : Variant} :
    read line = .ok variant ↔
      variant.Solid ∧ ∃ segments, Nesting.start.areFields segments = true ∧
        variant.Spelling segments line :=
  ⟨spelling_of_read, fun ⟨h, _, hfields, hs⟩ ↦ read_of_spelling h hfields hs⟩

/-- A line that is read consists of the parts of its variant, of blanks and of separators, and
nothing else. The separators behind the colon are the commas outside brackets. -/
theorem parts_of_read {line : String} {variant : Variant} (h : read line = .ok variant) :
    variant.Solid ∧ ∃ segments, segments.length = variant.fields.length ∧
      variant.Spelling segments line ∧ CommasSeparate segments := by
  obtain ⟨hsolid, segments, hfields, hspelling⟩ := spelling_of_read h
  have hlength : segments.length = variant.fields.length := by
    obtain ⟨-, -, -, -, hsegments, -⟩ := hspelling
    exact hsegments.length_eq.symm
  exact ⟨hsolid, segments, hlength, hspelling, commasSeparate_of_areFields hfields⟩

/-- Brackets in a name, a comma within them and blanks of several kinds. -/
theorem parts_of_read_nested :
    read "\tCall :\u00a0f<a,b\u2003Fn(x, y) -> z>\u3000,g [u8] " =
        .ok ⟨"Call", [⟨"f<a,b", "Fn(x, y) -> z>"⟩, ⟨"g", "[u8]"⟩]⟩ ∧
      (⟨"Call", [⟨"f<a,b", "Fn(x, y) -> z>"⟩, ⟨"g", "[u8]"⟩]⟩ : Variant).Solid ∧
      ∃ segments, segments.length = 2 ∧
        (⟨"Call", [⟨"f<a,b", "Fn(x, y) -> z>"⟩, ⟨"g", "[u8]"⟩]⟩ : Variant).Spelling segments
          "\tCall :\u00a0f<a,b\u2003Fn(x, y) -> z>\u3000,g [u8] " ∧
        CommasSeparate segments :=
  ⟨rfl, parts_of_read rfl⟩

end Variant

end AstSchema
