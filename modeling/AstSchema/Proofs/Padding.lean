import AstSchema.Compilation
import AstSchema.Proofs.Spelling
import Mathlib.Data.List.Chain

/-!
# Padding never matters

A variant is well formed when every spelling of it is read back as it. The condition is local to
the parts of the variant: the name of a field holds no bracket and no comma, so that whatever the
field list has in front of a type leaves its brackets alone, and the type is balanced on its own.
What a scan remembers of the text in front of the type is then only that no bracket is open, and
the blanks in front of the type see to it that no hyphen stands there.

The line is thus determined by the variant up to padding, and since compiling reads every line on
its own, lines that differ in padding compile alike in every schema.
-/

namespace AstSchema

open AstSchema.Text

/-! ## Well-formed fields and variants -/

/-- A field that is read back from all its spellings. -/
structure Field.WellFormed (field : Field) : Prop where
  /-- The field has a name. -/
  name_ne : field.name ≠ ""
  /-- No blank, comma or bracket stands in the name. -/
  name_chars : ∀ c ∈ field.name.toList,
    isBlank c = false ∧ c ∉ [',', '<', '>', '(', ')', '[', ']']
  /-- The field has a type. -/
  type_ne : field.type ≠ ""
  /-- No blank stands at either end of the type. -/
  type_trimmed : Trimmed field.type.toList
  /-- The brackets of the type match. -/
  type_balanced : isBalanced field.type.toList = true
  /-- The commas of the type stand inside brackets. -/
  type_commas : Nesting.start.CommasInside field.type.toList
  /-- Every word of the type outside brackets is joined to the next one. -/
  type_joined : (TypeText.words field.type.toList).IsChain
    fun word next ↦ TypeText.joined word next = true

/-- A variant that is read back from all its spellings. -/
structure Variant.WellFormed (variant : Variant) : Prop where
  /-- The variant has a name. -/
  name_ne : variant.name ≠ ""
  /-- No blank stands at either end of the name. -/
  name_trimmed : Trimmed variant.name.toList
  /-- No colon stands in the name. -/
  name_colon : ':' ∉ variant.name.toList
  /-- The variant has a field. -/
  fields_ne : variant.fields ≠ []
  /-- Its fields are well formed. -/
  fields_wellFormed : ∀ field ∈ variant.fields, field.WellFormed

theorem TypeText.hasGap_eq_false_iff {ws : List (List Char)} :
    hasGap ws = false ↔ ws.IsChain fun word next ↦ joined word next = true := by
  induction ws with
  | nil => simp [hasGap]
  | cons word rest ih =>
    cases rest with
    | nil => simp [hasGap]
    | cons next rest =>
      rw [hasGap, List.isChain_cons_cons, Bool.or_eq_false_iff, ih, Bool.not_eq_false']

theorem Field.WellFormed.solid {field : Field} (h : field.WellFormed) : field.Solid where
  name_ne := h.name_ne
  name_solid := fun c hc ↦ (h.name_chars c hc).1
  type_ne := h.type_ne
  type_trimmed := h.type_trimmed
  type_joined := TypeText.hasGap_eq_false_iff.mpr h.type_joined

theorem Variant.WellFormed.solid {variant : Variant} (h : variant.WellFormed) :
    variant.Solid where
  name_ne := h.name_ne
  name_trimmed := h.name_trimmed
  name_colon := h.name_colon
  fields_ne := h.fields_ne
  fields_solid := fun field hfield ↦ (h.fields_wellFormed field hfield).solid

/-! ## Spellings are whole fields -/

/-- A text is a whole field on its own if and only if it is balanced and its commas stand inside
brackets. -/
theorem isField_start_iff {cs : List Char} :
    Nesting.start.isField cs = true ↔
      isBalanced cs = true ∧ Nesting.start.CommasInside cs := by
  rw [Nesting.isField_iff, Nesting.inField_iff, isBalanced]
  cases hscan : Nesting.start.scan? cs with
  | none => simp
  | some m =>
    obtain rfl := Nesting.eq_after_of_scan? hscan
    rw [and_iff_right rfl]
    exact and_comm

/-- Outside brackets, a spelling of a well-formed field is a whole field whatever stands in front
of it. -/
theorem Field.WellFormed.isField {field : Field} (h : field.WellFormed) {segment : List Char}
    (hs : field.Spelling segment) {n : Nesting} (hn : n.enclosing = []) :
    n.isField segment = true := by
  obtain ⟨a, b, c, ha, hb, hc, hbne, rfl⟩ := hs
  have hname : field.name.toList.all isPlain = true :=
    List.all_eq_true.mpr fun d hd ↦ isPlain_iff.mpr (h.name_chars d hd).2
  have hfront : (a ++ field.name.toList ++ b).all isPlain = true := by
    simp only [List.all_append, all_isPlain_of_isBlank ha, all_isPlain_of_isBlank hb, hname,
      Bool.and_self]
  have hopen : (n.after (a ++ field.name.toList ++ b)).enclosing = [] := by
    rw [Nesting.enclosing_after_of_isPlain hfront, hn]
  -- The blanks in front of the type leave no hyphen behind, so the type is scanned as on its own.
  have hlast : (n.after (a ++ field.name.toList ++ b)).last ≠ some '-' := by
    rw [Nesting.after_append]
    exact Nesting.last_after_ne_hyphen hb hbne
  have hagree := Nesting.agree_of_ne_hyphen (n := .start) hopen.symm (by decide) hlast
    field.type.toList.head?
  rw [Nesting.isField_append_of_isBlank hc, Nesting.isField_append,
    Nesting.inField_of_isPlain hfront, ← hagree.isField_eq,
    isField_start_iff.mpr ⟨h.type_balanced, h.type_commas⟩]
  rfl

theorem areFields_of_spelling {fields : List Field} (h : ∀ field ∈ fields, field.WellFormed)
    {segments : List (List Char)} (hs : List.Forall₂ Field.Spelling fields segments)
    {n : Nesting} (hn : n.enclosing = []) : n.areFields segments = true := by
  induction hs generalizing n with
  | nil => rfl
  | cons hspelling _ ih =>
    have hfield := (h _ List.mem_cons_self).isField hspelling hn
    have htop := (Nesting.isField_iff.mp hfield).2
    exact Nesting.areFields_cons.mpr ⟨hfield,
      ih (fun field hmem ↦ h field (List.mem_cons_of_mem _ hmem)) (Nesting.atTop_iff.mp htop)⟩

theorem Variant.read_of_wellFormed {variant : Variant} (h : variant.WellFormed)
    {segments : List (List Char)} {line : String} (hs : variant.Spelling segments line) :
    read line = .ok variant := by
  obtain ⟨_, _, _, _, hsegments, _⟩ := id hs
  exact read_of_spelling h.solid (areFields_of_spelling h.fields_wellFormed hsegments rfl) hs

/-- Whether a field is well formed can be computed: the scan of its type checks the brackets and the
commas in one. -/
theorem Field.wellFormed_iff {field : Field} :
    field.WellFormed ↔ field.name ≠ "" ∧
      (field.name.toList.all fun c ↦ !isBlank c && isPlain c) = true ∧ field.type ≠ "" ∧
      Trimmed field.type.toList ∧ Nesting.start.isField field.type.toList = true ∧
      TypeText.runsOn field.type.toList = false := by
  constructor
  · intro h
    refine ⟨h.name_ne, List.all_eq_true.mpr fun c hc ↦ ?_, h.type_ne, h.type_trimmed,
      isField_start_iff.mpr ⟨h.type_balanced, h.type_commas⟩, h.solid.type_joined⟩
    rw [(h.name_chars c hc).1, isPlain_iff.mpr (h.name_chars c hc).2]
    rfl
  · rintro ⟨hname, hchars, htype, htrimmed, hfield, hjoined⟩
    obtain ⟨hbalanced, hcommas⟩ := isField_start_iff.mp hfield
    refine ⟨hname, fun c hc ↦ ?_, htype, htrimmed, hbalanced, hcommas,
      TypeText.hasGap_eq_false_iff.mp hjoined⟩
    have hc := List.all_eq_true.mp hchars c hc
    rw [Bool.and_eq_true, Bool.not_eq_true'] at hc
    exact ⟨hc.1, isPlain_iff.mp hc.2⟩

instance (field : Field) : Decidable field.WellFormed := decidable_of_iff' _ Field.wellFormed_iff

/-! ## Lines that are read alike -/

theorem Variant.readFrom_congr {line line' : String} (h : read line = read line')
    (before behind : List String) (k : Nat) :
    readFrom k (before ++ line :: behind) = readFrom k (before ++ line' :: behind) := by
  induction before generalizing k with
  | nil => rw [List.nil_append, List.nil_append, readFrom, readFrom, h]
  | cons first before ih =>
    rw [List.cons_append, List.cons_append, readFrom, readFrom, ih]

theorem compileWith_congr {line line' : String} (h : Variant.read line = Variant.read line')
    (preamble : Preamble) (base : String) (before behind : List String) :
    compileWith preamble base (before ++ line :: behind) =
      compileWith preamble base (before ++ line' :: behind) := by
  rw [compileWith, compileWith, Schema.read, Schema.read, Variant.readFrom_congr h]

/-- **Padding never matters.** A line of a well-formed variant is read back as the variant, and any
other padding of the line compiles to the same in every place of every schema. -/
theorem Variant.read_of_padding {variant : Variant} (h : variant.WellFormed)
    {segments : List (List Char)} {line : String} (hs : variant.Spelling segments line) :
    read line = .ok variant ∧
      ∀ segments' line', variant.Spelling segments' line' →
        ∀ preamble base before behind,
          compileWith preamble base (before ++ line :: behind) =
            compileWith preamble base (before ++ line' :: behind) := by
  have hread := read_of_wellFormed h hs
  refine ⟨hread, fun segments' line' hs' preamble base before behind ↦ ?_⟩
  exact compileWith_congr (hread.trans (read_of_wellFormed h hs').symm) preamble base before behind

/-- An arrow and a comma inside brackets, with and without padding. -/
theorem Variant.read_of_padding_arrow :
    (⟨"Map", [⟨"f", "fn(A, B) -> & mut C"⟩]⟩ : Variant).WellFormed ∧
      (⟨"Map", [⟨"f", "fn(A, B) -> & mut C"⟩]⟩ : Variant).Spelling
        [" f\t\u3000fn(A, B) -> & mut C\n".toList] "Map\u00a0: f\t\u3000fn(A, B) -> & mut C\n" ∧
      read "Map\u00a0: f\t\u3000fn(A, B) -> & mut C\n" =
        .ok ⟨"Map", [⟨"f", "fn(A, B) -> & mut C"⟩]⟩ ∧
      compile "Fn" ["Map\u00a0: f\t\u3000fn(A, B) -> & mut C\n"] =
        compile "Fn" ["Map:f fn(A, B) -> & mut C"] := by
  have hname : ∀ c ∈ "f".toList,
      isBlank c = false ∧ c ∉ [',', '<', '>', '(', ')', '[', ']'] := by
    intro c hc
    obtain rfl : c = 'f' := by simpa using hc
    decide
  have hfield : (⟨"f", "fn(A, B) -> & mut C"⟩ : Field).WellFormed :=
    ⟨by decide, hname, by decide, by decide, rfl, (Nesting.inField_iff.mp rfl).2,
      TypeText.hasGap_eq_false_iff.mp rfl⟩
  have hvariant : (⟨"Map", [⟨"f", "fn(A, B) -> & mut C"⟩]⟩ : Variant).WellFormed :=
    ⟨by decide, by decide, by decide, by decide, fun field hmem ↦ by
      rw [List.mem_singleton.mp hmem]
      exact hfield⟩
  have hspelling : (⟨"Map", [⟨"f", "fn(A, B) -> & mut C"⟩]⟩ : Variant).Spelling
      [" f\t\u3000fn(A, B) -> & mut C\n".toList] "Map\u00a0: f\t\u3000fn(A, B) -> & mut C\n" :=
    ⟨[], ['\u00a0'], by decide, by decide,
      .cons ⟨[' '], ['\t', '\u3000'], ['\n'], by decide, by decide, by decide, by decide, by simp⟩
        .nil, by simp⟩
  have hother : (⟨"Map", [⟨"f", "fn(A, B) -> & mut C"⟩]⟩ : Variant).Spelling
      ["f fn(A, B) -> & mut C".toList] "Map:f fn(A, B) -> & mut C" :=
    ⟨[], [], by decide, by decide,
      .cons ⟨[], [' '], [], by decide, by decide, by decide, by decide, by simp⟩ .nil, by simp⟩
  obtain ⟨hread, hcompile⟩ := read_of_padding hvariant hspelling
  exact ⟨hvariant, hspelling, hread, hcompile _ _ hother {} "Fn" [] []⟩

end AstSchema
