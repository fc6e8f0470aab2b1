import AstSchema.Proofs.Words

/-!
# A lost comma is found

Where the comma between two fields is missing, the second one is read as part of the first one's
type. Nothing but the words of that type can tell. Its brackets still match and the comma behind it
still ends it, so the line is cut into its fields as before, but for the two that have become one.

The words of the longer type are those of the first field's type, the name of the second field and
the words behind that. So the one place where neighbours may fail to be joined is in front of the
name, and unless one of the two words there joins them, there is a gap. All fields in front are
read, and the name that is reported is that of the first of the two fields.
-/

namespace AstSchema

open AstSchema.Text

/-! ## The words of the longer type -/

theorem TypeText.words_ne_nil {type : List Char} (hne : type ≠ []) (htrimmed : Trimmed type) :
    words type ≠ [] := by
  obtain ⟨c, cs, rfl⟩ := List.exists_cons_of_ne_nil hne
  obtain ⟨tail, rest, heq⟩ := exists_wordsFrom_cons (n := .start) (htrimmed.1 c rfl) cs
  rw [words, heq]
  exact List.cons_ne_nil _ _

/-- Behind the words of a balanced type and a blank, a name is the next word. -/
theorem TypeText.words_append_name {type u name b : List Char}
    (hbalanced : isBalanced type = true) (hu : u.all isBlank = true) (hune : u ≠ [])
    (hname : ∀ c ∈ name, isBlank c = false ∧ isPlain c = true) (hne : name ≠ [])
    (hb : b.all isBlank = true) (hbne : b ≠ []) (rest : List Char) :
    ∃ more, words (type ++ u ++ name ++ b ++ rest) = words type ++ name :: more := by
  have hsolid : ∀ c ∈ name, isBlank c = false := fun c hc ↦ (hname c hc).1
  have hplain : name.all isPlain = true := List.all_eq_true.mpr fun c hc ↦ (hname c hc).2
  obtain ⟨d, u, rfl⟩ := List.exists_cons_of_ne_nil hune
  obtain ⟨e, b, rfl⟩ := List.exists_cons_of_ne_nil hbne
  rw [List.all_cons, Bool.and_eq_true] at hu hb
  -- The scan for words is outside brackets behind the type, and again behind the name.
  have htype : (Nesting.start.afterWords type).atTop = true := by
    rw [isBalanced] at hbalanced
    split at hbalanced
    · next n hscan =>
      have hfollows : Nesting.start.Follows .start := ⟨rfl, .inl rfl⟩
      obtain ⟨henclosing, -⟩ := (hfollows.scan hscan).2
      rwa [Nesting.atTop, ← henclosing]
    · cases hbalanced
  have hbehind : ((Nesting.start.afterWords type).afterWords name).atTop = true := by
    rw [Nesting.afterWords_of_solid hsolid, Nesting.atTop,
      Nesting.enclosing_after_of_isPlain hplain]
    exact htype
  have htext : type ++ d :: u ++ name ++ e :: b ++ rest =
      type ++ d :: (u ++ (name ++ e :: (b ++ rest))) := by simp
  refine ⟨wordsFrom ((Nesting.start.afterWords type).afterWords name) [] (b ++ rest), ?_⟩
  rw [htext, words, wordsFrom_append_blank htype hu.1, wordsFrom_append_of_isBlank htype hu.2,
    wordsFrom_append_blank hbehind hb.1, wordsFrom_solid hsolid (.inl hne)]
  rfl

/-! ## Two fields in one segment -/

section

variable {field next : Field} {gap segment segment' : List Char}

/-- Two segments with blanks between them are cut at the first blank of the first one. -/
theorem Field.exists_cutFrom_append (hfield : field.WellFormed) (hnext : next.WellFormed)
    (hs : field.Spelling segment) (hs' : next.Spelling segment') (hgap : gap.all isBlank = true)
    (hne : gap ≠ []) :
    ∃ u b : List Char, u.all isBlank = true ∧ u ≠ [] ∧ b.all isBlank = true ∧ b ≠ [] ∧
      (⟨field.name, String.ofList
        (field.type.toList ++ u ++ next.name.toList ++ b ++ next.type.toList)⟩ : Field).CutFrom
          (segment ++ gap ++ segment') := by
  obtain ⟨a, b, c, ha, hb, hc, hbne, rfl⟩ := hs
  obtain ⟨a', b', c', ha', hb', hc', hbne', rfl⟩ := hs'
  have htype : field.type.toList ≠ [] := fun e ↦ hfield.type_ne (String.toList_eq_nil_iff.mp e)
  have htype' : next.type.toList ≠ [] := fun e ↦ hnext.type_ne (String.toList_eq_nil_iff.mp e)
  refine ⟨c ++ gap ++ a', b', by simp [hc, hgap, ha'], by simp [hne], hb', hbne', ?_⟩
  refine ⟨hfield.name_ne, fun c hc ↦ (hfield.name_chars c hc).1, ?_, ?_,
    a, b, c', ha, hb, hc', hbne, by simp⟩
  · simp [String.ofList_eq_empty_iff, hfield.type_ne]
  · have htrimmed := trimmed_append_append htype htype' hfield.type_trimmed.1
      hnext.type_trimmed.2 (c ++ gap ++ a' ++ next.name.toList ++ b')
    simpa using htrimmed

/-- Two segments with blanks between them are read as one field without a comma behind it, unless
the word in front of the blanks or the one behind them joins its neighbours. -/
theorem Field.ofSegment_append (hfield : field.WellFormed) (hnext : next.WellFormed)
    (hlast : ∀ word ∈ (TypeText.words field.type.toList).getLast?,
      TypeText.isJoint word = false ∧ TypeText.announces word = false)
    (hname : TypeText.isJoint next.name.toList = false) (hs : field.Spelling segment)
    (hs' : next.Spelling segment') (hgap : gap.all isBlank = true) (hne : gap ≠ []) :
    ofSegment (segment ++ gap ++ segment') = .error (.missingComma field.name) := by
  obtain ⟨u, b, hu, hune, hb, hbne, hcut⟩ :=
    exists_cutFrom_append hfield hnext hs hs' hgap hne
  have hnextname : next.name.toList ≠ [] := fun e ↦ hnext.name_ne (String.toList_eq_nil_iff.mp e)
  have hchars : ∀ c ∈ next.name.toList, isBlank c = false ∧ isPlain c = true := fun c hc ↦
    ⟨(hnext.name_chars c hc).1, isPlain_iff.mpr (hnext.name_chars c hc).2⟩
  obtain ⟨more, hwords⟩ := TypeText.words_append_name hfield.type_balanced hu hune hchars
    hnextname hb hbne next.type.toList
  have htype : TypeText.words field.type.toList ≠ [] :=
    TypeText.words_ne_nil (fun e ↦ hfield.type_ne (String.toList_eq_nil_iff.mp e))
      hfield.type_trimmed
  have hmem := List.getLast?_eq_some_getLast htype
  obtain ⟨hjoint, hannounces⟩ := hlast _ hmem
  have hruns : TypeText.runsOn
      (field.type.toList ++ u ++ next.name.toList ++ b ++ next.type.toList) = true := by
    rw [TypeText.runsOn, hwords]
    refine TypeText.hasGap_append hmem rfl ?_
    rw [TypeText.joined, hname, hjoint, hannounces]
    rfl
  rw [ofSegment_of_cutFrom hcut, String.toList_ofList, hruns, if_pos rfl]

/-- The brackets of the two segments match as before. -/
theorem Field.isField_append (hfield : field.WellFormed) (hnext : next.WellFormed)
    (hs : field.Spelling segment) (hs' : next.Spelling segment') (hgap : gap.all isBlank = true)
    {n : Nesting} (hn : n.enclosing = []) : n.isField (segment ++ gap ++ segment') = true := by
  have hfront : n.isField (segment ++ gap) = true := by
    rw [Nesting.isField_append_of_isBlank hgap]
    exact hfield.isField hs hn
  obtain ⟨hin, htop⟩ := Nesting.isField_iff.mp hfront
  rw [Nesting.isField_append, hin, hnext.isField hs' (Nesting.atTop_iff.mp htop)]
  rfl

end

/-! ## Lists with a lost comma -/

/-- Joined texts stay joined where two of them become one. -/
theorem intercalate_merged (ss ss' : List (List Char)) (segment gap segment' : List Char) :
    [','].intercalate (ss ++ [segment]) ++ gap ++ [','].intercalate (segment' :: ss') =
      [','].intercalate (ss ++ (segment ++ gap ++ segment') :: ss') := by
  rw [intercalate_append_cons, intercalate_append_cons]
  cases ss' with
  | nil => simp
  | cons next ss' => simp [List.intercalate_cons_cons]

/-- The fields in front are read, and the two that have become one are the first fault. -/
theorem Variant.readFields_merged {before behind : List Field} {ss ss' : List (List Char)}
    {merged : List Char} {reason : Malformation} (hbefore : ∀ f ∈ before, f.WellFormed)
    (hbehind : ∀ f ∈ behind, f.WellFormed) (hss : List.Forall₂ Field.Spelling before ss)
    (hss' : List.Forall₂ Field.Spelling behind ss')
    (hfield : ∀ n : Nesting, n.enclosing = [] → n.isField merged = true)
    (hmerged : Field.ofSegment merged = .error reason) :
    readFields ([','].intercalate (ss ++ merged :: ss')) = .error reason := by
  have hfront : Nesting.start.areFields ss = true := areFields_of_spelling hbefore hss rfl
  have htop := Nesting.atTop_after_flatten Nesting.atTop_start hfront
  have hmiddle := hfield _ (Nesting.atTop_iff.mp htop)
  have hrear := areFields_of_spelling hbehind hss'
    (Nesting.atTop_iff.mp (Nesting.isField_iff.mp hmiddle).2)
  have hall : Nesting.start.areFields (ss ++ merged :: ss') = true := by
    rw [Nesting.areFields_append, hfront, Nesting.areFields_cons.mpr ⟨hmiddle, hrear⟩]
    rfl
  have hsegments : segments ([','].intercalate (ss ++ merged :: ss')) = .ok (ss ++ merged :: ss') :=
    segmentsFrom_eq_ok_iff.mpr ⟨by simp, hall, rfl⟩
  have hread : Field.ofSegments ss = .ok before :=
    Field.ofSegments_eq_ok_iff_spelling.mpr ⟨fun f hf ↦ (hbefore f hf).solid, hss⟩
  rw [readFields, hsegments]
  simp only [Field.ofSegments_append hread, Field.ofSegments_cons, hmerged]
  rfl

/-! ## Lines -/

/-- The line lists the fields of `front` and of `behind` with `gap` between the two, where their
comma belongs. -/
def Variant.SpellingWith (name : String) (gap : List Char) (front behind : List Field)
    (line : String) : Prop :=
  ∃ (w w' : List Char) (ss ss' : List (List Char)), w.all isBlank = true ∧ w'.all isBlank = true ∧
    List.Forall₂ Field.Spelling front ss ∧ List.Forall₂ Field.Spelling behind ss' ∧
    line.toList = w ++ name.toList ++ w' ++
      ':' :: ([','].intercalate ss ++ gap ++ [','].intercalate ss')

variable {name : String} {before behind : List Field} {field next : Field}

/-- With a comma between the two parts, the line is one of the variant. -/
theorem Variant.exists_spelling_of_comma {line : String}
    (h : SpellingWith name [','] (before ++ [field]) (next :: behind) line) :
    ∃ segments, (⟨name, before ++ [field] ++ next :: behind⟩ : Variant).Spelling segments line := by
  obtain ⟨w, w', ss, ss', hw, hw', hss, hss', hline⟩ := h
  refine ⟨ss ++ ss', w, w', hw, hw', List.rel_append hss hss', ?_⟩
  obtain ⟨segment', ss', -, -, rfl⟩ := List.forall₂_cons_left_iff.mp hss'
  have hne : ss ≠ [] := by
    rintro rfl
    simpa using hss.length_eq
  rw [intercalate_append_cons, ← intercalate_append_comma hne, hline]

theorem exists_of_forall₂_concat {α β : Type} {R : α → β → Prop} {as : List α} {a : α}
    {bs : List β} (h : List.Forall₂ R (as ++ [a]) bs) :
    ∃ bs' b, bs = bs' ++ [b] ∧ List.Forall₂ R as bs' ∧ R a b := by
  have htake := List.forall₂_take_append bs as [a] h.flip
  have hdrop := List.forall₂_drop_append bs as [a] h.flip
  obtain ⟨b, rest, hb, hrest, heq⟩ := List.forall₂_cons_right_iff.mp hdrop
  obtain rfl := List.forall₂_nil_right_iff.mp hrest
  exact ⟨bs.take as.length, b, by rw [← heq, List.take_append_drop], htake.flip, hb⟩

/-- **A lost comma is found.** A line of well-formed fields is read as its variant. With blanks in
place of a comma it is rejected with the name of the field in front of them, unless the last word of
its type or the name behind the blanks may stand within a type. -/
theorem Variant.read_of_lost_comma
    (h : (⟨name, before ++ [field] ++ next :: behind⟩ : Variant).WellFormed)
    (hlast : ∀ word ∈ (TypeText.words field.type.toList).getLast?,
      TypeText.isJoint word = false ∧ TypeText.announces word = false)
    (hnext : TypeText.isJoint next.name.toList = false) :
    (∀ line, SpellingWith name [','] (before ++ [field]) (next :: behind) line →
      read line = .ok ⟨name, before ++ [field] ++ next :: behind⟩) ∧
    ∀ gap line, gap.all isBlank = true → gap ≠ [] →
      SpellingWith name gap (before ++ [field]) (next :: behind) line →
      read line = .error (.missingComma field.name) := by
  have hfields := h.fields_wellFormed
  constructor
  · intro line hline
    obtain ⟨segments, hs⟩ := exists_spelling_of_comma hline
    exact read_of_wellFormed h hs
  · intro gap line hgap hne hline
    have hbefore : ∀ f ∈ before, f.WellFormed := fun f hf ↦ hfields f (by simp [hf])
    have hfield : field.WellFormed := hfields field (by simp)
    have hnextfield : next.WellFormed := hfields next (by simp)
    have hbehind : ∀ f ∈ behind, f.WellFormed := fun f hf ↦ hfields f (by simp [hf])
    obtain ⟨w, w', _, _, hw, hw', hfront, hrear, hline⟩ := hline
    obtain ⟨ss, segment, rfl, hss, hs⟩ := exists_of_forall₂_concat hfront
    obtain ⟨segment', ss', hs', hss', rfl⟩ := List.forall₂_cons_left_iff.mp hrear
    rw [intercalate_merged] at hline
    have hread := readFields_merged hbefore hbehind hss hss'
      (fun n hn ↦ Field.isField_append hfield hnextfield hs hs' hgap hn)
      (Field.ofSegment_append hfield hnextfield hlast hnext hs hs' hgap hne)
    rw [read_of_padded h.name_ne h.name_trimmed h.name_colon hw hw' hline, hread]
    rfl

/-- Brackets, a plus and an arrow in front of the lost comma and a prefix behind it. -/
theorem Variant.read_of_lost_comma_bounds :
    read "Hook: a Int, f Box<dyn Fn(A, B) -> C> + 'a Send, t & mut T, z Z" =
        .ok ⟨"Hook", [⟨"a", "Int"⟩, ⟨"f", "Box<dyn Fn(A, B) -> C> + 'a Send"⟩, ⟨"t", "& mut T"⟩,
          ⟨"z", "Z"⟩]⟩ ∧
      read "Hook: a Int, f Box<dyn Fn(A, B) -> C> + 'a Send\n\u00a0 t & mut T, z Z" =
        .error (.missingComma "f") := by
  have hvariant : (⟨"Hook", [⟨"a", "Int"⟩] ++ [⟨"f", "Box<dyn Fn(A, B) -> C> + 'a Send"⟩] ++
      ⟨"t", "& mut T"⟩ :: [⟨"z", "Z"⟩]⟩ : Variant).WellFormed :=
    ⟨by decide, by decide, by decide, by decide, by decide⟩
  have hlast : ∀ word ∈
      (TypeText.words "Box<dyn Fn(A, B) -> C> + 'a Send".toList).getLast?,
      TypeText.isJoint word = false ∧ TypeText.announces word = false := by decide
  have hfront : List.Forall₂ Field.Spelling
      ([⟨"a", "Int"⟩] ++ [⟨"f", "Box<dyn Fn(A, B) -> C> + 'a Send"⟩])
      [" a Int".toList, " f Box<dyn Fn(A, B) -> C> + 'a Send".toList] :=
    .cons ⟨[' '], [' '], [], by decide, by decide, by decide, by decide, by decide⟩
      (.cons ⟨[' '], [' '], [], by decide, by decide, by decide, by decide, by decide⟩ .nil)
  have hbehind : List.Forall₂ Field.Spelling (⟨"t", "& mut T"⟩ :: [⟨"z", "Z"⟩])
      [" t & mut T".toList, " z Z".toList] :=
    .cons ⟨[' '], [' '], [], by decide, by decide, by decide, by decide, by decide⟩
      (.cons ⟨[' '], [' '], [], by decide, by decide, by decide, by decide, by decide⟩ .nil)
  obtain ⟨hread, hreject⟩ := read_of_lost_comma hvariant hlast (by decide)
  exact ⟨hread _ ⟨[], [], _, _, rfl, rfl, hfront, hbehind, by decide⟩,
    hreject ['\n', '\u00a0'] _ (by decide) (by decide)
      ⟨[], [], _, _, rfl, rfl, hfront, hbehind, by decide⟩⟩

end AstSchema
