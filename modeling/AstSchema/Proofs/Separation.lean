import AstSchema.Proofs.Spelling

/-!
# Fields on two sides of a comma

The fields behind a comma are read as if the list started there, with one exception. The comma that
separates two fields is no part of the scan, so the scan still remembers the character in front of
it. Where that is a hyphen and the next list starts with a `>`, the two make an arrow across the
comma, and the `>` closes nothing although nothing in the text says `->`.

`Variant.readFields_append_comma` says that only the last character of the first list can matter,
and `Variant.read_append_comma_iff` when it does: an arrow across the comma hides the `>` that gets
the second list rejected on its own, and only a later `>` of the same kind gets the line rejected
in the same words.
-/

namespace AstSchema

open AstSchema.Text

/-- A hyphen ends the first list and a `>` starts the second, with only commas in front of it. -/
def ArrowAcross (first second : List Char) : Prop :=
  first.getLast? = some '-' ∧ (second.dropWhile (· == ',')).head? = some '>'

instance (first second : List Char) : Decidable (ArrowAcross first second) :=
  inferInstanceAs (Decidable (_ ∧ _))

/-! ## What the scan remembers at a comma -/

/-- The last character of a list of texts with commas between them is the last one of its texts. -/
theorem getLast?_intercalate {segments : List (List Char)} (h : ∀ s ∈ segments, s ≠ []) :
    ([','].intercalate segments).getLast? = segments.flatten.getLast? := by
  induction segments with
  | nil => rfl
  | cons segment rest ih =>
    have hrest := ih fun s hs ↦ h s (List.mem_cons_of_mem _ hs)
    cases rest with
    | nil => simp
    | cons next rest =>
      have hnext : (next :: rest).flatten ≠ [] := by
        simpa using fun e ↦ absurd e (h next (by simp))
      have hflatten : (segment :: next :: rest).flatten = segment ++ (next :: rest).flatten := rfl
      rw [List.intercalate_cons_cons, List.getLast?_append, hrest, hflatten,
        List.getLast?_append_of_ne_nil _ hnext, List.getLast?_eq_some_getLast hnext]
      rfl

theorem Field.ne_nil_of_ofSegment {segment : List Char} {field : Field}
    (h : ofSegment segment = .ok field) : segment ≠ [] := by
  rintro rfl
  exact absurd h (by simp [ofSegment, trim, trimStart, trimEnd])

/-- Behind a list that is read as fields, no bracket is open and the last character is that of the
list. -/
theorem after_fields {segments : List (List Char)} {fields : List Field}
    (hsegments : Nesting.start.areFields segments = true)
    (hfields : Field.ofSegments segments = .ok fields) :
    Nesting.start.after segments.flatten = ⟨[], ([','].intercalate segments).getLast?⟩ := by
  have hne : ∀ s ∈ segments, s ≠ [] := by
    intro s hs
    obtain ⟨k, hk, rfl⟩ := List.getElem_of_mem hs
    have hfield := (Field.ofSegments_eq_ok_iff.mp hfields)
    have hk' : k < fields.length := hfield.length_eq ▸ hk
    exact Field.ne_nil_of_ofSegment (hfield.get hk' hk)
  have htop := Nesting.atTop_iff.mp
    (Nesting.atTop_after_flatten (Nesting.atTop_start) hsegments)
  have hlast := Nesting.last_after .start segments.flatten
  rw [← getLast?_intercalate hne, Nesting.start, Option.or_none, ← Nesting.start] at hlast
  rw [← hlast, ← htop]

/-- The last character in front of a list only matters to a `>` at its start. -/
theorem segmentsFrom_congr {l l' : Option Char} {list : List Char}
    (h : (list.dropWhile (· == ',')).head? = some '>' → (l = some '-' ↔ l' = some '-')) :
    segmentsFrom ⟨[], l⟩ [] list = segmentsFrom ⟨[], l'⟩ [] list := by
  induction list with
  | nil => rfl
  | cons c cs ih =>
    rw [segmentsFrom_cons, segmentsFrom_cons]
    by_cases hc : c = ','
    · subst hc
      rw [List.dropWhile_cons_of_pos (by simp)] at h
      rw [if_pos (by rfl), if_pos (by rfl), ih h]
    · have hagree : Nesting.Agree ⟨[], l⟩ ⟨[], l'⟩ (some c) := by
        refine ⟨rfl, fun hgt ↦ h ?_⟩
        rw [List.dropWhile_cons_of_neg (by simpa using hc)]
        exact hgt
      have hcomma : (c == ',') = false := by simpa using hc
      simp only [hcomma, Bool.false_and, Bool.false_eq_true, if_false, hagree.admits_eq,
        hagree.advance_eq]

/-- A `>` closes nothing at the start of a list. -/
theorem segmentsFrom_start_gt {list : List Char}
    (h : (list.dropWhile (· == ',')).head? = some '>') :
    segmentsFrom .start [] list = .error ['>'] := by
  induction list with
  | nil => exact absurd h (by simp)
  | cons c cs ih =>
    rw [segmentsFrom_cons]
    by_cases hc : c = ','
    · subst hc
      rw [List.dropWhile_cons_of_pos (by simp)] at h
      rw [if_pos (by rfl), ih h]
      rfl
    · rw [List.dropWhile_cons_of_neg (by simpa using hc)] at h
      obtain rfl : c = '>' := Option.some.inj h
      rfl

/-! ## Field lists -/

namespace Variant

/-- Reads a field list that stands behind other text. -/
def readFieldsBehind (n : Nesting) (list : List Char) : Except Malformation (List Field) :=
  match segmentsFrom n [] list with
  | .error segment => .error (.unbalanced (trimmed (String.ofList segment)))
  | .ok segments => Field.ofSegments segments

theorem readFields_eq_behind (list : List Char) :
    readFields list = readFieldsBehind .start list := rfl

/-- Of a list that can be read, a list behind a comma only sees the last character. -/
theorem readFields_append_comma {first : List Char} {fields : List Field}
    (h : readFields first = .ok fields) (second : List Char) :
    readFields (first ++ ',' :: second) =
      (readFieldsBehind ⟨[], first.getLast?⟩ second).map (fields ++ ·) := by
  obtain ⟨segments, hne, hsegments, rfl, hfields⟩ := readFields_eq_ok_iff.mp h
  rw [readFields_eq_behind, readFieldsBehind, segmentsFrom_append_comma hne hsegments,
    after_fields hsegments hfields, readFieldsBehind]
  cases segmentsFrom ⟨[], ([','].intercalate segments).getLast?⟩ [] second with
  | error segment => rfl
  | ok more => exact Field.ofSegments_append hfields more

theorem readFieldsBehind_of_not_arrow {first second : List Char}
    (h : ¬ArrowAcross first second) :
    readFieldsBehind ⟨[], first.getLast?⟩ second = readFields second := by
  have hcongr : segmentsFrom ⟨[], first.getLast?⟩ [] second = segmentsFrom .start [] second := by
    refine segmentsFrom_congr fun hgt ↦ ?_
    have hlast : first.getLast? ≠ some '-' := fun hlast ↦ h ⟨hlast, hgt⟩
    simp [hlast]
  rw [readFields_eq_behind, readFieldsBehind, readFieldsBehind, hcongr]

theorem readFields_of_arrow {first second : List Char} (h : ArrowAcross first second) :
    readFields second = .error (.unbalanced ">") := by
  rw [readFields, segments, segmentsFrom_start_gt h.2]
  rfl

end Variant

/-! ## A field that starts with a closing bracket -/

/-- One of the fields of the list starts with a `>` that closes nothing and is no arrow. -/
def Nesting.StrayAngle (n : Nesting) (list : List Char) : Prop :=
  ∃ before w rest, n.areFields before = true ∧ w.all isBlank = true ∧
    list = before.flatMap (· ++ [',']) ++ (w ++ '>' :: rest) ∧
    (n.after (before.flatten ++ w)).last ≠ some '-'

/-- A `>` that the scan passes outside brackets is an arrow, so no bracket is open behind it. -/
theorem Nesting.atTop_after_gt {n : Nesting} {w w' : List Char} (hn : n.atTop = true)
    (hw : w.all isBlank = true) (hw' : w'.all isBlank = true)
    (hin : n.inField (w ++ '>' :: w') = true) : (n.after (w ++ '>' :: w')).atTop = true := by
  have htop : (n.after w).enclosing = [] := by
    rw [enclosing_after_of_isBlank hw]
    exact atTop_iff.mp hn
  rw [inField_append, Bool.and_eq_true, inField_cons] at hin
  have hlast := (admits_gt_iff htop).mp hin.2.2.1
  have hadvance : ((n.after w).advance '>').enclosing = [] := by
    simp [advance, Bracket.opened?, closes?, hlast, htop]
  rw [atTop_iff, after_append, after_cons,
    enclosing_after_of_isPlain (all_isPlain_of_isBlank hw'), hadvance]

/-- The segment that a scan ends with is a lone `>` only if it ends there. -/
theorem Nesting.Breaks.trim_eq_gt_iff {n : Nesting} {segment rest : List Char}
    (hn : n.atTop = true) (h : n.Breaks segment rest) :
    trim segment = ['>'] ↔
      ∃ w, w.all isBlank = true ∧ segment = w ++ ['>'] ∧ (n.after w).last ≠ some '-' := by
  constructor
  · intro htrim
    rcases h with ⟨part, c, rfl, hin, hbad⟩ | ⟨-, hin, hopen⟩
    · have hc : ∀ d ∈ (part ++ [c]).getLast?, isBlank d = false := by
        simpa using isBlank_eq_false_of_admits hbad
      obtain ⟨w, hw, hsegment⟩ := exists_trim_of_getLast? hc
      rw [htrim] at hsegment
      obtain ⟨rfl, hgt⟩ := List.append_inj' hsegment rfl
      obtain rfl : c = '>' := by simpa using hgt
      have htop : (n.after part).enclosing = [] := by
        rw [enclosing_after_of_isBlank hw]
        exact atTop_iff.mp hn
      refine ⟨part, hw, rfl, fun hlast ↦ ?_⟩
      rw [(admits_gt_iff htop).mpr hlast] at hbad
      exact absurd hbad (by simp)
    · obtain ⟨w, w', hw, hw', hsegment⟩ := exists_trim segment
      rw [htrim, List.append_assoc, List.singleton_append] at hsegment
      rw [hsegment] at hin hopen
      rw [atTop_after_gt hn hw hw' hin] at hopen
      exact absurd hopen (by simp)
  · rintro ⟨w, hw, rfl, -⟩
    have htrim : trim (w ++ ['>'] ++ []) = ['>'] := trim_append_append hw rfl (by decide)
    rwa [List.append_nil] at htrim

theorem Field.ofSegment_ne_unbalanced (segment : List Char) (text : String) :
    ofSegment segment ≠ .error (.unbalanced text) := by
  intro h
  unfold ofSegment at h
  simp only at h
  split at h
  · exact absurd h (by simp)
  · split at h
    · exact absurd h (by simp)
    · split at h <;> exact absurd h (by simp)

theorem Field.ofSegments_ne_unbalanced (segments : List (List Char)) (text : String) :
    ofSegments segments ≠ .error (.unbalanced text) := by
  induction segments with
  | nil => simp [ofSegments]
  | cons segment rest ih =>
    rw [ofSegments_cons]
    cases hs : ofSegment segment with
    | error reason =>
      have hne := ofSegment_ne_unbalanced segment text
      rw [hs] at hne
      simpa using hne
    | ok field =>
      cases hrest : ofSegments rest with
      | error reason =>
        rw [hrest] at ih
        simpa [Except.map] using ih
      | ok fields => simp [Except.map]

namespace Variant

/-- A field list is rejected near a lone `>` if a field of it starts with that, and only then. -/
theorem readFieldsBehind_eq_gt_iff {n : Nesting} (hn : n.atTop = true) {list : List Char} :
    readFieldsBehind n list = .error (.unbalanced ">") ↔ n.StrayAngle list := by
  have hsegments : readFieldsBehind n list = .error (.unbalanced ">") ↔
      ∃ segment, segmentsFrom n [] list = .error segment ∧ trim segment = ['>'] := by
    rw [readFieldsBehind]
    cases segmentsFrom n [] list with
    | ok segments => simp [Field.ofSegments_ne_unbalanced]
    | error segment => simp [trimmed, ← String.toList_inj]
  rw [hsegments]
  constructor
  · rintro ⟨segment, hcut, htrim⟩
    obtain ⟨before, rest, hfields, rfl, hbreaks⟩ := segmentsFrom_eq_error_iff.mp hcut
    obtain ⟨w, hw, rfl, hlast⟩ :=
      (hbreaks.trim_eq_gt_iff (Nesting.atTop_after_flatten hn hfields)).mp htrim
    refine ⟨before, w, rest, hfields, hw, by simp, ?_⟩
    rwa [Nesting.after_append]
  · rintro ⟨before, w, rest, hfields, hw, rfl, hlast⟩
    rw [Nesting.after_append] at hlast
    have htop := Nesting.atTop_after_flatten hn hfields
    have hblank := all_isPlain_of_isBlank hw
    have hbreaks : (n.after before.flatten).Breaks (w ++ ['>']) rest := by
      refine .inl ⟨w, '>', rfl, Nesting.inField_of_isPlain hblank, Bool.eq_false_iff.mpr ?_⟩
      rwa [ne_eq, Nesting.admits_gt_iff]
      rw [Nesting.enclosing_after_of_isPlain hblank]
      exact Nesting.atTop_iff.mp htop
    exact ⟨w ++ ['>'], segmentsFrom_eq_error_iff.mpr ⟨before, rest, hfields, by simp, hbreaks⟩,
      (hbreaks.trim_eq_gt_iff htop).mpr ⟨w, hw, rfl, hlast⟩⟩

/-! ## Lines -/

theorem readFields_of_read {name list : String} {variant : Variant} (hname : ':' ∉ name.toList)
    (h : read (name ++ ":" ++ list) = .ok variant) :
    readFields list.toList = .ok variant.fields ∧
      ∀ other, read (name ++ ":" ++ other) =
        (readFields other.toList).map fun fields ↦ ⟨variant.name, fields⟩ := by
  have hread : ∀ other : String, read (name ++ ":" ++ other) =
      if (trim name.toList).isEmpty then .error .emptyVariantName
      else (readFields other.toList).map fun fields ↦ ⟨trimmed name, fields⟩ :=
    fun other ↦ read_of_toList hname (by simp)
  have hne : (trim name.toList).isEmpty = false := by
    by_contra hempty
    rw [hread, if_pos (by simpa using hempty)] at h
    exact absurd h (by simp)
  simp only [hne, Bool.false_eq_true, if_false] at hread
  rw [hread] at h
  cases hlist : readFields list.toList with
  | error reason =>
    rw [hlist] at h
    exact absurd h (by simp [Except.map])
  | ok fields =>
    rw [hlist] at h
    obtain rfl := Except.ok.inj h
    exact ⟨rfl, hread⟩

/-- **Fields are read independently of what stands in front of their comma**, unless the two lists
make an arrow across it. The second list on its own is then rejected near its first `>`, and the
line agrees with that only if a later `>` gets it rejected in the same words. -/
theorem read_append_comma_iff {name first second : String} {variant : Variant}
    (hname : ':' ∉ name.toList) (h : read (name ++ ":" ++ first) = .ok variant) :
    ((∀ fields, read (name ++ ":" ++ first ++ "," ++ second) =
          .ok ⟨variant.name, variant.fields ++ fields⟩ ↔
        read (name ++ ":" ++ second) = .ok ⟨variant.name, fields⟩) ∧
      ∀ reason, read (name ++ ":" ++ first ++ "," ++ second) = .error reason ↔
        read (name ++ ":" ++ second) = .error reason) ↔
    (ArrowAcross first.toList second.toList →
      (⟨[], some '-'⟩ : Nesting).StrayAngle second.toList) := by
  obtain ⟨hfirst, hread⟩ := readFields_of_read hname h
  have hline : read (name ++ ":" ++ first ++ "," ++ second) =
      ((readFieldsBehind ⟨[], first.toList.getLast?⟩ second.toList).map (variant.fields ++ ·)).map
        fun fields ↦ ⟨variant.name, fields⟩ := by
    have htext : (first ++ "," ++ second).toList = first.toList ++ ',' :: second.toList := by simp
    have hlist := hread (first ++ "," ++ second)
    rw [htext, readFields_append_comma hfirst] at hlist
    simpa only [String.append_assoc] using hlist
  by_cases ha : ArrowAcross first.toList second.toList
  · -- The second list is rejected, so the two agree exactly if the line is rejected like it.
    rw [hline, hread, readFields_of_arrow ha, ha.1, ← readFieldsBehind_eq_gt_iff rfl]
    cases readFieldsBehind ⟨[], some '-'⟩ second.toList with
    | error reason => simp [Except.map, ha]
    | ok fields => simp [Except.map, ha]
  · rw [hline, hread, readFieldsBehind_of_not_arrow ha]
    refine ⟨fun _ hac ↦ absurd hac ha, fun _ ↦ ?_⟩
    cases readFields second.toList with
    | error reason => exact ⟨fun _ ↦ by simp [Except.map], fun _ ↦ Iff.rfl⟩
    | ok fields => exact ⟨fun _ ↦ by simp [Except.map], fun _ ↦ by simp [Except.map]⟩

/-- A blank in front of the `>` is enough to keep the lists apart. -/
theorem read_append_comma_blank :
    read ("A" ++ ":" ++ " a -") = .ok ⟨"A", [⟨"a", "-"⟩]⟩ ∧
      ¬ArrowAcross " a -".toList " > b".toList ∧
      ∀ reason, read ("A" ++ ":" ++ " a -" ++ "," ++ " > b") = .error reason ↔
        read ("A" ++ ":" ++ " > b") = .error reason := by
  have hread : read ("A" ++ ":" ++ " a -") = .ok ⟨"A", [⟨"a", "-"⟩]⟩ := rfl
  have harrow : ¬ArrowAcross " a -".toList " > b".toList := by decide
  have hiff := @read_append_comma_iff "A" " a -" " > b" _ (by decide) hread
  exact ⟨hread, harrow, (hiff.mpr fun ha ↦ absurd ha harrow).2⟩

/-- An arrow across a comma: each list is judged otherwise alone than behind the other. -/
theorem read_arrow_across_comma :
    read "A: a -" = .ok ⟨"A", [⟨"a", "-"⟩]⟩ ∧ read "A:> b" = .error (.unbalanced ">") ∧
      read "A: a -,> b" = .ok ⟨"A", [⟨"a", "-"⟩, ⟨">", "b"⟩]⟩ :=
  ⟨rfl, rfl, rfl⟩

end Variant

end AstSchema
