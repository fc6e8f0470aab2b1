import AstSchema.Proofs.Scan
import AstSchema.Schema.Reading
import Mathlib.Data.List.Forall2

/-!
# Field lists and their segments

A field list is cut at the commas outside brackets. Cutting is a function and joining is its
inverse: the segments of a list are the one way to write it as texts with commas between them so
that each text is a whole field where it stands (`segmentsFrom_eq_ok_iff`). That a text is a whole
field depends on the state it is read in, so the segments are checked one behind the other, and the
commas between them are no part of the scan.

Appending a comma and a second list goes on with the cutting in the state behind the first, whether
or not the second can be cut (`segmentsFrom_append_comma`).
-/

namespace AstSchema

open AstSchema.Text

/-! ## Whole fields one behind the other -/

namespace Nesting

/-- Whether each text is a whole field behind the ones before it. -/
def areFields (n : Nesting) : List (List Char) → Bool
  | [] => true
  | segment :: rest => n.isField segment && (n.after segment).areFields rest

theorem areFields_cons {n : Nesting} {segment : List Char} {rest : List (List Char)} :
    n.areFields (segment :: rest) = true ↔
      n.isField segment = true ∧ (n.after segment).areFields rest = true := by
  rw [areFields, Bool.and_eq_true]

theorem areFields_append (n : Nesting) (ss ts : List (List Char)) :
    n.areFields (ss ++ ts) = (n.areFields ss && (n.after ss.flatten).areFields ts) := by
  induction ss generalizing n with
  | nil => rfl
  | cons s ss ih =>
    simp only [List.cons_append, areFields, ih, List.flatten_cons, after_append, Bool.and_assoc]

theorem atTop_after_flatten {n : Nesting} {segments : List (List Char)} (hn : n.atTop = true)
    (h : n.areFields segments = true) : (n.after segments.flatten).atTop = true := by
  induction segments generalizing n with
  | nil => exact hn
  | cons segment rest ih =>
    obtain ⟨hs, hrest⟩ := areFields_cons.mp h
    rw [List.flatten_cons, after_append]
    exact ih (isField_iff.mp hs).2 hrest

end Nesting

/-! ## Cutting -/

theorem segmentsFrom_cons (n : Nesting) (current : List Char) (c : Char) (cs : List Char) :
    segmentsFrom n current (c :: cs) =
      if c == ',' && n.atTop then (segmentsFrom n [] cs).map (current.reverse :: ·)
      else if n.admits c then segmentsFrom (n.advance c) (c :: current) cs
      else .error (c :: current).reverse := by
  rw [segmentsFrom]
  cases segmentsFrom n [] cs <;> rfl

/-- Text within one field goes to the segment in progress. -/
theorem segmentsFrom_append {n : Nesting} {cs : List Char} (h : n.inField cs = true)
    (current ds : List Char) :
    segmentsFrom n current (cs ++ ds) = segmentsFrom (n.after cs) (cs.reverse ++ current) ds := by
  induction cs generalizing n current with
  | nil => rfl
  | cons c cs ih =>
    obtain ⟨hcomma, hadm, hcs⟩ := Nesting.inField_cons.mp h
    rw [List.cons_append, segmentsFrom_cons, hcomma, hadm, if_neg Bool.false_ne_true, if_pos rfl,
      ih hcs, List.reverse_cons, List.append_assoc]
    rfl

theorem segmentsFrom_field {n : Nesting} {segment : List Char} (h : n.isField segment = true) :
    segmentsFrom n [] segment = .ok [segment] := by
  obtain ⟨hin, htop⟩ := Nesting.isField_iff.mp h
  have happ := segmentsFrom_append hin [] []
  rw [List.append_nil, List.append_nil] at happ
  rw [happ, segmentsFrom, if_pos htop, List.reverse_reverse]

theorem segmentsFrom_field_comma {n : Nesting} {segment : List Char}
    (h : n.isField segment = true) (list : List Char) :
    segmentsFrom n [] (segment ++ ',' :: list) =
      (segmentsFrom (n.after segment) [] list).map (segment :: ·) := by
  obtain ⟨hin, htop⟩ := Nesting.isField_iff.mp h
  rw [segmentsFrom_append hin, segmentsFrom_cons, htop]
  simp

theorem map_map_except {ε α β γ : Type} (f : β → γ) (g : α → β) (x : Except ε α) :
    (x.map g).map f = x.map (f ∘ g) := by
  cases x <;> rfl

/-- Behind whole fields and their commas, the rest is cut in the state that they leave. -/
theorem segmentsFrom_flatMap {n : Nesting} {segments : List (List Char)}
    (h : n.areFields segments = true) (list : List Char) :
    segmentsFrom n [] (segments.flatMap (· ++ [',']) ++ list) =
      (segmentsFrom (n.after segments.flatten) [] list).map (segments ++ ·) := by
  induction segments generalizing n with
  | nil =>
    rw [List.flatMap_nil, List.nil_append, List.flatten_nil, Nesting.after_nil]
    cases segmentsFrom n [] list <;> rfl
  | cons segment rest ih =>
    obtain ⟨hs, hrest⟩ := Nesting.areFields_cons.mp h
    rw [List.flatMap_cons, List.append_assoc, List.append_assoc, List.singleton_append,
      segmentsFrom_field_comma hs, ih hrest, map_map_except, List.flatten_cons,
      Nesting.after_append]
    rfl

theorem intercalate_append_comma {segments : List (List Char)} (hne : segments ≠ []) :
    [','].intercalate segments ++ [','] = segments.flatMap (· ++ [',']) := by
  induction segments with
  | nil => exact absurd rfl hne
  | cons segment rest ih =>
    cases rest with
    | nil => simp
    | cons next rest =>
      rw [List.intercalate_cons_cons, List.append_assoc, List.append_assoc, ih (by simp)]
      simp only [List.flatMap_cons, List.append_assoc]

theorem intercalate_append_cons (segments : List (List Char)) (segment : List Char)
    (rest : List (List Char)) :
    [','].intercalate (segments ++ segment :: rest) =
      segments.flatMap (· ++ [',']) ++ [','].intercalate (segment :: rest) := by
  induction segments with
  | nil => rfl
  | cons first segments ih =>
    obtain ⟨next, more, heq⟩ := List.exists_cons_of_ne_nil
      (List.append_ne_nil_of_right_ne_nil segments (List.cons_ne_nil segment rest))
    rw [heq] at ih
    rw [List.cons_append, heq, List.intercalate_cons_cons, ih, List.flatMap_cons]
    simp only [List.append_assoc]

/-- Behind a list that can be cut, a comma and another list are cut in the state behind it. -/
theorem segmentsFrom_append_comma {n : Nesting} {segments : List (List Char)}
    (hne : segments ≠ []) (h : n.areFields segments = true) (list : List Char) :
    segmentsFrom n [] ([','].intercalate segments ++ ',' :: list) =
      (segmentsFrom (n.after segments.flatten) [] list).map (segments ++ ·) := by
  rw [← segmentsFrom_flatMap h, ← intercalate_append_comma hne, List.append_assoc,
    List.singleton_append]

/-- What cutting gives with a segment in progress. -/
theorem exists_of_segmentsFrom_eq_ok {n : Nesting} {current list : List Char}
    {segments : List (List Char)} (h : segmentsFrom n current list = .ok segments) :
    ∃ segment rest, segments = (current.reverse ++ segment) :: rest ∧
      n.areFields (segment :: rest) = true ∧ list = [','].intercalate (segment :: rest) := by
  induction list generalizing n current segments with
  | nil =>
    rw [segmentsFrom] at h
    split at h
    · next htop =>
      exact ⟨[], [], by simpa using (Except.ok.inj h).symm, by simp [Nesting.areFields,
        Nesting.isField, htop], rfl⟩
    · exact absurd h (by simp)
  | cons c cs ih =>
    rw [segmentsFrom_cons] at h
    split at h
    · next hcomma =>
      -- The comma ends the segment in progress, and the rest is cut from scratch.
      obtain ⟨hc, htop⟩ := Bool.and_eq_true_iff.mp hcomma
      obtain rfl : c = ',' := by simpa using hc
      cases hcs : segmentsFrom n [] cs with
      | error e => rw [hcs] at h; exact absurd h (by simp [Except.map])
      | ok segments' =>
        rw [hcs] at h
        obtain ⟨segment, rest, rfl, hfields, rfl⟩ := ih hcs
        refine ⟨[], segment :: rest, by simpa using (Except.ok.inj h).symm, ?_, ?_⟩
        · exact Nesting.areFields_cons.mpr ⟨by simp [Nesting.isField, htop], hfields⟩
        · rw [List.intercalate_cons_cons]
          rfl
    · next hcomma =>
      split at h
      · next hadm =>
        obtain ⟨segment, rest, rfl, hfields, rfl⟩ := ih h
        refine ⟨c :: segment, rest, by simp, ?_, ?_⟩
        · obtain ⟨hs, hrest⟩ := Nesting.areFields_cons.mp hfields
          obtain ⟨hin, htop⟩ := Nesting.isField_iff.mp hs
          have hin' := Nesting.inField_cons.mpr ⟨Bool.eq_false_iff.mpr hcomma, hadm, hin⟩
          exact Nesting.areFields_cons.mpr ⟨Nesting.isField_iff.mpr ⟨hin', htop⟩, hrest⟩
        · cases rest <;> simp [List.intercalate_cons_cons]
      · exact absurd h (by simp)

/-- The segments of a list are the one way to write it as whole fields with commas between. -/
theorem segmentsFrom_eq_ok_iff {n : Nesting} {list : List Char} {segments : List (List Char)} :
    segmentsFrom n [] list = .ok segments ↔
      segments ≠ [] ∧ n.areFields segments = true ∧ list = [','].intercalate segments := by
  constructor
  · intro h
    obtain ⟨segment, rest, rfl, hfields, hlist⟩ := exists_of_segmentsFrom_eq_ok h
    exact ⟨by simp, hfields, hlist⟩
  · rintro ⟨hne, hfields, rfl⟩
    induction segments generalizing n with
    | nil => exact absurd rfl hne
    | cons segment rest ih =>
      obtain ⟨hs, hrest⟩ := Nesting.areFields_cons.mp hfields
      cases rest with
      | nil => simpa using segmentsFrom_field hs
      | cons next rest =>
        rw [List.intercalate_cons_cons, List.append_assoc, List.singleton_append,
          segmentsFrom_field_comma hs, ih (by simp) hrest]
        rfl

/-! ## Lists that cannot be cut -/

namespace Nesting

/-- The scan ends with `segment`: its last character is a closing bracket without a match, or it
goes to the end of the text and leaves a bracket open. -/
def Breaks (n : Nesting) (segment rest : List Char) : Prop :=
  (∃ part c, segment = part ++ [c] ∧ n.inField part = true ∧ (n.after part).admits c = false) ∨
    rest = [] ∧ n.inField segment = true ∧ (n.after segment).atTop = false

theorem admits_comma (n : Nesting) : n.admits ',' = true := rfl

theorem Breaks.cons {n : Nesting} {c : Char} {segment rest : List Char}
    (hcomma : (c == ',' && n.atTop) = false) (hadm : n.admits c = true)
    (h : (n.advance c).Breaks segment rest) : n.Breaks (c :: segment) rest := by
  rcases h with ⟨part, d, rfl, hin, hbad⟩ | ⟨hrest, hin, hopen⟩
  · exact .inl ⟨c :: part, d, rfl, inField_cons.mpr ⟨hcomma, hadm, hin⟩, hbad⟩
  · exact .inr ⟨hrest, inField_cons.mpr ⟨hcomma, hadm, hin⟩, hopen⟩

end Nesting

theorem segmentsFrom_of_breaks {n : Nesting} {segment rest : List Char}
    (h : n.Breaks segment rest) : segmentsFrom n [] (segment ++ rest) = .error segment := by
  rcases h with ⟨part, c, rfl, hin, hbad⟩ | ⟨rfl, hin, hopen⟩
  · have hcomma : (c == ',') = false := by
      refine beq_eq_false_iff_ne.mpr ?_
      rintro rfl
      exact absurd hbad (by simp [Nesting.admits_comma])
    rw [List.append_assoc, segmentsFrom_append hin, List.singleton_append, segmentsFrom_cons,
      hcomma, hbad]
    simp
  · rw [segmentsFrom_append hin, segmentsFrom, hopen]
    simp

/-- Where cutting stops with a segment in progress. -/
theorem exists_of_segmentsFrom_eq_error {n : Nesting} {current list stopped : List Char}
    (h : segmentsFrom n current list = .error stopped) :
    ∃ before segment rest, stopped = (if before = [] then current.reverse else []) ++ segment ∧
      n.areFields before = true ∧ list = before.flatMap (· ++ [',']) ++ (segment ++ rest) ∧
      (n.after before.flatten).Breaks segment rest := by
  induction list generalizing n current with
  | nil =>
    rw [segmentsFrom] at h
    split at h
    · exact absurd h (by simp)
    · next htop =>
      exact ⟨[], [], [], by simpa using (Except.error.inj h).symm, rfl, rfl,
        .inr ⟨rfl, rfl, Bool.eq_false_iff.mpr htop⟩⟩
  | cons c cs ih =>
    rw [segmentsFrom_cons] at h
    split at h
    · next hcomma =>
      obtain ⟨hc, htop⟩ := Bool.and_eq_true_iff.mp hcomma
      obtain rfl : c = ',' := by simpa using hc
      cases hcs : segmentsFrom n [] cs with
      | ok segments => rw [hcs] at h; exact absurd h (by simp [Except.map])
      | error stopped' =>
        rw [hcs] at h
        obtain rfl := Except.error.inj h
        obtain ⟨before, segment, rest, rfl, hfields, rfl, hbreaks⟩ := ih hcs
        refine ⟨[] :: before, segment, rest, by simp, ?_, by simp, hbreaks⟩
        exact Nesting.areFields_cons.mpr ⟨by simp [Nesting.isField, htop], hfields⟩
    · next hcomma =>
      have hcomma := Bool.eq_false_iff.mpr hcomma
      split at h
      · next hadm =>
        obtain ⟨before, segment, rest, rfl, hfields, rfl, hbreaks⟩ := ih h
        cases before with
        | nil => exact ⟨[], c :: segment, rest, by simp, rfl, by simp, hbreaks.cons hcomma hadm⟩
        | cons first before =>
          obtain ⟨hs, hmore⟩ := Nesting.areFields_cons.mp hfields
          obtain ⟨hin, htop⟩ := Nesting.isField_iff.mp hs
          have hin' := Nesting.inField_cons.mpr ⟨hcomma, hadm, hin⟩
          exact ⟨(c :: first) :: before, segment, rest, by simp,
            Nesting.areFields_cons.mpr ⟨Nesting.isField_iff.mpr ⟨hin', htop⟩, hmore⟩, by simp,
            hbreaks⟩
      · next hadm =>
        exact ⟨[], [c], cs, by simpa using (Except.error.inj h).symm, rfl, rfl,
          .inl ⟨[], c, rfl, rfl, Bool.eq_false_iff.mpr hadm⟩⟩

/-- A list that cannot be cut starts with whole fields and their commas, and the segment that is
reported is the one behind them, up to where the scan ends. -/
theorem segmentsFrom_eq_error_iff {n : Nesting} {list segment : List Char} :
    segmentsFrom n [] list = .error segment ↔
      ∃ before rest, n.areFields before = true ∧
        list = before.flatMap (· ++ [',']) ++ (segment ++ rest) ∧
        (n.after before.flatten).Breaks segment rest := by
  constructor
  · intro h
    obtain ⟨before, stopped, rest, hstopped, hfields, hlist, hbreaks⟩ :=
      exists_of_segmentsFrom_eq_error h
    obtain rfl : segment = stopped := by simpa using hstopped
    exact ⟨before, rest, hfields, hlist, hbreaks⟩
  · rintro ⟨before, rest, hfields, rfl, hbreaks⟩
    rw [segmentsFrom_flatMap hfields, segmentsFrom_of_breaks hbreaks]
    rfl

/-! ## Depth in the scan of a whole list -/

namespace Nesting

/-- Scans a field list. The commas outside brackets are passed over, and the scan stops at a
closing bracket without a match. -/
def scanList? (n : Nesting) : List Char → Option Nesting
  | [] => some n
  | c :: cs =>
    if c == ',' && n.atTop then n.scanList? cs
    else if n.admits c then (n.advance c).scanList? cs
    else none

theorem scanList?_append {n : Nesting} {cs : List Char} (h : n.inField cs = true)
    (ds : List Char) : n.scanList? (cs ++ ds) = (n.after cs).scanList? ds := by
  induction cs generalizing n with
  | nil => rfl
  | cons c cs ih =>
    obtain ⟨hcomma, hadm, hcs⟩ := inField_cons.mp h
    rw [List.cons_append, scanList?, hcomma, hadm, if_neg Bool.false_ne_true, if_pos rfl, ih hcs,
      after_cons]

theorem scanList?_of_inField {n : Nesting} {cs : List Char} (h : n.inField cs = true) :
    n.scanList? cs = some (n.after cs) := by
  have happ := scanList?_append h []
  rwa [List.append_nil] at happ

/-- The commas behind the fields of a list are passed over. -/
theorem scanList?_flatMap {n : Nesting} {segments : List (List Char)}
    (h : n.areFields segments = true) (ds : List Char) :
    n.scanList? (segments.flatMap (· ++ [',']) ++ ds) =
      (n.after segments.flatten).scanList? ds := by
  induction segments generalizing n with
  | nil => rfl
  | cons segment rest ih =>
    obtain ⟨hs, hrest⟩ := areFields_cons.mp h
    obtain ⟨hin, htop⟩ := isField_iff.mp hs
    rw [List.flatMap_cons, List.append_assoc, List.append_assoc, scanList?_append hin,
      List.singleton_append, scanList?, htop, if_pos (by decide), ih hrest, List.flatten_cons,
      after_append]

end Nesting

/-- In the scan of the texts with commas between them, exactly those commas stand outside brackets:
no bracket is open behind a text, and one is open at every comma of a text. -/
def CommasSeparate (segments : List (List Char)) : Prop :=
  ∀ before segment behind, segments = before ++ segment :: behind →
    (∃ n, Nesting.start.scanList? (before.flatMap (· ++ [',']) ++ segment) = some n ∧
      n.atTop = true) ∧
    ∀ p q, segment = p ++ ',' :: q →
      ∃ n, Nesting.start.scanList? (before.flatMap (· ++ [',']) ++ p) = some n ∧ n.atTop = false

theorem commasSeparate_of_areFields {segments : List (List Char)}
    (h : Nesting.start.areFields segments = true) : CommasSeparate segments := by
  rintro before segment behind rfl
  rw [Nesting.areFields_append, Bool.and_eq_true, Nesting.areFields_cons] at h
  obtain ⟨hbefore, hsegment, -⟩ := h
  obtain ⟨hin, htop⟩ := Nesting.isField_iff.mp hsegment
  refine ⟨⟨_, ?_, htop⟩, ?_⟩
  · rw [Nesting.scanList?_flatMap hbefore, Nesting.scanList?_of_inField hin]
  · rintro p q rfl
    have hinside := (Nesting.inField_iff.mp hin).2 p q rfl
    rw [Nesting.inField_append, Bool.and_eq_true] at hin
    refine ⟨_, ?_, hinside⟩
    rw [Nesting.scanList?_flatMap hbefore, Nesting.scanList?_of_inField hin.1]

/-! ## Reading the segments -/

theorem Field.ofSegments_cons (segment : List Char) (rest : List (List Char)) :
    ofSegments (segment :: rest) =
      match ofSegment segment with
      | .error reason => .error reason
      | .ok field => (ofSegments rest).map (field :: ·) := by
  rw [ofSegments]
  cases ofSegment segment with
  | error reason => rfl
  | ok field => cases ofSegments rest <;> rfl

theorem Field.ofSegments_eq_ok_iff {segments : List (List Char)} {fields : List Field} :
    ofSegments segments = .ok fields ↔
      List.Forall₂ (fun field segment ↦ ofSegment segment = .ok field) fields segments := by
  induction segments generalizing fields with
  | nil => simp [ofSegments, eq_comm]
  | cons segment rest ih =>
    rw [ofSegments_cons, List.forall₂_cons_right_iff]
    cases ofSegment segment with
    | error reason => simp
    | ok field =>
      constructor
      · intro h
        cases hrest : ofSegments rest with
        | error reason =>
          rw [hrest] at h
          exact absurd h (by simp [Except.map])
        | ok fields' =>
          rw [hrest] at h
          exact ⟨field, fields', rfl, ih.mp hrest, (Except.ok.inj h).symm⟩
      · rintro ⟨field', fields', hfield, hrest, rfl⟩
        rw [ih.mpr hrest, Except.ok.inj hfield]
        rfl

/-- Behind segments that are all fields, the first fault is that of the segments that follow. -/
theorem Field.ofSegments_append {segments : List (List Char)} {fields : List Field}
    (h : ofSegments segments = .ok fields) (more : List (List Char)) :
    ofSegments (segments ++ more) = (ofSegments more).map (fields ++ ·) := by
  induction segments generalizing fields with
  | nil =>
    obtain rfl : [] = fields := by simpa [ofSegments] using h
    rw [List.nil_append]
    cases ofSegments more <;> rfl
  | cons segment rest ih =>
    obtain ⟨field, fields', hs, hrest, rfl⟩ :=
      List.forall₂_cons_right_iff.mp (ofSegments_eq_ok_iff.mp h)
    rw [List.cons_append, ofSegments_cons, hs, ih (ofSegments_eq_ok_iff.mpr hrest)]
    exact map_map_except _ _ _

end AstSchema
