import AstSchema.Proofs.BracketGrammar
import AstSchema.Proofs.FirstFailure
import AstSchema.Proofs.Separation

/-!
# The malformed line that is reported

A schema is read line by line up to the first line that is malformed, so the lines behind it have no
part in the failure, and neither has the preamble. `FirstMalformed` says which line that is. A blank
name of the category comes before all lines.

Within a line the order is another one. The brackets of the whole field list are checked before any
field is looked at, so a bracket that does not match at the end of a list outranks an empty field at
its start. Only where the brackets are in order is the first field from the left that cannot be read
the one that is reported. The brackets are those that the scan of the list meets, which passes over
the commas between fields. `matched_iff` says what this has to do with the grammar of brackets: the
one thing that the scan lets pass and the grammar does not is an arrow with such a comma in it.
-/

namespace AstSchema

open AstSchema.Text

/-! ## Lines -/

namespace Variant

/-- The line with the index `i` is malformed, and all lines in front of it are read. -/
structure FirstMalformed (lines : List String) (i : Nat) (reason : Malformation) : Prop where
  /-- The line cannot be read. -/
  malformed : ∃ line, lines[i]? = some line ∧ read line = .error reason
  /-- The lines in front of it can. -/
  before : ∀ line ∈ lines.take i, ∃ variant, read line = .ok variant

variable {lines lines' : List String} {line : String} {i : Nat} {reason : Malformation}

theorem firstMalformed_zero_iff :
    FirstMalformed (line :: lines) 0 reason ↔ read line = .error reason := by
  constructor
  · rintro ⟨⟨line', hline', hread⟩, -⟩
    obtain rfl : line = line' := Option.some.inj hline'
    exact hread
  · intro h
    exact ⟨⟨line, rfl, h⟩, by simp⟩

theorem firstMalformed_succ_iff :
    FirstMalformed (line :: lines) (i + 1) reason ↔
      (∃ variant, read line = .ok variant) ∧ FirstMalformed lines i reason := by
  constructor
  · rintro ⟨hmalformed, hbefore⟩
    rw [List.take_succ_cons, List.forall_mem_cons] at hbefore
    exact ⟨hbefore.1, hmalformed, hbefore.2⟩
  · rintro ⟨hline, hmalformed, hbefore⟩
    refine ⟨hmalformed, ?_⟩
    rw [List.take_succ_cons, List.forall_mem_cons]
    exact ⟨hline, hbefore⟩

/-- Which line is the first that is malformed does not depend on the lines behind it. -/
theorem FirstMalformed.congr (h : FirstMalformed lines i reason)
    (hsame : lines'.take (i + 1) = lines.take (i + 1)) : FirstMalformed lines' i reason := by
  have hat : lines'[i]? = lines[i]? := by
    have hget := congrArg (·[i]?) hsame
    simpa [List.getElem?_take] using hget
  have hbefore : lines'.take i = lines.take i := by
    have htake := congrArg (List.take i) hsame
    simpa [List.take_take] using htake
  exact ⟨hat ▸ h.malformed, hbefore ▸ h.before⟩

theorem readFrom_cons (k : Nat) (line : String) (rest : List String) :
    readFrom k (line :: rest) =
      match read line with
      | .error reason => .error (.malformed k reason)
      | .ok variant => (readFrom (k + 1) rest).map (variant :: ·) := by
  rw [readFrom]
  cases read line with
  | error reason => rfl
  | ok variant => cases readFrom (k + 1) rest <;> rfl

/-- Reading gives one variant for each line. -/
theorem forall₂_of_readFrom {k : Nat} {variants : List Variant}
    (h : readFrom k lines = .ok variants) :
    List.Forall₂ (fun line variant ↦ read line = .ok variant) lines variants := by
  induction lines generalizing k variants with
  | nil =>
    obtain rfl := Except.ok.inj h
    exact .nil
  | cons line rest ih =>
    rw [readFrom_cons] at h
    cases hline : read line with
    | error reason =>
      rw [hline] at h
      cases h
    | ok variant =>
      rw [hline] at h
      cases hrest : readFrom (k + 1) rest with
      | error error =>
        rw [hrest] at h
        cases h
      | ok others =>
        rw [hrest] at h
        obtain rfl := Except.ok.inj h
        exact .cons hline (ih hrest)

/-- Reading fails at the first line that is malformed. -/
theorem readFrom_eq_error_iff {k : Nat} {error : SchemaError} :
    readFrom k lines = .error error ↔
      ∃ i reason, error = .malformed (k + i) reason ∧ FirstMalformed lines i reason := by
  induction lines generalizing k with
  | nil =>
    constructor
    · intro h
      cases h
    · rintro ⟨i, reason, -, ⟨line, hline, -⟩, -⟩
      exact absurd hline (by simp)
  | cons line rest ih =>
    rw [readFrom_cons]
    constructor
    · intro h
      cases hline : read line with
      | error reason =>
        rw [hline] at h
        exact ⟨0, reason, (Except.error.inj h).symm, firstMalformed_zero_iff.mpr hline⟩
      | ok variant =>
        rw [hline] at h
        cases hrest : readFrom (k + 1) rest with
        | ok variants =>
          rw [hrest] at h
          cases h
        | error error' =>
          rw [hrest] at h
          obtain rfl := Except.error.inj h
          obtain ⟨i, reason, rfl, hfirst⟩ := ih.mp hrest
          refine ⟨i + 1, reason, ?_, firstMalformed_succ_iff.mpr ⟨⟨variant, hline⟩, hfirst⟩⟩
          rw [Nat.add_right_comm, Nat.add_assoc]
    · rintro ⟨i, reason, rfl, hfirst⟩
      cases i with
      | zero =>
        rw [firstMalformed_zero_iff.mp hfirst]
        rfl
      | succ i =>
        obtain ⟨⟨variant, hline⟩, hrest⟩ := firstMalformed_succ_iff.mp hfirst
        have hread : readFrom (k + 1) rest = .error (.malformed (k + (i + 1)) reason) :=
          ih.mpr ⟨i, reason, by rw [Nat.add_right_comm, Nat.add_assoc], hrest⟩
        rw [hline, hread]
        rfl

end Variant

/-- A blank name is reported before any line is read. -/
theorem compileWith_eq (preamble : Preamble) (base : String) (lines : List String) :
    compileWith preamble base lines =
      if base.toList.all isBlank then .error .emptyBaseName
      else (Variant.readFrom 0 lines).map fun variants ↦
        (⟨trimmed base, variants⟩ : Schema).emit preamble := by
  have hblank : (trim base.toList).isEmpty = base.toList.all isBlank := by
    rw [Bool.eq_iff_iff, List.isEmpty_iff, trim_eq_nil_iff]
  rw [compileWith, Schema.read, hblank]
  by_cases hbase : base.toList.all isBlank = true
  · rw [if_pos hbase, if_pos hbase]
  · rw [if_neg hbase, if_neg hbase]
    cases Variant.readFrom 0 lines <;> rfl

/-! ## Field lists -/

/-- The scan of a field list meets a closing bracket without a match, or it ends with a bracket
open. -/
def Nesting.Mismatches (list : List Char) : Prop :=
  start.scanList? list = none ∨ ∃ n, start.scanList? list = some n ∧ n.atTop = false

/-- A list can be cut if and only if the scan gets to its end outside brackets. -/
theorem exists_segmentsFrom_iff {n : Nesting} (current : List Char) {list : List Char} :
    (∃ segments, segmentsFrom n current list = .ok segments) ↔
      ∃ m, n.scanList? list = some m ∧ m.atTop = true := by
  induction list generalizing n current with
  | nil =>
    rw [segmentsFrom]
    by_cases htop : n.atTop = true
    · rw [if_pos htop]
      exact iff_of_true ⟨_, rfl⟩ ⟨n, rfl, htop⟩
    · rw [if_neg htop]
      simp [Nesting.scanList?, htop]
  | cons c cs ih =>
    rw [segmentsFrom_cons, Nesting.scanList?]
    by_cases hcomma : (c == ',' && n.atTop) = true
    · rw [if_pos hcomma, if_pos hcomma, exists_map_eq_ok_iff]
      exact ih []
    · rw [if_neg hcomma, if_neg hcomma]
      by_cases hadmits : n.admits c = true
      · rw [if_pos hadmits, if_pos hadmits]
        exact ih _
      · rw [if_neg hadmits, if_neg hadmits]
        simp

theorem Nesting.mismatches_iff {list : List Char} :
    Mismatches list ↔ ∃ segment, segments list = .error segment := by
  have hok : (∃ ss, segments list = .ok ss) ↔
      ∃ n, start.scanList? list = some n ∧ n.atTop = true := exists_segmentsFrom_iff []
  rw [Mismatches, segments]
  cases hcut : segmentsFrom start [] list with
  | ok ss =>
    obtain ⟨n, hn, htop⟩ := hok.mp ⟨ss, hcut⟩
    simp [hn, htop]
  | error segment =>
    refine iff_of_true ?_ ⟨segment, rfl⟩
    cases hscan : start.scanList? list with
    | none => exact .inl rfl
    | some n =>
      refine .inr ⟨n, rfl, Bool.eq_false_iff.mpr fun htop ↦ ?_⟩
      obtain ⟨ss, hss⟩ := hok.mpr ⟨n, hscan, htop⟩
      exact absurd (hcut.symm.trans hss) (by simp)

theorem Field.ofSegments_eq_mapM (segments : List (List Char)) :
    ofSegments segments = segments.mapM ofSegment := by
  induction segments with
  | nil => rfl
  | cons segment rest ih =>
    rw [ofSegments_cons]
    cases hsegment : ofSegment segment with
    | error reason => rw [mapM_cons_of_error hsegment]
    | ok field => rw [mapM_cons_of_ok hsegment, ih]

/-- A line with a name is rejected as its field list is. -/
theorem Variant.read_eq_error_iff {line : String} {name list : List Char} {reason : Malformation}
    (hcolon : ':' ∉ name) (hline : line.toList = name ++ ':' :: list)
    (hname : name.all isBlank = false) :
    read line = .error reason ↔ readFields list = .error reason := by
  have hnonempty : (trim name).isEmpty = false := by
    rw [List.isEmpty_eq_false_iff, ne_eq, trim_eq_nil_iff, hname]
    exact Bool.false_ne_true
  rw [read_of_toList hcolon hline, hnonempty, if_neg Bool.false_ne_true, map_eq_error_iff]

/-- A mismatch is reported whatever the fields are. -/
theorem Variant.readFields_of_mismatches {list : List Char} (h : Nesting.Mismatches list) :
    ∃ text, readFields list = .error (.unbalanced text) := by
  obtain ⟨segment, hsegment⟩ := Nesting.mismatches_iff.mp h
  rw [readFields, hsegment]
  exact ⟨_, rfl⟩

/-- Without a mismatch, the texts between the commas outside brackets are read from the left. -/
theorem Variant.readFields_of_not_mismatches {list : List Char} (h : ¬Nesting.Mismatches list) :
    ∃ segments, segments ≠ [] ∧ list = [','].intercalate segments ∧ CommasSeparate segments ∧
      ∀ reason, readFields list = .error reason ↔
        IsFirstError Field.ofSegment segments reason := by
  rw [Nesting.mismatches_iff] at h
  cases hcut : segments list with
  | error segment => exact absurd ⟨segment, hcut⟩ h
  | ok ss =>
    obtain ⟨hne, hfields, hlist⟩ := segmentsFrom_eq_ok_iff.mp hcut
    refine ⟨ss, hne, hlist, commasSeparate_of_areFields hfields, fun reason ↦ ?_⟩
    rw [readFields, hcut, ← mapM_eq_error_iff, ← Field.ofSegments_eq_mapM]

/-! ## The scan of a list and the grammar -/

theorem ArrowAcross.cons {first second : List Char} (h : ArrowAcross first second) (c : Char) :
    ArrowAcross (c :: first) second := by
  refine ⟨?_, h.2⟩
  rw [List.getLast?_cons, h.1]
  rfl

namespace Nesting

/-- A comma between fields stands within an arrow. -/
def SplitsArrow (n : Nesting) (list : List Char) : Prop :=
  ∃ first second, list = first ++ ',' :: second ∧ (n.after first).atTop = true ∧
    ArrowAcross first second

variable {n m : Nesting} {c : Char} {cs list : List Char}

theorem SplitsArrow.cons (h : (n.advance c).SplitsArrow cs) : n.SplitsArrow (c :: cs) := by
  obtain ⟨first, second, rfl, htop, hacross⟩ := h
  exact ⟨c :: first, second, rfl, htop, hacross.cons c⟩

/-- A comma changes no more than the last character. -/
theorem advance_comma (n : Nesting) : n.advance ',' = ⟨n.enclosing, some ','⟩ := by
  simp [advance, closes?, Bracket.opened?, Bracket.closed?]

theorem scan?_comma (n : Nesting) (list : List Char) :
    n.scan? (',' :: list) = (n.advance ',').scan? list := by
  rw [scan?_of_step? (n.step?_single (by decide)), advance_comma]

/-- Behind a comma outside brackets, and any more of them, nothing is left that a `>` could close. -/
theorem scan?_comma_eq_none (hn : n.enclosing = [])
    (hhead : (list.dropWhile (· == ',')).head? = some '>') : n.scan? (',' :: list) = none := by
  have hbehind : (n.advance ',').enclosing = [] := by
    rw [advance_comma]
    exact hn
  rw [scan?_comma]
  induction list generalizing n with
  | nil => exact absurd hhead (by simp)
  | cons c cs ih =>
    by_cases hc : c = ','
    · subst hc
      rw [scan?_comma]
      refine ih hbehind (by simpa using hhead) ?_
      rw [advance_comma]
      exact hbehind
    · obtain rfl : c = '>' := by simpa [hc] using hhead
      rw [scan?_cons, if_neg]
      intro hadmits
      have hlast := (admits_gt_iff hbehind).mp hadmits
      rw [last_advance] at hlast
      exact absurd hlast (by decide)

theorem not_splitsArrow_of_scan? (h : start.scan? list = some n) : ¬start.SplitsArrow list := by
  rintro ⟨first, second, rfl, htop, -, hhead⟩
  rw [scan?_append] at h
  cases hfirst : start.scan? first with
  | none =>
    rw [hfirst] at h
    cases h
  | some m =>
    obtain rfl := eq_after_of_scan? hfirst
    rw [hfirst, Option.bind_some, scan?_comma_eq_none (atTop_iff.mp htop) hhead] at h
    cases h

/-- The two scans meet the same brackets unless a comma between fields stands within an arrow. They
differ in the last character behind such a comma only, which one of them has passed over. -/
theorem scanList?_eq_scan? (henclosing : n.enclosing = m.enclosing)
    (hlast : n.last = m.last ∨ n.atTop = true ∧ n.last = some ',')
    (hhere : n.atTop = true → m.last = some '-' → n.last = some ',' ∨ list.head? = some ',' →
      (list.dropWhile (· == ',')).head? ≠ some '>')
    (hsplit : ¬n.SplitsArrow list) :
    (m.scanList? list).map (·.enclosing) = (n.scan? list).map (·.enclosing) := by
  induction list generalizing n m with
  | nil => rw [scanList?, scan?, Option.map_some, Option.map_some, henclosing]
  | cons c cs ih =>
    have hrest : ¬(n.advance c).SplitsArrow cs := fun h ↦ hsplit h.cons
    rw [scanList?]
    by_cases hcomma : c = ',' ∧ n.atTop = true
    · obtain ⟨rfl, htop⟩ := hcomma
      have hm : m.atTop = true := by
        rw [atTop, ← henclosing]
        exact htop
      rw [if_pos (by simp [hm]), scan?_comma]
      rw [advance_comma] at hrest ⊢
      refine ih henclosing (.inr ⟨htop, rfl⟩) (fun _ hhyphen _ ↦ ?_) hrest
      simpa using hhere htop hhyphen (.inr rfl)
    · have hagree : Agree n m (some c) := by
        refine ⟨henclosing, fun hc ↦ ?_⟩
        obtain rfl := Option.some.inj hc
        rcases hlast with hsame | ⟨htop, hpassed⟩
        · rw [hsame]
        · refine iff_of_false (by rw [hpassed]; decide) fun hhyphen ↦ ?_
          exact hhere htop hhyphen (.inl hpassed) (by simp)
      have hpass : ¬(c == ',' && m.atTop) = true := by
        rw [Bool.and_eq_true, beq_iff_eq, ← hagree.atTop_eq]
        exact hcomma
      rw [if_neg hpass, scan?_cons, ← hagree.admits_eq, ← hagree.advance_eq]
      by_cases hadmits : n.admits c = true
      · rw [if_pos hadmits, if_pos hadmits]
        refine ih rfl (.inl rfl) ?_ hrest
        intro htop hhyphen hnext hhead
        rw [last_advance] at hhyphen hnext
        obtain rfl := Option.some.inj hhyphen
        rcases hnext with hne | hnext
        · exact absurd (Option.some.inj hne) (by decide)
        · obtain ⟨ds, rfl⟩ := List.head?_eq_some_iff.mp hnext
          exact hsplit ⟨['-'], ds, rfl, htop, rfl, by simpa using hhead⟩
      · rw [if_neg hadmits, if_neg hadmits]

end Nesting

/-- The brackets of a list match as the grammar says if and only if the scan meets no mismatch and no
comma between fields stands within an arrow. -/
theorem matched_iff {list : List Char} :
    Matched list ↔ ¬Nesting.Mismatches list ∧ ¬Nesting.start.SplitsArrow list := by
  have hsame (hsplit : ¬Nesting.start.SplitsArrow list) :
      (Nesting.start.scanList? list).map (·.enclosing) =
        (Nesting.start.scan? list).map (·.enclosing) :=
    Nesting.scanList?_eq_scan? rfl (.inl rfl) (fun _ hhyphen ↦ by cases hhyphen) hsplit
  rw [Nesting.matched_iff_scan?]
  constructor
  · rintro ⟨n, hscan, htop⟩
    have hsplit := Nesting.not_splitsArrow_of_scan? hscan
    have hlist := hsame hsplit
    rw [hscan] at hlist
    obtain ⟨m, hm, henclosing⟩ := Option.map_eq_some_iff.mp hlist
    refine ⟨?_, hsplit⟩
    rintro (hnone | ⟨m', hm', hopen⟩)
    · exact absurd (hm.symm.trans hnone) (by simp)
    · obtain rfl := Option.some.inj (hm.symm.trans hm')
      rw [Nesting.atTop, henclosing, ← Nesting.atTop, htop] at hopen
      cases hopen
  · rintro ⟨hmatch, hsplit⟩
    have hlist := hsame hsplit
    cases hm : Nesting.start.scanList? list with
    | none => exact absurd (.inl hm) hmatch
    | some m =>
      have htop : m.atTop = true := by
        by_contra hopen
        exact hmatch (.inr ⟨m, hm, Bool.eq_false_iff.mpr hopen⟩)
      rw [hm] at hlist
      obtain ⟨n, hn, henclosing⟩ := Option.map_eq_some_iff.mp hlist.symm
      refine ⟨n, hn, ?_⟩
      rw [Nesting.atTop, henclosing]
      exact htop

/-! ## The failure of a schema -/

section

variable {preamble : Preamble} {base : String} {lines : List String}

theorem compileWith_eq_emptyBaseName_iff :
    compileWith preamble base lines = .error .emptyBaseName ↔ base.toList.all isBlank = true := by
  rw [compileWith_eq]
  by_cases hbase : base.toList.all isBlank = true
  · rw [if_pos hbase]
    exact iff_of_true rfl hbase
  · rw [if_neg hbase, map_eq_error_iff, Variant.readFrom_eq_error_iff]
    refine iff_of_false ?_ hbase
    -- What is wrong with a line is another error.
    rintro ⟨i, reason, herror, -⟩
    cases herror

theorem compileWith_eq_malformed_iff {i : Nat} {reason : Malformation} :
    compileWith preamble base lines = .error (.malformed i reason) ↔
      base.toList.all isBlank = false ∧ Variant.FirstMalformed lines i reason := by
  rw [compileWith_eq]
  by_cases hbase : base.toList.all isBlank = true
  · simp [hbase]
  · rw [if_neg hbase, map_eq_error_iff, Variant.readFrom_eq_error_iff,
      and_iff_right (Bool.eq_false_iff.mpr hbase)]
    simp

/-- Where nothing is wrong, every line is a variant. -/
theorem exists_compileWith_eq_ok (hbase : base.toList.all isBlank = false)
    (h : ∀ i reason, ¬Variant.FirstMalformed lines i reason) :
    ∃ variants, List.Forall₂ (fun line variant ↦ Variant.read line = .ok variant) lines variants ∧
      compileWith preamble base lines =
        .ok ((⟨trimmed base, variants⟩ : Schema).emit preamble) := by
  cases hread : Variant.readFrom 0 lines with
  | error error =>
    obtain ⟨i, reason, -, hfirst⟩ := Variant.readFrom_eq_error_iff.mp hread
    exact absurd hfirst (h i reason)
  | ok variants =>
    refine ⟨variants, Variant.forall₂_of_readFrom hread, ?_⟩
    rw [compileWith_eq, hbase, if_neg Bool.false_ne_true, hread]
    rfl

end

/-- **The first malformed line is reported.** A blank name comes before all lines, and the first
line that is malformed before those behind it, whatever these and the preamble are. If there is
neither, every line is a variant. Within a line, mismatched brackets come before all fields, and the
first field that cannot be read before those to its right. Brackets that do not match are those of
the lists that the grammar does not have, but for an arrow with a comma in it, which passes. -/
theorem compileWith_firstMalformed (preamble : Preamble) (base : String) (lines : List String) :
    (compileWith preamble base lines = .error .emptyBaseName ↔ base.toList.all isBlank = true) ∧
    (∀ i reason, compileWith preamble base lines = .error (.malformed i reason) ↔
      base.toList.all isBlank = false ∧ Variant.FirstMalformed lines i reason) ∧
    (base.toList.all isBlank = false → (∀ i reason, ¬Variant.FirstMalformed lines i reason) →
      ∃ variants, List.Forall₂ (fun line variant ↦ Variant.read line = .ok variant) lines variants ∧
        compileWith preamble base lines =
          .ok ((⟨trimmed base, variants⟩ : Schema).emit preamble)) ∧
    (∀ i reason, compileWith preamble base lines = .error (.malformed i reason) →
      ∀ preamble' lines', lines'.take (i + 1) = lines.take (i + 1) →
        compileWith preamble' base lines' = .error (.malformed i reason)) ∧
    ∀ (line : String) (name list : List Char), line.toList = name ++ ':' :: list → ':' ∉ name →
      name.all isBlank = false →
      (Matched list ↔ ¬Nesting.Mismatches list ∧ ¬Nesting.start.SplitsArrow list) ∧
      (Nesting.Mismatches list → ∃ text, Variant.read line = .error (.unbalanced text)) ∧
      (¬Nesting.Mismatches list → ∃ segments, segments ≠ [] ∧ list = [','].intercalate segments ∧
        CommasSeparate segments ∧ ∀ reason, Variant.read line = .error reason ↔
          IsFirstError Field.ofSegment segments reason) := by
  refine ⟨compileWith_eq_emptyBaseName_iff, fun i reason ↦ compileWith_eq_malformed_iff,
    exists_compileWith_eq_ok, ?_, ?_⟩
  · intro i reason h preamble' lines' hsame
    obtain ⟨hbase, hfirst⟩ := compileWith_eq_malformed_iff.mp h
    exact compileWith_eq_malformed_iff.mpr ⟨hbase, hfirst.congr hsame⟩
  · intro line name list hline hcolon hname
    simp only [Variant.read_eq_error_iff hcolon hline hname]
    exact ⟨matched_iff, Variant.readFields_of_mismatches, Variant.readFields_of_not_mismatches⟩

/-- A bracket that is left open is reported and not the empty field in front of it, and the field
without a type is reported where there is no such bracket. No preamble and no later line matters. -/
theorem compileWith_firstMalformed_brackets :
    compileWith {} "E" ["A: a T", "B: , b Vec<T", "C"] =
        .error (.malformed 1 (.unbalanced "b Vec<T")) ∧
      compileWith { header := some "h" } "E" ["A: a T", "B: , b Vec<T", "D: d T", "D"] =
        .error (.malformed 1 (.unbalanced "b Vec<T")) ∧
      ¬Matched " , b Vec<T".toList ∧
      (∃ text, Variant.read "B: , b Vec<T" = .error (.unbalanced text)) ∧
      ∃ segments, " b (T, U), c,".toList = [','].intercalate segments ∧
        CommasSeparate segments ∧
        IsFirstError Field.ofSegment segments (.missingType "c") := by
  have hopen : Nesting.Mismatches " , b Vec<T".toList :=
    .inr ⟨⟨[.angle], some 'T'⟩, by decide, by decide⟩
  have hclosed : ¬Nesting.Mismatches " b (T, U), c,".toList := by
    rintro (hnone | ⟨n, hn, hopen⟩)
    · exact absurd hnone (by decide)
    · obtain rfl : ⟨[], some 'c'⟩ = n := Option.some.inj hn
      exact absurd hopen (by decide)
  obtain ⟨-, -, -, hlater, hline⟩ :=
    compileWith_firstMalformed {} "E" ["A: a T", "B: , b Vec<T", "C"]
  have hfirst : compileWith {} "E" ["A: a T", "B: , b Vec<T", "C"] =
      .error (.malformed 1 (.unbalanced "b Vec<T")) := by decide +kernel
  obtain ⟨hmatched, hmismatch, -⟩ := hline "B: , b Vec<T" "B".toList " , b Vec<T".toList rfl
    (by decide) (by decide)
  obtain ⟨segments, -, hlist, hseparate, hreason⟩ := (hline "B: b (T, U), c," "B".toList
    " b (T, U), c,".toList rfl (by decide) (by decide)).2.2 hclosed
  have hread : Variant.read "B: b (T, U), c," = .error (.missingType "c") := by decide +kernel
  exact ⟨hfirst, hlater 1 _ hfirst _ _ rfl, fun h ↦ (hmatched.mp h).1 hopen, hmismatch hopen,
    segments, hlist, hseparate, (hreason _).mp hread⟩

end AstSchema
