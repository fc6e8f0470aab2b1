import AstSchema.Nesting
import AstSchema.Text.Blank

/-!
# Scans of bracketed text

What the scan of a text remembers is a state, and every fact about field lists comes down to two
questions about it: what the state behind a text is, and whether the scan gets to the end of the
text without meeting a bracket that does not match or a comma outside brackets. `Nesting.after`
answers the first and `Nesting.inField` the second. Both are folds, so both distribute over
appending, and a text that is written in several pieces is checked piece by piece.

A state is a stack of brackets and the last character. The last character matters to the next one
only, only if that is a `>`, and only by whether it is a hyphen. The congruence lemmas say so once,
and nothing else in the development looks at the last character.
-/

namespace AstSchema

open AstSchema.Text

namespace Nesting

/-! ## The state behind a text -/

/-- What is remembered behind a text, whether or not its brackets match. -/
def after (n : Nesting) (cs : List Char) : Nesting := cs.foldl advance n

@[simp] theorem after_nil (n : Nesting) : n.after [] = n := rfl

@[simp] theorem after_cons (n : Nesting) (c : Char) (cs : List Char) :
    n.after (c :: cs) = (n.advance c).after cs := rfl

theorem after_append (n : Nesting) (cs ds : List Char) :
    n.after (cs ++ ds) = (n.after cs).after ds := List.foldl_append

theorem last_after (n : Nesting) (cs : List Char) :
    (n.after cs).last = cs.getLast?.or n.last := by
  induction cs generalizing n with
  | nil => rfl
  | cons c cs ih => rw [after_cons, ih, last_advance, List.getLast?_cons]; cases cs.getLast? <;> rfl

theorem scan?_cons (n : Nesting) (c : Char) (cs : List Char) :
    n.scan? (c :: cs) = if n.admits c then (n.advance c).scan? cs else none := by
  rw [scan?, step?]
  split <;> simp_all

/-- A scan that gets to the end of a text ends in the state behind it. -/
theorem eq_after_of_scan? {n m : Nesting} {cs : List Char} (h : n.scan? cs = some m) :
    m = n.after cs := by
  induction cs generalizing n with
  | nil => exact (Option.some.inj h).symm
  | cons c cs ih =>
    rw [scan?_cons] at h
    split at h
    · exact ih h
    · exact absurd h (by simp)

/-! ## The part of the last character -/

/-- Two scans treat `c` alike if they differ in no more than the last character and that does not
decide whether a `>` is the head of an arrow. -/
def Agree (n m : Nesting) (c : Option Char) : Prop :=
  n.enclosing = m.enclosing ∧ (c = some '>' → (n.last = some '-' ↔ m.last = some '-'))

theorem agree_of_ne_hyphen {n m : Nesting} (h : n.enclosing = m.enclosing)
    (hn : n.last ≠ some '-') (hm : m.last ≠ some '-') (c : Option Char) : Agree n m c :=
  ⟨h, fun _ ↦ iff_of_false hn hm⟩

theorem Agree.closes?_eq {n m : Nesting} {c : Char} (h : Agree n m (some c)) :
    n.closes? c = m.closes? c := by
  unfold closes?
  by_cases hc : c = '>'
  · simp only [hc, true_and, h.2 (congrArg some hc)]
  · simp only [hc, false_and]

theorem Agree.admits_eq {n m : Nesting} {c : Char} (h : Agree n m (some c)) :
    n.admits c = m.admits c := by
  rw [admits, admits, h.closes?_eq, h.1]

theorem Agree.advance_eq {n m : Nesting} {c : Char} (h : Agree n m (some c)) :
    n.advance c = m.advance c := by
  rw [advance, advance, h.closes?_eq, h.1]

theorem Agree.atTop_eq {n m : Nesting} {c : Option Char} (h : Agree n m c) :
    n.atTop = m.atTop := by
  rw [atTop, atTop, h.1]

theorem Agree.enclosing_after {n m : Nesting} {cs : List Char} (h : Agree n m cs.head?) :
    (n.after cs).enclosing = (m.after cs).enclosing := by
  cases cs with
  | nil => exact h.1
  | cons c cs => rw [after_cons, after_cons, h.advance_eq]

/-! ## Text within one field -/

/-- Whether the scan gets to the end of the text and stays within one field: every closing bracket
matches and no comma stands outside brackets. -/
def inField (n : Nesting) : List Char → Bool
  | [] => true
  | c :: cs => !(c == ',' && n.atTop) && n.admits c && (n.advance c).inField cs

/-- Whether the text is a whole field: the scan stays within it and leaves no bracket open. -/
def isField (n : Nesting) (cs : List Char) : Bool := n.inField cs && (n.after cs).atTop

@[simp] theorem inField_nil (n : Nesting) : n.inField [] = true := rfl

theorem inField_cons {n : Nesting} {c : Char} {cs : List Char} :
    n.inField (c :: cs) = true ↔
      (c == ',' && n.atTop) = false ∧ n.admits c = true ∧ (n.advance c).inField cs = true := by
  simp only [inField, Bool.and_eq_true, Bool.not_eq_true', and_assoc]

theorem inField_append (n : Nesting) (cs ds : List Char) :
    n.inField (cs ++ ds) = (n.inField cs && (n.after cs).inField ds) := by
  induction cs generalizing n with
  | nil => rfl
  | cons c cs ih => simp only [List.cons_append, inField, after_cons, ih, Bool.and_assoc]

theorem isField_iff {n : Nesting} {cs : List Char} :
    n.isField cs = true ↔ n.inField cs = true ∧ (n.after cs).atTop = true := by
  rw [isField, Bool.and_eq_true]

theorem isField_append (n : Nesting) (cs ds : List Char) :
    n.isField (cs ++ ds) = (n.inField cs && (n.after cs).isField ds) := by
  rw [isField, isField, inField_append, after_append, Bool.and_assoc]

theorem Agree.inField_eq {n m : Nesting} {cs : List Char} (h : Agree n m cs.head?) :
    n.inField cs = m.inField cs := by
  cases cs with
  | nil => rfl
  | cons c cs => rw [inField, inField, h.admits_eq, h.advance_eq, h.atTop_eq]

theorem Agree.isField_eq {n m : Nesting} {cs : List Char} (h : Agree n m cs.head?) :
    n.isField cs = m.isField cs := by
  rw [isField, isField, h.inField_eq, atTop, atTop, h.enclosing_after]

/-- Outside brackets, a `>` may stand behind a hyphen only. -/
theorem admits_gt_iff {n : Nesting} (hn : n.enclosing = []) :
    n.admits '>' = true ↔ n.last = some '-' := by
  by_cases hl : n.last = some '-'
  · simp [admits, closes?, hl]
  · simp [admits, closes?, hl, hn, Bracket.closed?]

/-- A field that starts with a `>` stands behind a hyphen, so that reading it behind a hyphen
changes nothing about it. -/
theorem inField_behind_hyphen {n : Nesting} {cs : List Char} (hn : n.enclosing = [])
    (h : n.inField cs = true) : Agree n ⟨[], some '-'⟩ cs.head? := by
  refine ⟨hn, fun hc ↦ ?_⟩
  cases cs with
  | nil => exact absurd hc (by simp)
  | cons c cs =>
    obtain rfl := Option.some.inj hc
    simp [(admits_gt_iff hn).mp (inField_cons.mp h).2.1]

/-! ## Commas -/

/-- Every comma of the text stands inside brackets. -/
def CommasInside (n : Nesting) (cs : List Char) : Prop :=
  ∀ p q, cs = p ++ ',' :: q → (n.after p).atTop = false

theorem commasInside_cons {n : Nesting} {c : Char} {cs : List Char} :
    n.CommasInside (c :: cs) ↔
      (c == ',' && n.atTop) = false ∧ (n.advance c).CommasInside cs := by
  constructor
  · intro h
    refine ⟨?_, fun p q hcs ↦ h (c :: p) q (by rw [hcs]; rfl)⟩
    by_cases hc : c = ','
    · subst hc
      simpa using h [] cs rfl
    · simp [hc]
  · rintro ⟨hc, h⟩ p q hcs
    cases p with
    | nil =>
      obtain ⟨rfl, rfl⟩ := List.cons.inj hcs
      simpa using hc
    | cons d p =>
      obtain ⟨rfl, rfl⟩ := List.cons.inj hcs
      exact h p q rfl

/-- Staying within a field is scanning without a mismatch and keeping the commas inside. -/
theorem inField_iff {n : Nesting} {cs : List Char} :
    n.inField cs = true ↔ n.scan? cs = some (n.after cs) ∧ n.CommasInside cs := by
  induction cs generalizing n with
  | nil => simp [scan?, CommasInside]
  | cons c cs ih =>
    rw [inField_cons, ih, commasInside_cons, scan?_cons, after_cons]
    by_cases ha : n.admits c = true
    · rw [if_pos ha, and_iff_right ha]
      exact and_left_comm
    · rw [if_neg ha]
      simp [ha]

end Nesting

/-! ## Characters that leave the brackets alone -/

/-- Whether `c` is neither a bracket nor a comma. -/
def isPlain (c : Char) : Bool :=
  c != ',' && (Bracket.opened? c).isNone && (Bracket.closed? c).isNone

theorem isPlain_iff {c : Char} :
    isPlain c = true ↔ c ∉ [',', '<', '>', '(', ')', '[', ']'] := by
  grind [isPlain, Bracket.opened?, Bracket.closed?]

theorem isPlain_of_isBlank {c : Char} (h : isBlank c = true) : isPlain c = true := by
  have hblank : [',', '<', '>', '(', ')', '[', ']'].all (!isBlank ·) = true := by decide
  refine isPlain_iff.mpr fun hc ↦ ?_
  have hsolid := List.all_eq_true.mp hblank c hc
  rw [h] at hsolid
  exact absurd hsolid (by decide)

theorem all_isPlain_of_isBlank {w : List Char} (h : w.all isBlank = true) :
    w.all isPlain = true :=
  List.all_eq_true.mpr fun c hc ↦ isPlain_of_isBlank (List.all_eq_true.mp h c hc)

namespace Nesting

theorem closes?_of_isPlain {n : Nesting} {c : Char} (h : isPlain c = true) :
    n.closes? c = none := by
  simp only [isPlain, Bool.and_eq_true, Option.isNone_iff_eq_none] at h
  rw [closes?, h.2, ite_self]

theorem isBlank_eq_false_of_admits {n : Nesting} {c : Char} (h : n.admits c = false) :
    isBlank c = false := by
  refine Bool.eq_false_iff.mpr fun hblank ↦ ?_
  rw [admits, closes?_of_isPlain (isPlain_of_isBlank hblank)] at h
  exact absurd h (by simp)

theorem advance_of_isPlain {n : Nesting} {c : Char} (h : isPlain c = true) :
    n.advance c = ⟨n.enclosing, some c⟩ := by
  have ho : Bracket.opened? c = none := by
    simp only [isPlain, Bool.and_eq_true, Option.isNone_iff_eq_none] at h
    exact h.1.2
  rw [advance, ho, closes?_of_isPlain h]

theorem inField_of_isPlain {n : Nesting} {cs : List Char} (h : cs.all isPlain = true) :
    n.inField cs = true := by
  induction cs generalizing n with
  | nil => rfl
  | cons c cs ih =>
    rw [List.all_cons, Bool.and_eq_true] at h
    have hc : (c == ',') = false := by
      have := h.1
      simp only [isPlain, Bool.and_eq_true, bne_iff_ne, ne_eq] at this
      simpa using this.1.1
    exact inField_cons.mpr ⟨by simp [hc], by rw [admits, closes?_of_isPlain h.1], ih h.2⟩

theorem enclosing_after_of_isPlain {n : Nesting} {cs : List Char} (h : cs.all isPlain = true) :
    (n.after cs).enclosing = n.enclosing := by
  induction cs generalizing n with
  | nil => rfl
  | cons c cs ih =>
    rw [List.all_cons, Bool.and_eq_true] at h
    rw [after_cons, ih h.2, advance_of_isPlain h.1]

theorem enclosing_after_of_isBlank {n : Nesting} {w : List Char} (h : w.all isBlank = true) :
    (n.after w).enclosing = n.enclosing :=
  enclosing_after_of_isPlain (all_isPlain_of_isBlank h)

theorem isField_append_of_isBlank {n : Nesting} {w : List Char} (h : w.all isBlank = true)
    (cs : List Char) : n.isField (cs ++ w) = n.isField cs := by
  rw [isField_append, isField, isField, inField_of_isPlain (all_isPlain_of_isBlank h), atTop,
    atTop, enclosing_after_of_isBlank h, Bool.true_and]

theorem last_after_ne_hyphen {n : Nesting} {w : List Char} (h : w.all isBlank = true)
    (hne : w ≠ []) : (n.after w).last ≠ some '-' := by
  intro hlast
  rw [last_after, List.getLast?_eq_some_getLast hne, Option.some_or] at hlast
  have hblank := List.all_eq_true.mp h _ (List.getLast_mem hne)
  rw [Option.some.inj hlast] at hblank
  exact absurd hblank (by decide)

end Nesting

end AstSchema
