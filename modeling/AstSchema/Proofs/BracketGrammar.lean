import AstSchema.Proofs.Scan
import Mathlib.Data.List.Basic

/-!
# The grammar of matched brackets

Which texts have matching brackets can be said without a scan. `Matched` is a grammar: texts are put
one behind the other, a character that is no bracket stands for itself, an arrow is a text of its
own, and a bracket encloses a text. Only the last rule looks at a neighbour. What stands in front of
a closing bracket is the end of the text that it encloses, and where this is a hyphen the two are an
arrow and close nothing.

The scan accepts exactly these texts (`Nesting.scan?_iff_matched`). One direction is an induction on
the grammar: a matched text leaves the open brackets as they are, whatever the state in front of it.
For the other direction the state behind a text has to be read back. `Opens` says what it stands
for, matched texts with the open brackets between them, and every step of the scan keeps this.
-/

namespace AstSchema

/-! ## Brackets as characters -/

namespace Bracket

/-- The character that opens a bracket of this kind. -/
def opening : Bracket → Char
  | angle => '<'
  | round => '('
  | square => '['

/-- The character that closes a bracket of this kind. -/
def closing : Bracket → Char
  | angle => '>'
  | round => ')'
  | square => ']'

theorem opened?_eq_some_iff {c : Char} {b : Bracket} : opened? c = some b ↔ c = b.opening := by
  cases b <;> grind [opened?, opening]

theorem closed?_eq_some_iff {c : Char} {b : Bracket} : closed? c = some b ↔ c = b.closing := by
  cases b <;> grind [closed?, closing]

/-- The characters that open or close. -/
def characters : List Char := ['<', '>', '(', ')', '[', ']']

theorem not_mem_characters_iff {c : Char} :
    c ∉ characters ↔ opened? c = none ∧ closed? c = none := by
  grind [characters, opened?, closed?]

theorem opening_ne_hyphen (b : Bracket) : b.opening ≠ '-' := by cases b <;> decide

theorem closing_ne_hyphen (b : Bracket) : b.closing ≠ '-' := by cases b <;> decide

end Bracket

/-! ## The grammar -/

/-- The texts whose brackets match. -/
inductive Matched : List Char → Prop
  /-- The empty text. -/
  | nil : Matched []
  /-- Two texts one behind the other. -/
  | append {cs ds : List Char} (hcs : Matched cs) (hds : Matched ds) : Matched (cs ++ ds)
  /-- A character that is no bracket. -/
  | single {c : Char} (hc : c ∉ Bracket.characters) : Matched [c]
  /-- An arrow. -/
  | arrow : Matched ['-', '>']
  /-- A text in brackets. A `>` directly behind a hyphen is no closing bracket. -/
  | enclosed {cs : List Char} (b : Bracket) (hcs : Matched cs)
      (hclosing : b.closing = '>' → cs.getLast? ≠ some '-') :
      Matched (b.opening :: (cs ++ [b.closing]))

/-- A text that ends with a hyphen goes on with the head of an arrow. -/
theorem Matched.append_gt {cs : List Char} (h : Matched cs) (hlast : cs.getLast? = some '-') :
    Matched (cs ++ ['>']) := by
  induction h with
  | nil => exact absurd hlast (by simp)
  | @append cs ds hcs hds ihcs ihds =>
    by_cases hnil : ds = []
    · subst hnil
      rw [List.append_nil] at hlast ⊢
      exact ihcs hlast
    · rw [List.getLast?_append_of_ne_nil _ hnil] at hlast
      rw [List.append_assoc]
      exact .append hcs (ihds hlast)
  | single hc =>
    obtain rfl : _ = '-' := Option.some.inj hlast
    exact .arrow
  | arrow => exact absurd hlast (by decide)
  | @enclosed cs b hcs hclosing ih =>
    rw [← List.cons_append, List.getLast?_concat, Option.some.injEq] at hlast
    exact absurd hlast b.closing_ne_hyphen

namespace Nesting

/-! ## Steps of the scan -/

section

variable {n m : Nesting} {c : Char} {b : Bracket}

theorem step?_opening (n : Nesting) (b : Bracket) :
    n.step? b.opening = some ⟨b :: n.enclosing, some b.opening⟩ := by
  have hopened : Bracket.opened? b.opening = some b := Bracket.opened?_eq_some_iff.mpr rfl
  have hcloses : n.closes? b.opening = none := by
    rw [closes?, Bracket.closed?_eq_none_of_opened? hopened, ite_self]
  rw [step?, admits, hcloses, advance, hopened]
  rfl

/-- A closing bracket ends the innermost open one if the two match. -/
theorem step?_closing (henclosing : n.enclosing.head? = some b)
    (hlast : b.closing = '>' → n.last ≠ some '-') :
    n.step? b.closing = some ⟨n.enclosing.tail, some b.closing⟩ := by
  have hclosed : Bracket.closed? b.closing = some b := Bracket.closed?_eq_some_iff.mpr rfl
  have hopened : Bracket.opened? b.closing = none := by
    by_contra hne
    obtain ⟨b', hb'⟩ := Option.ne_none_iff_exists'.mp hne
    have hnone := Bracket.closed?_eq_none_of_opened? hb'
    exact absurd (hclosed.symm.trans hnone) (by simp)
  have hcloses : n.closes? b.closing = some b := by
    rw [closes?, if_neg fun h ↦ hlast h.1 h.2, hclosed]
  simp [step?, admits, advance, hcloses, hopened, henclosing]

/-- Whatever does not open or close leaves the open brackets alone. -/
theorem step?_of_closes?_eq_none (hopened : Bracket.opened? c = none)
    (hcloses : n.closes? c = none) : n.step? c = some ⟨n.enclosing, some c⟩ := by
  simp [step?, admits, advance, hopened, hcloses]

theorem step?_single (n : Nesting) (hc : c ∉ Bracket.characters) :
    n.step? c = some ⟨n.enclosing, some c⟩ := by
  obtain ⟨hopened, hclosed⟩ := Bracket.not_mem_characters_iff.mp hc
  exact step?_of_closes?_eq_none hopened (by rw [closes?, hclosed, ite_self])

/-- The head of an arrow. -/
theorem step?_gt (hlast : n.last = some '-') : n.step? '>' = some ⟨n.enclosing, some '>'⟩ :=
  step?_of_closes?_eq_none rfl (by rw [closes?, if_pos ⟨rfl, hlast⟩])

/-- All that a step can be. -/
theorem step?_cases (h : n.step? c = some m) :
    (∃ b : Bracket, c = b.opening ∧ m = ⟨b :: n.enclosing, some c⟩) ∨
    (∃ (b : Bracket) (outer : List Bracket), c = b.closing ∧ n.enclosing = b :: outer ∧
      (c = '>' → n.last ≠ some '-') ∧ m = ⟨outer, some c⟩) ∨
    (c = '>' ∧ n.last = some '-' ∧ m = ⟨n.enclosing, some c⟩) ∨
    (c ∉ Bracket.characters ∧ m = ⟨n.enclosing, some c⟩) := by
  cases hopened : Bracket.opened? c with
  | some b =>
    obtain rfl := Bracket.opened?_eq_some_iff.mp hopened
    rw [step?_opening] at h
    exact .inl ⟨b, rfl, (Option.some.inj h).symm⟩
  | none =>
    refine .inr ?_
    cases hclosed : Bracket.closed? c with
    | none =>
      have hc := Bracket.not_mem_characters_iff.mpr ⟨hopened, hclosed⟩
      rw [step?_single n hc] at h
      exact .inr (.inr ⟨hc, (Option.some.inj h).symm⟩)
    | some b =>
      by_cases harrow : c = '>' ∧ n.last = some '-'
      · obtain ⟨rfl, hlast⟩ := harrow
        rw [step?_gt hlast] at h
        exact .inr (.inl ⟨rfl, hlast, (Option.some.inj h).symm⟩)
      · have hlast : c = '>' → n.last ≠ some '-' := fun hc hlast ↦ harrow ⟨hc, hlast⟩
        have henclosing : n.enclosing.head? = some b := by
          by_contra hne
          have hadmits : n.admits c = false := by
            simpa [admits, closes?, if_neg harrow, hclosed] using hne
          rw [step?, hadmits, if_neg Bool.false_ne_true] at h
          cases h
        obtain rfl := Bracket.closed?_eq_some_iff.mp hclosed
        obtain ⟨outer, houter⟩ := List.head?_eq_some_iff.mp henclosing
        rw [step?_closing henclosing hlast, houter] at h
        exact .inl ⟨b, outer, rfl, houter, hlast, (Option.some.inj h).symm⟩

end

/-! ## Matched texts are scanned -/

theorem scan?_of_step? {n m : Nesting} {c : Char} (h : n.step? c = some m) (cs : List Char) :
    n.scan? (c :: cs) = m.scan? cs := by
  rw [scan?, h]

end Nesting

/-- The scan gets to the end of a matched text, wherever the text stands, and the brackets that are
open behind it are those in front of it. -/
theorem Matched.exists_scan? {cs : List Char} (h : Matched cs) (n : Nesting) :
    ∃ m, n.scan? cs = some m ∧ m.enclosing = n.enclosing := by
  induction h generalizing n with
  | nil => exact ⟨n, rfl, rfl⟩
  | append _ _ ihcs ihds =>
    obtain ⟨m, hm, hsame⟩ := ihcs n
    obtain ⟨m', hm', hsame'⟩ := ihds m
    exact ⟨m', by rw [Nesting.scan?_append, hm, Option.bind_some, hm'], hsame'.trans hsame⟩
  | single hc => exact ⟨_, Nesting.scan?_of_step? (n.step?_single hc) [], rfl⟩
  | arrow =>
    refine ⟨⟨n.enclosing, some '>'⟩, ?_, rfl⟩
    rw [Nesting.scan?_of_step? (n.step?_single (by decide)),
      Nesting.scan?_of_step? (Nesting.step?_gt rfl)]
    rfl
  | @enclosed cs b _ hclosing ih =>
    obtain ⟨m, hm, hsame⟩ := ih ⟨b :: n.enclosing, some b.opening⟩
    -- In front of the closing bracket stands the end of the text, or the opening bracket.
    have hlast : b.closing = '>' → m.last ≠ some '-' := by
      intro hb hhyphen
      rw [Nesting.eq_after_of_scan? hm, Nesting.last_after, Option.or_eq_some_iff] at hhyphen
      rcases hhyphen with hcs | ⟨-, hopening⟩
      · exact hclosing hb hcs
      · exact b.opening_ne_hyphen (Option.some.inj hopening)
    have hstep := Nesting.step?_closing (by rw [hsame]; rfl) hlast
    refine ⟨⟨m.enclosing.tail, some b.closing⟩, ?_, congrArg List.tail hsame⟩
    rw [Nesting.scan?_of_step? (n.step?_opening b), Nesting.scan?_append, hm, Option.bind_some,
      Nesting.scan?_of_step? hstep]
    rfl

/-! ## Scanned texts are matched -/

/-- The text is matched but for some brackets that are left open, innermost first. -/
inductive Opens : List Bracket → List Char → Prop
  /-- Nothing is left open. -/
  | matched {cs : List Char} (h : Matched cs) : Opens [] cs
  /-- One more bracket is left open, and all behind it is matched. -/
  | opened {outer : List Bracket} {cs ds : List Char} (b : Bracket) (hcs : Opens outer cs)
      (hds : Matched ds) : Opens (b :: outer) (cs ++ b.opening :: ds)

namespace Opens

variable {enclosing : List Bracket} {cs ds : List Char}

theorem append (h : Opens enclosing cs) (hds : Matched ds) : Opens enclosing (cs ++ ds) := by
  cases h with
  | matched hcs => exact .matched (.append hcs hds)
  | opened b hcs hbehind =>
    rw [List.append_assoc, List.cons_append]
    exact .opened b hcs (.append hbehind hds)

theorem append_gt (h : Opens enclosing cs) (hlast : cs.getLast? = some '-') :
    Opens enclosing (cs ++ ['>']) := by
  cases h with
  | matched hcs => exact .matched (hcs.append_gt hlast)
  | @opened _ _ ds b hcs hbehind =>
    have hds : ds.getLast? = some '-' := by
      rw [List.getLast?_append_of_ne_nil _ (List.cons_ne_nil _ _), List.getLast?_cons,
        Option.some.injEq] at hlast
      cases hend : ds.getLast? with
      | none =>
        rw [hend] at hlast
        exact absurd hlast b.opening_ne_hyphen
      | some c =>
        rw [hend] at hlast
        exact congrArg some hlast
    rw [List.append_assoc, List.cons_append]
    exact .opened b hcs (hbehind.append_gt hds)

/-- Closing the innermost bracket makes its text a part of the one around it. -/
theorem append_closing {b : Bracket} (h : Opens (b :: enclosing) cs)
    (hlast : b.closing = '>' → cs.getLast? ≠ some '-') :
    Opens enclosing (cs ++ [b.closing]) := by
  cases h with
  | @opened _ cs ds _ hcs hbehind =>
    have hclosing : b.closing = '>' → ds.getLast? ≠ some '-' := by
      intro hb hds
      apply hlast hb
      rw [List.getLast?_append_of_ne_nil _ (List.cons_ne_nil _ _), List.getLast?_cons, hds]
      rfl
    rw [List.append_assoc, List.cons_append]
    exact hcs.append (.enclosed b hbehind hclosing)

end Opens

namespace Nesting

/-- What is remembered behind a text is what the text leaves open, and its last character. -/
structure Remembers (n : Nesting) (cs : List Char) : Prop where
  /-- The open brackets are those that the text leaves open. -/
  opens : Opens n.enclosing cs
  /-- The last character is that of the text. -/
  last : n.last = cs.getLast?

theorem remembers_start : start.Remembers [] := ⟨.matched .nil, rfl⟩

theorem Remembers.step {n m : Nesting} {cs : List Char} {c : Char} (hn : n.Remembers cs)
    (h : n.step? c = some m) : m.Remembers (cs ++ [c]) := by
  have hopens := hn.opens
  have hlast := hn.last
  rcases step?_cases h with ⟨b, rfl, rfl⟩ | ⟨b, outer, rfl, houter, hclosing, rfl⟩ |
    ⟨rfl, hhyphen, rfl⟩ | ⟨hc, rfl⟩
  · exact ⟨.opened b hopens .nil, by rw [List.getLast?_concat]⟩
  · rw [houter] at hopens
    rw [hlast] at hclosing
    exact ⟨hopens.append_closing hclosing, by rw [List.getLast?_concat]⟩
  · exact ⟨hopens.append_gt (hlast ▸ hhyphen), by rw [List.getLast?_concat]⟩
  · exact ⟨hopens.append (.single hc), by rw [List.getLast?_concat]⟩

theorem Remembers.scan {n m : Nesting} {cs ds : List Char} (hn : n.Remembers cs)
    (h : n.scan? ds = some m) : m.Remembers (cs ++ ds) := by
  induction ds generalizing n cs with
  | nil =>
    obtain rfl := Option.some.inj h
    rwa [List.append_nil]
  | cons d ds ih =>
    cases hstep : n.step? d with
    | none =>
      rw [scan?, hstep] at h
      cases h
    | some n' =>
      rw [scan?_of_step? hstep] at h
      rw [List.append_cons]
      exact ih (hn.step hstep) h

/-! ## The scan and the grammar -/

theorem matched_iff_scan? {cs : List Char} :
    Matched cs ↔ ∃ n, start.scan? cs = some n ∧ n.atTop = true := by
  constructor
  · intro h
    obtain ⟨n, hscan, hsame⟩ := h.exists_scan? start
    exact ⟨n, hscan, atTop_iff.mpr hsame⟩
  · rintro ⟨n, hscan, htop⟩
    have hopens := (remembers_start.scan hscan).opens
    rw [atTop_iff.mp htop] at hopens
    cases hopens with
    | matched h => exact h

/-- **The scan accepts exactly the matched texts.** It gets to the end of a text and leaves no
bracket open if and only if the text is matched, and where it stops at a character, no text that
goes on behind that character is matched. -/
theorem scan?_iff_matched :
    (∀ text : String, (∃ n, start.scan? text.toList = some n ∧ n.atTop = true) ↔
      Matched text.toList) ∧
    ∀ (front : List Char) (c : Char) (n : Nesting), start.scan? front = some n →
      n.step? c = none → ∀ behind, ¬Matched (front ++ c :: behind) := by
  constructor
  · intro text
    exact matched_iff_scan?.symm
  · intro front c n hfront hstep behind h
    obtain ⟨m, hscan, -⟩ := h.exists_scan? start
    rw [scan?_append, hfront, Option.bind_some, scan?, hstep] at hscan
    cases hscan

/-- An arrow inside brackets is matched. A square bracket behind an arrow does not match the round
one in front of it, whatever follows. -/
theorem scan?_iff_matched_arrow :
    Matched "Box<dyn Fn(&[E]) -> R>".toList ∧
      start.scan? "(a ->".toList = some ⟨[.round], some '>'⟩ ∧
      (⟨[.round], some '>'⟩ : Nesting).step? ']' = none ∧
      ∀ behind, ¬Matched ("(a ->".toList ++ ']' :: behind) := by
  obtain ⟨hiff, hstops⟩ := scan?_iff_matched
  have hscan : start.scan? "(a ->".toList = some ⟨[.round], some '>'⟩ := by decide
  have hstep : (⟨[.round], some '>'⟩ : Nesting).step? ']' = none := by decide
  exact ⟨(hiff _).mp ⟨⟨[], some '>'⟩, by decide, rfl⟩, hscan, hstep, hstops _ _ _ hscan hstep⟩

end Nesting

end AstSchema
