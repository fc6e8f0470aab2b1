import Mathlib.Data.List.Basic
import AstSchema.Lox.ListForm

/-!
# What a list form shows

A list form shows how an expression is nested and in which order its parts stand, and no more: it
does not tell an operator that may leave its operand unused from one that does not, nor a name from
a text with the same letters. What it shows is the skeleton of the expression, a tree of texts.

The list form is the skeleton written out, so different skeletons have to be told from their texts.
A word, which is a text without blanks and parentheses, ends where the first of these stands, and a
list ends at its own parenthesis. `Skeleton.eq_of_append` is the unique reading in the form that
goes through the induction: with something behind that cannot go on with a word.

Operators, names and literals need not be words. A literal may hold any text, and then neither its
end nor its parentheses can be relied on.
-/

namespace AstSchema.Lox

/-! ## Skeletons -/

/-- A tree of texts. -/
inductive Skeleton
  /-- A text. -/
  | atom (text : String)
  /-- Skeletons in their order. -/
  | list (parts : List Skeleton)
  deriving Repr

mutual

/-- What the list form of an expression shows. -/
def Expr.skeleton : Expr → Skeleton
  | .assign name value => .list [.atom "=", .atom name.lexeme, value.skeleton]
  | .binary left operator right => .list [.atom operator.lexeme, left.skeleton, right.skeleton]
  | .call callee _ arguments =>
    .list (.atom "call" :: callee.skeleton :: Expr.skeletons arguments)
  | .grouping inner => .list [.atom "group", inner.skeleton]
  | .literal value => .atom value.display
  | .logical left operator right => .list [.atom operator.lexeme, left.skeleton, right.skeleton]
  | .unary operator right => .list [.atom operator.lexeme, right.skeleton]
  | .reference name => .atom name.lexeme

/-- What the list forms of arguments show. -/
def Expr.skeletons : List Expr → List Skeleton
  | [] => []
  | e :: rest => e.skeleton :: Expr.skeletons rest

end

example : (Expr.binary (.reference ⟨"x", 1⟩) ⟨"=", 2⟩ (.literal .nil)).skeleton =
    (Expr.assign ⟨"x", 1⟩ (.literal .nil)).skeleton := rfl

namespace Skeleton

mutual

/-- A skeleton written out, with blanks between the parts of a list. -/
def spell : Skeleton → List Char
  | atom text => text.toList
  | list [] => ['(', ')']
  | list (part :: parts) => '(' :: (part.spell ++ (spellBehind parts ++ [')']))

/-- Parts written out, each behind a blank. -/
def spellBehind : List Skeleton → List Char
  | [] => []
  | part :: parts => ' ' :: (part.spell ++ spellBehind parts)

end

mutual

/-- The texts in a skeleton. -/
def words : Skeleton → List String
  | atom text => [text]
  | list parts => wordsOfAll parts

/-- The texts in some skeletons. -/
def wordsOfAll : List Skeleton → List String
  | [] => []
  | part :: parts => part.words ++ wordsOfAll parts

end

end Skeleton

mutual

/-- A list form is the skeleton written out. -/
theorem Expr.toList_listForm (e : Expr) : e.listForm.toList = e.skeleton.spell := by
  match e with
  | .assign _ value =>
    simp [listForm, skeleton, Skeleton.spell, Skeleton.spellBehind, value.toList_listForm]
  | .binary left _ right | .logical left _ right =>
    simp [listForm, skeleton, Skeleton.spell, Skeleton.spellBehind, left.toList_listForm,
      right.toList_listForm]
  | .call callee _ arguments =>
    simp [listForm, skeleton, Skeleton.spell, Skeleton.spellBehind, callee.toList_listForm,
      Expr.toList_listForms arguments]
  | .grouping inner =>
    simp [listForm, skeleton, Skeleton.spell, Skeleton.spellBehind, inner.toList_listForm]
  | .unary _ right =>
    simp [listForm, skeleton, Skeleton.spell, Skeleton.spellBehind, right.toList_listForm]
  | .literal _ | .reference _ => rfl

theorem Expr.toList_listForms (es : List Expr) :
    (Expr.listForms es).toList = Skeleton.spellBehind (Expr.skeletons es) := by
  match es with
  | [] => rfl
  | e :: rest =>
    simp [listForms, skeletons, Skeleton.spellBehind, e.toList_listForm,
      Expr.toList_listForms rest]

end

/-! ## Words -/

/-- Whether `c` can stand in a word. -/
def isWordChar (c : Char) : Bool := c != ' ' && c != '(' && c != ')'

/-- Whether a text can be told from what stands around it. -/
def isWord (text : String) : Bool := !text.toList.isEmpty && text.toList.all isWordChar

mutual

/-- The operators, names and literals of an expression. -/
def Expr.words : Expr → List String
  | .assign name value => name.lexeme :: value.words
  | .binary left operator right | .logical left operator right =>
    operator.lexeme :: (left.words ++ right.words)
  | .call callee _ arguments => callee.words ++ Expr.wordsOfAll arguments
  | .grouping inner => inner.words
  | .literal value => [value.display]
  | .unary operator right => operator.lexeme :: right.words
  | .reference name => [name.lexeme]

/-- The operators, names and literals of some expressions. -/
def Expr.wordsOfAll : List Expr → List String
  | [] => []
  | e :: rest => e.words ++ Expr.wordsOfAll rest

end

mutual

/-- The texts in the skeleton are words if the operators, names and literals are. -/
theorem Expr.isWord_of_mem_skeleton (e : Expr) (h : ∀ w ∈ e.words, isWord w = true) :
    ∀ w ∈ e.skeleton.words, isWord w = true := by
  match e with
  | .assign name value =>
    obtain ⟨hname, hvalue⟩ := List.forall_mem_cons.mp h
    have hvalue := value.isWord_of_mem_skeleton hvalue
    simpa [skeleton, Skeleton.words, Skeleton.wordsOfAll] using ⟨rfl, hname, hvalue⟩
  | .binary left operator right | .logical left operator right =>
    obtain ⟨hoperator, h⟩ := List.forall_mem_cons.mp h
    obtain ⟨hleft, hright⟩ := List.forall_mem_append.mp h
    have hleft := left.isWord_of_mem_skeleton hleft
    have hright := right.isWord_of_mem_skeleton hright
    simpa [skeleton, Skeleton.words, Skeleton.wordsOfAll, or_imp, forall_and]
      using ⟨hoperator, hleft, hright⟩
  | .call callee _ arguments =>
    obtain ⟨hcallee, harguments⟩ := List.forall_mem_append.mp h
    have hcallee := callee.isWord_of_mem_skeleton hcallee
    have harguments := Expr.isWord_of_mem_skeletons arguments harguments
    simpa [skeleton, Skeleton.words, Skeleton.wordsOfAll, or_imp, forall_and]
      using ⟨rfl, hcallee, harguments⟩
  | .grouping inner =>
    have hinner := inner.isWord_of_mem_skeleton h
    simpa [skeleton, Skeleton.words, Skeleton.wordsOfAll] using ⟨rfl, hinner⟩
  | .unary operator right =>
    obtain ⟨hoperator, hright⟩ := List.forall_mem_cons.mp h
    have hright := right.isWord_of_mem_skeleton hright
    simpa [skeleton, Skeleton.words, Skeleton.wordsOfAll] using ⟨hoperator, hright⟩
  | .literal _ | .reference _ => exact h

theorem Expr.isWord_of_mem_skeletons (es : List Expr)
    (h : ∀ w ∈ Expr.wordsOfAll es, isWord w = true) :
    ∀ w ∈ Skeleton.wordsOfAll (Expr.skeletons es), isWord w = true := by
  match es with
  | [] => exact h
  | e :: rest =>
    obtain ⟨he, hrest⟩ := List.forall_mem_append.mp h
    exact List.forall_mem_append.mpr
      ⟨e.isWord_of_mem_skeleton he, Expr.isWord_of_mem_skeletons rest hrest⟩

end

/-! ## Unique reading -/

/-- No word goes on with the text. -/
def StopsWord (rest : List Char) : Prop := rest.takeWhile isWordChar = []

theorem stopsWord_cons {c : Char} (h : isWordChar c = false) (rest : List Char) :
    StopsWord (c :: rest) :=
  List.takeWhile_cons_of_neg (by simp [h])

/-- A word is what stands in front of the first character that cannot stand in a word. -/
theorem takeWhile_of_isWord {text : String} (h : isWord text = true) {rest : List Char}
    (hrest : StopsWord rest) : (text.toList ++ rest).takeWhile isWordChar = text.toList := by
  simp only [isWord, Bool.and_eq_true, List.all_eq_true] at h
  rw [List.takeWhile_append_of_pos h.2, hrest, List.append_nil]

theorem exists_cons_of_isWord {text : String} (h : isWord text = true) :
    ∃ c cs, text.toList = c :: cs ∧ isWordChar c = true := by
  simp only [isWord, Bool.and_eq_true, List.all_eq_true, Bool.not_eq_true',
    List.isEmpty_eq_false_iff] at h
  obtain ⟨c, cs, hcs⟩ := List.exists_cons_of_ne_nil h.1
  exact ⟨c, cs, hcs, h.2 c (hcs ▸ List.mem_cons_self)⟩

namespace Skeleton

/-- What follows a part cannot go on with a word. -/
theorem stopsWord_spellBehind (parts : List Skeleton) (rest : List Char) :
    StopsWord (spellBehind parts ++ ')' :: rest) := by
  cases parts with
  | nil => exact stopsWord_cons rfl rest
  | cons part parts => exact stopsWord_cons rfl _

/-- A skeleton starts neither like what follows a part nor like the end of a list. -/
theorem exists_cons_spell {s : Skeleton} (h : ∀ w ∈ s.words, isWord w = true) :
    ∃ c cs, s.spell = c :: cs ∧ c ≠ ')' := by
  match s with
  | atom text =>
    obtain ⟨c, cs, hcs, hc⟩ := exists_cons_of_isWord (h text List.mem_cons_self)
    refine ⟨c, cs, hcs, ?_⟩
    rintro rfl
    exact absurd hc (by decide)
  | list [] => exact ⟨'(', _, rfl, by decide⟩
  | list (_ :: _) => exact ⟨'(', _, rfl, by decide⟩

/-- A word is no list. -/
theorem spell_atom_append_ne {text : String} (h : isWord text = true) (parts : List Skeleton)
    (rest rest' : List Char) : (atom text).spell ++ rest ≠ (list parts).spell ++ rest' := by
  obtain ⟨c, cs, hcs, hc⟩ := exists_cons_of_isWord h
  have hhead : ∃ tail, (list parts).spell = '(' :: tail := by
    cases parts <;> exact ⟨_, rfl⟩
  obtain ⟨tail, htail⟩ := hhead
  rw [htail, spell, hcs]
  intro heq
  rw [(List.cons.inj heq).1] at hc
  exact absurd hc (by decide)

mutual

/-- Where two skeletons begin the same text, and no word goes on behind them, they are the same and
so is what is behind them. -/
theorem eq_of_append (s t : Skeleton) (hs : ∀ w ∈ s.words, isWord w = true)
    (ht : ∀ w ∈ t.words, isWord w = true) {rest rest' : List Char} (hrest : StopsWord rest)
    (hrest' : StopsWord rest') (h : s.spell ++ rest = t.spell ++ rest') :
    s = t ∧ rest = rest' := by
  match s, t with
  | atom text, atom text' =>
    have htext : text.toList = text'.toList := by
      rw [← takeWhile_of_isWord (hs text List.mem_cons_self) hrest,
        ← takeWhile_of_isWord (ht text' List.mem_cons_self) hrest']
      exact congrArg _ h
    rw [spell, spell, htext] at h
    exact ⟨congrArg atom (String.toList_inj.mp htext), List.append_cancel_left h⟩
  | atom text, list parts =>
    exact absurd h (spell_atom_append_ne (hs text List.mem_cons_self) parts rest rest')
  | list parts, atom text =>
    exact absurd h.symm (spell_atom_append_ne (ht text List.mem_cons_self) parts rest' rest)
  | list [], list [] => exact ⟨rfl, List.append_cancel_left h⟩
  | list [], list (part :: parts) =>
    obtain ⟨c, cs, hcs, hc⟩ := exists_cons_spell (List.forall_mem_append.mp ht).1
    simp only [spell, hcs, List.cons_append, List.cons.injEq] at h
    exact absurd h.2.1.symm hc
  | list (part :: parts), list [] =>
    obtain ⟨c, cs, hcs, hc⟩ := exists_cons_spell (List.forall_mem_append.mp hs).1
    simp only [spell, hcs, List.cons_append, List.cons.injEq] at h
    exact absurd h.2.1 hc
  | list (part :: parts), list (part' :: parts') =>
    obtain ⟨hpart, hparts⟩ := List.forall_mem_append.mp hs
    obtain ⟨hpart', hparts'⟩ := List.forall_mem_append.mp ht
    simp only [spell, List.cons_append, List.append_assoc, List.nil_append, List.cons.injEq,
      true_and] at h
    obtain ⟨rfl, hbehind⟩ := eq_of_append part part' hpart hpart' (stopsWord_spellBehind parts rest)
      (stopsWord_spellBehind parts' rest') h
    obtain ⟨rfl, rfl⟩ := eq_of_append_behind parts parts' hparts hparts' hbehind
    exact ⟨rfl, rfl⟩

theorem eq_of_append_behind (parts parts' : List Skeleton)
    (hs : ∀ w ∈ wordsOfAll parts, isWord w = true)
    (ht : ∀ w ∈ wordsOfAll parts', isWord w = true) {rest rest' : List Char}
    (h : spellBehind parts ++ ')' :: rest = spellBehind parts' ++ ')' :: rest') :
    parts = parts' ∧ rest = rest' := by
  match parts, parts' with
  | [], [] => exact ⟨rfl, (List.cons.inj h).2⟩
  | [], part' :: parts' => exact absurd (List.cons.inj h).1 (by decide)
  | part :: parts, [] => exact absurd (List.cons.inj h).1 (by decide)
  | part :: parts, part' :: parts' =>
    obtain ⟨hpart, hparts⟩ := List.forall_mem_append.mp hs
    obtain ⟨hpart', hparts'⟩ := List.forall_mem_append.mp ht
    simp only [spellBehind, List.cons_append, List.append_assoc, List.cons.injEq, true_and] at h
    obtain ⟨rfl, hbehind⟩ := eq_of_append part part' hpart hpart' (stopsWord_spellBehind parts rest)
      (stopsWord_spellBehind parts' rest') h
    obtain ⟨rfl, rfl⟩ := eq_of_append_behind parts parts' hparts hparts' hbehind
    exact ⟨rfl, rfl⟩

end

end Skeleton

/-! ## Parentheses -/

/-- A text with balanced parentheses. -/
inductive Balanced : List Char → Prop
  /-- There is nothing to balance. -/
  | nil : Balanced []
  /-- Other characters do not matter. -/
  | cons {c : Char} {cs : List Char} : c ≠ '(' → c ≠ ')' → Balanced cs → Balanced (c :: cs)
  /-- A parenthesis is closed behind what is balanced. -/
  | enclosed {cs rest : List Char} : Balanced cs → Balanced rest →
      Balanced ('(' :: (cs ++ ')' :: rest))

theorem Balanced.append {cs ds : List Char} (h : Balanced cs) (h' : Balanced ds) :
    Balanced (cs ++ ds) := by
  induction h with
  | nil => exact h'
  | cons hopening hclosing _ ih => exact .cons hopening hclosing ih
  | enclosed hinside _ _ ih =>
    rw [List.cons_append, List.append_assoc, List.cons_append]
    exact .enclosed hinside ih

theorem balanced_of_isWord {text : String} (h : isWord text = true) : Balanced text.toList := by
  simp only [isWord, Bool.and_eq_true, List.all_eq_true] at h
  have hall := h.2
  generalize text.toList = cs at hall
  induction cs with
  | nil => exact .nil
  | cons c cs ih =>
    obtain ⟨hc, hcs⟩ := List.forall_mem_cons.mp hall
    simp only [isWordChar, Bool.and_eq_true, bne_iff_ne] at hc
    exact .cons hc.1.2 hc.2 (ih hcs)

namespace Skeleton

mutual

theorem balanced_spell (s : Skeleton) (h : ∀ w ∈ s.words, isWord w = true) :
    Balanced s.spell := by
  match s with
  | atom text => exact balanced_of_isWord (h text List.mem_cons_self)
  | list [] => exact .enclosed .nil .nil
  | list (part :: parts) =>
    obtain ⟨hpart, hparts⟩ := List.forall_mem_append.mp h
    rw [spell, ← List.append_assoc]
    exact .enclosed ((balanced_spell part hpart).append (balanced_spellBehind parts hparts)) .nil

theorem balanced_spellBehind (parts : List Skeleton)
    (h : ∀ w ∈ wordsOfAll parts, isWord w = true) : Balanced (spellBehind parts) := by
  match parts with
  | [] => exact .nil
  | part :: parts =>
    obtain ⟨hpart, hparts⟩ := List.forall_mem_append.mp h
    exact .cons (by decide) (by decide)
      ((balanced_spell part hpart).append (balanced_spellBehind parts hparts))

end

end Skeleton

/-- **The list form determines the skeleton**, and nothing beyond it, where all operators, names
and literals are words. Its parentheses are balanced then. -/
theorem Expr.listForm_eq_iff {e f : Expr} (he : ∀ w ∈ e.words, isWord w = true)
    (hf : ∀ w ∈ f.words, isWord w = true) :
    (e.listForm = f.listForm ↔ e.skeleton = f.skeleton) ∧ Balanced e.listForm.toList ∧
      Balanced f.listForm.toList := by
  have hwords := e.isWord_of_mem_skeleton he
  have hwords' := f.isWord_of_mem_skeleton hf
  rw [← String.toList_inj, e.toList_listForm, f.toList_listForm]
  refine ⟨⟨fun h ↦ ?_, congrArg Skeleton.spell⟩, e.skeleton.balanced_spell hwords,
    f.skeleton.balanced_spell hwords'⟩
  have hspell : e.skeleton.spell ++ [] = f.skeleton.spell ++ [] := by
    rw [List.append_nil, List.append_nil, h]
  have hnil : StopsWord [] := List.takeWhile_nil
  exact (Skeleton.eq_of_append _ _ hwords hwords' hnil hnil hspell).1

/-- A call with two arguments, one of which assigns. -/
def flatCall : Expr :=
  .call (.reference ⟨"f", 1⟩) ⟨")", 1⟩ [.assign ⟨"x", 1⟩ (.literal .nil), .reference ⟨"y", 2⟩]

/-- A call of what a call gives, with one of the arguments each. -/
def nestedCall : Expr :=
  .call (.call (.reference ⟨"f", 1⟩) ⟨")", 1⟩ [.assign ⟨"x", 1⟩ (.literal .nil)]) ⟨")", 2⟩
    [.reference ⟨"y", 2⟩]

example : flatCall.listForm = "(call f (= x nil) y)" := rfl

/-- Two calls are told from one. -/
theorem Expr.listForm_eq_iff_nested :
    (∀ w ∈ flatCall.words, isWord w = true) ∧ (∀ w ∈ nestedCall.words, isWord w = true) ∧
      flatCall.listForm ≠ nestedCall.listForm ∧ Balanced flatCall.listForm.toList ∧
      Balanced nestedCall.listForm.toList := by
  have hflat : ∀ w ∈ flatCall.words, isWord w = true := List.all_eq_true.mp (by decide)
  have hnested : ∀ w ∈ nestedCall.words, isWord w = true := List.all_eq_true.mp (by decide)
  obtain ⟨hiff, hbalanced, hbalanced'⟩ := Expr.listForm_eq_iff hflat hnested
  refine ⟨hflat, hnested, fun h ↦ ?_, hbalanced, hbalanced'⟩
  -- The callee of one is a word and that of the other a list.
  exact nomatch hiff.mp h

end AstSchema.Lox
