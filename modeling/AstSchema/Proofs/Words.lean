import AstSchema.Proofs.Padding

/-!
# Words of a type and its brackets

The words of a type are cut out by a scan of their own. It starts from scratch and passes over the
blanks outside brackets, so that its state differs from that of a scan which takes in every
character: its last character is the last one that is part of a word. This matters at one place
only, where a `>` stands behind a hyphen and blanks. Outside brackets such a `>` closes nothing and
is no arrow, so it ends the scan of every character, and a text that gets through that scan has
none of them. There the two scans have the same brackets open and admit the same characters
(`Follows.scan`).

Cutting into words goes well with appending. At a blank outside brackets the words in front of it
are complete, and the words behind it are those of the rest (`wordsFrom_append_blank`).
-/

namespace AstSchema

open AstSchema.Text

namespace Nesting

/-! ## The scan for words -/

/-- What the scan for words remembers behind a text. Blanks outside brackets leave no trace. -/
def afterWords (n : Nesting) : List Char → Nesting
  | [] => n
  | c :: cs => if isBlank c && n.atTop then n.afterWords cs else (n.advance c).afterWords cs

/-- Whether every closing bracket that the scan for words takes in matches. -/
def admitsWords (n : Nesting) : List Char → Bool
  | [] => true
  | c :: cs =>
    if isBlank c && n.atTop then n.admitsWords cs
    else n.admits c && (n.advance c).admitsWords cs

theorem afterWords_append (n : Nesting) (cs ds : List Char) :
    n.afterWords (cs ++ ds) = (n.afterWords cs).afterWords ds := by
  induction cs generalizing n with
  | nil => rfl
  | cons c cs ih =>
    rw [List.cons_append, afterWords, afterWords]
    split
    · exact ih n
    · exact ih (n.advance c)

/-- Without blanks, the scan for words takes in every character. -/
theorem afterWords_of_solid {n : Nesting} {cs : List Char}
    (h : ∀ c ∈ cs, isBlank c = false) : n.afterWords cs = n.after cs := by
  induction cs generalizing n with
  | nil => rfl
  | cons c cs ih =>
    rw [List.forall_mem_cons] at h
    rw [afterWords, h.1, Bool.false_and, if_neg Bool.false_ne_true, ih h.2, after_cons]

/-! ## The two scans -/

/-- The state `n` of a scan of every character and the state `m` of the scan for words have the same
brackets open. The last characters may differ behind a blank outside brackets. -/
def Follows (n m : Nesting) : Prop :=
  n.enclosing = m.enclosing ∧ (n.last = m.last ∨ n.enclosing = [] ∧ n.last ≠ some '-')

/-- A character that the scan of every character admits is treated alike by the scan for words. -/
theorem Follows.agree {n m : Nesting} {c : Char} (h : Follows n m) (hc : n.admits c = true) :
    Agree n m (some c) := by
  obtain ⟨henclosing, hlast | ⟨htop, hne⟩⟩ := h
  · exact ⟨henclosing, fun _ ↦ by rw [hlast]⟩
  · refine ⟨henclosing, fun hgt ↦ ?_⟩
    obtain rfl := Option.some.inj hgt
    exact absurd ((admits_gt_iff htop).mp hc) hne

/-- Where the scan of every character gets through, so does the scan for words, and the same
brackets are open behind the text. -/
theorem Follows.scan {n m n' : Nesting} {cs : List Char} (h : Follows n m)
    (hscan : n.scan? cs = some n') :
    m.admitsWords cs = true ∧ Follows n' (m.afterWords cs) := by
  induction cs generalizing n m with
  | nil =>
    obtain rfl := Option.some.inj hscan
    exact ⟨rfl, h⟩
  | cons c cs ih =>
    rw [scan?_cons] at hscan
    split at hscan
    · next hadm =>
      rw [admitsWords, afterWords]
      by_cases hskip : (isBlank c && m.atTop) = true
      · -- The blank is the last character of the one scan only.
        rw [if_pos hskip, if_pos hskip]
        obtain ⟨hblank, htop⟩ := Bool.and_eq_true_iff.mp hskip
        have hn : n.enclosing = [] := h.1.trans (atTop_iff.mp htop)
        refine ih ?_ hscan
        rw [advance_of_isPlain (isPlain_of_isBlank hblank)]
        refine ⟨h.1, .inr ⟨hn, ?_⟩⟩
        rintro ⟨⟩
        exact absurd hblank (by decide)
      · rw [if_neg hskip, if_neg hskip]
        have hagree := h.agree hadm
        rw [← hagree.admits_eq, hadm, Bool.true_and, ← hagree.advance_eq]
        exact ih ⟨rfl, .inl rfl⟩ hscan
    · cases hscan

end Nesting

/-! ## Cutting into words -/

namespace TypeText

theorem wordsFrom_cons_of_solid {n : Nesting} {c : Char} (h : (isBlank c && n.atTop) = false)
    (current cs : List Char) :
    wordsFrom n current (c :: cs) = wordsFrom (n.advance c) (c :: current) cs := by
  rw [wordsFrom, h, if_neg Bool.false_ne_true]

/-- A blank outside brackets ends the word in progress. -/
theorem wordsFrom_cons_blank {n : Nesting} (hn : n.atTop = true) {d : Char}
    (hd : isBlank d = true) (current ds : List Char) :
    wordsFrom n current (d :: ds) = wordsFrom n current [] ++ wordsFrom n [] ds := by
  simp only [wordsFrom, hd, hn, Bool.and_self, if_true]
  split <;> rfl

/-- At a blank outside brackets, the words in front of it are complete. -/
theorem wordsFrom_append_blank {n : Nesting} {cs : List Char}
    (h : (n.afterWords cs).atTop = true) {d : Char} (hd : isBlank d = true)
    (current ds : List Char) :
    wordsFrom n current (cs ++ d :: ds) =
      wordsFrom n current cs ++ wordsFrom (n.afterWords cs) [] ds := by
  induction cs generalizing n current with
  | nil => exact wordsFrom_cons_blank h hd current ds
  | cons c cs ih =>
    rw [Nesting.afterWords] at h ⊢
    by_cases hskip : (isBlank c && n.atTop) = true
    · rw [if_pos hskip] at h ⊢
      obtain ⟨hc, hn⟩ := Bool.and_eq_true_iff.mp hskip
      rw [List.cons_append, wordsFrom_cons_blank hn hc, wordsFrom_cons_blank hn hc, ih h,
        List.append_assoc]
    · rw [if_neg hskip] at h ⊢
      have hsolid := Bool.eq_false_iff.mpr hskip
      rw [List.cons_append, wordsFrom_cons_of_solid hsolid, wordsFrom_cons_of_solid hsolid, ih h]

/-- Blanks in front of a text hold no words. -/
theorem wordsFrom_append_of_isBlank {n : Nesting} (hn : n.atTop = true) {w : List Char}
    (hw : w.all isBlank = true) (cs : List Char) :
    wordsFrom n [] (w ++ cs) = wordsFrom n [] cs := by
  induction w with
  | nil => rfl
  | cons d w ih =>
    rw [List.all_cons, Bool.and_eq_true] at hw
    rw [List.cons_append, wordsFrom_cons_blank hn hw.1, ih hw.2]
    rfl

/-- A text without blanks is one word. -/
theorem wordsFrom_solid {n : Nesting} {current word : List Char}
    (hword : ∀ c ∈ word, isBlank c = false) (hne : word ≠ [] ∨ current ≠ []) :
    wordsFrom n current word = [current.reverse ++ word] := by
  induction word generalizing n current with
  | nil =>
    obtain hcurrent : current ≠ [] := by simpa using hne
    rw [wordsFrom, List.append_nil, if_neg (by simpa using hcurrent)]
  | cons c word ih =>
    rw [List.forall_mem_cons] at hword
    rw [wordsFrom_cons_of_solid (by rw [hword.1, Bool.false_and]), ih hword.2 (.inr (by simp)),
      List.reverse_cons, List.append_assoc, List.singleton_append]

/-- A text goes on with the word in progress. -/
theorem exists_wordsFrom {n : Nesting} {current : List Char} (hcurrent : current ≠ [])
    (cs : List Char) :
    ∃ tail rest, wordsFrom n current cs = (current.reverse ++ tail) :: rest := by
  induction cs generalizing n current with
  | nil => exact ⟨[], [], by rw [wordsFrom, if_neg (by simpa using hcurrent), List.append_nil]⟩
  | cons c cs ih =>
    by_cases hskip : (isBlank c && n.atTop) = true
    · obtain ⟨hc, hn⟩ := Bool.and_eq_true_iff.mp hskip
      rw [wordsFrom_cons_blank hn hc, wordsFrom, if_neg (by simpa using hcurrent)]
      exact ⟨[], wordsFrom n [] cs, by simp⟩
    · rw [wordsFrom_cons_of_solid (Bool.eq_false_iff.mpr hskip)]
      obtain ⟨tail, rest, heq⟩ := ih (n := n.advance c) (List.cons_ne_nil c current)
      exact ⟨c :: tail, rest, by rw [heq, List.reverse_cons, List.append_assoc]; rfl⟩

/-- A text that starts with no blank starts with its first word. -/
theorem exists_wordsFrom_cons {n : Nesting} {c : Char} (hc : isBlank c = false)
    (cs : List Char) : ∃ tail rest, wordsFrom n [] (c :: cs) = (c :: tail) :: rest := by
  rw [wordsFrom_cons_of_solid (by rw [hc, Bool.false_and])]
  exact exists_wordsFrom (List.cons_ne_nil c []) cs

/-! ## Gaps -/

/-- Words with a gap between the last one of the first part and the first one of the second. -/
theorem hasGap_append {ws ws' : List (List Char)} {word next : List Char}
    (hword : word ∈ ws.getLast?) (hnext : next ∈ ws'.head?) (h : joined word next = false) :
    hasGap (ws ++ ws') = true := by
  by_contra hgap
  have hchain := hasGap_eq_false_iff.mp (Bool.eq_false_iff.mpr hgap)
  obtain ⟨-, -, hjoined⟩ := List.isChain_append.mp hchain
  rw [hjoined word hword next hnext] at h
  cases h

end TypeText

end AstSchema
