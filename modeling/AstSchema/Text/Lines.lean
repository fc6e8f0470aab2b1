/-!
# Lines of a text

A text is cut behind every line feed. One carriage return directly in front of the line feed
belongs to the line end; any other carriage return is a character of its line. A text that ends in
a line feed has no empty line behind it.
-/

namespace AstSchema.Text

/-- The lines of a text, without their line ends. -/
def lines : List Char → List (List Char)
  | [] => []
  | '\n' :: cs => [] :: lines cs
  | '\r' :: '\n' :: cs => [] :: lines cs
  | c :: cs =>
    match lines cs with
    | [] => [[c]]
    | line :: rest => (c :: line) :: rest

/-- `lines` on strings. -/
def linesOf (s : String) : List String := (lines s.toList).map String.ofList

theorem lines_append_newline (cs : List Char) (h : '\n' ∉ cs) (hr : cs.getLast? ≠ some '\r')
    (rest : List Char) : lines (cs ++ '\n' :: rest) = cs :: lines rest := by
  induction cs with
  | nil => simp [lines]
  | cons c cs ih =>
    have hc : c ≠ '\n' := by
      rintro rfl
      exact h (List.mem_cons_self ..)
    have hcs : '\n' ∉ cs := fun hmem ↦ h (List.mem_cons_of_mem _ hmem)
    cases cs with
    | nil =>
      have hcr : c ≠ '\r' := by simpa using hr
      simp [lines, hcr]
    | cons d ds =>
      have hd : d ≠ '\n' := by
        rintro rfl
        exact hcs (List.mem_cons_self ..)
      have hrest : lines (d :: ds ++ '\n' :: rest) = (d :: ds) :: lines rest :=
        ih hcs (by simpa [List.getLast?_cons_cons] using hr)
      simp only [List.cons_append] at hrest ⊢
      rw [lines, hrest]
      · exact fun e ↦ hc e
      · rintro _ _ e
        injection e with e _
        exact hd e

end AstSchema.Text
