import AstSchema.Proofs.Lox.Endings
import AstSchema.Proofs.Lox.Lockstep

/-!
# Printing

A run adds lines to the output and never looks at it. Which lines it adds, how it ends and whether
it ends at all is therefore the same behind any earlier output, which is a case of running in
lockstep.

What that leaves open is which lines are added. A run that is stopped by a break or a fault could
take back what was printed in the part that it leaves, and still add the same lines behind any
output. So it is shown as well that at every point that a run gets to, what has been printed so far
is the beginning of the output at its end (`Reaches.exists_ends`).
-/

namespace AstSchema.Lox

/-! ## Nothing is taken back -/

/-- The output in front is the beginning of the output behind. -/
theorem isFrame_output : IsFrame fun m m' ↦ m.output <+: m'.output where
  refl m := List.prefix_refl m.output
  trans := List.IsPrefix.trans
  print m line := List.prefix_append m.output [line]
  block := id
  assign {m _ _ _} _ := List.prefix_refl m.output
  define m _ _ := List.prefix_refl m.output

theorem Ends.output_prefix {program : List Stmt} {m : Machine} {o : Outcome Unit}
    (h : Ends program m o) : m.output <+: o.2.output :=
  h.frame isFrame_output

/-- Statements that end have a first one that ends, and keep what it has printed. -/
theorem Ends.exists_first {s : Stmt} {rest : List Stmt} {m : Machine} {o : Outcome Unit}
    (h : Ends (s :: rest) m o) : ∃ first, Ends [s] m first ∧ first.2.output <+: o.2.output := by
  rcases ends_cons_iff.mp h with ⟨m', hfirst, hrest⟩ | ⟨-, hfirst⟩
  · exact ⟨_, hfirst, hrest.output_prefix⟩
  · exact ⟨o, hfirst, List.prefix_refl _⟩

/-- If a run ends, so does every part that it enters, and what the part has printed is kept. -/
theorem Enters.exists_ends {p q : Point} (h : Enters p q) {o : Outcome Unit}
    (hends : Ends p.1 p.2 o) : ∃ inside, Ends q.1 q.2 inside ∧ inside.2.output <+: o.2.output := by
  cases h with
  | @behind s rest m m' rounds hdone =>
    have hfirst : Ends [s] m (.ok (), m') := ends_singleton_iff.mpr ⟨rounds, hdone⟩
    rcases ends_cons_iff.mp hends with ⟨m'', hfirst', hrest⟩ | ⟨⟨i, hi⟩, hstopped⟩
    · cases hfirst.unique hfirst'
      exact ⟨o, hrest, List.prefix_refl _⟩
    · cases hfirst.unique hstopped
      cases hi
  | block =>
    obtain ⟨first, hfirst, hkept⟩ := hends.exists_first
    obtain ⟨inside, hinside, rfl⟩ := ends_block_iff.mp hfirst
    exact ⟨inside, hinside, hkept⟩
  | branch hcondition hv =>
    obtain ⟨first, hfirst, hkept⟩ := hends.exists_first
    exact ⟨first, (ends_ifThen_iff hcondition hv).mp hfirst, hkept⟩
  | consequence hcondition hv =>
    obtain ⟨first, hfirst, hkept⟩ := hends.exists_first
    rw [ends_ifElse_iff hcondition, if_pos hv] at hfirst
    exact ⟨first, hfirst, hkept⟩
  | alternative hcondition hv =>
    obtain ⟨first, hfirst, hkept⟩ := hends.exists_first
    rw [ends_ifElse_iff hcondition, if_neg (Bool.eq_false_iff.mp hv)] at hfirst
    exact ⟨first, hfirst, hkept⟩
  | round hcondition hv =>
    obtain ⟨first, hfirst, hkept⟩ := hends.exists_first
    rcases hfirst.of_whileLoop hcondition hv with ⟨m', hround, hagain⟩ | ⟨i, hround⟩
    · exact ⟨_, hround, hagain.output_prefix.trans hkept⟩
    · exact ⟨_, hround, hkept⟩
  | @again condition body rest m m' m'' v rounds hcondition hv hdone =>
    have hround : Ends [body] m' (.ok (), m'') := ends_singleton_iff.mpr ⟨rounds, hdone⟩
    have hagain {o : Outcome Unit} (h : Ends [.whileLoop condition body] m o) :
        Ends [.whileLoop condition body] m'' o := by
      rcases h.of_whileLoop hcondition hv with ⟨m₁, hround', hagain⟩ | ⟨i, hround'⟩
      · cases hround.unique hround'
        exact hagain
      · cases hround.unique hround'
    refine ⟨o, ends_cons_iff.mpr ?_, List.prefix_refl _⟩
    rcases ends_cons_iff.mp hends with ⟨m₁, hloop, hrest⟩ | ⟨hstopped, hloop⟩
    · exact .inl ⟨m₁, hagain hloop, hrest⟩
    · exact .inr ⟨hstopped, hagain hloop⟩

theorem Reaches.exists_ends {p q : Point} (h : Reaches p q) {o : Outcome Unit}
    (hends : Ends p.1 p.2 o) : ∃ inside, Ends q.1 q.2 inside ∧ inside.2.output <+: o.2.output := by
  induction h with
  | refl => exact ⟨o, hends, List.prefix_refl _⟩
  | tail _ hstep ih =>
    obtain ⟨inside, hinside, hkept⟩ := ih
    obtain ⟨inside', hinside', hkept'⟩ := hstep.exists_ends hinside
    exact ⟨inside', hinside', hkept'.trans hkept⟩

/-! ## The same behind any output -/

/-- Behind earlier output a program ends as it does without, with the earlier output in front. -/
theorem ends_after_iff (program : List Stmt) (printed : List String) (m : Machine)
    (o : Outcome Unit) :
    Ends program (m.after printed) o ↔
      ∃ o', Ends program m o' ∧ o = (o'.1, o'.2.after printed) := by
  have hstep : InStep id printed id := by
    intro e m
    have h := evaluate_relabel id printed e m
    rwa [e.relabel_id] at h
  have hiff := ends_recast_iff hstep program m o
  simp only [recast_id, Outcome.recast_id] at hiff
  exact hiff

/-- **Output is only added to.** Whether a run ends, how, with which scopes and with which lines
printed does not depend on the output in front of it. What has been printed at any point of the run
is still there at its end, in front of all that comes later. -/
theorem output_append (program : List Stmt) (scopes : Scopes) :
    (∀ output o, ¬ Ends program ⟨scopes, output⟩ o) ∨
      ∃ result scopes' printed, ∀ output,
        (∀ o, Ends program ⟨scopes, output⟩ o ↔ o = (result, ⟨scopes', output ++ printed⟩)) ∧
        ∀ rest m, Reaches (program, ⟨scopes, output⟩) (rest, m) →
          m.output <+: output ++ printed := by
  have hafter (output : List String) :
      (⟨scopes, output⟩ : Machine) = .after output ⟨scopes, []⟩ := by
    rw [Machine.after, List.append_nil]
  by_cases hends : ∃ o, Ends program ⟨scopes, []⟩ o
  · obtain ⟨⟨result, ⟨scopes', printed⟩⟩, hends⟩ := hends
    refine .inr ⟨result, scopes', printed, fun output ↦ ?_⟩
    have hiff (o : Outcome Unit) :
        Ends program ⟨scopes, output⟩ o ↔ o = (result, ⟨scopes', output ++ printed⟩) := by
      rw [hafter, ends_after_iff]
      constructor
      · rintro ⟨o', h, rfl⟩
        cases h.unique hends
        rfl
      · rintro rfl
        exact ⟨_, hends, rfl⟩
    refine ⟨hiff, fun rest m hreaches ↦ ?_⟩
    obtain ⟨inside, hinside, hkept⟩ := Reaches.exists_ends hreaches ((hiff _).mpr rfl)
    exact hinside.output_prefix.trans hkept
  · left
    intro output o h
    rw [hafter, ends_after_iff] at h
    obtain ⟨o', h, -⟩ := h
    exact hends ⟨o', h⟩

/-- Two lines, the second of them in a block that is left by a fault. -/
def stoppedProgram : List Stmt :=
  [.print (.literal (.boolean true)),
    .block [.declare ⟨"a", 2⟩ none, .print (.reference ⟨"a", 3⟩), .print (.reference ⟨"b", 4⟩)],
    .print (.literal (.boolean false))]

/-- The run that ends with a fault and two lines printed does so behind an earlier line, too, and
both lines were there before the fault. -/
theorem output_append_stopped :
    Ends stoppedProgram ⟨[[]], []⟩
        (.error (.fault 4 (.undefinedVariable "b")), ⟨[[]], ["true", "nil"]⟩) ∧
      Ends stoppedProgram ⟨[[]], ["earlier"]⟩
        (.error (.fault 4 (.undefinedVariable "b")), ⟨[[]], ["earlier", "true", "nil"]⟩) ∧
      Reaches (stoppedProgram, ⟨[[]], ["earlier"]⟩)
        ([.print (.reference ⟨"b", 4⟩)],
          ⟨[[("a", .nil)], []], ["earlier", "true", "nil"]⟩) ∧
      ["earlier", "true", "nil"] <+: ["earlier"] ++ ["true", "nil"] := by
  have hends : Ends stoppedProgram ⟨[[]], []⟩
      (.error (.fault 4 (.undefinedVariable "b")), ⟨[[]], ["true", "nil"]⟩) := ⟨0, rfl⟩
  have hreaches : Reaches (stoppedProgram, ⟨[[]], ["earlier"]⟩)
      ([.print (.reference ⟨"b", 4⟩)],
        ⟨[[("a", .nil)], []], ["earlier", "true", "nil"]⟩) :=
    .head (.behind 0 rfl) (.head .block (.head (.behind 0 rfl) (.single (.behind 0 rfl))))
  rcases output_append stoppedProgram [[]] with hnone | ⟨result, scopes', printed, hall⟩
  · exact absurd hends (hnone _ _)
  · cases ((hall []).1 _).mp hends
    obtain ⟨hiff, hkept⟩ := hall ["earlier"]
    exact ⟨hends, (hiff _).mpr rfl, hreaches, hkept _ _ hreaches⟩

end AstSchema.Lox
