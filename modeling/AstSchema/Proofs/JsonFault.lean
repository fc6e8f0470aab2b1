import AstSchema.Proofs.JsonValue

/-!
# Where reading JSON fails

A reader that meets a value it does not want names the path of that value. The path grows from the
inside out: where the fault arises it is empty, and every reader of something larger puts one
segment in front of it. `Rejects` is what has to be known of a reader to go on like this: it fails
on every text of some kind, whatever follows, and the path of the fault is always the same.

Where a fault arises nothing can be added to the path, since a value of an unwanted kind is not
read into. `AtRoot` says so of each piece that describes such a value.
-/

namespace AstSchema.Json

/-! ## Faults at the root -/

section

variable {α β : Type}

/-- A fault of the result is one of the value itself and not of a part of it. -/
def AtRoot (result : Result α) : Prop := ∀ fault, result = .error fault → fault.path = []

theorem atRoot_ok (value : α × List Char) : AtRoot (.ok value) := fun _ h ↦ nomatch h

theorem atRoot_before (reason : Reason) (rest : List Char) :
    AtRoot (.error (.before reason rest) : Result α) := by
  rintro _ ⟨⟩
  rfl

theorem atRoot_at (reason : Reason) (rest : List Char) :
    AtRoot (.error (.at reason rest) : Result α) := by
  rintro _ ⟨⟩
  rfl

/-- A fault that is handed on stays where it is. -/
theorem AtRoot.of_error {result : Result α} {fault : Fault} (h : AtRoot result)
    (heq : result = .error fault) : AtRoot (.error fault : Result β) := by
  rintro _ ⟨⟩
  exact h fault heq

theorem AtRoot.ite {c : Prop} [Decidable c] {result result' : Result α} (h : AtRoot result)
    (h' : AtRoot result') : AtRoot (if c then result else result') := by
  split
  · exact h
  · exact h'

end

theorem atRoot_readHex (cs : List Char) : AtRoot (readHex cs) := by
  have hfault (cs : List Char) : AtRoot (.error (hexFault cs) : Result Nat) := by
    rintro _ ⟨⟩
    unfold hexFault
    split <;> rfl
  unfold readHex
  split
  · split
    · exact atRoot_ok _
    · exact hfault _
  · exact hfault _

theorem atRoot_readTrailing (leading : Nat) (cs : List Char) :
    AtRoot (readTrailing leading cs) := by
  unfold readTrailing
  split
  · exact atRoot_before _ _
  · exact atRoot_before _ _
  · split
    · next heq => exact (atRoot_readHex _).of_error heq
    · exact .ite (atRoot_ok _) (atRoot_before _ _)
  · exact atRoot_at _ _
  · exact atRoot_at _ _

theorem atRoot_readUnit (cs : List Char) : AtRoot (readUnit cs) := by
  unfold readUnit
  split
  · next heq => exact (atRoot_readHex _).of_error heq
  · exact .ite (atRoot_before _ _) (.ite (atRoot_readTrailing _ _) (atRoot_ok _))

theorem atRoot_readEscape (cs : List Char) : AtRoot (readEscape cs) := by
  unfold readEscape
  split
  · exact atRoot_before _ _
  · split
    · exact atRoot_ok _
    · exact .ite (atRoot_readUnit _) (atRoot_at _ _)

theorem atRoot_readChars (cs : List Char) : AtRoot (readChars cs) := by
  fun_induction readChars cs with
  | case1 => exact atRoot_before _ _
  | case2 => exact atRoot_ok _
  | case3 => exact (atRoot_readEscape _).of_error ‹_›
  | case4 _ _ _ _ _ hfault _ ih => exact ih.of_error hfault
  | case5 => exact atRoot_ok _
  | case6 => exact atRoot_at _ _
  | case7 _ _ _ _ _ _ hfault ih => exact ih.of_error hfault
  | case8 => exact atRoot_ok _

theorem atRoot_makeFloat (negative : Bool) (significand : Nat) (e : Int) (rest : List Char) :
    AtRoot (makeFloat negative significand e rest) := by
  unfold makeFloat
  split
  · exact atRoot_before _ _
  · exact atRoot_ok _

theorem atRoot_readExponent (negative : Bool) (significand : Nat) (e : Int) (cs : List Char) :
    AtRoot (readExponent negative significand e cs) := by
  unfold readExponent
  split
  split
  · exact atRoot_before _ _
  · refine .ite (atRoot_at _ _) ?_
    dsimp only
    split
    · exact .ite (.ite (atRoot_before _ _) (atRoot_ok _)) (atRoot_makeFloat _ _ _ _)
    · exact atRoot_makeFloat _ _ _ _

theorem atRoot_readScale (negative : Bool) (significand : Nat) (e : Int) (cs : List Char) :
    AtRoot (readScale negative significand e cs) := by
  unfold readScale
  split
  · exact atRoot_makeFloat _ _ _ _
  · exact .ite (atRoot_readExponent _ _ _ _) (atRoot_makeFloat _ _ _ _)

theorem atRoot_readFraction (negative : Bool) (significand : Nat) (e : Int) (cs : List Char) :
    AtRoot (readFraction negative significand e cs) := by
  unfold readFraction
  split
  · exact atRoot_before _ _
  · exact .ite (atRoot_at _ _) (atRoot_readScale _ _ _ _)

theorem atRoot_readAfterInteger (negative : Bool) (significand : Nat) (cs : List Char) :
    AtRoot (readAfterInteger negative significand cs) := by
  unfold readAfterInteger
  dsimp only
  split
  · exact atRoot_ok _
  · exact .ite (atRoot_readFraction _ _ _ _) (.ite (atRoot_readExponent _ _ _ _) (atRoot_ok _))

theorem atRoot_readNumber (negative : Bool) (cs : List Char) :
    AtRoot (readNumber negative cs) := by
  unfold readNumber
  split
  · exact atRoot_before _ _
  · split
    · exact .ite (atRoot_at _ _) (atRoot_readAfterInteger _ _ _)
    · exact atRoot_readAfterInteger _ _ _
  · refine .ite (atRoot_at _ _) ?_
    dsimp only
    refine .ite (atRoot_readAfterInteger _ _ _) ?_
    split
    · exact atRoot_readFraction _ _ _ _
    · exact atRoot_readScale _ _ _ _

theorem atRoot_readLiteral {α : Type} (value : α) (letters cs : List Char) :
    AtRoot (readLiteral value letters cs) := by
  induction letters generalizing cs with
  | nil => exact atRoot_ok _
  | cons l ls ih =>
    cases cs with
    | nil => exact atRoot_before _ _
    | cons c cs => exact .ite (ih cs) (atRoot_at _ _)

theorem atRoot_readFound (cs : List Char) : AtRoot (readFound cs) := by
  unfold readFound
  split
  · exact atRoot_at _ _
  · refine .ite (atRoot_readLiteral _ _ _) (.ite (atRoot_readLiteral _ _ _)
      (.ite (atRoot_readLiteral _ _ _) (.ite (atRoot_readNumber _ _)
        (.ite (atRoot_readNumber _ _) (.ite ?_
          (.ite (atRoot_ok _) (.ite (atRoot_ok _) (atRoot_at _ _))))))))
    split
    · next heq => exact (atRoot_readChars _).of_error heq
    · exact atRoot_ok _

/-- An unwanted value is at fault as a whole. -/
theorem path_unwanted (wanted : String) (cs : List Char) : (unwanted wanted cs).path = [] := by
  unfold unwanted
  split
  · next heq => exact atRoot_readFound cs _ heq
  · rfl

/-! ## Readers that fail -/

/-- The fault is at this path, and if a reason is given, it is the reason. -/
def Fault.Matches (fault : Fault) (path : List Segment) (reason? : Option Reason) : Prop :=
  fault.path = path ∧ ∀ reason ∈ reason?, fault.reason = reason

theorem Fault.Matches.inside {fault : Fault} {path : List Segment} {reason? : Option Reason}
    (h : fault.Matches path reason?) (segment : Segment) :
    (fault.inside segment).Matches (segment :: path) reason? :=
  ⟨congrArg (segment :: ·) h.1, h.2⟩

theorem matches_before (reason : Reason) (rest : List Char) :
    (Fault.before reason rest).Matches [] (some reason) :=
  ⟨rfl, fun _ h ↦ Option.some.inj h⟩

theorem matches_unwanted (wanted : String) (cs : List Char) :
    (unwanted wanted cs).Matches [] none :=
  ⟨path_unwanted wanted cs, by simp⟩

/-- The reader fails on each of the texts, whatever follows, with a fault at this path and, if a
reason is given, for this reason. -/
structure Rejects {α : Type} (read : List Char → Result α) (Spelling : List Char → Prop)
    (path : List Segment) (reason? : Option Reason) : Prop where
  /-- None of the texts can be taken for blanks or for the end of an array. -/
  exists_lead {cs : List Char} : Spelling cs →
    ∃ c rest, cs = c :: rest ∧ isBlank c = false ∧ c ≠ ']'
  /-- On each of them the reader fails. -/
  exists_fault {blanks cs : List Char} : Blanks blanks → Spelling cs → ∀ rest : List Char,
    ∃ fault, read (blanks ++ (cs ++ rest)) = .error fault ∧ fault.Matches path reason?

/-- A reader that hands on the faults of another one rejects what that rejects. -/
theorem Rejects.of_handed_on {α β : Type} {read : List Char → Result α}
    {other : List Char → Result β} {Spelling : List Char → Prop} {path : List Segment}
    {reason? : Option Reason} (h : Rejects other Spelling path reason?)
    (hread : ∀ {cs fault}, other cs = .error fault → read cs = .error fault) :
    Rejects read Spelling path reason? where
  exists_lead := h.exists_lead
  exists_fault := by
    intro blanks cs hblanks hcs rest
    obtain ⟨fault, hfault, hmatches⟩ := h.exists_fault hblanks hcs rest
    exact ⟨fault, hread hfault, hmatches⟩

/-- A value of none of these kinds. -/
def Unlike (kinds : List Kind) (cs : List Char) : Prop :=
  ∃ v : Value, v.kind ∉ kinds ∧ v.Spelling cs

/-- A value of another kind starts with another character. -/
theorem Unlike.exists_lead {kinds : List Kind} {cs : List Char} (h : Unlike kinds cs) :
    ∃ c rest, cs = c :: rest ∧ (isBlank c = false ∧ c ≠ ']') ∧ ∀ kind ∈ kinds, c ∉ kind.leads := by
  obtain ⟨v, hkind, hv⟩ := h
  obtain ⟨c, rest, rfl, hlead⟩ := hv.exists_lead
  refine ⟨c, rest, rfl, Kind.lead_ne hlead, fun kind hmem hlead' ↦ hkind ?_⟩
  rwa [Kind.eq_of_mem_leads hlead hlead']

/-- A reader that fails on the first character of a value rejects all values of other kinds. -/
theorem Rejects.of_lead {α : Type} {read : List Char → Result α} {kinds : List Kind}
    (h : ∀ {blanks : List Char} {c : Char} (rest : List Char), Blanks blanks →
      isBlank c = false → (∀ kind ∈ kinds, c ∉ kind.leads) →
      ∃ fault, read (blanks ++ c :: rest) = .error fault ∧ fault.Matches [] none) :
    Rejects read (Unlike kinds) [] none where
  exists_lead hcs := by
    obtain ⟨c, rest, rfl, hc, -⟩ := hcs.exists_lead
    exact ⟨c, rest, rfl, hc⟩
  exists_fault := by
    intro blanks cs hblanks hcs rest
    obtain ⟨c, tail, rfl, ⟨hblank, -⟩, hlead⟩ := hcs.exists_lead
    exact h (tail ++ rest) hblanks hblank hlead

/-- An array in which the element with this index is something else. -/
def ReplacedSpelling {α : Type} (Spelling : α → List Char → Prop) (Other : List Char → Prop)
    (index : Nat) (cs : List Char) : Prop :=
  ∃ front parts part back parts', front.length = index ∧
    List.Forall₂ (fun a ↦ Padded (Spelling a)) front parts ∧ Padded Other part ∧
    List.Forall₂ (fun a ↦ Padded (Spelling a)) back parts' ∧
    Enclosed '[' ']' (parts ++ part :: parts') cs

end AstSchema.Json
