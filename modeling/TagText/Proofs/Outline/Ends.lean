import TagText.Proofs.Outline.Streams

/-!
Streams of symbols put one behind the other. What is read of an argument list, a call or a reference
ends in front of every symbol that cannot belong to it.
-/

namespace TagText

/-- Whether a symbol stands inside an argument list. -/
def SymbolKind.inList (kind : SymbolKind) : Bool :=
  kind.isArgument || kind = closeParen || kind = comma

namespace Outline

theorem someArguments?_append {s : Symbol} (hs : s.kind.inList = false)
    (symbols more : List Symbol) :
    someArguments? (symbols ++ s :: more) =
      (someArguments? symbols).map fun (args, rest) => (args, rest ++ s :: more) := by
  obtain ⟨⟨hargument, hclose⟩, hcomma⟩ := by simpa [SymbolKind.inList] using hs
  fun_induction someArguments? symbols with
  | case1 arg separator rest harg hsep => simp [someArguments?, harg, hsep]
  | case2 arg separator rest harg hsep hcommaSep ih =>
    simp [someArguments?, harg, hcommaSep, ih, Function.comp_def]
  | case3 arg separator rest harg hsep hcommaSep => simp [someArguments?, harg, hsep, hcommaSep]
  | case4 arg separator rest harg => simp [someArguments?, harg]
  | case5 symbols hshort =>
    rcases symbols with _ | ⟨x, _ | ⟨y, rest⟩⟩
    · cases more <;> simp [someArguments?, hargument]
    · simp [someArguments?, hclose, hcomma]
    · exact absurd rfl (hshort x y rest)

theorem arguments?_append {s : Symbol} (hs : s.kind.inList = false) (symbols more : List Symbol) :
    arguments? (symbols ++ s :: more) =
      (arguments? symbols).map fun (args, rest) => (args, rest ++ s :: more) := by
  have hsome := someArguments?_append hs symbols more
  cases symbols with
  | nil =>
    obtain ⟨⟨hargument, hclose⟩, hcomma⟩ := by simpa [SymbolKind.inList] using hs
    have hnone : arguments? (s :: more) = none := by
      rw [arguments?, if_neg hclose]
      exact hsome
    exact hnone
  | cons x symbols =>
    rw [List.cons_append] at hsome ⊢
    rw [arguments?, arguments?]
    split
    · rfl
    · exact hsome

theorem not_inList_of_resumes {kind : SymbolKind} (hkind : kind.resumes = true) :
    kind.inList = false := by
  cases kind <;> first | rfl | cases hkind

theorem startsCall_append {s : Symbol} (hs : s.kind.resumes = true) (symbols more : List Symbol) :
    startsCall (symbols ++ s :: more) = startsCall symbols := by
  cases symbols with
  | nil =>
    have hdot : s.kind ≠ .dot := by
      intro hkind
      rw [hkind] at hs
      cases hs
    simpa [startsCall] using hdot
  | cons x symbols => rfl

theorem call?_append {s : Symbol} (hs : s.kind.resumes = true) (symbols more : List Symbol) :
    call? (symbols ++ s :: more) =
      (call? symbols).map fun (call, rest) => (call, rest ++ s :: more) := by
  have hkinds : s.kind ≠ .dot ∧ s.kind ≠ .name ∧ s.kind ≠ .openParen := by
    refine ⟨?_, ?_, ?_⟩ <;> (intro hkind; rw [hkind] at hs; cases hs)
  rcases symbols with _ | ⟨dot, _ | ⟨name, _ | ⟨paren, inner⟩⟩⟩
  · rcases more with _ | ⟨x, _ | ⟨y, more⟩⟩
    · rfl
    · rfl
    · simp [call?, hkinds.1]
  · cases more with
    | nil => rfl
    | cons x more => simp [call?, hkinds.2.1]
  · simp [call?, hkinds.2.2]
  · have harguments := arguments?_append (not_inList_of_resumes hs) inner more
    simp only [List.cons_append, call?, harguments]
    split
    · cases arguments? inner <;> rfl
    · rfl

theorem calls_append {s : Symbol} (hs : s.kind.resumes = true) (symbols more : List Symbol) :
    calls (symbols ++ s :: more) = ((calls symbols).1, (calls symbols).2.map (· ++ s :: more)) := by
  fun_induction calls symbols with
  | case1 symbols hstarts hbroken =>
    apply calls_of_broken
    · rwa [startsCall_append hs]
    · rw [call?_append hs, hbroken]
      rfl
  | case2 symbols hstarts call after hcall more' rest heq ih =>
    have happend : call? (symbols ++ s :: more) = some (call, after ++ s :: more) := by
      rw [call?_append hs, hcall]
      rfl
    rw [calls_of_call (by rwa [startsCall_append hs]) happend, ih, heq]
  | case3 symbols hstarts =>
    have hnot : startsCall (symbols ++ s :: more) = false := by
      rw [startsCall_append hs]
      simpa using hstarts
    rw [calls_of_not_startsCall hnot]
    rfl

theorem head?_append {s : Symbol} (hs : s.kind.resumes = true) (symbols more : List Symbol) :
    head? (symbols ++ s :: more) =
      (head? symbols).map fun (group, field, rest) => (group, field, rest ++ s :: more) := by
  have hkinds : s.kind ≠ .name ∧ s.kind ≠ .openParen ∧ s.kind ≠ .field ∧ s.kind ≠ .closeParen := by
    refine ⟨?_, ?_, ?_, ?_⟩ <;> (intro hkind; rw [hkind] at hs; cases hs)
  rcases symbols with _ | ⟨name, _ | ⟨openParen, _ | ⟨field, _ | ⟨closeParen, rest⟩⟩⟩⟩
  · rcases more with _ | ⟨x, _ | ⟨y, _ | ⟨z, more⟩⟩⟩
    · rfl
    · rfl
    · rfl
    · simp [head?, hkinds.1]
  · rcases more with _ | ⟨x, _ | ⟨y, more⟩⟩
    · rfl
    · rfl
    · simp [head?, hkinds.2.1]
  · cases more with
    | nil => rfl
    | cons x more => simp [head?, hkinds.2.2.1]
  · simp [head?, hkinds.2.2.2]
  · simp only [List.cons_append, head?]
    split <;> rfl

/-- A reference ends in front of every symbol at which reading can go on. -/
theorem reference_append {s : Symbol} (hs : s.kind.resumes = true) (position : Nat)
    (symbols more : List Symbol) :
    reference position (symbols ++ s :: more) =
      ((reference position symbols).1, (reference position symbols).2.map (· ++ s :: more)) := by
  rw [reference, reference, head?_append hs]
  cases head? symbols with
  | none => rfl
  | some found =>
    obtain ⟨group, field, after⟩ := found
    simp only [Option.map_some, calls_append hs]

end Outline

end TagText
