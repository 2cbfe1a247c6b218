import TagText.Proofs.Outline.Embedding

/-!
Where reading a stream of symbols ends, whatever the stream. Reading goes step by step. A step uses
up the symbol in front and, behind a reference sign, symbols at which reading cannot go on; so no
step passes over another sign, or over a symbol at which reading ends.
-/

namespace TagText

/-- Whether reading ends at a symbol. -/
def SymbolKind.stops (kind : SymbolKind) : Bool := kind = closeMarker || kind = endOfText

theorem SymbolKind.stops_eq_false_of_resumes {kind : SymbolKind} (hkind : kind.resumes = false) :
    kind.stops = false := by
  cases kind <;> first | rfl | cases hkind

theorem SymbolKind.resumes_eq_false_of_isArgument {kind : SymbolKind}
    (hkind : kind.isArgument = true) : kind.resumes = false := by
  cases kind <;> first | rfl | cases hkind

/-- Whether a part starts at a reference sign. -/
def Part.startsAtSign : Part → Bool
  | text _ _ => false
  | _ => true

namespace Symbol

/-- A stream up to the first symbol at which reading ends, and with that symbol. -/
def upToStop : List Symbol → List Symbol
  | [] => []
  | s :: symbols => if s.kind.stops then [s] else s :: upToStop symbols

theorem upToStop_append {used : List Symbol} (hused : ∀ s ∈ used, s.kind.stops = false)
    (rest : List Symbol) : upToStop (used ++ rest) = used ++ upToStop rest := by
  induction used with
  | nil => rfl
  | cons s used ih =>
    obtain ⟨hs, hused⟩ := List.forall_mem_cons.mp hused
    rw [List.cons_append, upToStop, if_neg (by simp [hs]), ih hused, List.cons_append]

theorem head?_upToStop (symbols : List Symbol) : (upToStop symbols).head? = symbols.head? := by
  cases symbols with
  | nil => rfl
  | cons s symbols =>
    rw [upToStop]
    split <;> rfl

/-- Reading goes on at the same symbol, or the end is reached in both streams. -/
theorem dropWhile_upToStop (symbols : List Symbol) :
    ((upToStop symbols).dropWhile fun s => !s.kind.resumes) =
      upToStop (symbols.dropWhile fun s => !s.kind.resumes) := by
  induction symbols with
  | nil => rfl
  | cons s symbols ih =>
    cases hs : s.kind.resumes with
    | true =>
      have hkept : (upToStop (s :: symbols)).dropWhile (fun s => !s.kind.resumes) =
          upToStop (s :: symbols) := by
        rw [upToStop]
        split <;> simp [hs]
      rw [hkept, List.dropWhile_cons_of_neg (by simp [hs])]
    | false =>
      rw [upToStop, if_neg (by simp [SymbolKind.stops_eq_false_of_resumes hs]),
        List.dropWhile_cons_of_pos (by simp [hs]), List.dropWhile_cons_of_pos (by simp [hs]), ih]

/-- What remains of a stream when symbols are used up at which reading cannot go on. -/
def UsesUp (symbols rest : List Symbol) : Prop :=
  ∃ used, symbols = used ++ rest ∧ ∀ s ∈ used, s.kind.resumes = false

namespace UsesUp

theorem refl (symbols : List Symbol) : UsesUp symbols symbols := ⟨[], rfl, by simp⟩

theorem cons {s : Symbol} (hs : s.kind.resumes = false) {symbols rest : List Symbol}
    (h : UsesUp symbols rest) : UsesUp (s :: symbols) rest := by
  obtain ⟨used, rfl, hused⟩ := h
  exact ⟨s :: used, rfl, List.forall_mem_cons.mpr ⟨hs, hused⟩⟩

theorem trans {symbols middle rest : List Symbol} (h : UsesUp symbols middle)
    (hrest : UsesUp middle rest) : UsesUp symbols rest := by
  obtain ⟨used, rfl, hused⟩ := h
  obtain ⟨more, rfl, hmore⟩ := hrest
  exact ⟨used ++ more, by simp, List.forall_mem_append.mpr ⟨hused, hmore⟩⟩

theorem length_le {symbols rest : List Symbol} (h : UsesUp symbols rest) :
    rest.length ≤ symbols.length := by
  obtain ⟨used, rfl, -⟩ := h
  simp

/-- All that is skipped after a broken reference is used up. -/
theorem dropWhile (symbols : List Symbol) :
    UsesUp symbols (symbols.dropWhile fun s => !s.kind.resumes) := by
  refine ⟨_, List.takeWhile_append_dropWhile.symm, fun s hs => ?_⟩
  simpa using List.mem_takeWhile_imp hs

end UsesUp

end Symbol

namespace Outline

open TagText.Symbol

variable {symbols rest : List Symbol}

theorem someArguments?_usesUp {args : List Text}
    (hargs : someArguments? symbols = some (args, rest)) : UsesUp symbols rest := by
  fun_induction someArguments? symbols generalizing args rest with
  | case1 arg separator more harg hsep =>
    obtain ⟨-, rfl⟩ := by simpa using hargs
    have harg := SymbolKind.resumes_eq_false_of_isArgument harg
    exact .cons harg (.cons (by rw [hsep]; rfl) (.refl more))
  | case2 arg separator more harg _ hsep ih =>
    obtain ⟨found, hfound, -⟩ := by simpa using hargs
    have harg := SymbolKind.resumes_eq_false_of_isArgument harg
    exact .cons harg (.cons (by rw [hsep]; rfl) (ih hfound))
  | case3 | case4 | case5 => cases hargs

theorem arguments?_usesUp {args : List Text} (hargs : arguments? symbols = some (args, rest)) :
    UsesUp symbols rest := by
  unfold arguments? at hargs
  split at hargs
  · cases hargs
  · rename_i s more
    split at hargs
    · rename_i hclose
      obtain ⟨-, rfl⟩ := by simpa using hargs
      exact .cons (by rw [hclose]; rfl) (.refl more)
    · exact someArguments?_usesUp hargs

theorem call?_usesUp {call : RawCall} (hcall : call? symbols = some (call, rest)) :
    UsesUp symbols rest := by
  unfold call? at hcall
  split at hcall
  · rename_i dot name paren inner
    split at hcall
    · rename_i hkinds
      obtain ⟨⟨hdot, hname⟩, hparen⟩ := by simpa using hkinds
      simp only [Option.map_eq_some_iff, Prod.exists, Prod.mk.injEq] at hcall
      obtain ⟨args, after, hargs, -, rfl⟩ := hcall
      exact .cons (by rw [hdot]; rfl) (.cons (by rw [hname]; rfl)
        (.cons (by rw [hparen]; rfl) (arguments?_usesUp hargs)))
    · cases hcall
  · cases hcall

theorem calls_usesUp (hcalls : (calls symbols).2 = some rest) : UsesUp symbols rest := by
  fun_induction calls symbols with
  | case1 => cases hcalls
  | case2 symbols _ call after hcall more found heq ih =>
    exact (call?_usesUp hcall).trans (ih (by rw [heq]; exact hcalls))
  | case3 symbols =>
    obtain rfl := Option.some.inj hcalls
    exact .refl symbols

theorem head?_usesUp {group field : Text} (hhead : head? symbols = some (group, field, rest)) :
    UsesUp symbols rest := by
  unfold head? at hhead
  split at hhead
  · rename_i name openParen field closeParen more
    split at hhead
    · rename_i hkinds
      obtain ⟨⟨⟨hname, hopen⟩, hfield⟩, hclose⟩ := by simpa using hkinds
      obtain ⟨-, -, rfl⟩ := by simpa using hhead
      exact .cons (by rw [hname]; rfl) (.cons (by rw [hopen]; rfl)
        (.cons (by rw [hfield]; rfl) (.cons (by rw [hclose]; rfl) (.refl more))))
    · cases hhead
  · cases hhead

/-- A complete reference uses up nothing at which reading could go on. -/
theorem reference_usesUp {position : Nat}
    (hreference : (reference position symbols).2 = some rest) : UsesUp symbols rest := by
  unfold reference at hreference
  split at hreference
  · cases hreference
  · rename_i hhead
    exact (head?_usesUp hhead).trans (calls_usesUp hreference)

/-- A reference ends where reading goes on, or with the stream. -/
theorem reference_append_of_head? {more : List Symbol}
    (hmore : ∀ s ∈ more.head?, s.kind.resumes = true) (position : Nat) (symbols : List Symbol) :
    reference position (symbols ++ more) =
      ((reference position symbols).1, (reference position symbols).2.map (· ++ more)) := by
  cases more with
  | nil => simp
  | cons s more => exact reference_append (hmore s rfl) position symbols more

theorem reference_upToStop (position : Nat) (symbols : List Symbol) :
    reference position (upToStop symbols) =
      ((reference position symbols).1, (reference position symbols).2.map upToStop) := by
  obtain ⟨inner, hsplit, hinner⟩ := UsesUp.dropWhile symbols
  generalize hmore : (symbols.dropWhile fun s => !s.kind.resumes) = more at hsplit
  have hresumes : ∀ s ∈ more.head?, s.kind.resumes = true := by
    intro s hs
    subst hmore
    have hkept := List.head?_dropWhile_not (fun s : Symbol => !s.kind.resumes) symbols
    rw [Option.mem_def.mp hs] at hkept
    simpa using hkept
  have hstops : ∀ s ∈ inner, s.kind.stops = false := fun s hs =>
    SymbolKind.stops_eq_false_of_resumes (hinner s hs)
  rw [hsplit, upToStop_append hstops, reference_append_of_head? hresumes,
    reference_append_of_head? (by rwa [head?_upToStop])]
  refine Prod.ext rfl ?_
  cases hfound : (reference position inner).2 with
  | none => rfl
  | some rest =>
    obtain ⟨used, rfl, -⟩ := reference_usesUp hfound
    have hrest : ∀ s ∈ rest, s.kind.stops = false := fun s hs =>
      hstops s (List.mem_append_right _ hs)
    simp [upToStop_append hrest]

theorem startOf_upToStop (source : Text) (symbols : List Symbol) :
    startOf source (upToStop symbols) = startOf source symbols := by
  cases symbols with
  | nil => rfl
  | cons s symbols =>
    rw [upToStop]
    split <;> rfl

/-- A step of reading: the parts that come of a symbol and those behind it, and what remains. It is
    the same step when nothing is left behind the symbol at which reading ends. -/
structure Step (source : Text) (s : Symbol) (symbols : List Symbol) (parts : List Part)
    (rest : List Symbol) : Prop where
  usesUp : UsesUp symbols rest
  outline : ofSymbols source (s :: symbols) = prepend parts (ofSymbols source rest)
  upToStop : ofSymbols source (s :: upToStop symbols) =
    prepend parts (ofSymbols source (upToStop rest))
  signs : parts.countP Part.startsAtSign = if s.kind = .atSign then 1 else 0

/-- A symbol that is no reference sign makes its part alone, if it makes any. -/
theorem exists_parts {s : Symbol} (hstops : s.kind.stops = false) (hsign : s.kind ≠ .atSign)
    (source : Text) :
    ∃ parts : List Part, parts.countP Part.startsAtSign = 0 ∧
      ∀ symbols, ofSymbols source (s :: symbols) = prepend parts (ofSymbols source symbols) := by
  cases hkind : s.kind with
  | atSign => exact absurd hkind hsign
  | closeMarker | endOfText =>
    rw [hkind] at hstops
    cases hstops
  | openMarker =>
    refine ⟨[], rfl, fun symbols => ?_⟩
    rw [ofSymbols.eq_def]
    simp only [hkind]
    rfl
  | text => exact ⟨[.text s.value s.start], rfl, ofSymbols_text hkind source⟩
  | _ =>
    refine ⟨[.text (source.slice s.start s.stop) s.start], rfl, fun symbols => ?_⟩
    rw [ofSymbols.eq_def]
    simp only [hkind]
    rfl

/-- Reading a stream that does not end at its first symbol takes a step. -/
theorem exists_step (source : Text) {s : Symbol} (hstops : s.kind.stops = false)
    (symbols : List Symbol) : ∃ parts rest, Step source s symbols parts rest := by
  by_cases hsign : s.kind = .atSign
  · have hkept := reference_upToStop s.start symbols
    cases hreference : reference s.start symbols with
    | mk r found =>
      rw [hreference] at hkept
      cases found with
      | some rest =>
        refine ⟨[.reference r], rest, reference_usesUp (by rw [hreference]), ?_, ?_, ?_⟩
        · exact ofSymbols_reference hsign hreference
        · exact ofSymbols_reference hsign hkept
        · rw [if_pos hsign]
          rfl
      | none =>
        have hbroken := ofSymbols_broken hsign source hkept
        rw [dropWhile_upToStop, startOf_upToStop] at hbroken
        refine ⟨[.broken _ r], _, .dropWhile symbols, ?_, hbroken, ?_⟩
        · exact ofSymbols_broken hsign source hreference
        · rw [if_pos hsign]
          rfl
  · obtain ⟨parts, hcount, hparts⟩ := exists_parts hstops hsign source
    refine ⟨parts, symbols, .refl symbols, hparts _, hparts _, ?_⟩
    rw [if_neg hsign, hcount]

/-- Induction over the steps of reading. -/
theorem step_induction (source : Text) {motive : List Symbol → Prop} (nil : motive [])
    (stop : ∀ s symbols, s.kind.stops = true → motive (s :: symbols))
    (step : ∀ s symbols parts rest, s.kind.stops = false → Step source s symbols parts rest →
      motive rest → motive (s :: symbols)) (symbols : List Symbol) : motive symbols := by
  induction hlength : symbols.length using Nat.strong_induction_on generalizing symbols with
  | h n ih =>
    cases symbols with
    | nil => exact nil
    | cons s symbols =>
      cases hstops : s.kind.stops with
      | true => exact stop s symbols hstops
      | false =>
        obtain ⟨parts, rest, hstep⟩ := exists_step source hstops symbols
        have hshorter := hstep.usesUp.length_le
        rw [List.length_cons] at hlength
        exact step s symbols parts rest hstops hstep (ih rest.length (by omega) rest rfl)

/-- What follows the symbol at which reading ends: the source behind a close marker, and nothing
    else. -/
def trailingAt (source : Text) (stop : Option Symbol) : Text :=
  match stop with
  | some s => if s.kind = .closeMarker then source.drop s.stop else []
  | none => []

theorem ofSymbols_of_stops (source : Text) {s : Symbol} (hstops : s.kind.stops = true)
    (symbols : List Symbol) :
    ofSymbols source (s :: symbols) = { parts := [], trailing := trailingAt source (some s) } := by
  rw [ofSymbols.eq_def, trailingAt]
  cases hkind : s.kind with
  | closeMarker | endOfText => simp [hkind]
  | _ =>
    rw [hkind] at hstops
    cases hstops

theorem ofSymbols_nil (source : Text) : ofSymbols source [] = { parts := [], trailing := [] } := by
  rw [ofSymbols.eq_def]

/-- What stands behind the symbol at which reading ends plays no part. -/
theorem ofSymbols_upToStop (source : Text) (symbols : List Symbol) :
    ofSymbols source (upToStop symbols) = ofSymbols source symbols := by
  induction symbols using step_induction source with
  | nil => rfl
  | stop s symbols hstops =>
    rw [Symbol.upToStop, if_pos hstops, ofSymbols_of_stops source hstops,
      ofSymbols_of_stops source hstops]
  | step s symbols parts rest hstops hstep ih =>
    rw [Symbol.upToStop, if_neg (by simp [hstops]), hstep.upToStop, ih, hstep.outline]

/-- The symbols that a step uses up hold neither a sign nor a symbol at which reading ends. -/
theorem Step.takeWhile {source : Text} {s : Symbol} {parts : List Part}
    (hstep : Step source s symbols parts rest) (hstops : s.kind.stops = false) :
    (((s :: symbols).takeWhile fun s => !s.kind.stops).countP fun s => s.kind = .atSign) =
      parts.countP Part.startsAtSign +
        ((rest.takeWhile fun s => !s.kind.stops).countP fun s => s.kind = .atSign) ∧
    (s :: symbols).find? (fun s => s.kind.stops) = rest.find? fun s => s.kind.stops := by
  obtain ⟨used, rfl, hused⟩ := hstep.usesUp
  have hgoes : ∀ t ∈ used, (!t.kind.stops) = true := fun t ht => by
    simp [SymbolKind.stops_eq_false_of_resumes (hused t ht)]
  have hsigns : (used.countP fun t => t.kind = .atSign) = 0 := by
    refine List.countP_eq_zero.mpr fun t ht hsign => ?_
    have hresumes := hused t ht
    rw [of_decide_eq_true hsign] at hresumes
    cases hresumes
  constructor
  · rw [List.takeWhile_cons_of_pos (by simp [hstops]), List.takeWhile_append_of_pos hgoes,
      List.countP_cons, List.countP_append, hsigns, hstep.signs]
    simp only [decide_eq_true_eq]
    omega
  · have hnone : used.find? (fun t => t.kind.stops) = none :=
      List.find?_eq_none.mpr fun t ht => by simpa using hgoes t ht
    simp [hstops, hnone]

/-- Every reference sign in front of the symbol at which reading ends starts a part, and no other
    part does. -/
theorem countP_startsAtSign_ofSymbols (source : Text) (symbols : List Symbol) :
    (ofSymbols source symbols).parts.countP Part.startsAtSign =
      (symbols.takeWhile fun s => !s.kind.stops).countP fun s => s.kind = .atSign := by
  induction symbols using step_induction source with
  | nil =>
    rw [ofSymbols_nil]
    rfl
  | stop s symbols hstops =>
    rw [ofSymbols_of_stops source hstops, List.takeWhile_cons_of_neg (by simp [hstops])]
    rfl
  | step s symbols parts rest hstops hstep ih =>
    rw [(hstep.takeWhile hstops).1, ← ih, hstep.outline]
    exact List.countP_append

/-- The trailing text is decided by the first symbol at which reading ends. -/
theorem trailing_ofSymbols (source : Text) (symbols : List Symbol) :
    (ofSymbols source symbols).trailing =
      trailingAt source (symbols.find? fun s => s.kind.stops) := by
  induction symbols using step_induction source with
  | nil =>
    rw [ofSymbols_nil]
    rfl
  | stop s symbols hstops =>
    have hfirst : (s :: symbols).find? (fun t => t.kind.stops) = some s :=
      List.find?_cons_of_pos hstops
    rw [ofSymbols_of_stops source hstops, hfirst]
  | step s symbols parts rest hstops hstep ih =>
    rw [(hstep.takeWhile hstops).2, ← ih, hstep.outline]
    rfl

end Outline

end TagText
