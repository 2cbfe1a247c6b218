import TagText.Proofs.Lexing.Chains

/-!
Segments: the literal runs and the references that an expression is split into, one after the other.
How a segment is split is up to its own text and to the little of the following text that its last
piece looks at.
-/

namespace TagText.Lexeme

/-- The pieces of a reference up to its key. -/
def referenceHead (word key : Text) : List Lexeme := [atSign, name word, openParen, field key]

/-- The key of a reference reaches up to the parenthesis that closes it. -/
theorem span_key {key : Text} (hkey : ∀ c ∈ key, isFieldChar c) (s : Text) :
    (key ++ ')' :: s).takeWhile isFieldChar = key ∧
      (key ++ ')' :: s).dropWhile isFieldChar = ')' :: s := by
  have hparen : isFieldChar ')' = false := by decide
  exact Text.span_append hkey (by simpa using hparen)

theorem ofReference_closed (word : Text) {key : Text} (hkey : ∀ c ∈ key, isFieldChar c) (s : Text) :
    ofReference word (key ++ ')' :: s) =
      (referenceHead word key ++ closeParen :: (ofChain s).1, (ofChain s).2) := by
  obtain ⟨htake, hdrop⟩ := span_key hkey s
  unfold ofReference
  rw [htake, hdrop]
  rfl

theorem ofReference_broken (word : Text) {key rest : Text} (hkey : ∀ c ∈ key, isFieldChar c)
    (hrest : ∀ c ∈ rest.head?, isFieldChar c = false ∧ c ≠ ')') :
    ofReference word (key ++ rest) = (referenceHead word key, rest) := by
  obtain ⟨htake, hdrop⟩ := Text.span_append hkey fun c hc => (hrest c hc).1
  unfold ofReference
  rw [htake, hdrop]
  split
  · rename_i s
    exact absurd rfl (hrest ')' rfl).2
  · rfl

/-- Behind the parenthesis of a reference stands a key that is closed, or one that is not. -/
theorem reference_cases {P : Text → Prop}
    (closed : ∀ key s, (∀ c ∈ key, isFieldChar c) → P (key ++ ')' :: s))
    (broken : ∀ key rest, (∀ c ∈ key, isFieldChar c) →
      (∀ c ∈ rest.head?, isFieldChar c = false ∧ c ≠ ')') → P (key ++ rest)) (inner : Text) :
    P inner := by
  have hsplit := List.takeWhile_append_dropWhile (p := isFieldChar) (l := inner)
  have hkey : ∀ c ∈ inner.takeWhile isFieldChar, isFieldChar c :=
    List.all_eq_true.mp List.all_takeWhile
  rw [← hsplit]
  cases hdrop : inner.dropWhile isFieldChar with
  | nil => exact broken _ [] hkey (by simp)
  | cons c s =>
    have hc : isFieldChar c = false := Text.head?_dropWhile (s := inner) c (by simp [hdrop])
    by_cases hclose : c = ')'
    · subst hclose
      exact closed _ s hkey
    · exact broken _ (c :: s) hkey (by simpa using ⟨hc, hclose⟩)

/-- A reference is split in the same way in front of everything that its last piece is over before,
    and that is so of what it leaves over. -/
theorem ofReference_local (word inner : Text) :
    EndsBefore (ofReference word inner).1 (ofReference word inner).2 ∧
      ∃ body, inner = body ++ (ofReference word inner).2 ∧ ∀ tail,
        EndsBefore (ofReference word inner).1 tail →
          ofReference word (body ++ tail) = ((ofReference word inner).1, tail) := by
  induction inner using reference_cases with
  | closed key s hkey =>
    rw [ofReference_closed word hkey, endsBefore_append_iff (by simp)]
    refine ⟨ofChain_endsBefore s, key ++ ')' :: rawText (ofChain s).1, ?_, ?_⟩
    · simp [rawText_ofChain]
    · intro tail hends
      rw [endsBefore_append_iff (by simp)] at hends
      rw [List.append_assoc, List.cons_append, ofReference_closed word hkey]
      by_cases hclosed : Closed (closeParen :: (ofChain s).1)
      · rw [ofChain_local hclosed (hends closeParen hclosed)]
      · have htail := tail_eq_nil_of_open hclosed hends
        have htile := rawText_ofChain s
        rw [ofChain_rest_of_open hclosed] at htile
        rw [htail, htile, ofChain_rest_of_open hclosed]
  | broken key rest hkey hrest =>
    rw [ofReference_broken word hkey hrest]
    refine ⟨?_, key, rfl, ?_⟩
    · simpa [EndsBefore, referenceHead, endsBefore] using hrest
    · intro tail hends
      exact ofReference_broken word hkey (hends (field key) rfl)

/-- The pieces of a segment that stands alone. -/
inductive Segment : List Lexeme → Prop
  | literal (run : Text) : run ≠ [] → opening? '@' run = none → literalRun run = (run, []) →
    Segment [text run]
  | reference (word inner : Text) : isName word = true → (ofReference word inner).2 = [] →
    Segment (ofReference word inner).1

theorem ofExpression_reference {word : Text} (hname : isName word = true) (inner : Text) :
    ofExpression ('@' :: word ++ '(' :: inner) =
      (ofReference word inner).1 ++ ofExpression (ofReference word inner).2 := by
  have hopening : opening? '@' ('@' :: word ++ '(' :: inner) = some (word, inner) :=
    opening?_eq_some_iff.mpr ⟨hname, rfl⟩
  rw [List.cons_append, ofExpression.eq_def]
  simp only
  split
  · simp_all
  · simp_all

theorem ofExpression_literal {s : Text} (hs : s ≠ []) (hnone : opening? '@' s = none) :
    ofExpression s = text (literalRun s).1 :: ofExpression (literalRun s).2 := by
  obtain ⟨c, s, rfl⟩ := List.exists_cons_of_ne_nil hs
  rw [ofExpression.eq_def]
  simp only
  split
  · simp_all
  · simp [literalRun, startsReference, hnone]

theorem startsReference_eq_false_iff {s : Text} :
    startsReference s = false ↔ opening? '@' s = none := by
  simp [startsReference]

theorem atSignOrEnd_of_referenceOrEnd {tail : Text} (htail : ReferenceOrEnd tail) :
    atSignOrEnd tail := by
  rcases htail with rfl | hstarts
  · simp [atSignOrEnd]
  · exact atSignOrEnd_of_startsReference hstarts

theorem literalRun_of_referenceOrEnd {tail : Text} (htail : ReferenceOrEnd tail) :
    literalRun tail = ([], tail) := by
  cases tail with
  | nil => rfl
  | cons c tail =>
    have hstarts : startsReference (c :: tail) = true := by simpa [ReferenceOrEnd] using htail
    simp [literalRun, hstarts]

/-- A literal run goes on up to a reference or the end. -/
theorem literalRun_rest (s : Text) : ReferenceOrEnd (literalRun s).2 := by
  fun_induction literalRun s with
  | case1 => exact Or.inl rfl
  | case2 c s hstarts => exact Or.inr hstarts
  | case3 c s _ run rest heq ih => rwa [heq] at ih

/-- No reference starts inside a literal run, whichever reference ends it. -/
theorem literalRun_local (s : Text) {tail : Text} (htail : ReferenceOrEnd tail) :
    literalRun ((literalRun s).1 ++ tail) = ((literalRun s).1, tail) := by
  have hsplit := literalRun_eq s
  fun_induction literalRun s with
  | case1 => exact literalRun_of_referenceOrEnd htail
  | case2 => exact literalRun_of_referenceOrEnd htail
  | case3 c s hstarts run rest heq ih =>
    have hrun : run ++ rest = s := by simpa using hsplit
    rw [heq] at ih
    have hwhole : opening? '@' (c :: run ++ rest) = none := by
      rw [List.cons_append, hrun]
      simpa [startsReference] using hstarts
    have hfront := opening?_eq_none_of_append hwhole
    have hnone := opening?_append_atSignOrEnd (List.cons_ne_nil c run)
      (atSignOrEnd_of_referenceOrEnd htail) hfront
    rw [List.cons_append, literalRun, ih hrun]
    simp_all [startsReference]

namespace Segment

/-- How a segment is split does not depend on what follows it, as long as it is over there. -/
theorem split {pieces : List Lexeme} (hsegment : Segment pieces) {tail : Text}
    (hends : EndsBefore pieces tail) :
    ofExpression (rawText pieces ++ tail) = pieces ++ ofExpression tail := by
  cases hsegment with
  | literal run hrun hnone hliteral =>
    have htail : ReferenceOrEnd tail := hends (text run) rfl
    have hwhole := literalRun_local run htail
    rw [hliteral] at hwhole
    have hfront := opening?_append_atSignOrEnd hrun (atSignOrEnd_of_referenceOrEnd htail) hnone
    have hexpression := ofExpression_literal (by simp [hrun]) hfront
    rw [hwhole] at hexpression
    simpa [raw] using hexpression
  | reference word inner hname hwhole =>
    obtain ⟨-, body, hbody, hlocal⟩ := ofReference_local word inner
    rw [hwhole, List.append_nil] at hbody
    subst hbody
    have hexpression := ofExpression_reference hname (inner ++ tail)
    rw [hlocal tail hends] at hexpression
    simpa [rawText_of_whole hwhole] using hexpression

theorem pieces_ne_nil {pieces : List Lexeme} (hsegment : Segment pieces) : pieces ≠ [] := by
  cases hsegment with
  | literal => simp
  | reference word inner =>
    induction inner using reference_cases with
    | closed key s hkey => simp [ofReference_closed word hkey, referenceHead]
    | broken key rest hkey hrest => simp [ofReference_broken word hkey hrest, referenceHead]

theorem rawText_ne_nil {pieces : List Lexeme} (hsegment : Segment pieces) :
    rawText pieces ≠ [] := by
  cases hsegment with
  | literal run hrun => simpa [raw] using hrun
  | reference word inner hname hwhole =>
    simp [rawText_of_whole hwhole]

/-- Every text has a segment in front. -/
theorem exists_front {s : Text} (hs : s ≠ []) :
    ∃ pieces rest, Segment pieces ∧ EndsBefore pieces rest ∧ s = rawText pieces ++ rest := by
  cases hopening : opening? '@' s with
  | none =>
    refine ⟨[text (literalRun s).1], (literalRun s).2, ?_, ?_, ?_⟩
    · have hsplit := literalRun_eq s
      have hend : ReferenceOrEnd [] := Or.inl rfl
      have hrun := literalRun_local s hend
      rw [List.append_nil] at hrun
      rw [← hsplit] at hopening
      refine .literal _ ?_ (opening?_eq_none_of_append hopening) hrun
      rw [hsplit] at hopening
      obtain ⟨c, s, rfl⟩ := List.exists_cons_of_ne_nil hs
      simp [literalRun, startsReference, hopening]
    · simpa [EndsBefore, endsBefore] using literalRun_rest s
    · simp [raw, literalRun_eq]
  | some found =>
    obtain ⟨word, inner⟩ := found
    obtain ⟨hname, rfl⟩ := opening?_eq_some_iff.mp hopening
    obtain ⟨hends, body, hbody, hlocal⟩ := ofReference_local word inner
    have hwhole := hlocal [] fun last _ => endsBefore_nil last
    rw [List.append_nil] at hwhole
    refine ⟨(ofReference word body).1, (ofReference word inner).2, ?_, ?_, ?_⟩
    · exact .reference word body hname (by rw [hwhole])
    · rwa [hwhole]
    · rw [hwhole]
      exact (rawText_ofReference word inner).symm

end Segment

/-- A text segment by segment. -/
theorem segment_induction {P : Text → Prop} (nil : P [])
    (segment : ∀ pieces rest, Segment pieces → EndsBefore pieces rest → P rest →
      P (rawText pieces ++ rest)) (s : Text) : P s := by
  induction hlength : s.length using Nat.strong_induction_on generalizing s with
  | _ n ih =>
    by_cases hs : s = []
    · exact hs ▸ nil
    · obtain ⟨pieces, rest, hsegment, hends, rfl⟩ := Segment.exists_front hs
      have hpositive := List.length_pos_of_ne_nil hsegment.rawText_ne_nil
      rw [List.length_append] at hlength
      exact segment pieces rest hsegment hends (ih rest.length (by omega) rest rfl)

theorem ofExpression_ne_nil {s : Text} (hs : s ≠ []) : ofExpression s ≠ [] := by
  obtain ⟨pieces, rest, hsegment, hends, rfl⟩ := Segment.exists_front hs
  rw [hsegment.split hends]
  simp [hsegment.pieces_ne_nil]

end TagText.Lexeme
