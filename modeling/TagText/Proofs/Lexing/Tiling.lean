import Mathlib.Data.List.DropRight
import TagText.Proofs.Lexing.Splitting

/-!
Pieces tile their text: put one behind the other, the characters that they take up are the text that
was split, with nothing lost, doubled or moved.
-/

namespace TagText

/-- Trimming takes characters away at the end only. -/
theorem Text.trimRight_isPrefix (p : Char → Bool) (s : Text) : Text.trimRight p s <+: s := by
  have hsuffix := List.dropWhile_suffix (l := s.reverse) p
  exact List.reverse_suffix.mp (by simpa [Text.trimRight] using hsuffix)

namespace Lexeme

/-- The text that pieces take up together. -/
def rawText (pieces : List Lexeme) : Text := pieces.flatMap raw

@[simp] theorem rawText_nil : rawText [] = [] := rfl

@[simp] theorem rawText_cons (piece : Lexeme) (pieces : List Lexeme) :
    rawText (piece :: pieces) = piece.raw ++ rawText pieces := rfl

@[simp] theorem rawText_append (before after : List Lexeme) :
    rawText (before ++ after) = rawText before ++ rawText after := List.flatMap_append

@[simp] theorem rawText_blanks (run : Text) : rawText (blanks run) = run := by
  cases run <;> simp [blanks, raw]

theorem quotedBody?_eq {quote : Char} {s body after : Text}
    (hbody : quotedBody? quote s = some (body, after)) : s = body ++ quote :: after := by
  fun_induction quotedBody? quote s generalizing body after with
  | case1 => simp at hbody
  | case2 rest =>
    obtain ⟨rfl, rfl⟩ := by simpa using hbody
    rfl
  | case3 => simp at hbody
  | case4 _ d rest ih =>
    obtain ⟨inner, hinner, rfl⟩ := by simpa using hbody
    simpa using ih hinner
  | case5 c rest _ _ ih =>
    obtain ⟨inner, hinner, rfl⟩ := by simpa using hbody
    simpa using ih hinner

theorem rawText_ofArguments (s : Text) : rawText (ofArguments s).1 ++ (ofArguments s).2 = s := by
  fun_induction ofArguments s with
  | case1 => rfl
  | case2 s => rfl
  | case3 s pieces rest heq _ ih =>
    rw [heq] at ih
    simpa [raw] using ih
  | case4 c s _ _ _ pieces rest heq ih =>
    rw [heq] at ih
    simp only [rawText_cons, raw, List.cons_append, List.append_assoc, ih,
      List.takeWhile_append_dropWhile]
  | case5 => simp [raw]
  | case6 c s _ _ _ _ body after hbody pieces rest heq ih =>
    rw [heq] at ih
    simp [raw, ih, quotedBody?_eq hbody]
  | case7 c s _ _ _ _ run value pieces rest heq ih =>
    rw [heq] at ih
    have hvalue : value ++ run.drop value.length = run :=
      List.prefix_iff_eq_append.mp (Text.trimRight_isPrefix isBlank run)
    calc rawText (bare value :: blanks (run.drop value.length) ++ pieces) ++ rest
        = (value ++ run.drop value.length) ++ (rawText pieces ++ rest) := by simp [raw]
      _ = c :: s := by rw [hvalue, ih]; simp [run]

theorem leadingName?_eq {s word rest : Text} (hname : leadingName? s = some (word, rest)) :
    s = word ++ rest := by
  unfold leadingName? at hname
  split at hname
  · simp at hname
  · split at hname
    · obtain ⟨rfl, rfl⟩ := by simpa using hname
      simp
    · simp at hname

/-- An opening is its sign, its name and its parenthesis. -/
theorem opening?_eq {sign : Char} {s word inner : Text}
    (hopening : opening? sign s = some (word, inner)) : s = sign :: word ++ '(' :: inner := by
  unfold opening? at hopening
  split at hopening
  · simp at hopening
  · split at hopening
    · rename_i hsign
      split at hopening
      · rename_i hname
        obtain ⟨rfl, rfl⟩ := by simpa using hopening
        simp [hsign, leadingName?_eq hname]
      · simp at hopening
    · simp at hopening

theorem rawText_ofChain (s : Text) : rawText (ofChain s).1 ++ (ofChain s).2 = s := by
  fun_induction ofChain s with
  | case1 => rfl
  | case2 s word inner hopening arguments after harguments pieces rest heq ih =>
    have hinner := rawText_ofArguments inner
    rw [harguments] at hinner
    rw [heq] at ih
    simp [raw, ih, hinner, opening?_eq hopening]

theorem rawText_ofReference (word inner : Text) :
    rawText (ofReference word inner).1 ++ (ofReference word inner).2 =
      '@' :: word ++ '(' :: inner := by
  have hfield := List.takeWhile_append_dropWhile (p := isFieldChar) (l := inner)
  unfold ofReference
  split
  · rename_i s hclose
    have hchain := rawText_ofChain s
    rw [hclose] at hfield
    simp only [rawText_cons, raw, List.append_assoc, List.cons_append, List.nil_append, hchain,
      hfield]
  · simp [raw, hfield]

/-- A reference that leaves nothing takes up everything. -/
theorem rawText_of_whole {word inner : Text} (hwhole : (ofReference word inner).2 = []) :
    rawText (ofReference word inner).1 = '@' :: word ++ '(' :: inner := by
  simpa [hwhole] using rawText_ofReference word inner

theorem literalRun_eq (s : Text) : (literalRun s).1 ++ (literalRun s).2 = s := by
  fun_induction literalRun s with
  | case1 => rfl
  | case2 => rfl
  | case3 c s _ run rest heq ih =>
    rw [heq] at ih
    simpa using ih

theorem rawText_ofExpression (s : Text) : rawText (ofExpression s) = s := by
  fun_induction ofExpression s with
  | case1 => rfl
  | case2 c s word inner hopening pieces rest hreference ih =>
    have htile := rawText_ofReference word inner
    rw [hreference] at htile
    rw [rawText_append, ih, htile, opening?_eq hopening]
  | case3 c s _ run rest hrun ih =>
    have htile := literalRun_eq s
    rw [hrun] at htile
    simpa [raw, ih] using htile

end Lexeme

end TagText
