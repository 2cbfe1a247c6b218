import Mathlib.Data.List.TakeWhile
import TagText.Proofs.Lexing.Splitting
import TagText.Symbol.Basic

/-!
A limit cuts a text off. What the scanner does in front of its limit is what splitting does with the
text up to there by itself, whatever stands behind it, and of what stands behind it nothing is lost.
-/

namespace TagText

namespace Window

/-- A text that goes on behind the limit. -/
def upTo (front behind : Text) : Window := { rest := front ++ behind, room := front.length }

/-- A reading of a text, and what is left of it, with the text going on behind the limit. -/
abbrev within {α : Type} (behind : Text) (found : α × Text) : α × Window :=
  (found.1, upTo found.2 behind)

theorem whole_eq (s : Text) : whole s = upTo s [] := by simp [whole, upTo]

variable {behind : Text}

@[simp] theorem next?_upTo_nil : (upTo [] behind).next? = none := rfl

@[simp] theorem next?_upTo_cons (c : Char) (s : Text) :
    (upTo (c :: s) behind).next? = some (c, upTo s behind) := rfl

@[simp] theorem span_upTo (p : Char → Bool) (s : Text) :
    (upTo s behind).span p = within behind (s.takeWhile p, s.dropWhile p) := by
  induction s with
  | nil => rw [span]; rfl
  | cons c s ih =>
    rw [span]
    simp only [next?_upTo_cons, ih]
    by_cases hc : p c <;> simp [hc]

theorem span_upTo_all (s : Text) :
    (upTo s behind).span (fun _ => true) = (s, upTo [] behind) := by
  rw [span_upTo, within, List.takeWhile_eq_self_iff.mpr fun _ _ => rfl,
    List.dropWhile_eq_nil_iff.mpr fun _ _ => rfl]

@[simp] theorem leadingName?_upTo (s : Text) :
    (upTo s behind).leadingName? = (Lexeme.leadingName? s).map (within behind) := by
  cases s with
  | nil => simp [leadingName?, Lexeme.leadingName?]
  | cons c s =>
    simp only [leadingName?, Lexeme.leadingName?, next?_upTo_cons, span_upTo]
    split <;> rfl

@[simp] theorem opening?_upTo (sign : Char) (s : Text) :
    (upTo s behind).opening? sign = (Lexeme.opening? sign s).map (within behind) := by
  cases s with
  | nil => simp [opening?, Lexeme.opening?]
  | cons c s =>
    simp only [opening?, Lexeme.opening?, next?_upTo_cons, leadingName?_upTo]
    split
    · rcases Lexeme.leadingName? s with _ | ⟨word, _ | ⟨d, rest⟩⟩
      · rfl
      · simp
      · by_cases hd : d = '(' <;> simp [hd]
    · rfl

@[simp] theorem quotedBody?_upTo (quote : Char) (s : Text) :
    (upTo s behind).quotedBody? quote = (Lexeme.quotedBody? quote s).map (within behind) := by
  fun_induction Lexeme.quotedBody? quote s with
  | case1 => rw [quotedBody?]; rfl
  | case2 rest => rw [quotedBody?]; simp
  | case3 hquote => rw [quotedBody?]; simp [hquote]
  | case4 d rest hquote ih =>
    rw [quotedBody?]
    simp [hquote, ih, Function.comp_def]
  | case5 c rest hquote hslash ih =>
    rw [quotedBody?]
    simp [hquote, hslash, ih, Function.comp_def]

theorem isSome_opening?_upTo (s : Text) :
    ((upTo s behind).opening? '@').isSome = Lexeme.startsReference s := by
  rw [opening?_upTo, Option.isSome_map, Lexeme.startsReference]

theorem literalRun_upTo (s : Text) :
    (upTo s behind).literalRun = within behind (Lexeme.literalRun s) := by
  fun_induction Lexeme.literalRun s with
  | case1 => rw [literalRun]; rfl
  | case2 c s hstarts =>
    rw [literalRun]
    simp only [next?_upTo_cons, isSome_opening?_upTo, if_pos hstarts]
  | case3 c s hstarts run rest heq ih =>
    rw [literalRun]
    simp only [next?_upTo_cons, isSome_opening?_upTo, if_neg hstarts, ih, heq]

end Window

namespace Lexeme

open Window

variable {behind : Text}

theorem scanArguments_upTo (s : Text) :
    scanArguments (upTo s behind) = within behind (ofArguments s) := by
  fun_induction ofArguments s with
  | case1 => rw [scanArguments]; rfl
  | case2 s => rw [scanArguments]; simp
  | case3 s pieces rest heq _ ih =>
    rw [scanArguments]
    simp [ih, heq]
  | case4 c s hparen hcomma hblank pieces rest heq ih =>
    rw [scanArguments]
    simp [hparen, hcomma, hblank, ih, heq]
  | case5 c s hparen hcomma hblank hquote hbody =>
    have hnone : (upTo s behind).quotedBody? c = none := by rw [quotedBody?_upTo, hbody]; rfl
    rw [scanArguments]
    simp only [next?_upTo_cons]
    rw [if_neg hparen, if_neg hcomma, if_neg hblank, if_pos hquote, hnone]
    simp only [span_upTo_all]
  | case6 c s hparen hcomma hblank hquote body after hbody pieces rest heq ih =>
    have hsome : (upTo s behind).quotedBody? c = some (body, upTo after behind) := by
      rw [quotedBody?_upTo, hbody]
      rfl
    rw [scanArguments]
    simp only [next?_upTo_cons]
    rw [if_neg hparen, if_neg hcomma, if_neg hblank, if_pos hquote, hsome]
    simp only [ih, heq]
  | case7 c s hparen hcomma hblank hquote run value pieces rest heq ih =>
    rw [scanArguments]
    simp [hparen, hcomma, hblank, hquote, ih, heq, run, value]

theorem scanChain_upTo (s : Text) : scanChain (upTo s behind) = within behind (ofChain s) := by
  fun_induction ofChain s with
  | case1 s hnone =>
    rw [scanChain, opening?_upTo, hnone]
    rfl
  | case2 s word inner hopening arguments after harguments pieces rest heq ih =>
    rw [scanChain, opening?_upTo, hopening]
    simp [scanArguments_upTo, harguments, ih, heq]

theorem scanReference_upTo (word inner : Text) :
    scanReference word (upTo inner behind) = within behind (ofReference word inner) := by
  rw [scanReference, ofReference]
  simp only [span_upTo]
  rcases inner.dropWhile isFieldChar with _ | ⟨c, s⟩
  · rfl
  · simp only [next?_upTo_cons]
    by_cases hc : c = ')'
    · simp [hc, scanChain_upTo]
    · simp [hc]

/-- Up to the limit, the pieces are those of the text in front of it. -/
theorem scan_upTo (s : Text) : scan (upTo s behind) = (ofExpression s, upTo [] behind) := by
  fun_induction ofExpression s with
  | case1 => rw [scan]; rfl
  | case2 c s word inner hopening pieces rest heq ih =>
    rw [scan]
    simp only [next?_upTo_cons]
    rw [opening?_upTo, hopening]
    simp [scanReference_upTo, heq, ih]
  | case3 c s hnone run rest heq ih =>
    rw [scan]
    simp only [next?_upTo_cons]
    rw [opening?_upTo, hnone]
    simp [literalRun_upTo, heq, ih]

end Lexeme

namespace Symbol

/-- The symbols of an expression are those of its pieces. -/
theorem ofExpression_eq (s : Text) : ofExpression s = locate {} (Lexeme.ofExpression s) := by
  rw [ofExpression, Lexeme.scanExpression, Window.whole_eq, Lexeme.scan_upTo]

end Symbol

end TagText
