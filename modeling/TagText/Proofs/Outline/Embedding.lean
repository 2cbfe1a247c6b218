import TagText.Proofs.Lexing.Limits
import TagText.Proofs.Outline.Parts

/-!
Expressions inside a source. The parts of an expression are those that it has when it stands alone,
moved on by what stands in front of it.
-/

namespace TagText

/-- The parts of an expression that stands alone. -/
def partsOf (s : Text) : List Part := (Outline.ofSymbols s (Symbol.ofExpression s)).parts

theorem partsOf_nil : partsOf [] = [] := by
  rw [partsOf, Symbol.ofExpression_eq, Lexeme.ofExpression_nil, Symbol.locate,
    Outline.ofSymbols.eq_def]

namespace Outline

/-- The outline with parts in front. -/
def prepend (parts : List Part) (outline : Outline) : Outline :=
  { outline with parts := parts ++ outline.parts }

/-- The outline of an expression inside a source, in front of what follows it. -/
def Embeds (s : Text) : Prop :=
  ∀ (before after : Text) (place : Cursor) (more : List Lexeme), place.offset = before.length →
    Lexeme.Resumes more →
    ofSymbols (before ++ s ++ after) (Symbol.locate place (Lexeme.ofExpression s ++ more)) =
      prepend ((partsOf s).map (Part.moved place.offset))
        (ofSymbols (before ++ s ++ after) (Symbol.locate (place.past s) more))

theorem ofSymbols_end (source : Text) (place : Cursor) :
    ofSymbols source (Symbol.locate place []) = { parts := [], trailing := [] } := by
  rw [Symbol.locate, ofSymbols.eq_def]

theorem partsOf_segment_of_embeds {pieces : List Lexeme} {rest : Text}
    (hsegment : Lexeme.Segment pieces) (hends : Lexeme.EndsBefore pieces rest)
    (hrest : Embeds rest) :
    partsOf (Lexeme.rawText pieces ++ rest) =
      Part.ofSegment 0 pieces ::
        (partsOf rest).map (Part.moved (Lexeme.rawText pieces).length) := by
  have hstart : ({} : Cursor).offset = ([] : Text).length := rfl
  have hfront := ofSymbols_segment hsegment [] rest hstart
    (Lexeme.resumes_ofExpression rest Lexeme.resumes_nil)
  have hwhole := hrest (Lexeme.rawText pieces) [] (Cursor.past {} (Lexeme.rawText pieces)) []
    (by simp) Lexeme.resumes_nil
  rw [List.nil_append, List.append_nil] at hfront
  rw [List.append_nil, List.append_nil, ofSymbols_end] at hwhole
  rw [partsOf, Symbol.ofExpression_eq, hsegment.split hends, hfront, hwhole]
  simp [cons, prepend]

theorem embeds (s : Text) : Embeds s := by
  induction s using Lexeme.segment_induction with
  | nil =>
    intro before after place more _ _
    rw [Lexeme.ofExpression_nil, partsOf_nil]
    rfl
  | segment pieces rest hsegment hends ih =>
    intro before after place more hplace hmore
    have hfront := ofSymbols_segment hsegment before (rest ++ after) hplace
      (Lexeme.resumes_ofExpression rest hmore)
    have hrest := ih (before ++ Lexeme.rawText pieces) after
      (place.past (Lexeme.rawText pieces)) more (by simp [hplace]) hmore
    have hsource : before ++ Lexeme.rawText pieces ++ (rest ++ after) =
        before ++ (Lexeme.rawText pieces ++ rest) ++ after := by simp
    have hsource' : before ++ Lexeme.rawText pieces ++ rest ++ after =
        before ++ (Lexeme.rawText pieces ++ rest) ++ after := by simp
    rw [hsource] at hfront
    rw [hsource'] at hrest
    rw [hsegment.split hends, List.append_assoc pieces, hfront, hrest, partsOf_segment_of_embeds
      hsegment hends ih, Cursor.past_append, List.map_cons, moved_ofSegment hsegment, Nat.zero_add,
      Part.map_moved_moved, ← Cursor.offset_past]
    rfl

end Outline

end TagText
