import TagText.Proofs.Reading.Cut
import TagText.Proofs.Stored.Values
import TagText.Proofs.Writing.Resolving

/-!
The close marker inside a canonical expression. An expression that held none when it was read holds
one when it is written only if a text argument does, which a backslash has kept apart.
-/

namespace TagText

open Lexeme Text

/-- Whether an argument is a text that holds the close marker. -/
def Arg.holdsMarker : Arg → Bool
  | text s => s.holds closeMarker
  | _ => false

namespace Text

theorem closeMarker_append_iff {x : Text} (hx : '@' ∉ x) (y : Text) :
    closeMarker <:+: x ++ y ↔ closeMarker <:+: y :=
  ⟨infix_of_head_not_mem hx, List.infix_append_of_infix_right⟩

theorem closeMarker_append_at_iff {x : Text} (hx : ¬ closeMarker <:+: x) (y : Text) :
    closeMarker <:+: x ++ '@' :: y ↔ closeMarker <:+: '@' :: y := by
  refine ⟨fun hinner => ?_, List.infix_append_of_infix_right⟩
  exact (infix_of_head at_not_mem_closeMarker hinner).resolve_left hx

theorem closeMarker_append_closed_iff {x : Text} (hx : ¬ closeMarker <:+: x ++ [')']) (y : Text) :
    closeMarker <:+: x ++ ')' :: y ↔ closeMarker <:+: y := by
  constructor
  · intro hinner
    have hlast : closeMarker = "@endtags(".toList ++ [')'] := rfl
    rw [hlast] at hinner hx ⊢
    exact (infix_of_last (by decide) (by decide) hinner).resolve_left hx
  · intro hinner
    exact List.infix_append_of_infix_right (List.infix_cons hinner)

end Text

theorem Arg.unescaped_closeMarker : Unescaped closeMarker := by
  have hall : closeMarker.all (fun c => escapeChar c == [c]) = true := by decide
  exact fun c hc => beq_iff_eq.mp (List.all_eq_true.mp hall c hc)

theorem Arg.closeMarker_quote_iff (s y : Text) :
    closeMarker <:+: quote s ++ y ↔ closeMarker <:+: s ∨ closeMarker <:+: y := by
  have hquote : '\x22' ∉ closeMarker := by decide
  have hshape : quote s ++ y = ['\x22'] ++ (s.flatMap escapeChar ++ '\x22' :: y) := by simp [quote]
  rw [hshape, closeMarker_append_iff (by decide),
    ← infix_escaped_iff unescaped_closeMarker (s := s)]
  constructor
  · exact infix_of_not_mem hquote
  · rintro (hinner | hinner)
    · exact List.infix_append_of_infix_left hinner
    · exact List.infix_append_of_infix_right (List.infix_cons hinner)

/-- Behind its opening comma or parenthesis, an argument brings a close marker in only as a text. -/
theorem Arg.closeMarker_written_iff (a : Arg) (y : Text) :
    closeMarker <:+: a.written ++ y ↔ a.holdsMarker = true ∨ closeMarker <:+: y := by
  have hbare : ∀ x : Text, (∀ c ∈ x, isNumeric c = true) →
      (closeMarker <:+: x ++ y ↔ closeMarker <:+: y) := by
    intro x hx
    refine closeMarker_append_iff (fun hmem => ?_) y
    have hat : isNumeric '@' = false := by decide
    exact Bool.false_ne_true (hat.symm.trans (hx _ hmem))
  cases a with
  | text s => simp only [written, closeMarker_quote_iff, holdsMarker, holds_iff]
  | nothing =>
    rw [written, closeMarker_quote_iff]
    exact or_congr_left (by decide)
  | bool b =>
    simp only [holdsMarker, Bool.false_eq_true, false_or]
    cases b <;> exact closeMarker_append_iff (by decide) y
  | int n =>
    simp only [holdsMarker, Bool.false_eq_true, false_or]
    exact hbare _ (isNumeric_of_mem_decimalInt n)
  | float x =>
    simp only [holdsMarker, Bool.false_eq_true, false_or]
    cases x with
    | finite negative rank =>
      exact hbare _ (isNumeric_of_mem_text (x := .finite negative rank) rfl)
    | infinite negative => cases negative <;> exact closeMarker_append_iff (by decide) y
    | nan => exact closeMarker_append_iff (by decide) y

theorem Arg.closeMarker_more_iff (args : List Arg) (y : Text) :
    closeMarker <:+: (args.flatMap fun a => ',' :: a.written) ++ y ↔
      (∃ a ∈ args, a.holdsMarker = true) ∨ closeMarker <:+: y := by
  induction args with
  | nil => simp
  | cons a args ih =>
    have hcomma : '@' ∉ [','] := by decide
    have hfirst := closeMarker_append_iff hcomma
      (a.written ++ ((args.flatMap fun a => ',' :: a.written) ++ y))
    simp only [List.flatMap_cons, List.cons_append, List.nil_append, List.append_assoc] at hfirst ⊢
    rw [hfirst, closeMarker_written_iff, ih, List.exists_mem_cons_iff, or_assoc]

theorem Call.closeMarker_written_iff {call : Call} (hkey : isName call.key = true) (y : Text) :
    closeMarker <:+: call.written ++ y ↔
      (∃ a ∈ call.args, a.holdsMarker = true) ∨ closeMarker <:+: y := by
  have hat : '@' ∉ '.' :: (call.key ++ ['(']) := by
    have hword := isWord_of_mem_name hkey
    intro hmem
    simp only [List.mem_cons, List.mem_append, List.not_mem_nil, or_false] at hmem
    rcases hmem with hmem | hmem | hmem
    · cases hmem
    · exact absurd (hword _ hmem) (by decide)
    · cases hmem
  have hclose : closeMarker <:+: ')' :: y ↔ closeMarker <:+: y :=
    closeMarker_append_iff (x := [')']) (by decide) y
  have hshape : call.written ++ y = '.' :: (call.key ++ ['(']) ++
      (List.intercalate [','] (call.args.map Arg.written) ++ ')' :: y) := by
    simp [written]
  rw [hshape, closeMarker_append_iff hat]
  cases call.args with
  | nil => simp [hclose]
  | cons a args =>
    rw [List.map_cons, Grammar.intercalate_comma, List.flatMap_map, List.append_assoc,
      Arg.closeMarker_written_iff, Arg.closeMarker_more_iff, hclose, List.exists_mem_cons_iff,
      or_assoc]

theorem Call.closeMarker_chain_iff {calls : List Call}
    (hkeys : ∀ call ∈ calls, isName call.key = true) (y : Text) :
    closeMarker <:+: calls.flatMap written ++ y ↔
      (∃ a ∈ calls.flatMap args, a.holdsMarker = true) ∨ closeMarker <:+: y := by
  induction calls with
  | nil => simp
  | cons call calls ih =>
    obtain ⟨hkey, hkeys⟩ := List.forall_mem_cons.mp hkeys
    simp only [List.flatMap_cons, List.append_assoc, closeMarker_written_iff hkey, ih hkeys,
      List.mem_append, or_and_right, exists_or, or_assoc]

/-- The nodes of an expression without a close marker bring one in only as a text argument. -/
theorem Cut.closeMarker_written_iff {c : Catalog} {offset broken : Nat} {s : Text}
    {nodes : List Node} {trailing : Text} (hcut : Cut c offset s nodes broken)
    (hs : ¬ closeMarker <:+: s) : closeMarker <:+: nodes.flatMap Node.written ↔
      ∃ a ∈ ({ nodes, trailing } : Document).args, a.holdsMarker = true := by
  induction hcut with
  | nil => simp [closeMarker_eq, Document.args, Document.references]
  | @text offset broken s rest nodes _ hnodes _ _ ih =>
    have hrest := ih (mt List.infix_append_of_infix_right hs)
    have hfront : ¬ closeMarker <:+: s := mt List.infix_append_of_infix_left hs
    have hsplit : closeMarker <:+: s ++ nodes.flatMap Node.written ↔
        closeMarker <:+: nodes.flatMap Node.written := by
      cases nodes with
      | nil => exact iff_of_false (by simpa using hfront) (by decide)
      | cons node nodes =>
        cases node with
        | text => cases hnodes
        | reference r => exact closeMarker_append_at_iff hfront _
    have hargs : ({ nodes := .text s offset :: nodes, trailing } : Document).args =
        ({ nodes, trailing } : Document).args := rfl
    rw [List.flatMap_cons, Node.written, hsplit, hrest, hargs]
  | @reference offset broken s rest nodes raw r hderived hr _ _ ih =>
    have hrest := ih (mt List.infix_append_of_infix_right hs)
    have hkeys := (hderived.wellNamed hr).keys
    obtain ⟨calls, -, heq⟩ := bind_eq_ok_iff.mp hr
    cases heq
    cases hderived with
    | @intro group field chain raws =>
      -- What stands in front of the modifiers is written as it was.
      have hhead : ¬ closeMarker <:+: ('@' :: group ++ '(' :: field) ++ [')'] := by
        refine fun hinner => hs (hinner.trans ?_)
        exact ⟨[], chain ++ rest, by simp⟩
      have hshape : (Node.reference { group, field, calls, position := offset } :: nodes).flatMap
          Node.written = ('@' :: group ++ '(' :: field) ++
            ')' :: (calls.flatMap Call.written ++ nodes.flatMap Node.written) := by
        simp [Node.written, Reference.written]
      have hargs : ({ nodes := .reference { group, field, calls, position := offset } :: nodes
                      trailing } : Document).args =
          calls.flatMap Call.args ++ ({ nodes, trailing } : Document).args := rfl
      rw [hshape, closeMarker_append_closed_iff hhead, Call.closeMarker_chain_iff hkeys, hrest,
        hargs]
      simp only [List.mem_append, or_and_right, exists_or]

end TagText
