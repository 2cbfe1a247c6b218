import Mathlib.Data.List.Forall2
import TagText.Document.Reading
import TagText.Proofs.Outline.Expressions

/-!
Reading a document part by part. Where a part stands shows in the positions of its node and in
nothing else, and every part of an expression gives a node with characters of its own.
-/

namespace TagText

/-- A call moved on by some characters. -/
def Call.moved (k : Int) (call : Call) : Call := { call with position := call.position + k }

/-- A reference moved on by some characters, with its calls. -/
def Reference.moved (k : Int) (r : Reference) : Reference :=
  { r with calls := r.calls.map (Call.moved k), position := r.position + k }

/-- A node moved on by some characters. -/
def Node.moved (k : Int) : Node → Node
  | text content position => text content (position + k)
  | reference r => reference (r.moved k)

theorem bind_eq_ok_iff {ε α β : Type} {x : Except ε α} {f : α → Except ε β} {b : β} :
    (x >>= f) = .ok b ↔ ∃ a, x = .ok a ∧ f a = .ok b := by
  cases x <;> simp [bind, Except.bind]

theorem bind_eq_error_iff {ε α β : Type} {x : Except ε α} {f : α → Except ε β} {e : ε} :
    (x >>= f) = .error e ↔ x = .error e ∨ ∃ a, x = .ok a ∧ f a = .error e := by
  cases x <;> simp [bind, Except.bind]

/-- A list is read entry by entry. -/
theorem mapM_eq_ok_iff {ε α β : Type} {f : α → Except ε β} {xs : List α} {ys : List β} :
    xs.mapM f = .ok ys ↔ List.Forall₂ (fun x y => f x = .ok y) xs ys := by
  induction xs generalizing ys with
  | nil => simp [pure, Except.pure, eq_comm]
  | cons x xs ih =>
    rw [List.mapM_cons, bind_eq_ok_iff, List.forall₂_cons_left_iff]
    constructor
    · rintro ⟨y, hy, hys⟩
      obtain ⟨rest, hrest, heq⟩ := bind_eq_ok_iff.mp hys
      cases heq
      exact ⟨y, rest, hy, ih.mp hrest, rfl⟩
    · rintro ⟨y, rest, hy, hrest, rfl⟩
      exact ⟨y, hy, bind_eq_ok_iff.mpr ⟨rest, ih.mpr hrest, rfl⟩⟩

namespace RawReference

theorem resolveCalls_moved (c : Catalog) (group field : Text) (k : Nat) (first : Bool)
    (calls : List RawCall) :
    resolveCalls c group field first (calls.map (RawCall.moved k)) =
      (resolveCalls c group field first calls).map (List.map (Call.moved k)) := by
  induction calls generalizing first with
  | nil => rfl
  | cons call calls ih =>
    simp only [List.map_cons, resolveCalls, ih, RawCall.moved]
    cases Arg.ofTexts (((c.declaration? group field first call.key).map Modifier.params).getD [])
        call.args with
    | error => rfl
    | ok args => cases resolveCalls c group field false calls <;> rfl

theorem resolve_moved (c : Catalog) (k : Nat) (r : RawReference) :
    (r.moved k).resolve c = (r.resolve c).map (Reference.moved k) := by
  have hcalls := resolveCalls_moved c r.group r.field k true r.calls
  simp only [resolve, moved, hcalls]
  cases resolveCalls c r.group r.field true r.calls <;> rfl

end RawReference

namespace Part

theorem resolve_moved (c : Catalog) (k : Nat) (part : Part) :
    (part.moved k).resolve c = (part.resolve c).map (Node.moved k) := by
  cases part with
  | text content position => rfl
  | reference r =>
    simp only [moved, resolve, RawReference.resolve_moved]
    cases r.resolve c <;> rfl
  | broken content start =>
    simp only [moved, resolve, RawReference.resolve_moved]
    cases start.resolve c <;> rfl

/-- Whether a part is a reference. -/
def isReference : Part → Bool
  | reference _ => true
  | _ => false

/-- Whether a part is a broken reference. -/
def isBroken (part : Part) : Bool := part matches .broken _ _

theorem countP_isBroken_moved (k : Nat) (parts : List Part) :
    (parts.map (moved k)).countP isBroken = parts.countP isBroken := by
  have hmoved : isBroken ∘ moved k = isBroken := by
    funext part
    cases part <;> rfl
  rw [List.countP_map, hmoved]

/-- Whether a part stays text and is not refused. -/
def Stays (c : Catalog) (part : Part) : Prop :=
  part.isReference = false ∧ ∃ node, part.resolve c = .ok node

theorem stays_moved {c : Catalog} {k : Nat} {part : Part} :
    (part.moved k).Stays c ↔ part.Stays c := by
  have hreference : (part.moved k).isReference = part.isReference := by
    cases part <;> rfl
  rw [Stays, Stays, hreference, resolve_moved]
  cases part.resolve c <;> simp [Except.map]

theorem reference_position (offset : Nat) (symbols : List Symbol) :
    (Outline.reference offset symbols).1.position = offset := by
  unfold Outline.reference
  split <;> rfl

/-- A segment that is no reference stays text, as it stands. -/
theorem resolve_ofSegment {c : Catalog} {pieces : List Lexeme} (hsegment : Lexeme.Segment pieces)
    {offset : Nat} (hpart : (ofSegment offset pieces).isReference = false) {node : Node}
    (hnode : (ofSegment offset pieces).resolve c = .ok node) :
    node = .text (Lexeme.rawText pieces) offset := by
  cases hsegment with
  | literal run hrun _ _ =>
    cases hnode
    simp [Lexeme.raw]
  | reference word inner hname hwhole =>
    obtain ⟨tail, hshape, -⟩ := Lexeme.ofReference_shape word inner
    have hposition := reference_position offset (Symbol.placed { offset := offset + 1 } tail)
    rw [hshape, ofSegment] at hpart hnode
    · rw [List.tail_cons] at hpart hnode
      cases hfound : Outline.reference offset (Symbol.placed { offset := offset + 1 } tail) with
      | mk start rest =>
        rw [hfound] at hpart hnode hposition
        cases rest with
        | some rest => cases hpart
        | none =>
          obtain ⟨read, -, heq⟩ := bind_eq_ok_iff.mp hnode
          cases heq
          rw [hshape, ← hposition]
    · simp
    · simp

theorem resolve_reference {c : Catalog} {r : RawReference} {node : Node}
    (hnode : (reference r).resolve c = .ok node) :
    ∃ found, r.resolve c = .ok found ∧ node = .reference found := by
  obtain ⟨found, hfound, heq⟩ := bind_eq_ok_iff.mp hnode
  cases heq
  exact ⟨found, hfound, rfl⟩

theorem exists_of_isReference {part : Part} (hpart : part.isReference = true) :
    ∃ r, part = .reference r := by
  cases part with
  | reference r => exact ⟨r, rfl⟩
  | _ => cases hpart

/-- A segment gives a node with characters of its own. -/
theorem not_isBlankText_of_ofSegment {c : Catalog} {pieces : List Lexeme}
    (hsegment : Lexeme.Segment pieces) {offset : Nat} {node : Node}
    (hnode : (ofSegment offset pieces).resolve c = .ok node) : node.isBlankText = false := by
  cases hpart : (ofSegment offset pieces).isReference with
  | true =>
    obtain ⟨r, hr⟩ := exists_of_isReference hpart
    rw [hr] at hnode
    obtain ⟨found, -, rfl⟩ := resolve_reference hnode
    rfl
  | false =>
    rw [resolve_ofSegment hsegment hpart hnode]
    obtain ⟨first, rest, hraw⟩ := List.exists_cons_of_ne_nil hsegment.rawText_ne_nil
    rw [hraw]
    rfl

end Part

end TagText
