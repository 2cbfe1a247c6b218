import TagText.Proofs.Reading.Expressions
import TagText.Proofs.Reading.Places

/-!
What an expression is read as when it is one reference and nothing else: the expressions that the
grammar derives are exactly these, and the reference says what was derived.
-/

namespace TagText

open Lexeme

/-- A derivable expression is read as the reference that its derivation is read as. -/
theorem Grammar.Reference.nodes_of_ofExpression {c : Catalog} {s : Text} {raw : RawReference}
    {reading : Reading} (hderived : Grammar.Reference 0 s raw)
    (hread : Reading.ofExpression c s = .ok reading) :
    ∃ r, reading.document.nodes = [.reference r] ∧ raw.resolve c = .ok r := by
  obtain ⟨nodes, hparts, rfl⟩ := Reading.ofExpression_eq_ok_iff.mp hread
  have hnone : opening? '.' [] = none := rfl
  rw [← List.append_nil s] at hparts
  obtain ⟨r, more, hr, hmore, rfl⟩ := (partsRead_reference hderived hnone).mp hparts
  rw [partsRead_nil.mp hmore]
  exact ⟨r, rfl, hr⟩

/-- What cuts a text into one reference is a derivation of it. -/
theorem Cut.derives {c : Catalog} {offset broken : Nat} {s : Text} {r : Reference}
    (hcut : Cut c offset s [.reference r] broken) : ∃ raw, Grammar.Reference offset s raw := by
  cases hcut with
  | @reference _ _ s rest _ raw _ hderived _ _ hrest =>
    cases hrest
    exact ⟨raw, by rwa [List.append_nil]⟩

/-- An expression that can be read is one reference exactly when the grammar derives it, and the
    reference carries whatever was derived: the names as they stand, and each argument as its text
    is read at its place. -/
theorem Reading.isReference_iff_derivable {c : Catalog} {s : Text} {reading : Reading}
    (hread : ofExpression c s = .ok reading) :
    ((∃ r, reading.document.nodes = [.reference r]) ↔ ∃ raw, Grammar.Reference 0 s raw) ∧
      ∀ raw, Grammar.Reference 0 s raw →
        ∃ r, reading.document.nodes = [.reference r] ∧ r.Carries c raw := by
  have hcarries : ∀ raw, Grammar.Reference 0 s raw →
      ∃ r, reading.document.nodes = [.reference r] ∧ r.Carries c raw := by
    intro raw hderived
    obtain ⟨r, hnodes, hr⟩ := hderived.nodes_of_ofExpression hread
    exact ⟨r, hnodes, RawReference.carries_of_resolve hr⟩
  refine ⟨⟨?_, ?_⟩, hcarries⟩
  · rintro ⟨r, hnodes⟩
    obtain ⟨-, hcut⟩ := ofExpression_eq_ok_iff_cut.mp hread
    rw [hnodes] at hcut
    exact hcut.derives
  · rintro ⟨raw, hderived⟩
    obtain ⟨r, hnodes, -⟩ := hcarries raw hderived
    exact ⟨r, hnodes⟩

/-- The first modifier on an empty field is read under the group's method, the next one under the
    modifier of the same key; an argument behind the declared ones stays a text. -/
theorem Reading.isReference_iff_derivable_method :
    let method : Modifier := { key := "m".toList, params := [{ key := [], type := .number }] }
    let modifier : Modifier := { key := "m".toList, params := [{ key := [], type := .boolean }] }
    let c : Catalog :=
      { groups := [{ key := "g".toList, methods := [method] }], modifiers := [modifier] }
    let s := "@g().m( 12 , '1)').m(1)".toList
    let calls : List Call :=
      [{ key := "m".toList, args := [.int 12, .text "1)".toList], position := 4 },
       { key := "m".toList, args := [.bool true], position := 18 }]
    let r : Reference := { group := "g".toList, calls }
    ofExpression c s = .ok { document := { nodes := [.reference r] }, brokenCount := 0 } ∧
      ∃ raw, Grammar.Reference 0 s raw ∧ r.Carries c raw := by
  intro method modifier c s calls r
  have hread : ofExpression c s =
      .ok { document := { nodes := [.reference r] }, brokenCount := 0 } := by decide +kernel
  obtain ⟨hiff, hcarries⟩ := isReference_iff_derivable hread
  obtain ⟨raw, hderived⟩ := hiff.mp ⟨r, rfl⟩
  obtain ⟨found, hnodes, hfound⟩ := hcarries raw hderived
  obtain rfl : r = found := by simpa using hnodes
  exact ⟨hread, raw, hderived, hfound⟩

end TagText
