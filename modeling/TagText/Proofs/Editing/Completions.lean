import TagText.Proofs.Editing.Histories
import TagText.Proofs.Editing.Offers
import TagText.Proofs.Editing.Segments
import TagText.Proofs.Reading.Continuations
import TagText.Proofs.Validation.Names
import TagText.Proofs.Validation.WellTyped

/-!
What becomes of suggestions that are typed out. Behind a point, each suggested modifier goes to the
chain of the reference in front and is at home there. Behind the sign of a reference, a suggested
group and one of its fields make a reference that can be used in the session's context.
-/

namespace TagText

namespace Suggestions

variable {c : Catalog} {α : Type} {key label : α → Text} {query : Text} {items : List α}

theorem mem_of_mem_matching {item : α} (hitem : item ∈ matching key label query items) :
    item ∈ items := by
  rcases List.mem_append.mp hitem with hstarts | hholds
  · exact (List.mem_filter.mp hstarts).1
  · exact (List.mem_filter.mp hholds).1

/-- Without a query, all items are on offer, in their order. -/
theorem matching_nil : matching key label [] items = items := by
  have hlower : Text.lower [] = [] := rfl
  simp [matching, hlower]

/-- What can follow an expression, can follow the reference that it ends in. -/
theorem exists_of_continuations? {front : Text} {modifiers : List Modifier}
    (hmodifiers : continuations? c front = .ok (some modifiers)) :
    ∃ (nodes : List Node) (r : Reference) (broken : Nat),
      Reading.ofExpression c front =
        .ok { document := { nodes := nodes ++ [.reference r] }, brokenCount := broken } ∧
      ∀ m ∈ modifiers, r.Precedes c m := by
  obtain ⟨⟨⟨nodes, trailing⟩, broken⟩, hread, hlast⟩ := bind_eq_ok_iff.mp hmodifiers
  obtain ⟨htrailing, -⟩ := Reading.ofExpression_eq_ok_iff_cut.mp hread
  obtain rfl : trailing = [] := htrailing
  split at hlast
  · rename_i r hr
    obtain ⟨before, rfl⟩ := List.getLast?_eq_some_iff.mp hr
    refine ⟨before, r, broken, hread, fun m hm => ?_⟩
    split at hlast
    · rename_i hown
      obtain ⟨hfield, hcalls⟩ := by simpa using hown
      cases hlast
      exact .of_mem_methodsOf hfield hcalls hm
    · cases hlast
      exact .of_mem_modifiersFor hm
  · cases hlast

end Suggestions

/-- A group that can be used in a context, and a key of one of its fields, make a reference without
    problems there. -/
theorem Reference.diagnostics_of_mem_groupsFor {c : Catalog} {context : Context} {g : Group}
    (hg : g ∈ c.groupsFor context) {f : Field} (hf : f ∈ g.fields) (hkey : f.key ≠ [])
    (position : Int) (n : Nat) :
    ({ group := g.key, field := f.key, position } : Reference).diagnostics c (some context) n =
      [] := by
  obtain ⟨hmem, happlies⟩ := List.mem_filter.mp hg
  have husable : g.Usable (some context) :=
    applicability?_eq_none_iff.mp (by simp [applicability?, happlies])
  obtain ⟨found, hfound⟩ := g.exists_resolves_of_mem hf
  exact diagnostics_eq_nil_iff.mpr ⟨_, .field hmem rfl husable hkey hfound .nil⟩

namespace Session

open Lexeme Suggestions

section

variable {s : Session} {d : Draft} {cursor : Int} {found : Suggestions} {items : List Modifier}
  {m : Modifier}

/-- Every suggested modifier fits where it is suggested: The text up to the point in front of the
    query is an expression that ends in a reference. With the modifier behind the point, the
    expression is read as before, but for one more call at the end of that reference. Of the names
    in the longer reference, none is reported as unknown, and of the types, none is reported as a
    mismatch at the new call. -/
theorem perform_suggest_modifiers (hphase : s.phase = .editing d)
    (hanswer : (s.perform (.suggest cursor)).1 = .ok (.suggestions found))
    (hoffers : found.offers = .modifiers items) (hm : m ∈ items) (hkey : isName m.key = true) :
    let chain := d.text.take (found.replaceFrom - 1)
    d.text.take found.replaceFrom = chain ++ ['.'] ∧
    ∃ (nodes : List Node) (r : Reference) (broken : Nat),
      let call : Call := { key := m.key, position := chain.length }
      let longer : Document := { nodes := nodes ++ [.reference (r.followedBy call)] }
      Reading.ofExpression s.catalog chain =
        .ok { document := { nodes := nodes ++ [.reference r] }, brokenCount := broken } ∧
      Reading.ofExpression s.catalog (chain ++ '.' :: m.key ++ ['(', ')']) =
        .ok { document := longer, brokenCount := broken } ∧
      ∀ context, ∀ diagnostic ∈ longer.diagnostics s.catalog context,
        diagnostic.reference = (Node.references nodes).length →
        diagnostic.problem.kind.isUnknown = false ∧
          (diagnostic.problem.kind = .typeMismatch → diagnostic.call ≠ some r.calls.length) := by
  intro chain
  rw [perform_suggest hphase] at hanswer
  cases hcursor : atCursor s.catalog s.context d.text cursor with
  | error e =>
    rw [hcursor] at hanswer
    cases hanswer
  | ok other =>
    rw [hcursor] at hanswer
    cases hanswer
    cases offered_of_atEndOf hcursor with
    | fields | groups | nothing => cases hoffers
    | @modifiers front query gap modifiers hends hmodifiers =>
      cases hoffers
      have htext : d.text = front ++ '.' :: query ++ gap ++ d.text.drop cursor.toNat := by
        rw [← hends.split, List.take_append_drop]
      have hchain : chain = front := by
        simp only [chain]
        rw [htext]
        simp
      obtain ⟨nodes, r, broken, hread, hprecedes⟩ := exists_of_continuations? hmodifiers
      refine ⟨?_, nodes, r, broken, ?_⟩
      · rw [hchain, htext]
        simp [List.take_append]
      · rw [hchain]
        refine ⟨hread, Reading.ofExpression_append_call hread rfl hkey, ?_⟩
        intro context diagnostic hdiagnostic hreference
        have hcall : ({ key := m.key, position := front.length } : Call).key = m.key := rfl
        refine (hprecedes m (mem_of_mem_matching hm)).diagnostics hcall
          ((Document.mem_diagnostics_at_iff ?_).mp ⟨hdiagnostic, hreference⟩)
        simp [Document.references_eq]

/-- Behind a method of a group, what takes the type that the method gives is suggested. Typed out,
    it is reported for its missing argument, but for nothing else. -/
theorem perform_suggest_modifiers_of_method :
    let closed : Session := { catalog := Default.catalog, context := .named "post".toList }
    let text := "Hi @post().meta('x').re, bye".toList
    let own : Call := { key := "meta".toList, args := [.text "x".toList], position := 10 }
    let r : Reference := { group := "post".toList, field := [], calls := [own], position := 3 }
    let d : Draft :=
      { text
        document := some
          { nodes := [.text "Hi ".toList 0, .reference r, .text ".re, bye".toList 20] }
        trailing := [] }
    let s := closed.after [.start [], .setText text]
    let call : Call := { key := "replace".toList, position := 20 }
    let longer : Document := { nodes := [.text "Hi ".toList 0, .reference (r.followedBy call)] }
    s.phase = .editing d ∧ (∃ found items m,
        (s.perform (.suggest 23)).1 = .ok (.suggestions found) ∧ found.offers = .modifiers items ∧
        m ∈ items ∧ m.key = call.key ∧ isName m.key = true) ∧
      Reading.ofExpression s.catalog "Hi @post().meta('x').replace()".toList =
        .ok { document := longer, brokenCount := 0 } ∧
      (longer.diagnostics s.catalog none).map (·.problem.kind) = [.missingArgument] ∧
      ∀ context, ∀ diagnostic ∈ longer.diagnostics s.catalog context, diagnostic.reference = 0 →
        diagnostic.problem.kind.isUnknown = false ∧
          (diagnostic.problem.kind = .typeMismatch → diagnostic.call ≠ some 1) := by
  intro closed text own r d s call longer
  let front := "Hi @post().meta('x')".toList
  let items := matching Modifier.key Modifier.label "re".toList
    (s.catalog.modifiersFor (some .text))
  have hphase : s.phase = .editing d := by decide +kernel
  have hread : Reading.ofExpression s.catalog front = .ok
      { document := { nodes := [.text "Hi ".toList 0, .reference r] }, brokenCount := 0 } := by
    decide +kernel
  have hitems :
      continuations? s.catalog front = .ok (some (s.catalog.modifiersFor (some .text))) := by
    have htype : r.runningType s.catalog = some .text := by decide +kernel
    rw [continuations?, hread, ← htype]
    rfl
  have hends : EndsInCall front "re".toList [] (d.text.take (23 : Int).toNat) :=
    ⟨⟨List.all_eq_true.mp rfl, rfl, rfl⟩, search?_fieldQuery?_eq_none_iff.mp (by decide +kernel)⟩
  have hanswer : (s.perform (.suggest 23)).1 = .ok (.suggestions
      { offers := .modifiers items, query := "re".toList, replaceFrom := 21 }) := by
    rw [perform_suggest hphase, atCursor, atEndOf_of_call hends, hitems]
    rfl
  obtain ⟨m, hfound⟩ := Option.isSome_iff_exists.mp
    (show (items.find? (·.key = call.key)).isSome = true by decide +kernel)
  have hm : m ∈ items := List.mem_of_find?_eq_some hfound
  have hkey : m.key = call.key := by simpa using List.find?_some hfound
  have hname : isName m.key = true := by
    rw [hkey]
    decide +kernel
  obtain ⟨-, nodes, last, broken, hbefore, hlonger, hclean⟩ :=
    perform_suggest_modifiers hphase hanswer rfl hm hname
  have hsame := Except.ok.inj (hread.symm.trans hbefore)
  obtain ⟨hnodes, rfl⟩ : [.text "Hi ".toList 0] ++ [.reference r] = nodes ++ [.reference last] ∧
      0 = broken := by simpa using hsame
  obtain ⟨rfl, hlast⟩ := List.append_inj' hnodes rfl
  cases hlast
  rw [hkey] at hlonger hclean
  exact ⟨hphase, ⟨_, items, m, hanswer, rfl, hm, hkey, hname⟩, hlonger, by decide +kernel, hclean⟩

end

/-- What every session of a catalog and a context suggests at the end of a draft, whatever was done
    in the session before. -/
def SuggestsAtEnd (c : Catalog) (context : Context) (text : Text) (found : Suggestions) : Prop :=
  ∀ (s : Session) (d : Draft), s.catalog = c → s.context = context → s.phase = .editing d →
    d.text = text → s.perform (.suggest text.length) = (.ok (.suggestions found), s)

theorem suggestsAtEnd_of_atEndOf {c : Catalog} {context : Context} {text : Text}
    {found : Suggestions} (hfound : atEndOf c context text = .ok found) :
    SuggestsAtEnd c context text found := by
  rintro s d rfl rfl hphase rfl
  rw [perform_suggest hphase, atCursor, Int.toNat_natCast, List.take_length, hfound]
  rfl

variable {c : Catalog} {context : Context} {a q : Text} {reading : Reading}

/-- References put together from suggestions: Behind an expression without broken references and the
    sign of a reference, groups of the context are suggested for every part of a name. Behind the
    parenthesis of each of them, all of its fields are suggested. Closed behind the key of each of
    these, the expression is read as before, but for one more reference, without calls, about which
    nothing is reported in the context. -/
theorem suggestsAtEnd_reference (hread : Reading.ofExpression c a = .ok reading)
    (hbroken : reading.brokenCount = 0) (hq : ∀ letter ∈ q, isWord letter = true) :
    let groups := matching Group.key Group.label q (c.groupsFor context)
    SuggestsAtEnd c context (a ++ '@' :: q)
        { offers := .groups groups, query := q, replaceFrom := a.length + 1 } ∧
      ∀ g ∈ groups, isName g.key = true →
        SuggestsAtEnd c context (a ++ '@' :: g.key ++ ['('])
          { offers := .fields g.fields, query := []
            replaceFrom := a.length + g.key.length + 2 } ∧
        ∀ f ∈ g.fields, f.key ≠ [] → (∀ letter ∈ f.key, isFieldChar letter = true) →
          let r : Reference := { group := g.key, field := f.key, position := a.length }
          let longer : Document := { nodes := reading.document.nodes ++ [.reference r] }
          Reading.ofExpression c (a ++ '@' :: g.key ++ '(' :: f.key ++ [')']) =
            .ok { document := longer, brokenCount := 0 } ∧
          ∀ diagnostic ∈ longer.diagnostics c (some context),
            diagnostic.reference ≠ reading.document.references.length := by
  intro groups
  have hends : EndsInName '@' a q [] (a ++ '@' :: q) := ⟨hq, rfl, by simp⟩
  refine ⟨suggestsAtEnd_of_atEndOf (atEndOf_of_group hends), fun g hg hname => ?_⟩
  have hgroup := mem_of_mem_matching hg
  obtain ⟨hmem, -⟩ := List.mem_filter.mp hgroup
  constructor
  · have hopen : EndsInField a g.key [] [] (a ++ '@' :: g.key ++ ['(']) :=
      ⟨hname, by simp, rfl, by simp⟩
    have hfields : c.fieldsOf g.key = g.fields := by
      simp [Catalog.fieldsOf, Catalog.group?_eq_some_iff.mpr ⟨hmem, rfl⟩]
    have hanswer := @atEndOf_of_field c context _ _ _ _ _ hopen
    rw [hfields, matching_nil] at hanswer
    exact suggestsAtEnd_of_atEndOf hanswer
  · intro f hf hne hfield r longer
    have hderived := @Grammar.Reference.intro a.length _ _ _ _ hname hfield .nil
    have hresolve : ({ group := g.key, field := f.key, calls := [], position := a.length } :
        RawReference).resolve c = .ok r := rfl
    have hlonger := Reading.ofExpression_append_reference hread hbroken hderived hresolve
    refine ⟨by simpa using hlonger, fun diagnostic hdiagnostic hreference => ?_⟩
    have hlast : longer.references[reading.document.references.length]? = some r := by
      simp [longer, Document.references_eq]
    have hnone := (Document.mem_diagnostics_at_iff hlast).mp ⟨hdiagnostic, hreference⟩
    rw [Reference.diagnostics_of_mem_groupsFor hgroup hf hne] at hnone
    cases hnone

/-- Behind a reference with a call and other signs: a group by the beginning of its name, and a
    field of it with a point in its key. -/
theorem suggestsAtEnd_reference_of_beginning :
    let closed : Session := { catalog := Default.catalog, context := .named "post".toList }
    let c := closed.catalog
    let own : Call := { key := "truncate".toList, args := [.int 5], position := 12 }
    let before : List Node :=
      [.reference { group := "post".toList, field := "title".toList, calls := [own] },
       .text " a.b@c ".toList 24]
    let r : Reference := { group := "post".toList, field := "status.key".toList, position := 31 }
    let longer : Document := { nodes := before ++ [.reference r] }
    let text := "@post(title).truncate(5) a.b@c @po".toList
    let s := closed.after [.start [], .setText text]
    ∃ groups, s.perform (.suggest 34) = (.ok (.suggestions
        { offers := .groups groups, query := "po".toList, replaceFrom := 32 }), s) ∧
      Default.post ∈ groups ∧
      SuggestsAtEnd c closed.context "@post(title).truncate(5) a.b@c @post(".toList
        { offers := .fields Default.post.fields, query := [], replaceFrom := 37 } ∧
      Reading.ofExpression c "@post(title).truncate(5) a.b@c @post(status.key)".toList =
        .ok { document := longer, brokenCount := 0 } ∧
      ∀ diagnostic ∈ longer.diagnostics c (some closed.context), diagnostic.reference ≠ 1 := by
  intro closed c own before r longer text s
  let a := "@post(title).truncate(5) a.b@c ".toList
  have hread : Reading.ofExpression c a =
      .ok { document := { nodes := before }, brokenCount := 0 } := by decide +kernel
  have hphase : s.phase = .editing
      { text
        document := some { nodes := before.dropLast ++ [.text " a.b@c @po".toList 24] }
        trailing := [] } := by decide +kernel
  have hpost : Default.post ∈ matching Group.key Group.label "po".toList
      (c.groupsFor closed.context) :=
    List.mem_append.mpr (.inl (List.mem_filter.mpr
      ⟨List.mem_filter.mpr ⟨List.mem_cons_self, by decide +kernel⟩, by decide +kernel⟩))
  obtain ⟨f, hfound⟩ := Option.isSome_iff_exists.mp
    (show (Default.post.fields.find? (·.key = r.field)).isSome = true by decide +kernel)
  have hkey : f.key = r.field := by simpa using List.find?_some hfound
  obtain ⟨hgroups, hoffered⟩ := @suggestsAtEnd_reference c closed.context a "po".toList _ hread rfl
    (List.all_eq_true.mp rfl)
  obtain ⟨hfields, hreference⟩ := hoffered Default.post hpost (by decide +kernel)
  have hcomplete := hreference f (List.mem_of_find?_eq_some hfound)
  rw [hkey] at hcomplete
  obtain ⟨hlonger, hnone⟩ := hcomplete (by decide +kernel)
    (List.all_eq_true.mp (by decide +kernel))
  have hopened : a ++ '@' :: Default.post.key ++ ['('] =
      "@post(title).truncate(5) a.b@c @post(".toList := by decide +kernel
  have hclosed : a ++ '@' :: Default.post.key ++ '(' :: r.field ++ [')'] =
      "@post(title).truncate(5) a.b@c @post(status.key)".toList := by decide +kernel
  rw [hopened] at hfields
  rw [hclosed] at hlonger
  obtain ⟨phase, hafter⟩ : ∃ phase, s = { closed with phase } := closed.exists_phase_after _
  have hcatalog : s.catalog = c := by rw [hafter]
  have hcontext : s.context = closed.context := by rw [hafter]
  have hanswer := hgroups s _ hcatalog hcontext hphase (by decide +kernel)
  exact ⟨_, hanswer, hpost, hfields, hlonger, hnone⟩

end Session

end TagText
