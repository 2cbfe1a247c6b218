import TagText.Proofs.Editing.Completions
import TagText.Proofs.Stored.Markers

/-!
What is suggested behind a reference. A reference ends in a parenthesis. So the point behind it is
the point of a modifier, even where an argument of the reference holds a sign, a name and a
parenthesis. On offer is what can follow the reference: first what starts with the query, then what
holds it elsewhere.
-/

namespace TagText

open Lexeme

theorem Grammar.Reference.paren_suffix {offset : Nat} {s : Text} {raw : RawReference}
    (hderived : Grammar.Reference offset s raw) : [')'] <:+ s := by
  obtain ⟨pieces, -, rfl, hclosed, -⟩ := hderived.reads
  obtain ⟨before, rfl⟩ := List.getLast?_eq_some_iff.mp hclosed
  exact ⟨rawText before, by simp [Lexeme.raw]⟩

/-- An expression that ends in a reference ends in a closing parenthesis. -/
theorem Reading.paren_suffix_of_getLast? {c : Catalog} {s : Text} {reading : Reading}
    {r : Reference} (hread : ofExpression c s = .ok reading)
    (hlast : reading.document.nodes.getLast? = some (.reference r)) : [')'] <:+ s := by
  obtain ⟨-, hcut⟩ := ofExpression_eq_ok_iff_cut.mp hread
  obtain ⟨before, hnodes⟩ := List.getLast?_eq_some_iff.mp hlast
  rw [hnodes] at hcut
  obtain ⟨front, last, raw, rfl, hderived, -⟩ := hcut.replace_last
  exact hderived.paren_suffix.trans (List.suffix_append front last)

/-- The modifiers that can follow a reference, in the order of their registration: the methods of
    the group behind a reference to the group itself, else the modifiers that take the type of the
    reference. There are none where the group or the type is not known. -/
inductive Reference.GoesOnWith (c : Catalog) (r : Reference) : List Modifier → Prop
  | methods {g : Group} : r.field = [] → r.calls = [] → g ∈ c.groups → g.key = r.group →
    GoesOnWith c r g.methods
  | unknownGroup : r.field = [] → r.calls = [] → (∀ g ∈ c.groups, g.key ≠ r.group) →
    GoesOnWith c r []
  | modifiers {type : ValueType} : r.field ≠ [] ∨ r.calls ≠ [] → r.runningType c = some type →
    GoesOnWith c r (c.modifiers.filter fun m => type ∈ m.accepted)
  | unknownType : r.field ≠ [] ∨ r.calls ≠ [] → r.runningType c = none → GoesOnWith c r []

namespace Reference

variable {c : Catalog} {r : Reference}

theorem GoesOnWith.nodup {candidates : List Modifier} (hgoes : r.GoesOnWith c candidates) :
    candidates.Nodup := by
  cases hgoes with
  | @methods g => exact .of_map Modifier.key g.methods_nodup
  | unknownGroup | unknownType => exact .nil
  | modifiers => exact (List.Nodup.of_map Modifier.key c.modifiers_nodup).filter _

theorem goesOnWith_methodsOf (hfield : r.field = []) (hcalls : r.calls = []) :
    r.GoesOnWith c (c.methodsOf r.group) := by
  unfold Catalog.methodsOf
  cases hg : c.group? r.group with
  | none =>
    exact .unknownGroup hfield hcalls fun g hmem => by simpa using List.find?_eq_none.mp hg g hmem
  | some g =>
    obtain ⟨hmem, hkey⟩ := Catalog.group?_eq_some_iff.mp hg
    exact .methods hfield hcalls hmem hkey

theorem goesOnWith_modifiersFor (hown : r.field ≠ [] ∨ r.calls ≠ []) :
    r.GoesOnWith c (c.modifiersFor (r.runningType c)) := by
  unfold Catalog.modifiersFor
  cases htype : r.runningType c with
  | none => exact .unknownType hown htype
  | some type => exact .modifiers hown htype

end Reference

namespace Suggestions

section

variable {α : Type} (key label : α → Text) (query : Text)

/-- The key or the label of an item starts with a query, whatever the letters' case. -/
def Starts (item : α) : Prop :=
  query.lower <+: (key item).lower ∨ query.lower <+: (label item).lower

/-- The key or the label of an item holds a query, whatever the letters' case. -/
def Contains (item : α) : Prop :=
  query.lower <:+: (key item).lower ∨ query.lower <:+: (label item).lower

instance (item : α) : Decidable (Starts key label query item) :=
  inferInstanceAs (Decidable (_ ∨ _))

instance (item : α) : Decidable (Contains key label query item) :=
  inferInstanceAs (Decidable (_ ∨ _))

/-- Of some candidates, those that hold a query are on offer, each once: in front those that start
    with it, and behind them the others, both in the order of the candidates. -/
structure Selects (candidates front back : List α) : Prop where
  front_sublist : front.Sublist candidates
  back_sublist : back.Sublist candidates
  nodup : (front ++ back).Nodup
  mem_iff : ∀ item, item ∈ front ++ back ↔ item ∈ candidates ∧ Contains key label query item
  mem_front_iff : ∀ item, item ∈ front ↔ item ∈ candidates ∧ Starts key label query item

end

variable {α : Type} {key label : α → Text} {query : Text} {candidates : List α}

theorem Starts.contains {item : α} (hstarts : Starts key label query item) :
    Contains key label query item :=
  hstarts.imp List.IsPrefix.isInfix List.IsPrefix.isInfix

theorem matching_eq : matching key label query candidates =
    candidates.filter (fun item => Starts key label query item) ++
      candidates.filter fun item =>
        ¬ Starts key label query item ∧ Contains key label query item := by
  have hstarts : ∀ item, (query.lower.isPrefixOf (key item).lower ||
      query.lower.isPrefixOf (label item).lower) = decide (Starts key label query item) := by
    intro item
    rw [Bool.eq_iff_iff, decide_eq_true_iff]
    simp [Starts]
  have hcontains : ∀ item, ((key item).lower.holds query.lower ||
      (label item).lower.holds query.lower) = decide (Contains key label query item) := by
    intro item
    rw [Bool.eq_iff_iff, decide_eq_true_iff]
    simp [Contains, Text.holds_iff]
  simp only [matching, hstarts, hcontains, Bool.decide_and, decide_not]

theorem exists_matching_selects (hnodup : candidates.Nodup) : ∃ front back,
    matching key label query candidates = front ++ back ∧
      Selects key label query candidates front back := by
  refine ⟨_, _, matching_eq, List.filter_sublist, List.filter_sublist, ?_, fun item => ?_, by simp⟩
  · refine List.nodup_append.mpr ⟨hnodup.filter _, hnodup.filter _, ?_⟩
    rintro item hfront _ hback rfl
    simp only [List.mem_filter, decide_eq_true_eq] at hfront hback
    exact hback.2.1 hfront.2
  · simp only [List.mem_append, List.mem_filter, decide_eq_true_eq, ← and_or_left]
    refine and_congr_right fun _ => ⟨?_, fun hitem => ?_⟩
    · rintro (hstarts | ⟨-, hitem⟩)
      · exact hstarts.contains
      · exact hitem
    · exact (em _).imp_right fun hnot => ⟨hnot, hitem⟩

/-- Behind a closing parenthesis, a point is the point of a modifier. -/
theorem endsInCall_of_paren {front : Text} (hparen : [')'] <:+ front)
    (hquery : ∀ letter ∈ query, isWord letter = true) :
    EndsInCall front query [] (front ++ '.' :: query) := by
  have hends : EndsInName '.' front query [] (front ++ '.' :: query) := ⟨hquery, rfl, by simp⟩
  refine ⟨hends, fun other group key ending hfield => ?_⟩
  obtain ⟨start, rfl⟩ := hparen
  have hclose := hfield.not_mem (show isFieldChar ')' = false by decide) (by decide) (by decide)
  have hsign : '@' ∉ '.' :: query := by
    simpa using hends.not_mem (show isWord '@' = false by decide) (by decide)
  have heq : start ++ ')' :: '.' :: query = other ++ '@' :: (group ++ '(' :: (key ++ ending)) := by
    simpa using hfield.split
  exact absurd (Text.eq_of_last hclose hsign heq).2.1 (by decide)

/-- What can follow an expression that ends in a reference, is what can follow the reference. -/
theorem exists_continuations? {c : Catalog} {a : Text} {reading : Reading} {r : Reference}
    (hread : Reading.ofExpression c a = .ok reading)
    (hlast : reading.document.nodes.getLast? = some (.reference r)) :
    ∃ candidates, continuations? c a = .ok (some candidates) ∧ r.GoesOnWith c candidates := by
  by_cases hown : r.field = [] ∧ r.calls = []
  · refine ⟨c.methodsOf r.group, bind_eq_ok_iff.mpr ⟨reading, hread, ?_⟩,
      Reference.goesOnWith_methodsOf hown.1 hown.2⟩
    simp only [hlast, hown.1, hown.2, List.isEmpty_nil, Bool.and_self, if_true]
    rfl
  · refine ⟨c.modifiersFor (r.runningType c), bind_eq_ok_iff.mpr ⟨reading, hread, ?_⟩,
      Reference.goesOnWith_modifiersFor (not_and_or.mp hown)⟩
    have hempty : (r.field.isEmpty && r.calls.isEmpty) = false := by
      simpa [Bool.and_eq_false_iff, or_iff_not_imp_left] using hown
    simp only [hlast, hempty]
    rfl

end Suggestions

namespace Session

open Suggestions

variable {c : Catalog} {context : Context} {a q : Text} {reading : Reading} {r : Reference}

/-- What is suggested behind a reference: Behind an expression that ends in a reference, a point and
    a part of a name, the modifiers are suggested that can follow the reference and whose key or
    label holds that part, whatever the letters' case. Each is suggested once, those that start with
    the part stand in front, and otherwise they keep the order of their registration. -/
theorem suggestsAtEnd_modifiers (hread : Reading.ofExpression c a = .ok reading)
    (hlast : reading.document.nodes.getLast? = some (.reference r))
    (hq : ∀ letter ∈ q, isWord letter = true) :
    ∃ candidates front back, r.GoesOnWith c candidates ∧
      Selects Modifier.key Modifier.label q candidates front back ∧
      SuggestsAtEnd c context (a ++ '.' :: q)
        { offers := .modifiers (front ++ back), query := q, replaceFrom := a.length + 1 } := by
  obtain ⟨candidates, hitems, hgoes⟩ := exists_continuations? hread hlast
  obtain ⟨front, back, hmatching, hselects⟩ :=
    @exists_matching_selects _ Modifier.key Modifier.label q _ hgoes.nodup
  have hends := endsInCall_of_paren (Reading.paren_suffix_of_getLast? hread hlast) hq
  refine ⟨candidates, front, back, hgoes, hselects, suggestsAtEnd_of_atEndOf ?_⟩
  rw [atEndOf_of_call hends, hitems, ← hmatching]
  rfl

/-- Behind a call whose argument looks like the beginning of a reference: what starts with the query
    in small letters, and behind that what holds it elsewhere. -/
theorem suggestsAtEnd_modifiers_of_quoted_sign :
    let closed : Session := { catalog := Default.catalog, context := .named "post".toList }
    let c := closed.catalog
    let a := "Hi @post(title).append('@site(')".toList
    let own : Call := { key := "append".toList, args := [.text "@site(".toList], position := 15 }
    let r : Reference :=
      { group := "post".toList, field := "title".toList, calls := [own], position := 3 }
    let nodes : List Node := [.text "Hi ".toList 0, .reference r]
    let s := closed.after [.start [], .setText (a ++ '.' :: "RE".toList)]
    Reading.ofExpression c a = .ok { document := { nodes }, brokenCount := 0 } ∧
      ∃ front back, Selects Modifier.key Modifier.label "RE".toList
          (c.modifiers.filter fun m => .text ∈ m.accepted) front back ∧
        "replace".toList ∈ front.map Modifier.key ∧ "prepend".toList ∈ back.map Modifier.key ∧
        s.perform (.suggest 35) = (.ok (.suggestions
          { offers := .modifiers (front ++ back)
            query := "RE".toList
            replaceFrom := 33 }), s) := by
  intro closed c a own r nodes s
  have hread : Reading.ofExpression c a = .ok { document := { nodes }, brokenCount := 0 } := by
    decide +kernel
  have htype : r.runningType c = some .text := by decide +kernel
  have hphase : s.phase = .editing
      { text := a ++ '.' :: "RE".toList
        document := some { nodes := nodes ++ [.text ".RE".toList 32] }
        trailing := [] } := by decide +kernel
  obtain ⟨candidates, front, back, hgoes, hselects, hanswer⟩ :=
    @suggestsAtEnd_modifiers c closed.context a "RE".toList _ r hread rfl
      (List.all_eq_true.mp (by decide +kernel))
  obtain rfl : candidates = c.modifiers.filter fun m => .text ∈ m.accepted := by
    cases hgoes with
    | methods hfield | unknownGroup hfield => cases hfield
    | modifiers _ hother =>
      cases htype.symm.trans hother
      rfl
    | unknownType _ hother => cases htype.symm.trans hother
  obtain ⟨replace, hreplace, hkey, hstarts⟩ :
      ∃ m ∈ c.modifiers.filter fun m => .text ∈ m.accepted, m.key = "replace".toList ∧
        Starts Modifier.key Modifier.label "RE".toList m := by decide +kernel
  obtain ⟨prepend, hprepend, hother, hcontains, hnot⟩ :
      ∃ m ∈ c.modifiers.filter fun m => .text ∈ m.accepted, m.key = "prepend".toList ∧
        Contains Modifier.key Modifier.label "RE".toList m ∧
        ¬ Starts Modifier.key Modifier.label "RE".toList m := by decide +kernel
  refine ⟨hread, front, back, hselects, ?_, ?_, ?_⟩
  · exact List.mem_map.mpr ⟨replace, (hselects.mem_front_iff replace).mpr ⟨hreplace, hstarts⟩, hkey⟩
  · have hmem := (hselects.mem_iff prepend).mpr ⟨hprepend, hcontains⟩
    have hback := (List.mem_append.mp hmem).resolve_left fun hfront =>
      hnot ((hselects.mem_front_iff prepend).mp hfront).2
    exact List.mem_map.mpr ⟨prepend, hback, hother⟩
  · obtain ⟨phase, hafter⟩ : ∃ phase, s = { closed with phase } := closed.exists_phase_after _
    have hcatalog : s.catalog = c := by rw [hafter]
    have hcontext : s.context = closed.context := by rw [hafter]
    exact hanswer s _ hcatalog hcontext hphase rfl

end Session

end TagText
