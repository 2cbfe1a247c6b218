import TagText.Proofs.Editing.Queries
import TagText.Proofs.Editing.Refusals

/-!
What is suggested at a cursor, and which part of the text the suggestions complete. The part is what
stands between the sign of a name and the cursor. It is the name typed so far, but for one case: a
line feed in front of the cursor is passed over, so that it belongs to the part and not to the name.
-/

namespace TagText

namespace Suggestions

open Lexeme

variable {c : Catalog} {context : Context} {before front group query gap : Text}
  {found : Suggestions}

/-- A text ends behind the point of a modifier, and not inside the parenthesis of a reference. -/
structure EndsInCall (front query gap s : Text) : Prop
    extends EndsInName '.' front query gap s where
  outside : ∀ other group key ending, ¬ EndsInField other group key ending s

/-- What is suggested at the end of a text: fields inside the parenthesis of a reference, what can
    follow the reference in front of a point, groups behind the sign of a reference, and else
    nothing. -/
inductive Offered (c : Catalog) (context : Context) (before : Text) : Suggestions → Prop
  | fields {front group query gap : Text} : EndsInField front group query gap before →
    Offered c context before
      { offers := .fields (matching Field.key Field.label query (c.fieldsOf group))
        query, replaceFrom := front.length + group.length + 2 }
  | modifiers {front query gap : Text} {items : List Modifier} :
    EndsInCall front query gap before → continuations? c front = .ok (some items) →
    Offered c context before
      { offers := .modifiers (matching Modifier.key Modifier.label query items)
        query, replaceFrom := front.length + 1 }
  | groups {front query gap : Text} : EndsInName '@' front query gap before →
    Offered c context before
      { offers := .groups (matching Group.key Group.label query (c.groupsFor context))
        query, replaceFrom := front.length + 1 }
  | nothing : (∀ front group query gap, ¬ EndsInField front group query gap before) →
    (∀ front query gap, EndsInCall front query gap before → continuations? c front = .ok none) →
    (∀ front query gap, ¬ EndsInName '@' front query gap before) →
    Offered c context before { offers := .nothing, query := [], replaceFrom := before.length }

theorem search?_fieldQuery?_eq_none_iff : before.search? fieldQuery? = none ↔
    ∀ front group query gap, ¬ EndsInField front group query gap before := by
  rw [Option.eq_none_iff_forall_ne_some]
  constructor
  · intro hnone front group query gap hends
    exact hnone _ (search?_fieldQuery?_eq_some_iff.mpr ⟨front, gap, hends, rfl⟩)
  · rintro hnot ⟨offset, group, query⟩ hsome
    obtain ⟨front, gap, hends, -⟩ := search?_fieldQuery?_eq_some_iff.mp hsome
    exact hnot front group query gap hends

theorem search?_nameQuery?_eq_none_iff {sign : Char} (hsign : isWord sign = false)
    (hfeed : sign ≠ '\n') : before.search? (nameQuery? sign) = none ↔
      ∀ front query gap, ¬ EndsInName sign front query gap before := by
  rw [Option.eq_none_iff_forall_ne_some]
  constructor
  · intro hnone front query gap hends
    exact hnone _ ((search?_nameQuery?_eq_some_iff hsign hfeed).mpr ⟨front, gap, hends, rfl⟩)
  · rintro hnot ⟨offset, query⟩ hsome
    obtain ⟨front, gap, hends, -⟩ := (search?_nameQuery?_eq_some_iff hsign hfeed).mp hsome
    exact hnot front query gap hends

theorem atEndOf_of_field (hends : EndsInField front group query gap before) :
    atEndOf c context before = .ok
      { offers := .fields (matching Field.key Field.label query (c.fieldsOf group))
        query, replaceFrom := front.length + group.length + 2 } := by
  have hsearch := search?_fieldQuery?_eq_some_iff.mpr ⟨front, gap, hends, rfl⟩
  simp only [atEndOf, hsearch]

/-- Behind a point it is the text in front of it that decides. -/
theorem atEndOf_of_call (hends : EndsInCall front query gap before) :
    atEndOf c context before = (continuations? c front).map fun items =>
      match items with
      | none => { offers := .nothing, query := [], replaceFrom := before.length }
      | some items =>
        { offers := .modifiers (matching Modifier.key Modifier.label query items)
          query, replaceFrom := front.length + 1 } := by
  have hfield := search?_fieldQuery?_eq_none_iff.mpr hends.outside
  have hdot : before.search? (nameQuery? '.') = some (front.length, query) :=
    (search?_nameQuery?_eq_some_iff (by decide) (by decide)).mpr
      ⟨front, gap, hends.toEndsInName, rfl⟩
  have hgroup : before.search? (nameQuery? '@') = none :=
    (search?_nameQuery?_eq_none_iff (by decide) (by decide)).mpr
      fun _ _ _ hname => hname.not_dot hends.toEndsInName
  have htake : before.take front.length = front := by simp [hends.split]
  simp only [atEndOf, hfield, hdot, htake, ofGroups, hgroup]
  cases continuations? c front with
  | error e => rfl
  | ok items => cases items <;> rfl

theorem atEndOf_of_group (hends : EndsInName '@' front query gap before) :
    atEndOf c context before = .ok
      { offers := .groups (matching Group.key Group.label query (c.groupsFor context))
        query, replaceFrom := front.length + 1 } := by
  have hfield := search?_fieldQuery?_eq_none_iff.mpr fun _ _ _ _ => hends.not_endsInField
  have hdot : before.search? (nameQuery? '.') = none :=
    (search?_nameQuery?_eq_none_iff (by decide) (by decide)).mpr fun _ _ _ => hends.not_dot
  have hgroup : before.search? (nameQuery? '@') = some (front.length, query) :=
    (search?_nameQuery?_eq_some_iff (by decide) (by decide)).mpr ⟨front, gap, hends, rfl⟩
  simp only [atEndOf, hfield, hdot, ofGroups, hgroup]

theorem atEndOf_of_neither
    (hfield : ∀ front group query gap, ¬ EndsInField front group query gap before)
    (hdot : ∀ front query gap, ¬ EndsInName '.' front query gap before)
    (hgroup : ∀ front query gap, ¬ EndsInName '@' front query gap before) :
    atEndOf c context before =
      .ok { offers := .nothing, query := [], replaceFrom := before.length } := by
  have hfield := search?_fieldQuery?_eq_none_iff.mpr hfield
  have hdot := (search?_nameQuery?_eq_none_iff (by decide) (by decide)).mpr hdot
  have hgroup := (search?_nameQuery?_eq_none_iff (by decide) (by decide)).mpr hgroup
  simp only [atEndOf, hfield, hdot, ofGroups, hgroup]

/-- A text ends inside the parenthesis of a reference, behind the point of a modifier, behind the
    sign of a reference, or in none of these. -/
theorem ends_cases (before : Text) :
    (∃ front group query gap, EndsInField front group query gap before) ∨
    (∃ front query gap, EndsInCall front query gap before) ∨
    (∃ front query gap, EndsInName '@' front query gap before) ∨
    (∀ front group query gap, ¬ EndsInField front group query gap before) ∧
      (∀ front query gap, ¬ EndsInName '.' front query gap before) ∧
      ∀ front query gap, ¬ EndsInName '@' front query gap before := by
  by_cases hfield : ∃ front group query gap, EndsInField front group query gap before
  · exact Or.inl hfield
  simp only [not_exists] at hfield
  by_cases hdot : ∃ front query gap, EndsInName '.' front query gap before
  · obtain ⟨front, query, gap, hends⟩ := hdot
    exact Or.inr (Or.inl ⟨front, query, gap, hends, hfield⟩)
  simp only [not_exists] at hdot
  by_cases hgroup : ∃ front query gap, EndsInName '@' front query gap before
  · exact Or.inr (Or.inr (Or.inl hgroup))
  simp only [not_exists] at hgroup
  exact Or.inr (Or.inr (Or.inr ⟨hfield, hdot, hgroup⟩))

/-- What is suggested, is suggested by one of the rules. -/
theorem offered_of_atEndOf (hfound : atEndOf c context before = .ok found) :
    Offered c context before found := by
  rcases ends_cases before with ⟨front, group, query, gap, hends⟩ | ⟨front, query, gap, hends⟩ |
    ⟨front, query, gap, hends⟩ | ⟨hfield, hdot, hgroup⟩
  · rw [atEndOf_of_field hends] at hfound
    cases hfound
    exact .fields hends
  · rw [atEndOf_of_call hends] at hfound
    cases hitems : continuations? c front with
    | error e =>
      rw [hitems] at hfound
      cases hfound
    | ok items =>
      rw [hitems] at hfound
      cases items with
      | some items =>
        cases hfound
        exact .modifiers hends hitems
      | none =>
        cases hfound
        refine .nothing hends.outside (fun other word ending hother => ?_)
          fun _ _ _ hname => hname.not_dot hends.toEndsInName
        have hsplit := hends.split.symm.trans hother.split
        rw [List.append_assoc, List.append_assoc] at hsplit
        obtain ⟨rfl, -, -⟩ := Text.eq_of_last (hother.not_mem (by decide) (by decide))
          (hends.not_mem (by decide) (by decide)) hsplit
        exact hitems
  · rw [atEndOf_of_group hends] at hfound
    cases hfound
    exact .groups hends
  · rw [atEndOf_of_neither hfield hdot hgroup] at hfound
    cases hfound
    exact .nothing hfield (fun _ _ _ hends => absurd hends.toEndsInName (hdot _ _ _)) hgroup

theorem continuations?_eq_error_iff {e : ConversionError} :
    continuations? c front = .error e ↔ Reading.ofExpression c front = .error e := by
  rw [continuations?, bind_eq_error_iff]
  refine or_iff_left_of_imp ?_
  rintro ⟨reading, -, hitems⟩
  split at hitems
  · split at hitems <;> cases hitems
  · cases hitems

/-- Suggestions are refused only behind the point of a modifier, where what stands in front of it
    cannot be read. -/
theorem atEndOf_eq_error_iff {e : ConversionError} : atEndOf c context before = .error e ↔
    ∃ front query gap, EndsInCall front query gap before ∧
      Reading.ofExpression c front = .error e := by
  constructor
  · intro herror
    rcases ends_cases before with ⟨front, group, query, gap, hends⟩ | ⟨front, query, gap, hends⟩ |
      ⟨front, query, gap, hends⟩ | ⟨hfield, hdot, hgroup⟩
    · rw [atEndOf_of_field hends] at herror
      cases herror
    · rw [atEndOf_of_call hends] at herror
      refine ⟨front, query, gap, hends, continuations?_eq_error_iff.mp ?_⟩
      cases hitems : continuations? c front with
      | error other =>
        cases e
        cases other
        rfl
      | ok items =>
        rw [hitems] at herror
        cases herror
    · rw [atEndOf_of_group hends] at herror
      cases herror
    · rw [atEndOf_of_neither hfield hdot hgroup] at herror
      cases herror
  · rintro ⟨front, query, gap, hends, hfront⟩
    rw [atEndOf_of_call hends, continuations?_eq_error_iff.mpr hfront]
    rfl

/-- A text ends behind the point of a modifier, and what stands in front of the point cannot be
    read. -/
def Stalls (c : Catalog) (before : Text) : Prop :=
  ∃ front query gap e, EndsInCall front query gap before ∧ Reading.ofExpression c front = .error e

/-- Behind a sign and a run without line feeds, a text ends in a line feed exactly when one
    follows. -/
theorem eq_nil_iff_not_suffix (front : Text) {sign : Char} (hsign : sign ≠ '\n')
    (hquery : '\n' ∉ query) (hgap : atEnd gap = true) :
    gap = [] ↔ ¬ ['\n'] <:+ front ++ sign :: (query ++ gap) := by
  rcases atEnd_iff.mp hgap with rfl | rfl
  · refine iff_of_true rfl ?_
    rintro ⟨start, hstart⟩
    rw [List.append_nil] at hstart
    have hlast := congrArg List.getLast? hstart
    rw [List.getLast?_concat, List.getLast?_append_of_ne_nil _ (List.cons_ne_nil sign query)]
      at hlast
    rcases List.mem_cons.mp (List.mem_of_getLast? hlast.symm) with hfeed | hfeed
    · exact hsign hfeed.symm
    · exact hquery hfeed
  · refine iff_of_false nofun (not_not.mpr ⟨front ++ sign :: query, by simp⟩)

/-- What is suggested completes the name at the end of the text. A final line feed is left out of
    the name, but not where nothing is suggested. -/
theorem Offered.exists_split (hoffered : Offered c context before found) :
    ∃ front gap, before = front ++ (found.query ++ gap) ∧ front.length = found.replaceFrom ∧
      atEnd gap = true ∧ (gap = [] ↔ found.offers = .nothing ∨ ¬ ['\n'] <:+ before) := by
  have hword : ∀ query : Text, (∀ c ∈ query, isWord c) → '\n' ∉ query :=
    fun query hquery hmem => absurd (hquery _ hmem) (by decide)
  cases hoffered with
  | @fields front group query gap hends =>
    have hkey : '\n' ∉ query := fun hmem => absurd (hends.key _ hmem) (by decide)
    have hgap := eq_nil_iff_not_suffix (front ++ '@' :: group) (show '(' ≠ '\n' by decide) hkey
      hends.ending
    refine ⟨front ++ '@' :: group ++ ['('], gap, by simp [hends.split], ?_, hends.ending, ?_⟩
    · simp only [List.length_append, List.length_cons, List.length_nil]
      omega
    · simpa [hends.split] using hgap
  | @modifiers front query gap items hends =>
    have hgap := eq_nil_iff_not_suffix front (show '.' ≠ '\n' by decide)
      (hword query hends.word) hends.ending
    exact ⟨front ++ ['.'], gap, by simp [hends.split], by simp, hends.ending,
      by simpa [hends.split] using hgap⟩
  | @groups front query gap hends =>
    have hgap := eq_nil_iff_not_suffix front (show '@' ≠ '\n' by decide)
      (hword query hends.word) hends.ending
    exact ⟨front ++ ['@'], gap, by simp [hends.split], by simp, hends.ending,
      by simpa [hends.split] using hgap⟩
  | nothing => exact ⟨before, [], by simp, rfl, rfl, by simp⟩

end Suggestions

namespace Session

open Suggestions

variable {s : Session} {d : Draft}

theorem perform_suggest (hphase : s.phase = .editing d) (cursor : Int) :
    s.perform (.suggest cursor) =
      match atCursor s.catalog s.context d.text cursor with
      | .ok found => s.answer (.suggestions found)
      | .error error => (.error (.conversion error), s) := by
  rw [perform_editing hphase]
  rfl

/-- The part of the text that suggestions replace: A request for suggestions is refused exactly when
    the cursor stands behind the point of a modifier and what stands in front of the point cannot be
    read. Else the part ends at the cursor, and it is the name typed so far, or that name and a line
    feed. The line feed is there exactly when something is suggested and the text in front of the
    cursor ends in one. -/
theorem perform_suggest_span (hphase : s.phase = .editing d) (cursor : Int) :
    Stalls s.catalog (d.text.take cursor.toNat) ∧
      (∃ e, s.perform (.suggest cursor) = (.error (.conversion e), s)) ∨
    ¬ Stalls s.catalog (d.text.take cursor.toNat) ∧ ∃ found,
      s.perform (.suggest cursor) = (.ok (.suggestions found), s) ∧
      let stop := min cursor.toNat d.text.length
      let part := d.text.slice found.replaceFrom stop
      found.replaceFrom ≤ stop ∧ (part = found.query ∨ part = found.query ++ ['\n']) ∧
      (part = found.query ↔
        found.offers = .nothing ∨ ¬ ['\n'] <:+ d.text.take cursor.toNat) := by
  have hperform := perform_suggest hphase cursor
  rw [atCursor] at hperform
  cases hanswer : atEndOf s.catalog s.context (d.text.take cursor.toNat) with
  | error e =>
    rw [hanswer] at hperform
    obtain ⟨front, query, gap, hends, hfront⟩ := atEndOf_eq_error_iff.mp hanswer
    exact Or.inl ⟨⟨front, query, gap, e, hends, hfront⟩, e, hperform⟩
  | ok found =>
    rw [hanswer] at hperform
    refine Or.inr ⟨?_, found, hperform, ?_⟩
    · rintro ⟨front, query, gap, e, hends, hfront⟩
      rw [atEndOf_eq_error_iff.mpr ⟨front, query, gap, hends, hfront⟩] at hanswer
      cases hanswer
    · intro stop part
      obtain ⟨front, gap, hsplit, hfront, hgap, hfeed⟩ :=
        (offered_of_atEndOf hanswer).exists_split
      have hlength : (d.text.take cursor.toNat).length = stop := List.length_take
      have hpart : part = found.query ++ gap := by
        have hbefore : d.text.take stop = d.text.take cursor.toNat :=
          (List.take_eq_take_min ..).symm
        simp only [part]
        rw [Text.slice, ← List.drop_take, hbefore, hsplit, ← hfront, List.drop_left]
      rw [hpart, List.append_right_eq_self, hfeed]
      refine ⟨?_, ?_, Iff.rfl⟩
      · rw [hsplit, List.length_append] at hlength
        omega
      · rcases atEnd_iff.mp hgap with rfl | rfl
        · exact Or.inl (hfeed.mp rfl)
        · exact Or.inr rfl

/-- A line feed behind the beginning of a group: what the suggestions replace is more than the name
    that they complete. -/
theorem perform_suggest_span_of_feed :
    let closed : Session := { catalog := Default.catalog, context := .named "post".toList }
    let text := "@po\n".toList
    let d : Draft := { text, document := some { nodes := [.text text 0] }, trailing := [] }
    let s := ((closed.perform (.start [])).2.perform (.setText text)).2
    s.phase = .editing d ∧ ∃ found, s.perform (.suggest 4) = (.ok (.suggestions found), s) ∧
      found.replaceFrom = 1 ∧ found.query = "po".toList ∧
      d.text.slice found.replaceFrom 4 = "po\n".toList := by
  intro closed text d s
  have hphase : s.phase = .editing d := by decide +kernel
  have hends : EndsInName '@' [] "po".toList ['\n'] text :=
    ⟨List.all_eq_true.mp rfl, rfl, rfl⟩
  have hanswer := perform_suggest hphase 4
  rw [atCursor, show d.text.take (4 : Int).toNat = text from rfl, atEndOf_of_group hends] at hanswer
  refine ⟨hphase, _, hanswer, rfl, rfl, ?_⟩
  obtain ⟨⟨_, _, _, _, hcall, -⟩, -⟩ | ⟨-, found, hfound, -, hpart, hname⟩ :=
    perform_suggest_span hphase 4
  · exact absurd hcall.toEndsInName hends.not_dot
  · cases hanswer.symm.trans hfound
    refine hpart.resolve_left fun hslice => ?_
    rcases hname.mp hslice with hnothing | hfeed
    · cases hnothing
    · exact hfeed ⟨"@po".toList, rfl⟩

end Session

end TagText
