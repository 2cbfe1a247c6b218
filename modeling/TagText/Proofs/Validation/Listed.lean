import TagText.Catalog.DefaultModifiers
import TagText.Document.Breadcrumb
import TagText.Proofs.Catalog.Listing
import TagText.Proofs.Reading.Spans
import TagText.Proofs.Validation.Names
import TagText.Proofs.Validation.WellTyped
import TagText.Proofs.Writing.Spelling

/-!
Entries of the flat listing, typed into an expression. The path of an entry is read as one reference
to its item. All that can be reported for the reference in the context of the listing is an argument
that a method requires. Unless an alias hides the field, the reference goes by the breadcrumb of the
entry and has its type.
-/

namespace TagText

namespace FlatTag

/-- The reference that an entry stands for: to a field, or on the empty field to a method without
    arguments. The point of the method stands behind the sign, the group and two parentheses. -/
def reference (entry : FlatTag) : Reference :=
  match entry.type with
  | some _ => { group := entry.group, field := entry.key }
  | none =>
    { group := entry.group
      calls := [{ key := entry.key, position := entry.group.length + 3 }] }

/-- The keys of an entry can be spelled in an expression: its group and its method are names, and
    its field is a key that is not empty. -/
def Spellable (entry : FlatTag) : Prop :=
  Lexeme.isName entry.group = true ∧
    match entry.type with
    | some _ => entry.key ≠ [] ∧ ∀ c ∈ entry.key, Lexeme.isFieldChar c = true
    | none => Lexeme.isName entry.key = true

/-- The document of the reference that an entry stands for. -/
def document (entry : FlatTag) : Document := { nodes := [.reference entry.reference] }

variable {c : Catalog} {context : Context} {entry : FlatTag} {g : Group}

theorem path_eq_written (hoffers : g.Offers entry) : entry.path = entry.reference.written := by
  cases hoffers with
  | field => simp [reference, Field.flatTag, Reference.written]
  | method => simp [reference, Modifier.flatTag, Reference.written, Call.written]

theorem Spellable.wellNamed (hspellable : entry.Spellable) : entry.reference.WellNamed := by
  obtain ⟨hgroup, hkey⟩ := hspellable
  unfold reference
  cases htype : entry.type with
  | some type =>
    rw [htype] at hkey
    exact ⟨hgroup, hkey.2, by simp⟩
  | none =>
    rw [htype] at hkey
    exact ⟨hgroup, by simp, by simpa using hkey⟩

/-- There are no arguments that could be refused. -/
theorem resolve_spelled (c : Catalog) (entry : FlatTag) :
    (entry.reference.spelled 0).resolve c = .ok entry.reference := by
  unfold reference
  cases entry.type with
  | some type => rfl
  | none =>
    simp only [Reference.spelled, List.length_nil, Nat.zero_add, Nat.add_zero]
    rfl

/-- The path of an entry is read as its reference and nothing else. -/
theorem ofExpression_path (hoffers : g.Offers entry) (hspellable : entry.Spellable) :
    Reading.ofExpression c entry.path = .ok { document := entry.document, brokenCount := 0 } := by
  have hderived := Grammar.Reference.written hspellable.wellNamed 0
  have hread := hderived.ofExpression_eq (resolve_spelled c entry)
  rw [← path_eq_written hoffers] at hread
  simpa [document, Reference.moved_zero] using hread

end FlatTag

/-- Where no arguments are given, they can only be missing. -/
theorem Problem.kind_of_mem_problemsWith_nil {m : Modifier} {params : List Param}
    {problem : Problem} (hproblem : problem ∈ m.problemsWith params []) :
    problem.kind = .missingArgument := by
  induction params with
  | nil => cases hproblem
  | cons p params ih =>
    rcases List.mem_append.mp hproblem with hfirst | hrest
    · have hmissing : Arg.nothing.isMissing = true := rfl
      rw [Modifier.problem?, if_pos hmissing, Option.mem_toList] at hfirst
      split at hfirst <;> cases hfirst
      rfl
    · exact ih hrest

/-- Of a method without arguments and without a chain behind it, arguments can only be missing. -/
theorem Catalog.kind_of_mem_methodProblems_nil {c : Catalog} {m : Modifier} {call : Call}
    (hargs : call.args = []) {entry : Problem × Nat × Int}
    (hentry : entry ∈ c.methodProblems m call []) : entry.1.kind = .missingArgument := by
  rw [methodProblems, chainProblems, List.append_nil] at hentry
  obtain ⟨problem, hproblem, rfl⟩ := List.mem_map.mp hentry
  rw [Modifier.argumentProblems, hargs] at hproblem
  exact Problem.kind_of_mem_problemsWith_nil hproblem

/-- A label that is not empty is used as it is. -/
theorem labelOr_of_ne_nil {label : Text} (hlabel : label ≠ []) (key : Text) :
    labelOr (some label) key = label := by
  unfold labelOr
  split
  · cases ‹some label = none›
  · exact absurd (Option.some.inj ‹some label = some []›) hlabel
  · exact (Option.some.inj ‹some label = some _›).symm

namespace FlatTag

section

variable {c : Catalog} {context : Context} {entry : FlatTag} {g : Group}
  (hg : c.group? entry.group = some g) (hoffers : g.Offers entry) (hspellable : entry.Spellable)

include hg hoffers hspellable

/-- A field has no problems, even where its key is an alias of another field; a method has those of
    the arguments that it does not get. -/
theorem exists_problems_reference (hcontext : g.appliesTo context = true) :
    ∃ missing, entry.reference.problems c (some context) = ([], missing) ∧
      ∀ problem ∈ missing, problem.1.kind = .missingArgument := by
  have huse : Reference.applicability? g (some context) = none := by
    simp [Reference.applicability?, hcontext]
  cases hoffers with
  | @field f hf =>
    obtain ⟨found, hresolves⟩ := Group.exists_resolves_of_mem hf
    have hfound := Group.field?_eq_some_iff.mpr hresolves
    refine ⟨[], ?_, fun problem hproblem => absurd hproblem List.not_mem_nil⟩
    rw [Reference.problems_of_field hg hspellable.2.1 hfound, huse]
    rfl
  | @method m hm =>
    have hfound := Group.method?_eq_some_iff.mpr ⟨hm, rfl⟩
    let call : Call := { key := m.key, position := g.key.length + 3 }
    have hargs : call.args = [] := rfl
    refine ⟨c.methodProblems m call [], ?_, fun problem =>
      Catalog.kind_of_mem_methodProblems_nil hargs⟩
    rw [Reference.problems_of_method hg rfl rfl hfound, huse]
    rfl

theorem kind_of_mem_diagnostics (hcontext : g.appliesTo context = true) {diagnostic : Diagnostic}
    (hdiagnostic : diagnostic ∈ entry.document.diagnostics c (some context)) :
    diagnostic.problem.kind = .missingArgument := by
  obtain ⟨missing, hproblems, hmissing⟩ :=
    exists_problems_reference hg hoffers hspellable hcontext
  have hdiagnostics : entry.document.diagnostics c (some context) =
      entry.reference.diagnostics c (some context) 0 ++ [] := rfl
  rw [hdiagnostics, List.append_nil, Reference.diagnostics, hproblems] at hdiagnostic
  obtain ⟨problem, hproblem, rfl⟩ := List.mem_map.mp hdiagnostic
  exact hmissing problem hproblem

/-- A field that no alias hides is found under its key, with its label and its type; so is a method
    with its label. -/
theorem breadcrumb_reference (hgroup : g.label ≠ []) (hlabel : entry.label ≠ [])
    (hfresh : ∀ type, entry.type = some type → entry.key ∉ g.aliases.names) :
    entry.reference.breadcrumb (some c) = entry.breadcrumb ∧
      ∀ type, entry.type = some type → entry.reference.runningType c = some type := by
  have hhead := labelOr_of_ne_nil hgroup g.key
  have hitem := labelOr_of_ne_nil hlabel entry.key
  cases hoffers with
  | @field f hf =>
    have hmem : c.group? g.key = some g := hg
    have hkey : f.key ≠ [] := hspellable.2.1
    have hfield : g.field? f.key = some f :=
      Group.field?_eq_some_iff.mpr (.own (hfresh f.type rfl) rfl hf)
    constructor
    · simpa [reference, Field.flatTag, Reference.breadcrumb, hmem, hkey, hfield, hhead] using
        congrArg (breadcrumbOf g.label) hitem
    · rintro type ⟨⟩
      simp [reference, Field.flatTag, Reference.runningType, hmem, hkey, hfield, Catalog.threadType]
  | @method m hm =>
    have hmem : c.group? g.key = some g := hg
    have hmethod : g.method? m.key = some m := Group.method?_eq_some_iff.mpr ⟨hm, rfl⟩
    constructor
    · simpa [reference, Modifier.flatTag, Reference.breadcrumb, hmem, hmethod, hhead] using
        congrArg (breadcrumbOf g.label) hitem
    · rintro type ⟨⟩

end

end FlatTag

namespace Catalog

/-- The flat listing agrees with what is made of its entries. If the keys of an entry can be
    spelled, its path is read as one reference, to the group and the item of the entry, and in the
    context of the listing nothing but missing arguments is reported for it. If group and item have
    labels, and no alias of the group is the key of the field, the reference goes by the breadcrumb
    of the entry, and a field has the type of the entry. What is listed are the fields and the
    methods of the groups for the context, each once, by group, kind and declaration. -/
theorem flatTags_coherent (c : Catalog) (context : Context) :
    (∀ entry ∈ c.flatTags context, entry.Spellable →
      Reading.ofExpression c entry.path = .ok { document := entry.document, brokenCount := 0 } ∧
      (∀ diagnostic ∈ entry.document.diagnostics c (some context),
        diagnostic.problem.kind = .missingArgument) ∧
      ∀ g, c.group? entry.group = some g → g.label ≠ [] → entry.label ≠ [] →
        (∀ type, entry.type = some type → entry.key ∉ g.aliases.names) →
        entry.reference.breadcrumb (some c) = entry.breadcrumb ∧
          ∀ type, entry.type = some type → entry.reference.runningType c = some type) ∧
    (∀ entry, entry ∈ c.flatTags context ↔
      ∃ g ∈ c.groups, g.appliesTo context = true ∧ g.Offers entry) ∧
    (∀ entry ∈ c.flatTags context, (c.flatTags context).count entry = 1) ∧
    (c.flatTags context).Pairwise c.ListsBefore := by
  refine ⟨fun entry hentry hspellable => ?_, fun entry => mem_flatTags_iff,
    fun entry => List.count_eq_one_of_mem (nodup_flatTags c context), pairwise_flatTags c context⟩
  obtain ⟨g, hmem, hcontext, hoffers⟩ := mem_flatTags_iff.mp hentry
  have hg : c.group? entry.group = some g := group?_eq_some_iff.mpr ⟨hmem, hoffers.group_eq.symm⟩
  refine ⟨FlatTag.ofExpression_path hoffers hspellable, fun diagnostic =>
    FlatTag.kind_of_mem_diagnostics hg hoffers hspellable hcontext, fun found hfound => ?_⟩
  obtain rfl : g = found := Option.some.inj (hg.symm.trans hfound)
  exact FlatTag.breadcrumb_reference hg hoffers hspellable

/-- A field of the default catalog. -/
theorem flatTags_coherent_of_field :
    let entry : FlatTag :=
      { group := "post".toList, key := "featured_image".toList, label := "Featured image".toList
        path := "@post(featured_image)".toList, breadcrumb := "Post / Featured image".toList
        type := some .image }
    let r : Reference := { group := "post".toList, field := "featured_image".toList }
    (Default.catalog.flatTags (.named "post".toList)).count entry = 1 ∧
      Reading.ofExpression Default.catalog "@post(featured_image)".toList =
        .ok { document := { nodes := [.reference r] }, brokenCount := 0 } ∧
      r.breadcrumb (some Default.catalog) = "Post / Featured image".toList ∧
      r.runningType Default.catalog = some .image := by
  intro entry r
  obtain ⟨hentries, -, hcount, -⟩ :=
    flatTags_coherent Default.catalog (.named "post".toList)
  have hentry : entry ∈ Default.catalog.flatTags (.named "post".toList) := by decide +kernel
  have hspellable : entry.Spellable :=
    ⟨by decide +kernel, by decide, List.all_eq_true.mp (by decide +kernel)⟩
  obtain ⟨hread, -, hlabels⟩ := hentries entry hentry hspellable
  have hg : Default.catalog.group? "post".toList = some Default.post := by rfl
  obtain ⟨hbreadcrumb, htype⟩ :=
    hlabels Default.post hg (by decide) (by decide) fun _ _ => by decide
  exact ⟨hcount entry hentry, hread, hbreadcrumb, htype .image rfl⟩

end Catalog

end TagText
