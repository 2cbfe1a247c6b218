import TagText.Catalog.DefaultGroups
import TagText.Catalog.DefaultModifiers
import TagText.Proofs.Validation.Reports

/-!
Which documents are validated without a diagnostic: those of which every reference has a type. The
rules say what a value must be to stand in a place, how a chain of calls takes one type to another,
and what gives a chain the type that it starts with. An unknown type is none of the rules' business:
every modifier takes a value of it.
-/

namespace TagText

namespace Param

variable {p : Param} {value : Arg}

/-- The value for a place can be left out. -/
def IsOptional (p : Param) : Prop := p.required = true → p.default ≠ .nothing

/-- The values of the type of a place. A choice is made by what a value is written as, in full. -/
inductive Fits (p : Param) : Arg → Prop
  | text {value : Arg} : p.type = .text → Fits p value
  | int {n : Int} : p.type = .number → Fits p (.int n)
  | float {x : Binary64} : p.type = .number → Fits p (.float x)
  | bool {b : Bool} : p.type = .boolean → Fits p (.bool b)
  | choice {value : Arg} {shown : Text} : p.type = .choice → value.plain = .ok shown →
    shown ∈ p.choices → Fits p value

/-- What a call may have at a place: a value of its type or, where the value can be left out, no
    argument, nothing, or an empty text. -/
inductive Takes (p : Param) : Option Arg → Prop
  | absent : p.IsOptional → Takes p none
  | nothing : p.IsOptional → Takes p (some .nothing)
  | empty : p.IsOptional → Takes p (some (.text []))
  | given {value : Arg} : value ≠ .nothing → value ≠ .text [] → p.Fits value → Takes p (some value)

theorem suits_iff : p.suits value = true ↔ p.Fits value := by
  rw [suits]
  constructor
  · intro hsuits
    split at hsuits
    · exact .text ‹_›
    · cases value with
      | int n => exact .int ‹_›
      | float x => exact .float ‹_›
      | _ => cases hsuits
    · cases value with
      | bool b => exact .bool ‹_›
      | _ => cases hsuits
    · cases hplain : value.plain with
      | error e => simp [hplain] at hsuits
      | ok shown => exact .choice ‹_› hplain (by simpa [hplain] using hsuits)
  · rintro (htype | htype | htype | htype | ⟨htype, hplain, hchoice⟩) <;> rw [htype]
    · rfl
    · rfl
    · rfl
    · simpa [hplain] using hchoice

theorem isOptional_iff : p.IsOptional ↔ (p.required && !p.hasDefault) = false := by
  cases hrequired : p.required <;> simp [IsOptional, hasDefault, hrequired]

end Param

theorem Arg.isMissing_iff {value : Arg} :
    value.isMissing = true ↔ value = .nothing ∨ value = .text [] := by
  unfold isMissing
  split <;> simp_all

namespace Modifier

variable {m : Modifier} {p : Param} {value : Arg}

/-- The arguments of a call suit the places that a modifier declares. Arguments beyond those are of
    any kind. -/
def Takes (m : Modifier) (args : List Arg) : Prop :=
  ∀ (i : Nat) (p : Param), m.params[i]? = some p → p.Takes args[i]?

theorem problem?_eq_none_iff : m.problem? p value = none ↔ p.Takes (some value) := by
  rw [problem?]
  cases hmissing : value.isMissing with
  | true =>
    have hoptional : p.IsOptional ↔ p.Takes (some value) := by
      rcases Arg.isMissing_iff.mp hmissing with rfl | rfl
      · refine ⟨.nothing, fun htakes => ?_⟩
        cases htakes with
        | nothing hoptional => exact hoptional
        | given hne => exact absurd rfl hne
      · refine ⟨.empty, fun htakes => ?_⟩
        cases htakes with
        | empty hoptional => exact hoptional
        | given _ hne => exact absurd rfl hne
    rw [← hoptional, Param.isOptional_iff]
    simp
  | false =>
    obtain ⟨hnothing, hempty⟩ : value ≠ .nothing ∧ value ≠ .text [] := by
      rw [← not_or, ← Arg.isMissing_iff, hmissing]
      exact Bool.false_ne_true
    have hfits : p.Fits value ↔ p.Takes (some value) := by
      refine ⟨.given hnothing hempty, fun htakes => ?_⟩
      cases htakes with
      | given _ _ hfits => exact hfits
      | nothing => exact absurd rfl hnothing
      | empty => exact absurd rfl hempty
    rw [← hfits, ← Param.suits_iff]
    simp

theorem problem?_nothing_eq_none_iff : m.problem? p .nothing = none ↔ p.Takes none := by
  rw [problem?_eq_none_iff]
  constructor
  · intro htakes
    cases htakes with
    | nothing hoptional => exact .absent hoptional
    | given hne => exact absurd rfl hne
  · rintro ⟨hoptional⟩
    exact .nothing hoptional

/-- There are no problems with values for places exactly when each suits its place. -/
theorem problemsWith_eq_nil_iff {params : List Param} {values : List Arg} :
    m.problemsWith params values = [] ↔
      ∀ (i : Nat) (p : Param), params[i]? = some p → p.Takes values[i]? := by
  induction params generalizing values with
  | nil => simp [problemsWith]
  | cons first params ih =>
    rw [← Nat.and_forall_add_one]
    cases values with
    | nil =>
      have hrest := @ih []
      simp only [List.getElem?_nil] at hrest ⊢
      simp only [problemsWith, List.append_eq_nil_iff, Option.toList_eq_nil_iff, hrest,
        problem?_nothing_eq_none_iff, List.getElem?_cons_zero, List.getElem?_cons_succ,
        Option.some.injEq, forall_eq']
    | cons value values =>
      simp only [problemsWith, List.append_eq_nil_iff, Option.toList_eq_nil_iff, ih,
        problem?_eq_none_iff, List.getElem?_cons_zero, List.getElem?_cons_succ,
        Option.some.injEq, forall_eq']

theorem argumentProblems_eq_nil_iff {call : Call} :
    m.argumentProblems call = [] ↔ m.Takes call.args :=
  problemsWith_eq_nil_iff

end Modifier

/-- A chain of calls takes a value of one type, if that is known, to a value of another: each
    modifier is known, takes values of the type that it gets and the arguments of its call, and
    gives values of its own type or, without one, of the type that it gets. -/
inductive Catalog.Threads (c : Catalog) :
    Option ValueType → List Call → Option ValueType → Prop
  | nil {type : Option ValueType} : Threads c type [] type
  | call {type last : Option ValueType} {m : Modifier} {call : Call} {calls : List Call} :
    m ∈ c.modifiers → m.key = call.key → (∀ found, type = some found → found ∈ m.accepted) →
    m.Takes call.args → Threads c (m.output.or type) calls last →
    Threads c type (call :: calls) last

/-- A group can be used in a context, if there is one: it lists the name of the context. -/
def Group.Usable (g : Group) (context : Option Context) : Prop :=
  ∀ place, context = some place → ∃ name ∈ g.contexts, place = .named name

/-- A reference has a type, which may be an unknown one: its group is known and can be used, its
    field or, on an empty field, a method of the group gives the chain a type to start with, and the
    chain takes that type to the type of the reference. -/
inductive Reference.HasType (c : Catalog) (context : Option Context) (r : Reference) :
    Option ValueType → Prop
  | field {g : Group} {f : Field} {type : Option ValueType} : g ∈ c.groups → g.key = r.group →
    g.Usable context → r.field ≠ [] → g.Resolves r.field f → c.Threads (some f.type) r.calls type →
    HasType c context r type
  | method {g : Group} {m : Modifier} {call : Call} {calls : List Call} {type : Option ValueType} :
    g ∈ c.groups → g.key = r.group → g.Usable context → r.field = [] → r.calls = call :: calls →
    m ∈ g.methods → m.key = call.key → m.Takes call.args → c.Threads m.output calls type →
    HasType c context r type

namespace Catalog

variable {c : Catalog} {index : Nat} {type : Option ValueType} {calls : List Call}

theorem mismatch?_eq_none_iff {m : Modifier} :
    m.mismatch? type = none ↔ ∀ found, type = some found → found ∈ m.accepted := by
  cases type <;> simp [Modifier.mismatch?, Modifier.accepts]

theorem resultType_eq (m : Modifier) : m.resultType type = m.output.or type := by
  cases houtput : m.output <;> simp [Modifier.resultType, houtput]

/-- A chain has no problems exactly when it takes the type that it starts with to some type. -/
theorem chainProblems_eq_nil_iff :
    c.chainProblems index type calls = [] ↔ ∃ last, c.Threads type calls last := by
  induction calls generalizing index type with
  | nil => exact iff_of_true rfl ⟨type, .nil⟩
  | cons call calls ih =>
    unfold chainProblems
    cases hm : c.modifier? call.key with
    | none =>
      refine iff_of_false (List.cons_ne_nil _ _) ?_
      rintro ⟨last, hchain⟩
      cases hchain with
      | call hmem hkey =>
        rw [modifier?_eq_some_iff.mpr ⟨hmem, hkey⟩] at hm
        cases hm
    | some m =>
      simp only [List.append_eq_nil_iff, List.map_eq_nil_iff, Option.toList_eq_nil_iff, ih,
        mismatch?_eq_none_iff, Modifier.argumentProblems_eq_nil_iff, resultType_eq]
      obtain ⟨hmem, hkey⟩ := modifier?_eq_some_iff.mp hm
      constructor
      · rintro ⟨⟨haccepts, htakes⟩, last, hrest⟩
        exact ⟨last, .call hmem hkey haccepts htakes hrest⟩
      · rintro ⟨last, hchain⟩
        cases hchain with
        | @call _ _ other _ _ hother hsame haccepts htakes hrest =>
          have hfound := modifier?_eq_some_iff.mpr ⟨hother, hsame⟩
          obtain rfl : m = other := Option.some.inj (hm.symm.trans hfound)
          exact ⟨⟨haccepts, htakes⟩, last, hrest⟩

/-- The type that the rules give a chain is the one that is worked out for it. -/
theorem Threads.threadType_eq {last : Option ValueType} (hchain : c.Threads type calls last) :
    c.threadType type calls = last := by
  induction hchain with
  | nil => rfl
  | call hmem hkey _ _ _ ih =>
    rw [threadType, modifier?_eq_some_iff.mpr ⟨hmem, hkey⟩]
    simp only [resultType_eq, ih]

theorem methodProblems_eq_nil_iff {m : Modifier} {call : Call} :
    c.methodProblems m call calls = [] ↔
      m.Takes call.args ∧ ∃ last, c.Threads m.output calls last := by
  rw [methodProblems, List.append_eq_nil_iff, List.map_eq_nil_iff,
    Modifier.argumentProblems_eq_nil_iff, chainProblems_eq_nil_iff]

end Catalog

namespace Reference

variable {c : Catalog} {context : Option Context} {r : Reference}

theorem applicability?_eq_none_iff {g : Group} :
    applicability? g context = none ↔ g.Usable context := by
  cases context with
  | none => simp [applicability?, Group.Usable]
  | some place => cases place <;> simp [applicability?, Group.Usable, Group.appliesTo]

/-- A reference of a known group has a type by the rules for that group. -/
theorem hasType_iff {g : Group} (hg : c.group? r.group = some g) {type : Option ValueType} :
    r.HasType c context type ↔ g.Usable context ∧
      ((r.field ≠ [] ∧ ∃ f, g.field? r.field = some f ∧ c.Threads (some f.type) r.calls type) ∨
        (r.field = [] ∧ ∃ call calls m, r.calls = call :: calls ∧ g.method? call.key = some m ∧
          m.Takes call.args ∧ c.Threads m.output calls type)) := by
  obtain ⟨hmem, hkey⟩ := Catalog.group?_eq_some_iff.mp hg
  have hsame : ∀ other ∈ c.groups, other.key = r.group → other = g := by
    intro other hother hsame
    have hfound := Catalog.group?_eq_some_iff.mpr ⟨hother, hsame⟩
    exact Option.some.inj (hfound.symm.trans hg)
  simp only [Group.field?_eq_some_iff, Group.method?_eq_some_iff]
  constructor
  · intro htype
    cases htype with
    | field hother hgroup husable hfield hresolves hchain =>
      obtain rfl := hsame _ hother hgroup
      exact ⟨husable, Or.inl ⟨hfield, _, hresolves, hchain⟩⟩
    | method hother hgroup husable hfield hcalls hm hcall htakes hchain =>
      obtain rfl := hsame _ hother hgroup
      exact ⟨husable, Or.inr ⟨hfield, _, _, _, hcalls, ⟨hm, hcall⟩, htakes, hchain⟩⟩
  · rintro ⟨husable, ⟨hfield, f, hresolves, hchain⟩ |
      ⟨hfield, call, calls, m, hcalls, ⟨hm, hcall⟩, htakes, hchain⟩⟩
    · exact .field hmem hkey husable hfield hresolves hchain
    · exact .method hmem hkey husable hfield hcalls hm hcall htakes hchain

/-- The type that the rules give a reference is the one that is worked out for it. -/
theorem HasType.runningType_eq {type : Option ValueType} (htype : r.HasType c context type) :
    r.runningType c = type := by
  cases htype with
  | field hmem hkey _ hfield hresolves hchain =>
    rw [runningType, Catalog.group?_eq_some_iff.mpr ⟨hmem, hkey⟩]
    simp [hfield, Group.field?_eq_some_iff.mpr hresolves, hchain.threadType_eq]
  | method hmem hkey _ hfield hcalls hm hcall _ hchain =>
    rw [runningType, Catalog.group?_eq_some_iff.mpr ⟨hmem, hkey⟩]
    simp [hfield, hcalls, Group.method?_eq_some_iff.mpr ⟨hm, hcall⟩, hchain.threadType_eq]

/-- A reference has no problems exactly when it has a type. -/
theorem problems_eq_nil_iff :
    (r.problems c context).1 = [] ∧ (r.problems c context).2 = [] ↔
      ∃ type, r.HasType c context type := by
  unfold problems
  cases hg : c.group? r.group with
  | none =>
    refine iff_of_false (fun h => List.cons_ne_nil _ _ h.1) ?_
    have hnone : ∀ g ∈ c.groups, g.key ≠ r.group := by
      intro g hmem hkey
      rw [Catalog.group?_eq_some_iff.mpr ⟨hmem, hkey⟩] at hg
      cases hg
    rintro ⟨type, ⟨hmem, hkey⟩ | ⟨hmem, hkey⟩⟩ <;> exact hnone _ hmem hkey
  | some g =>
    simp only [hasType_iff hg]
    cases hfield : r.field with
    | cons letter field =>
      cases hf : g.field? (letter :: field) with
      | none => simp
      | some f => simp [Catalog.chainProblems_eq_nil_iff, applicability?_eq_none_iff]
    | nil =>
      cases hcalls : r.calls with
      | nil => simp
      | cons call calls =>
        cases hm : g.method? call.key with
        | none => simp [hm]
        | some m => simp [hm, Catalog.methodProblems_eq_nil_iff, applicability?_eq_none_iff]

theorem diagnostics_eq_nil_iff {index : Nat} :
    r.diagnostics c context index = [] ↔ ∃ type, r.HasType c context type := by
  rw [← problems_eq_nil_iff, diagnostics, List.append_eq_nil_iff, List.map_eq_nil_iff,
    List.map_eq_nil_iff]

end Reference

namespace Document

variable {c : Catalog} {context : Option Context}

theorem diagnosticsFrom_eq_nil_iff {start : Nat} {references : List Reference} :
    diagnosticsFrom c context start references = [] ↔
      ∀ r ∈ references, ∃ type, r.HasType c context type := by
  induction references generalizing start with
  | nil => simp [diagnosticsFrom]
  | cons r references ih =>
    rw [diagnosticsFrom, List.append_eq_nil_iff, Reference.diagnostics_eq_nil_iff, ih,
      List.forall_mem_cons]

/-- Nothing is found in a document exactly when each of its references has a type. -/
theorem validate_eq_nil_iff_hasType {d : Document} : d.validate c context = .ok [] ↔
    ∀ r, .reference r ∈ d.nodes → ∃ type, r.HasType c context type := by
  have htyped : d.diagnostics c context = [] ↔
      ∀ r, .reference r ∈ d.nodes → ∃ type, r.HasType c context type := by
    simp only [diagnostics, diagnosticsFrom_eq_nil_iff, mem_references]
  rw [validate_eq_ok_iff, ← htyped, eq_comm, ← @unreportable_diagnostics_iff c context]
  refine and_iff_left_of_imp fun hnone => ?_
  rw [hnone]
  rintro ⟨diagnostic, hdiagnostic, -⟩
  cases hdiagnostic

/-- A method with its argument and a modifier that takes its texts, and the same method without the
    argument, which it requires. -/
theorem validate_eq_nil_of_method :
    let c := Default.catalog
    let context : Option Context := some (.named "post".toList)
    let metaOf (args : List Arg) : Call := { key := "meta".toList, args }
    let capitalize : Call := { key := "capitalize".toList }
    let r : Reference :=
      { group := "post".toList, calls := [metaOf [.text "views".toList], capitalize] }
    let bare : Reference := { group := "post".toList, calls := [metaOf []] }
    r.HasType c context (some .text) ∧
      ({ nodes := [.text "Hi ".toList 0, .reference r] } : Document).validate c context = .ok [] ∧
      (∀ type, ¬ bare.HasType c context type) ∧
      ({ nodes := [.reference r, .reference bare] } : Document).validate c context ≠ .ok [] := by
  intro c context metaOf capitalize r bare
  have hgroup : Default.post ∈ c.groups ∧ Default.post.key = r.group :=
    Catalog.group?_eq_some_iff.mp rfl
  have husable : Default.post.Usable context := by
    intro place hplace
    exact ⟨"post".toList, List.mem_cons_self, (Option.some.inj hplace).symm⟩
  have hmeta : (Default.metaData "Post meta").Takes [.text "views".toList] := by
    rintro (_ | i) p hp
    · obtain rfl := Option.some.inj hp
      exact .given (by decide) (by decide) (.text rfl)
    · cases hp
  have hcapitalize : c.Threads (some .text) [capitalize] (some .text) := by
    let m : Modifier :=
      { key := "capitalize".toList, label := "Capitalize".toList, accepted := [.text]
        category := "text".toList }
    have hm : c.modifier? capitalize.key = some m := rfl
    obtain ⟨hmem, hkey⟩ := Catalog.modifier?_eq_some_iff.mp hm
    refine .call hmem hkey ?_ (fun _ _ hp => by cases hp) .nil
    rintro found ⟨⟩
    exact List.mem_cons_self
  have htype : r.HasType c context (some .text) :=
    .method hgroup.1 hgroup.2 husable rfl rfl List.mem_cons_self rfl hmeta hcapitalize
  have hvalid := @validate_eq_nil_iff_hasType c context
  have hbare : ({ nodes := [.reference bare] } : Document).validate c context ≠ .ok [] := by
    decide +kernel
  have hnone : ∀ type, ¬ bare.HasType c context type := by
    intro type hbaretype
    refine hbare (hvalid.mpr fun other hother => ?_)
    obtain rfl : other = bare := by simpa using hother
    exact ⟨type, hbaretype⟩
  refine ⟨htype, hvalid.mpr fun other hother => ?_, hnone, fun hboth => ?_⟩
  · obtain rfl : other = r := by simpa using hother
    exact ⟨_, htype⟩
  · obtain ⟨type, hbaretype⟩ := hvalid.mp hboth bare (by simp)
    exact hnone type hbaretype

end Document

end TagText
