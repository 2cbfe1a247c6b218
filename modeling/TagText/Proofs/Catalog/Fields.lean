import TagText.Catalog.FlatTag
import TagText.Proofs.Catalog.Lookup
import TagText.Proofs.Validation.Names

/-!
Reaching the fields of a group that can be declared. An alias always reaches its target, and a key
that is neither of a field nor an alias reaches nothing. A field is reached under its own key unless
an alias of that key points elsewhere, which no check of the declaration keeps out; what is found
then decides about the type of a reference and about what is reported for it.
-/

namespace TagText

namespace Group

variable {g : Group} {f found : Field} {word : Text}

/-- An alias of a group is the key of a field and points to another one. -/
def Hides (g : Group) (f : Field) : Prop :=
  ∃ target, (f.key, target) ∈ g.aliases ∧ target ≠ f.key

/-- References to a key of a group start their chains with a type, in every catalog that has the
    group: both for their own type and for what is reported for them. -/
def Starts (g : Group) (word : Text) (type : ValueType) : Prop :=
  ∀ (c : Catalog) (context : Option Context) (r : Reference),
    c.group? g.key = some g → r.group = g.key → r.field = word →
    r.runningType c = c.threadType (some type) r.calls ∧
      r.problems c context =
        ((Reference.applicability? g context).toList, c.chainProblems 0 (some type) r.calls)

/-- A group that is declared has what it is declared with; of several targets for an alias it keeps
    the last. -/
theorem declare_eq_ok {key label icon : Text} {contexts : List Text} {fields : List Field}
    {methods : List Modifier} {aliases : Assoc Text Text}
    (hg : declare key label icon contexts fields methods aliases = .ok g) :
    g.fields = fields ∧ g.aliases = Assoc.ofPairs aliases := by
  unfold declare at hg
  split at hg
  · cases hg
  · split at hg
    · cases hg
    · dsimp only at hg
      split at hg
      · cases hg
      · cases hg
        exact ⟨rfl, rfl⟩

theorem field?_key_eq_some_iff (hf : f ∈ g.fields) : g.field? f.key = some f ↔ ¬ g.Hides f := by
  rw [field?_eq_some_iff]
  constructor
  · rintro (⟨halias, -⟩ | ⟨hfresh, -, -⟩) ⟨target, hmem, hne⟩
    · have hsame := (Assoc.get?_eq_some_iff g.aliases_nodup).mpr halias
      have hother := (Assoc.get?_eq_some_iff g.aliases_nodup).mpr hmem
      exact hne (Option.some.inj (hother.symm.trans hsame))
    · exact hfresh (List.mem_map_of_mem hmem)
  · intro hvisible
    by_cases halias : f.key ∈ g.aliases.names
    · obtain ⟨⟨_, target⟩, hmem, rfl⟩ := List.mem_map.mp halias
      have htarget : target = f.key := by
        by_contra hne
        exact hvisible ⟨target, hmem, hne⟩
      exact .target (htarget ▸ hmem) hf
    · exact .own halias rfl hf

theorem exists_field?_alias {name target : Text} (halias : (name, target) ∈ g.aliases) :
    ∃ f ∈ g.fields, f.key = target ∧ g.field? name = some f := by
  obtain ⟨f, hf, rfl⟩ := List.mem_map.mp (g.aliases_resolve _ halias)
  exact ⟨f, hf, rfl, field?_eq_some_iff.mpr (.target halias hf)⟩

theorem field?_eq_none (hkey : word ∉ g.fields.map Field.key) (halias : word ∉ g.aliases.names) :
    g.field? word = none := by
  refine Option.eq_none_iff_forall_ne_some.mpr fun f hfound => ?_
  rcases field?_eq_some_iff.mp hfound with ⟨hmem, -⟩ | ⟨-, rfl, hf⟩
  · exact halias (List.mem_map_of_mem hmem)
  · exact hkey (List.mem_map_of_mem hf)

/-- What is found under a key that is not empty gives references to the key their first type. -/
theorem starts_of_field? (hword : word ≠ []) (hfound : g.field? word = some found) :
    g.Starts word found.type := by
  rintro c context r hg hgroup rfl
  rw [← hgroup] at hg
  refine ⟨?_, Reference.problems_of_field hg hword hfound⟩
  simp [Reference.runningType, hg, hword, hfound]

/-- A group without a field and a method behind it has no type, also where a field has the empty
    key. -/
theorem of_field_empty {c : Catalog} {context : Option Context} {r : Reference}
    (hg : c.group? r.group = some g) (hfield : r.field = []) (hcalls : r.calls = []) :
    r.runningType c = none ∧
      r.problems c context =
        ((Reference.applicability? g context).toList ++ [.noField r.group], []) := by
  constructor
  · simp [Reference.runningType, hg, hfield, hcalls]
  · simp [Reference.problems, hg, hfield, hcalls]

/-- What the keys of a declared group reach: under its own key a field is found exactly when no
    alias of the key points to another field; an alias finds the field of its target; a key that is
    neither finds none. Under a key that is not empty, references have the type of the field that is
    found, and the checks go by it; an empty one stands for the group itself. -/
theorem reaches_of_declare {key label icon : Text} {contexts : List Text} {fields : List Field}
    {methods : List Modifier} {aliases : Assoc Text Text}
    (hg : declare key label icon contexts fields methods aliases = .ok g) :
    (∀ f ∈ fields, g.field? f.key = some f ↔ ¬ g.Hides f) ∧
      (∀ entry ∈ Assoc.ofPairs aliases, ∃ f ∈ fields, f.key = entry.2 ∧
        g.field? entry.1 = some f) ∧
      (∀ word, word ∉ fields.map Field.key → word ∉ (Assoc.ofPairs aliases).names →
        g.field? word = none) ∧
      (∀ word found, word ≠ [] → g.field? word = some found → g.Starts word found.type) ∧
      ∀ (c : Catalog) (context : Option Context) (r : Reference),
        c.group? r.group = some g → r.field = [] → r.calls = [] →
        r.runningType c = none ∧
          r.problems c context =
            ((Reference.applicability? g context).toList ++ [.noField r.group], []) := by
  obtain ⟨rfl, haliases⟩ := declare_eq_ok hg
  rw [← haliases]
  exact ⟨fun _ => field?_key_eq_some_iff, fun _ => exists_field?_alias, fun _ => field?_eq_none,
    fun _ _ => starts_of_field?, fun _ _ _ => of_field_empty⟩

/-- An alias with the key of one field and the target of another: the listing shows the one with its
    type, and its path has the type of the other. -/
theorem reaches_of_declare_hidden :
    let name : Field := { key := "name".toList, type := .text }
    let price : Field := { key := "price".toList, type := .number }
    let g : Group := { key := ['g'], fields := [name, price], aliases := [(name.key, price.key)] }
    let c : Catalog := { groups := [g] }
    let r : Reference := { group := ['g'], field := name.key }
    declare ['g'] [] [] [] [name, price] [] [(name.key, price.key)] = .ok g ∧
      g.Hides name ∧ g.field? name.key = some price ∧ g.field? name.key ≠ some name ∧
      r.runningType c = some .number ∧ name.flatTag g ∈ g.flatTags ∧
      (name.flatTag g).path = "@g(name)".toList ∧ (name.flatTag g).type = some .text := by
  intro name price g c r
  have hdeclared : declare ['g'] [] [] [] [name, price] [] [(name.key, price.key)] = .ok g := rfl
  obtain ⟨hown, halias, -, hstarts, -⟩ := reaches_of_declare hdeclared
  have hhides : g.Hides name := ⟨price.key, List.mem_singleton_self _, by decide⟩
  have hne : g.field? name.key ≠ some name := fun hsame =>
    (hown name List.mem_cons_self).mp hsame hhides
  have hfound : g.field? name.key = some price := by
    obtain ⟨f, hf, hkey, hfound⟩ := halias (name.key, price.key) (List.mem_singleton_self _)
    rcases List.mem_pair.mp hf with rfl | rfl
    · exact absurd hkey (by decide)
    · exact hfound
  have htype := (hstarts name.key price (by decide) hfound c none r rfl rfl rfl).1
  exact ⟨hdeclared, hhides, hfound, hne, htype, List.mem_cons_self, rfl, rfl⟩

end Group

end TagText
