import Mathlib.Data.List.Nodup
import TagText.Catalog.FlatTag
import TagText.Proofs.Catalog.Lookup

/-!
What the flat listing holds, and in which order. Every field and every method of the groups for a
context is listed once: the groups as they are registered, in each group the fields and then the
methods, both as they are declared.
-/

namespace TagText

/-- An entry is that of a field or of a method of a group. -/
inductive Group.Offers (g : Group) : FlatTag → Prop
  | field {f : Field} : f ∈ g.fields → Offers g (f.flatTag g)
  | method {m : Modifier} : m ∈ g.methods → Offers g (m.flatTag g)

/-- An entry comes before another one: its group is registered first, or both are of one group, and
    it is declared first among the fields or among the methods or is a field in front of a
    method. -/
inductive Catalog.ListsBefore (c : Catalog) : FlatTag → FlatTag → Prop
  | groups {g h : Group} {first second : FlatTag} : [g, h].Sublist c.groups → g.Offers first →
    h.Offers second → ListsBefore c first second
  | fields {g : Group} {first second : Field} : g ∈ c.groups → [first, second].Sublist g.fields →
    ListsBefore c (first.flatTag g) (second.flatTag g)
  | kinds {g : Group} {f : Field} {m : Modifier} : g ∈ c.groups → f ∈ g.fields → m ∈ g.methods →
    ListsBefore c (f.flatTag g) (m.flatTag g)
  | methods {g : Group} {first second : Modifier} : g ∈ c.groups →
    [first, second].Sublist g.methods → ListsBefore c (first.flatTag g) (second.flatTag g)

/-- Of items with different keys, one that stands before another has another key. -/
theorem key_ne_of_sublist {α : Type} {key : α → Text} {items : List α}
    (hnodup : (items.map key).Nodup) {first second : α} (hbefore : [first, second].Sublist items) :
    key first ≠ key second :=
  List.pairwise_iff_forall_sublist.mp (List.pairwise_map.mp hnodup) hbefore

namespace Group

variable {g : Group} {entry : FlatTag}

theorem Offers.group_eq (hoffers : g.Offers entry) : entry.group = g.key := by
  cases hoffers <;> rfl

theorem mem_flatTags_iff : entry ∈ g.flatTags ↔ g.Offers entry := by
  rw [flatTags, List.mem_append, List.mem_map, List.mem_map]
  constructor
  · rintro (⟨f, hf, rfl⟩ | ⟨m, hm, rfl⟩)
    · exact .field hf
    · exact .method hm
  · rintro (hf | hm)
    · exact Or.inl ⟨_, hf, rfl⟩
    · exact Or.inr ⟨_, hm, rfl⟩

theorem pairwise_flatTags {c : Catalog} (hg : g ∈ c.groups) :
    g.flatTags.Pairwise c.ListsBefore := by
  refine List.pairwise_append.mpr ⟨?_, ?_, ?_⟩
  · exact List.pairwise_map.mpr (List.pairwise_iff_forall_sublist.mpr (.fields hg))
  · exact List.pairwise_map.mpr (List.pairwise_iff_forall_sublist.mpr (.methods hg))
  · intro first hfirst second hsecond
    obtain ⟨f, hf, rfl⟩ := List.mem_map.mp hfirst
    obtain ⟨m, hm, rfl⟩ := List.mem_map.mp hsecond
    exact .kinds hg hf hm

end Group

namespace Catalog

variable {c : Catalog} {context : Context} {entry first second : FlatTag}

theorem mem_flatTags_iff : entry ∈ c.flatTags context ↔
    ∃ g ∈ c.groups, g.appliesTo context = true ∧ g.Offers entry := by
  simp only [flatTags, groupsFor, List.mem_flatMap, List.mem_filter, Group.mem_flatTags_iff,
    and_assoc]

/-- The listing is in order. -/
theorem pairwise_flatTags (c : Catalog) (context : Context) :
    (c.flatTags context).Pairwise c.ListsBefore := by
  refine List.pairwise_flatMap.mpr ⟨fun g hg => ?_, ?_⟩
  · exact Group.pairwise_flatTags (List.mem_filter.mp hg).1
  · refine List.pairwise_iff_forall_sublist.mpr fun {g h} hbefore first hfirst second hsecond => ?_
    exact .groups (hbefore.trans List.filter_sublist) (Group.mem_flatTags_iff.mp hfirst)
      (Group.mem_flatTags_iff.mp hsecond)

/-- No entry comes before itself: two entries differ in their groups, in their keys or in having a
    type. -/
theorem ListsBefore.ne (hbefore : c.ListsBefore first second) : first ≠ second := by
  cases hbefore with
  | groups hgroups hfirst hsecond =>
    rintro rfl
    exact key_ne_of_sublist c.groups_nodup hgroups (hfirst.group_eq.symm.trans hsecond.group_eq)
  | @fields g first second hg hfields =>
    exact fun heq => key_ne_of_sublist g.fields_nodup hfields (congrArg FlatTag.key heq)
  | kinds => exact fun heq => Option.some_ne_none _ (congrArg FlatTag.type heq)
  | @methods g first second hg hmethods =>
    exact fun heq => key_ne_of_sublist g.methods_nodup hmethods (congrArg FlatTag.key heq)

/-- Nothing is listed twice. -/
theorem nodup_flatTags (c : Catalog) (context : Context) : (c.flatTags context).Nodup :=
  (pairwise_flatTags c context).imp ListsBefore.ne

end Catalog

end TagText
