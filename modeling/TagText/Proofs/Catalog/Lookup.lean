import Mathlib.Data.List.Nodup
import TagText.Catalog.Basic

/-!
What is found under a key. Items that are registered together have different keys, so that looking a
key up finds the one item that has it, wherever it stands.
-/

namespace TagText

/-- Among items with different keys, looking a key up finds the item that has it. -/
theorem find?_key_eq_some_iff {α : Type} {key : α → Text} {items : List α}
    (hnodup : (items.map key).Nodup) {word : Text} {item : α} :
    (items.find? fun other => key other == word) = some item ↔ item ∈ items ∧ key item = word := by
  constructor
  · intro hfind
    exact ⟨List.mem_of_find?_eq_some hfind, by simpa using List.find?_some hfind⟩
  · rintro ⟨hitem, rfl⟩
    obtain ⟨found, hfound⟩ :
        ∃ found, (items.find? fun other => key other == key item) = some found := by
      rw [← Option.isSome_iff_exists, List.find?_isSome]
      exact ⟨item, hitem, beq_self_eq_true _⟩
    have hkey : key found = key item := by simpa using List.find?_some hfound
    obtain rfl := List.inj_on_of_nodup_map hnodup (List.mem_of_find?_eq_some hfound) hitem hkey
    exact hfound

/-- Among entries with different names, the entry of a name is the one that stands there. -/
theorem Assoc.get?_eq_some_iff {κ α : Type} [DecidableEq κ] {entries : Assoc κ α}
    (hnodup : entries.names.Nodup) {name : κ} {value : α} :
    entries.get? name = some value ↔ (name, value) ∈ entries := by
  induction entries with
  | nil => simp [get?]
  | cons entry entries ih =>
    obtain ⟨other, old⟩ := entry
    rw [names, List.map_cons, List.nodup_cons] at hnodup
    obtain ⟨hfresh, hnodup⟩ := hnodup
    rw [get?, List.lookup_cons, List.mem_cons, Prod.mk.injEq]
    by_cases hname : name = other
    · subst hname
      have hnone : (name, value) ∉ entries := fun hmem => hfresh (List.mem_map.mpr ⟨_, hmem, rfl⟩)
      simp [hnone, eq_comm]
    · have hother : (name == other) = false := by simpa using hname
      simp only [hother, hname, false_and, false_or]
      exact ih hnodup

namespace Group

variable {g : Group} {key : Text} {f : Field} {m : Modifier}

/-- A key stands for a field of a group: it is an alias of the field's key, or it is no alias and
    the field's key itself. -/
inductive Resolves (g : Group) (key : Text) (f : Field) : Prop
  | target : (key, f.key) ∈ g.aliases → f ∈ g.fields → Resolves g key f
  | own : key ∉ g.aliases.names → f.key = key → f ∈ g.fields → Resolves g key f

theorem field?_eq_some_iff : g.field? key = some f ↔ g.Resolves key f := by
  rw [field?, find?_key_eq_some_iff g.fields_nodup, canonicalKey]
  cases htarget : g.aliases.get? key with
  | some target =>
    have hmem := (Assoc.get?_eq_some_iff g.aliases_nodup).mp htarget
    constructor
    · rintro ⟨hf, rfl⟩
      exact .target hmem hf
    · rintro (⟨halias, hf⟩ | ⟨hfresh, -, -⟩)
      · have hsame := (Assoc.get?_eq_some_iff g.aliases_nodup).mpr halias
        exact ⟨hf, Option.some.inj (hsame.symm.trans htarget)⟩
      · exact absurd (List.mem_map_of_mem hmem) hfresh
  | none =>
    have hnone : ∀ target, (key, target) ∉ g.aliases := by
      intro target hmem
      rw [(Assoc.get?_eq_some_iff g.aliases_nodup).mpr hmem] at htarget
      cases htarget
    constructor
    · rintro ⟨hf, hkey⟩
      refine .own (fun hmem => ?_) hkey hf
      obtain ⟨⟨_, target⟩, hentry, rfl⟩ := List.mem_map.mp hmem
      exact hnone target hentry
    · rintro (⟨halias, -⟩ | ⟨-, hkey, hf⟩)
      · exact absurd halias (hnone _)
      · exact ⟨hf, hkey⟩

/-- The key of a field stands for a field, though it can be an alias of another one. -/
theorem exists_resolves_of_mem (hf : f ∈ g.fields) : ∃ found, g.Resolves f.key found := by
  by_cases halias : f.key ∈ g.aliases.names
  · obtain ⟨⟨_, target⟩, hentry, rfl⟩ := List.mem_map.mp halias
    obtain ⟨found, hfound, rfl⟩ := List.mem_map.mp (g.aliases_resolve _ hentry)
    exact ⟨found, .target hentry hfound⟩
  · exact ⟨f, .own halias rfl hf⟩

theorem method?_eq_some_iff : g.method? key = some m ↔ m ∈ g.methods ∧ m.key = key :=
  find?_key_eq_some_iff g.methods_nodup

end Group

namespace Catalog

variable {c : Catalog} {key : Text} {g : Group} {m : Modifier}

theorem group?_eq_some_iff : c.group? key = some g ↔ g ∈ c.groups ∧ g.key = key :=
  find?_key_eq_some_iff c.groups_nodup

theorem modifier?_eq_some_iff : c.modifier? key = some m ↔ m ∈ c.modifiers ∧ m.key = key :=
  find?_key_eq_some_iff c.modifiers_nodup

end Catalog

end TagText
