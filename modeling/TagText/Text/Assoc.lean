import TagText.Text.Basic

/-!
Lists of named entries in the order in which the names first came up. Writing an entry again keeps
its place.
-/

namespace TagText

/-- Entries of a type by names of a type. -/
abbrev Assoc (κ α : Type) := List (κ × α)

namespace Assoc

variable {κ α : Type} [DecidableEq κ]

/-- The names of the entries. -/
def names (entries : Assoc κ α) : List κ := entries.map Prod.fst

/-- The entry of a name. -/
def get? (entries : Assoc κ α) (name : κ) : Option α := entries.lookup name

/-- Sets the entry of a name: in its place if there is one, else at the end. -/
def put (entries : Assoc κ α) (name : κ) (value : α) : Assoc κ α :=
  match entries with
  | [] => [(name, value)]
  | (other, old) :: entries =>
    if other = name then (name, value) :: entries else (other, old) :: put entries name value

/-- Sets entries one after the other, so that of several for one name the last counts. -/
def putAll (entries : Assoc κ α) : Assoc κ α → Assoc κ α
  | [] => entries
  | (name, value) :: more => putAll (entries.put name value) more

/-- Entries by name from pairs in any order and number. -/
def ofPairs (pairs : List (κ × α)) : Assoc κ α := putAll [] pairs

theorem get?_cons (entries : Assoc κ α) (key name : κ) (value : α) :
    get? ((key, value) :: entries) name = if name = key then some value else get? entries name := by
  rw [get?, get?, List.lookup_cons]
  by_cases heq : name = key
  · rw [if_pos heq, beq_iff_eq.mpr heq]
  · rw [if_neg heq, beq_eq_false_iff_ne.mpr heq]

/-- Setting an entry changes that one and no other. -/
theorem get?_put (entries : Assoc κ α) (name other : κ) (value : α) :
    (entries.put name value).get? other =
      if other = name then some value else entries.get? other := by
  induction entries with
  | nil => rw [put, get?_cons]
  | cons entry entries ih =>
    obtain ⟨key, old⟩ := entry
    rw [put, get?_cons entries]
    split
    · rename_i hkey
      rw [get?_cons, hkey]
      split <;> rfl
    · rename_i hkey
      rw [get?_cons, ih]
      by_cases heq : other = key
      · rw [if_pos heq, if_pos heq, if_neg (heq ▸ hkey)]
      · rw [if_neg heq, if_neg heq]

theorem mem_names_put {entries : Assoc κ α} {name other : κ} {value : α} :
    other ∈ (entries.put name value).names ↔ other = name ∨ other ∈ entries.names := by
  induction entries with
  | nil => simp [put, names]
  | cons entry entries ih =>
    obtain ⟨key, old⟩ := entry
    simp only [names, List.map_cons, List.mem_cons] at ih ⊢
    rw [put]
    split
    · rename_i heq
      simp [heq]
    · simp only [List.map_cons, List.mem_cons, ih]
      constructor
      · rintro (h | h | h) <;> simp [h]
      · rintro (h | h | h) <;> simp [h]

/-- Setting an entry keeps the names apart. -/
theorem nodup_names_put {entries : Assoc κ α} (hnodup : entries.names.Nodup) (name : κ)
    (value : α) : (entries.put name value).names.Nodup := by
  induction entries with
  | nil => simp [put, names]
  | cons entry entries ih =>
    obtain ⟨key, old⟩ := entry
    rw [names, List.map_cons, List.nodup_cons] at hnodup
    rw [put]
    split
    · rename_i heq
      subst heq
      simpa [names] using hnodup
    · rename_i hne
      simp only [names, List.map_cons, List.nodup_cons]
      refine ⟨fun hmem => ?_, ih hnodup.2⟩
      rcases mem_names_put.1 hmem with h | h
      · exact hne h
      · exact hnodup.1 h

theorem nodup_names_putAll {entries : Assoc κ α} (hnodup : entries.names.Nodup) (more : Assoc κ α) :
    (entries.putAll more).names.Nodup := by
  induction more generalizing entries with
  | nil => exact hnodup
  | cons entry more ih =>
    obtain ⟨name, value⟩ := entry
    exact ih (nodup_names_put hnodup name value)

theorem nodup_names_ofPairs (pairs : List (κ × α)) : (ofPairs pairs).names.Nodup :=
  have hempty : (names ([] : Assoc κ α)).Nodup := List.nodup_nil
  nodup_names_putAll hempty pairs

end Assoc

end TagText
