import TagText.Proofs.Reading.Parts

/-!
What an argument is read as, place by place. The signature of a modifier declares a place for each
index of an argument, and a reference is read as a whole exactly when each of its arguments is read
at its place.
-/

namespace TagText

/-- The signature of the modifier at an index of a chain: for the first modifier on an empty field
    the method of the group, if the group has one of the key, and else the modifier of the key. -/
def Catalog.signature? (c : Catalog) (group field : Text) (index : Nat) (key : Text) :
    Option Modifier :=
  if field = [] ∧ index = 0 ∧ (c.method? group key).isSome then c.method? group key
  else c.modifier? key

/-- The place that is declared for an argument of the modifier at an index of a chain. -/
def Catalog.place? (c : Catalog) (group field : Text) (index : Nat) (key : Text)
    (argument : Nat) : Option Param :=
  (c.signature? group field index key).bind fun m => m.params[argument]?

/-- A text as an argument at a place; where no place is declared, it stays a text. -/
def Arg.atPlace (place : Option Param) (raw : Text) : Except ConversionError Arg :=
  match place with
  | some p => ofText p.type raw
  | none => .ok (text raw)

/-- A call at an index of a chain on a group's field that carries a key and the texts of arguments:
    each argument is what its text is read as at its place. -/
structure Call.Carries (c : Catalog) (group field : Text) (index : Nat) (word : Text)
    (texts : List Text) (call : Call) : Prop where
  key : call.key = word
  args : call.args.map Except.ok =
    texts.mapIdx fun j s => Arg.atPlace (c.place? group field index word j) s

/-- What a call carries does not depend on where it stands. -/
theorem Call.Carries.at_position {c : Catalog} {group field : Text} {index : Nat} {word : Text}
    {texts : List Text} {call : Call} (hcarries : Call.Carries c group field index word texts call)
    (position : Int) : Call.Carries c group field index word texts { call with position } :=
  ⟨hcarries.key, hcarries.args⟩

/-- A reference that carries the group and the field of what was derived, and its calls in order. -/
structure Reference.Carries (c : Catalog) (raw : RawReference) (r : Reference) : Prop where
  group : r.group = raw.group
  field : r.field = raw.field
  calls : List.Forall₂
    (fun (call, i) again => Call.Carries c raw.group raw.field i call.key call.args again)
    raw.calls.zipIdx r.calls

theorem Catalog.declaration?_eq (c : Catalog) (group field : Text) (index : Nat) (key : Text) :
    c.declaration? group field (index = 0) key = c.signature? group field index key := by
  unfold declaration? signature?
  cases field with
  | cons => simp
  | nil =>
    cases index with
    | succ index => simp
    | zero => cases hmethod : c.method? group key <;> simp

theorem Arg.ofTexts_cons (params : List Param) (raw : Text) (raws : List Text) :
    ofTexts params (raw :: raws) = do
      let a ← atPlace params[0]? raw
      let args ← ofTexts params.tail raws
      return a :: args := by
  cases params <;> rfl

/-- Texts are read as arguments exactly when each is read at the place of its index. -/
theorem Arg.ofTexts_eq_ok_iff {params : List Param} {raws : List Text} {args : List Arg} :
    ofTexts params raws = .ok args ↔
      args.map Except.ok = raws.mapIdx fun j s => atPlace params[j]? s := by
  induction raws generalizing params args with
  | nil => cases params <;> simp [ofTexts, eq_comm]
  | cons raw raws ih =>
    have hplaces : (fun j s => atPlace params[j + 1]? s) =
        fun j s => atPlace params.tail[j]? s := by simp
    rw [ofTexts_cons, bind_eq_ok_iff, List.mapIdx_cons, hplaces]
    constructor
    · rintro ⟨a, ha, hread⟩
      obtain ⟨rest, hrest, heq⟩ := bind_eq_ok_iff.mp hread
      cases heq
      rw [List.map_cons, ha, ih.mp hrest]
    · intro hplaced
      cases args with
      | nil => cases hplaced
      | cons a args =>
        obtain ⟨ha, hargs⟩ := List.cons.inj hplaced
        exact ⟨a, ha.symm, bind_eq_ok_iff.mpr ⟨args, ih.mpr hargs, rfl⟩⟩

theorem Arg.ofTexts_signature_iff {signature : Option Modifier} {raws : List Text}
    {args : List Arg} :
    ofTexts ((signature.map Modifier.params).getD []) raws = .ok args ↔
      args.map Except.ok =
        raws.mapIdx fun j s => atPlace (signature.bind fun m => m.params[j]?) s := by
  cases signature <;> exact ofTexts_eq_ok_iff

namespace RawReference

/-- What a chain is read as from an index on: each call at its own, with the positions kept. -/
theorem resolveCalls_eq_ok_iff {c : Catalog} {group field : Text} {index : Nat}
    {raws : List RawCall} {calls : List Call} :
    resolveCalls c group field (index = 0) raws = .ok calls ↔
      List.Forall₂ (fun (raw, i) call => call.Carries c group field i raw.key raw.args ∧
        call.position = raw.position) (raws.zipIdx index) calls := by
  induction raws generalizing index calls with
  | nil => simp [resolveCalls, eq_comm]
  | cons raw raws ih =>
    have hnext := @ih (index + 1)
    rw [show decide (index + 1 = 0) = false by simp] at hnext
    rw [resolveCalls, bind_eq_ok_iff, List.zipIdx_cons, List.forall₂_cons_left_iff,
      c.declaration?_eq]
    constructor
    · rintro ⟨args, hargs, hread⟩
      obtain ⟨rest, hrest, heq⟩ := bind_eq_ok_iff.mp hread
      cases heq
      exact ⟨_, rest, ⟨⟨rfl, Arg.ofTexts_signature_iff.mp hargs⟩, rfl⟩, hnext.mp hrest, rfl⟩
    · rintro ⟨⟨key, args, position⟩, rest, ⟨⟨rfl, hargs⟩, rfl⟩, hrest, rfl⟩
      exact ⟨args, Arg.ofTexts_signature_iff.mpr hargs,
        bind_eq_ok_iff.mpr ⟨rest, hnext.mpr hrest, rfl⟩⟩

/-- What a reference is read as carries what was derived. -/
theorem carries_of_resolve {c : Catalog} {raw : RawReference} {r : Reference}
    (hread : raw.resolve c = .ok r) : r.Carries c raw := by
  obtain ⟨calls, hcalls, heq⟩ := bind_eq_ok_iff.mp hread
  cases heq
  have hplaced := (@resolveCalls_eq_ok_iff c raw.group raw.field 0 _ _).mp hcalls
  exact ⟨rfl, rfl, hplaced.imp fun _ _ hcall => hcall.1⟩

/-- Calls that carry what was derived do so at the positions of the derivation as well. -/
theorem exists_positioned {c : Catalog} {group field : Text} {raws : List (RawCall × Nat)}
    {calls : List Call}
    (hcalls : List.Forall₂
      (fun (raw, i) call => Call.Carries c group field i raw.key raw.args call) raws calls) :
    ∃ found, List.Forall₂ (fun (raw, i) call => Call.Carries c group field i raw.key raw.args call ∧
      call.position = raw.position) raws found := by
  induction hcalls with
  | nil => exact ⟨[], .nil⟩
  | @cons raw call _ _ hcall _ ih =>
    obtain ⟨found, hfound⟩ := ih
    exact ⟨{ call with position := raw.1.position } :: found,
      .cons ⟨hcall.at_position raw.1.position, rfl⟩ hfound⟩

/-- A reference is read whenever each of its arguments can be read at its place. -/
theorem exists_resolve_of_carries {c : Catalog} {raw : RawReference} {r : Reference}
    (hcarries : r.Carries c raw) : ∃ found, raw.resolve c = .ok found := by
  obtain ⟨calls, hcalls⟩ := exists_positioned hcarries.calls
  have hread := (@resolveCalls_eq_ok_iff c raw.group raw.field 0 _ _).mpr hcalls
  exact ⟨_, bind_eq_ok_iff.mpr ⟨calls, hread, rfl⟩⟩

end RawReference

end TagText
