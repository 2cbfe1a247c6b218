import TagText.Proofs.Editing.Effects
import TagText.Service.Policy

/-!
What a policy keeps. An update writes one attribute and leaves the others, so that the value written
last is the one that is read and an attribute beside it keeps its literal value; a session that is
opened on a dynamic value has the policy's expression as its text.
-/

namespace TagText

theorem Json.text?_text (s : Text) : (text s).text? = some s := rfl

/-- The attribute beside a literal one is another one. -/
theorem sideChannelKey_ne (name : Text) : sideChannelKey name ≠ name := by
  intro heq
  have hlength := congrArg List.length heq
  rw [sideChannelKey, List.length_append] at hlength
  exact absurd hlength (by simp)

/-- A session that has been opened with a value has its expression as text. -/
theorem Session.getText_of_start {s : Session} {v : Text}
    (hok : (s.perform (.start v)).1.isOk = true) :
    ((s.perform (.start v)).2.perform .getText).1 = .ok (.text (unwrap v)) := by
  have heffect := effect_perform hok
  generalize (s.perform (.start v)).2 = next at heffect ⊢
  cases heffect with
  | opened _ _ hset =>
    obtain ⟨_, _, rfl⟩ := Draft.setText_eq_ok_iff.mp hset
    rfl
  | edited _ hedit => cases hedit
  | looked _ hop => cases hop

namespace Policy

/-- A change of the kept value. -/
inductive Update
  | write (committed : Text)
  | clear
  deriving DecidableEq

/-- The value that is kept after an update. -/
def Update.value : Update → Text
  | write committed => committed
  | clear => []

/-- What an update says to write. -/
def Update.attributes (p : Policy) : Update → Attributes
  | write committed => p.write committed
  | clear => p.clear

/-- The attributes after updates have been written to them, one after the other. -/
def store (p : Policy) (attributes : Attributes) (updates : List Update) : Attributes :=
  updates.foldl (fun attributes update => attributes.putAll (update.attributes p)) attributes

variable {p : Policy} {attributes : Attributes}

theorem get?_putAll_update (attributes : Attributes) (update : Update) (name : Text) :
    (attributes.putAll (update.attributes p)).get? name =
      if name = p.key then some (.text update.value) else attributes.get? name := by
  cases update <;> exact Assoc.get?_put attributes p.key name _

/-- Updates leave the attributes of other names. -/
theorem get?_store {name : Text} (hname : name ≠ p.key) (updates : List Update) :
    (p.store attributes updates).get? name = attributes.get? name := by
  induction updates generalizing attributes with
  | nil => rfl
  | cons update updates ih =>
    rw [store, List.foldl_cons]
    exact ih.trans ((get?_putAll_update attributes update name).trans (if_neg hname))

/-- The value that was written last is the one that is read. -/
theorem read_store {updates : List Update} {last : Update} (hlast : updates.getLast? = some last) :
    p.read (p.store attributes updates) = .text last.value := by
  obtain ⟨before, rfl⟩ := List.getLast?_eq_some_iff.mp hlast
  rw [read, store, List.foldl_concat, get?_putAll_update, if_pos rfl]
  rfl

theorem literal_store (hstyle : p.style = .sideChannel) (updates : List Update) :
    p.literal (p.store attributes updates) = p.literal attributes := by
  have hname : p.name ≠ p.key := by
    rw [key, hstyle]
    exact (sideChannelKey_ne p.name).symm
  rw [literal, literal, get?_store hname]

theorem effective?_sideChannel (hstyle : p.style = .sideChannel) {value : Text}
    (hread : p.read attributes = .text value) :
    p.effective? attributes = some (if value = [] then p.literal attributes else .text value) := by
  have hdynamic : p.isDynamic? attributes = some (!value.isEmpty) := by
    simp only [isDynamic?, hstyle, hread, Json.text?_text, Option.any_some]
  simp only [effective?, hstyle, hdynamic, Option.map_some, hread]
  cases value <;> rfl

/-- The expression of a dynamic value is the text of a session that is opened on it. -/
theorem expression?_of_isDynamic (hdynamic : p.isDynamic? attributes = some true) :
    p.expression? attributes = some (unwrap (((p.read attributes).text?).getD [])) := by
  simp [expression?, hdynamic]

/-- A session that is opened on attributes with a dynamic value has its expression as text. Updates
    in any number and order leave all attributes but the policy's own, and the value of the last one
    is read afterwards. Beside a literal value, the literal is never touched; it counts while the
    value written last is empty, and otherwise that value counts. -/
theorem openSession_and_store (p : Policy) (attributes : Attributes) :
    (∀ c context label, p.isDynamic? attributes = some true →
      (p.openSession attributes c context label).1.isOk = true →
      ∃ expression, p.expression? attributes = some expression ∧
        ((p.openSession attributes c context label).2.perform .getText).1 =
          .ok (.text expression)) ∧
    ∀ updates,
      (∀ name ≠ p.key, (p.store attributes updates).get? name = attributes.get? name) ∧
      (∀ last, updates.getLast? = some last →
        p.read (p.store attributes updates) = .text last.value) ∧
      (p.style = .sideChannel →
        p.literal (p.store attributes updates) = p.literal attributes ∧
        ∀ last, updates.getLast? = some last → p.effective? (p.store attributes updates) =
          some (if last.value = [] then p.literal attributes else .text last.value)) := by
  refine ⟨fun c context label hdynamic hok => ?_, fun updates => ⟨?_, ?_, fun hstyle => ⟨?_, ?_⟩⟩⟩
  · exact ⟨_, expression?_of_isDynamic hdynamic, Session.getText_of_start hok⟩
  · exact fun name hname => get?_store hname updates
  · exact fun last hlast => read_store hlast
  · exact literal_store hstyle updates
  · intro last hlast
    rw [effective?_sideChannel hstyle (read_store hlast), literal_store hstyle]

/-- An override with a trailing text is opened, and clearing it again brings the literal back. -/
theorem openSession_and_store_width :
    let p : Policy := { style := .sideChannel, name := "width".toList }
    let override := "@tags()@post(id)@endtags() px".toList
    let attributes : Attributes :=
      [("width".toList, .int 300), ("widthDynamicTag".toList, .text override)]
    let outcome := p.openSession attributes {} (.named "post".toList) none
    let updates : List Update := [.write "5".toList, .clear]
    p.isDynamic? attributes = some true ∧ outcome.1.isOk = true ∧
      (outcome.2.perform .getText).1 = .ok (.text "@post(id)".toList) ∧
      p.read (p.store attributes updates) = .text [] ∧
      p.effective? (p.store attributes updates) = some (.int 300) := by
  intro p override attributes outcome updates
  have hdynamic : p.isDynamic? attributes = some true := by decide +kernel
  have hok : outcome.1.isOk = true := by decide +kernel
  have hexpression : p.expression? attributes = some "@post(id)".toList := by decide +kernel
  obtain ⟨hopen, hstore⟩ := openSession_and_store p attributes
  obtain ⟨expression, hfound, htext⟩ := hopen {} (.named "post".toList) none hdynamic hok
  obtain rfl : "@post(id)".toList = expression := Option.some.inj (hexpression.symm.trans hfound)
  obtain ⟨-, hread, hside⟩ := hstore updates
  exact ⟨hdynamic, hok, htext, hread .clear rfl, (hside rfl).2 .clear rfl⟩

end Policy

end TagText
