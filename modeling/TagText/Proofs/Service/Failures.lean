import TagText.Catalog.DefaultModifiers
import TagText.Proofs.Editing.Acceptance
import TagText.Proofs.Editing.Offers
import TagText.Proofs.Reading.Arguments
import TagText.Proofs.Validation.Reports
import TagText.Service.Endpoints

/-!
How requests that submit a text turn out. The text of a request to inspect is a stored value, of
which only a dynamic one is read; that of a request for suggestions is an expression, in its markers
or without them, and is read in either case. A request fails when what is read holds an overlong
integer, or when a modifier on offer has a default that is one; whatever else its members are, it is
answered or refused.
-/

namespace TagText

variable {c : Catalog} {text : Text}

/-- Inside an expression that can be read, suggestions are found at every cursor. -/
theorem Suggestions.exists_atCursor (hread : ¬ HoldsOverlong c text) (context : Context)
    (cursor : Int) : ∃ found, atCursor c context text cursor = .ok found := by
  cases hanswer : atCursor c context text cursor with
  | ok found => exact ⟨found, rfl⟩
  | error e =>
    obtain ⟨front, query, gap, hends, hfront⟩ := atEndOf_eq_error_iff.mp hanswer
    have hoverlong := Reading.ofExpression_eq_error_iff.mp hfront
    refine absurd ?_ hread
    rw [← List.take_append_drop cursor.toNat text, hends.split, List.append_assoc,
      List.append_assoc]
    exact hoverlong.append _

/-- A stored value that was read can be written again. -/
theorem Reading.hasText_of_ofValue {reading : Reading} (hread : ofValue c text = .ok reading) :
    reading.document.hasText = true := by
  cases hregion : Region.ofValue? text with
  | none =>
    rw [ofValue_literal hregion] at hread
    cases hread
    cases text <;> rfl
  | some region =>
    rw [ofValue_of_region hregion] at hread
    cases hplain : ofExpression c region.expression with
    | error e => rw [hplain] at hread; cases hread
    | ok plain =>
      rw [hplain] at hread
      cases hread
      exact (Document.hasText_map_moved _ _ _).trans (hasText_of_ofExpression hplain _)

/-- Diagnostics that can be reported have a value each. -/
theorem Diagnostic.exists_mapM_toJson {items : List Diagnostic}
    (hnone : ∀ item ∈ items, ¬ item.problem.Unreportable) :
    ∃ reports, items.mapM toJson = .ok reports := by
  induction items with
  | nil => exact ⟨[], rfl⟩
  | cons item items ih =>
    obtain ⟨hfirst, hrest⟩ := List.forall_mem_cons.mp hnone
    obtain ⟨reports, hreports⟩ := ih hrest
    cases hmessage : item.problem.message with
    | error e => exact absurd (Problem.message_eq_error_iff.mp hmessage) hfirst
    | ok shown => simp [toJson, hmessage, hreports, bind, Except.bind, pure, Except.pure]

/-- An expression without a close marker comes back out of the markers. -/
theorem unwrap_marked (hfree : ¬ closeMarker <:+: text) :
    isActive (openMarker ++ text ++ closeMarker) = true ∧
      unwrap (openMarker ++ text ++ closeMarker) = text := by
  let region : Region := { expression := text, trailing := [] }
  have hregion : region.value = openMarker ++ text ++ closeMarker := List.append_nil _
  rw [← hregion]
  exact ⟨region.isActive_value, region.unwrap_value hfree⟩

/-- The status that goes with a reply. An endpoint that breaks off is an error of the server. -/
def Reply.code : Reply → Nat
  | answered status _ => status
  | failed => 500

/-- A host of the service. It sends each reply on with its status, and the integers in the requests
    that it decodes have a text, because they have been read from one. -/
structure Host where
  Message : Type
  decode : Message → Request
  status : Reply → Nat
  hasText_of_decode (message : Message) (value : Json) : (decode message).body = some value →
    value.hasText = true
  status_answered (code : Nat) (body : Json) : status (.answered code body) = code
  status_failed : status .failed = 500

theorem Host.status_eq (h : Host) (reply : Reply) : h.status reply = reply.code := by
  cases reply with
  | answered code body => exact h.status_answered code body
  | failed => exact h.status_failed

/-- A host of which the messages are requests that have been decoded. -/
def Host.ofRequests : Host where
  Message := { r : Request // ∀ value, r.body = some value → value.hasText = true }
  decode := Subtype.val
  status := Reply.code
  hasText_of_decode message := message.property
  status_answered _ _ := rfl
  status_failed := rfl

namespace Endpoint

/-- The cursor that members place in an expression: the one that they give, or the end. -/
inductive PlacesCursor (members : Assoc Text Json) (expression : Text) : Int → Prop
  | atEnd : Json.member members "cursor" = .null → PlacesCursor members expression expression.length
  | given {cursor : Int} : Json.member members "cursor" = .int cursor →
    PlacesCursor members expression cursor

/-- The text that members submit to an endpoint. To inspect takes null for the empty text; to
    suggest takes whatever does not count as given for it, but wants the cursor to be a whole
    number. -/
inductive Submits (members : Assoc Text Json) : Endpoint → Text → Prop
  | inspectNothing : Json.member members "value" = .null → Submits members .inspect []
  | inspect {text : Text} : Json.member members "value" = .text text →
    Submits members .inspect text
  | suggestNothing {cursor : Int} : (Json.member members "value").isGiven = false →
    PlacesCursor members [] cursor → Submits members .suggest []
  | suggest {text : Text} {cursor : Int} : Json.member members "value" = .text text →
    PlacesCursor members (unwrap text) cursor → Submits members .suggest text

/-- An endpoint fails on a text that members submit. The text is read and its expression holds an
    overlong integer, where to inspect does not read a text that is not dynamic; or a modifier that
    is suggested has a default that is an overlong integer, so that it cannot be listed. -/
inductive FailsOn (s : Service) (c : Catalog) (members : Assoc Text Json) : Endpoint → Text → Prop
  | inspect {text : Text} : isActive text = true → HoldsOverlong c (unwrap text) →
    FailsOn s c members .inspect text
  | suggest {text : Text} : HoldsOverlong c (unwrap text) → FailsOn s c members .suggest text
  | listing {text : Text} {cursor : Int} {found : Suggestions} {m : Modifier} :
    PlacesCursor members (unwrap text) cursor →
    Suggestions.atCursor c (s.bodyContext members) (unwrap text) cursor = .ok found →
    m ∈ found.offers.listedModifiers → (∃ p ∈ m.params, p.default.hasText = false) →
    FailsOn s c members .suggest text

theorem PlacesCursor.eq {members : Assoc Text Json} {expression : Text} {i j : Int}
    (hi : PlacesCursor members expression i) (hj : PlacesCursor members expression j) : i = j := by
  cases hi with
  | atEnd hnone =>
    cases hj with
    | atEnd => rfl
    | given hcursor => cases hnone.symm.trans hcursor
  | given hcursor =>
    cases hj with
    | atEnd hnone => cases hnone.symm.trans hcursor
    | given hother => exact Json.int.inj (hcursor.symm.trans hother)

end Endpoint

theorem Modifier.isListable_eq_false_iff {m : Modifier} :
    m.isListable = false ↔ ∃ p ∈ m.params, p.default.hasText = false := by
  simp [isListable]

namespace Service

open Endpoint

variable {s : Service} {members : Assoc Text Json} {context : Context}

/-- What can be read can be inspected: it has been read off a text, so that it has one itself, and
    can be reported on and written. -/
theorem exists_inspection {reading : Reading} (hread : Reading.ofValue c text = .ok reading) :
    ∃ body, inspection c context text = .ok body := by
  have htext := Reading.hasText_of_ofValue hread
  have hvalid := @Document.validate_of_hasText c (some context) _ htext
  have hreportable := (Document.validate_eq_ok_iff.mp hvalid).2
  rw [← @Document.unreportable_diagnostics_iff c (some context)] at hreportable
  obtain ⟨reports, hreports⟩ := Diagnostic.exists_mapM_toJson
    fun item hitem hlong => hreportable ⟨item, hitem, hlong⟩
  simp only [inspection, hread, hvalid, hreports, Document.write_of_hasText htext, bind,
    Except.bind]
  exact ⟨_, rfl⟩

section

variable (hcatalog : s.catalog = some c)

include hcatalog

theorem inspectFor_code :
    (s.inspectFor context text).code =
      match Reading.ofValue c text with
      | .error _ => 500
      | .ok _ => 200 := by
  rw [inspectFor, hcatalog, Option.map_some]
  cases hread : Reading.ofValue c text with
  | error e => simp [inspection, hread, bind, Except.bind, refusal, respond, Reply.code]
  | ok reading =>
    obtain ⟨body, hbody⟩ := @exists_inspection c text context reading hread
    simp [hbody, Reply.code]

theorem suggestFor_code_of_overlong (hoverlong : HoldsOverlong c (unwrap text))
    (cursor : Option Int) : (s.suggestFor context text cursor).code = 500 := by
  let session : Session := { catalog := c, context }
  obtain ⟨error, herror⟩ := @Session.exists_start_error text session hoverlong
  have hstart : session.perform (.start text) = (.error error, (session.start text).2) :=
    (Session.perform_closed rfl text).trans (Prod.ext herror rfl)
  rw [suggestFor, hcatalog]
  simp only [session] at hstart
  simp only [hstart, Reply.code]

theorem suggestFor_code (hread : ¬ HoldsOverlong c (unwrap text)) (cursor : Option Int)
    {found : Suggestions} (hfound : Suggestions.atCursor c context (unwrap text)
      (cursor.getD (unwrap text).length) = .ok found) :
    (s.suggestFor context text cursor).code =
      if found.offers.listedModifiers.all Modifier.isListable then 200 else 500 := by
  let session : Session := { catalog := c, context }
  obtain ⟨draft, htext, hstart⟩ := @Session.exists_start_draft text session hread
  rw [← htext] at hfound
  have hopened : session.perform (.start text) = _ := (Session.perform_closed rfl text).trans hstart
  let opened : Session := { session with phase := .editing draft }
  have hsuggest : opened.perform (.suggest (cursor.getD (unwrap text).length)) =
      opened.answer (.suggestions found) := by
    rw [Session.perform_suggest rfl, ← htext, hfound]
  rw [suggestFor, hcatalog]
  simp only [session, opened] at hopened hsuggest
  simp only [hopened, hsuggest, Session.answer, respondListing]
  split <;> rfl

end

theorem exists_suggestFor (hsubmits : Submits members .suggest text) :
    ∃ cursor, PlacesCursor members (unwrap text) (cursor.getD (unwrap text).length) ∧
      s.suggest members = s.suggestFor (s.bodyContext members) text cursor := by
  cases hsubmits with
  | suggestNothing hvalue hcursor =>
    cases hcursor with
    | atEnd hnone => exact ⟨none, .atEnd hnone, by simp [suggest, hvalue, hnone]⟩
    | given hgiven => exact ⟨some _, .given hgiven, by simp [suggest, hvalue, hgiven]⟩
  | suggest hvalue hcursor =>
    cases hcursor with
    | atEnd hnone =>
      refine ⟨none, .atEnd hnone, ?_⟩
      cases text <;> simp [suggest, hvalue, hnone, Json.isGiven]
    | given hgiven =>
      refine ⟨some _, .given hgiven, ?_⟩
      cases text <;> simp [suggest, hvalue, hgiven, Json.isGiven]

theorem inspect_code_of_refused (hnone : ∀ text, ¬ Submits members .inspect text) :
    (s.inspect members).code = 400 := by
  cases hvalue : Json.member members "value" with
  | null => exact absurd (.inspectNothing hvalue) (hnone _)
  | text value => exact absurd (.inspect hvalue) (hnone _)
  | _ => simp [inspect, hvalue, refusal, respond, Reply.code]

/-- Where there is no cursor, it does not matter what the value is. -/
theorem suggest_code_of_cursor
    (hcursor : ∀ expression cursor, ¬ PlacesCursor members expression cursor) :
    (s.suggest members).code = 400 := by
  cases hmember : Json.member members "cursor" with
  | null => exact absurd (.atEnd hmember) (hcursor [] _)
  | int cursor => exact absurd (.given hmember) (hcursor [] _)
  | _ =>
    simp only [suggest, hmember]
    split
    · split <;> rfl
    · rfl

theorem suggest_code_of_refused (hnone : ∀ text, ¬ Submits members .suggest text) :
    (s.suggest members).code = 400 := by
  by_cases hcursor : ∃ expression cursor, PlacesCursor members expression cursor
  · have hplaces : ∀ expression, ∃ cursor, PlacesCursor members expression cursor := by
      obtain ⟨other, cursor, hcursor | hcursor⟩ := hcursor
      · exact fun expression => ⟨_, .atEnd hcursor⟩
      · exact fun expression => ⟨_, .given hcursor⟩
    cases hgiven : (Json.member members "value").isGiven with
    | false => exact absurd (.suggestNothing hgiven (hplaces []).choose_spec) (hnone _)
    | true =>
      cases hvalue : Json.member members "value" with
      | text value => exact absurd (.suggest hvalue (hplaces _).choose_spec) (hnone _)
      | _ =>
        rw [hvalue] at hgiven
        simp [suggest, hvalue, hgiven, refusal, respond, Reply.code]
  · exact suggest_code_of_cursor fun expression cursor h => hcursor ⟨expression, cursor, h⟩

variable {r : Request} {e : Endpoint}

/-- An object in the body gives its members, even if it has none. -/
theorem members?_of_object (hbody : r.body = some (.object members)) :
    r.members? = some members := by
  rw [Request.members?, hbody]
  cases members <;> rfl

/-- A text that is submitted is answered, unless the endpoint fails on it. -/
theorem reply_code (hcatalog : s.catalog = some c) (hbody : r.body = some (.object members))
    (hsubmits : Submits members e text) :
    (s.reply r e).code = 500 ∧ FailsOn s c members e text ∨
      (s.reply r e).code = 200 ∧ ¬ FailsOn s c members e text := by
  have hmembers := members?_of_object hbody
  have he : e = .inspect ∨ e = .suggest := by cases hsubmits <;> simp
  rcases he with rfl | rfl <;> simp only [reply, withMembers, hmembers]
  · have hcode : (s.inspect members).code = (s.inspectFor (s.bodyContext members) text).code := by
      cases hsubmits with
      | inspectNothing hvalue | inspect hvalue => simp [inspect, hvalue]
    rw [hcode, inspectFor_code hcatalog]
    cases hread : Reading.ofValue c text with
    | error e =>
      obtain ⟨hactive, hoverlong⟩ := Reading.ofValue_eq_error_iff.mp hread
      exact Or.inl ⟨rfl, .inspect hactive hoverlong⟩
    | ok reading =>
      refine Or.inr ⟨rfl, ?_⟩
      rintro (⟨hactive, hoverlong⟩)
      cases hread.symm.trans (Reading.ofValue_eq_error_iff (e := .overlongInteger) |>.mpr
        ⟨hactive, hoverlong⟩)
  · obtain ⟨cursor, hplaces, hsuggest⟩ := @exists_suggestFor text s members hsubmits
    rw [hsuggest]
    by_cases hoverlong : HoldsOverlong c (unwrap text)
    · exact Or.inl ⟨suggestFor_code_of_overlong hcatalog hoverlong cursor, .suggest hoverlong⟩
    · obtain ⟨found, hfound⟩ := Suggestions.exists_atCursor hoverlong (s.bodyContext members)
        (cursor.getD (unwrap text).length)
      rw [suggestFor_code hcatalog hoverlong cursor hfound]
      split
      · rename_i hall
        refine Or.inr ⟨rfl, ?_⟩
        rintro (_ | hfails | ⟨hother, hagain, hm, hdefault⟩)
        · exact hoverlong hfails
        · obtain rfl := hplaces.eq hother
          obtain rfl := Except.ok.inj (hfound.symm.trans hagain)
          have hlistable := List.all_eq_true.mp hall _ hm
          rw [Modifier.isListable_eq_false_iff.mpr hdefault] at hlistable
          cases hlistable
      · rename_i hnot
        obtain ⟨m, hm, hdefault⟩ : ∃ m ∈ found.offers.listedModifiers, m.isListable = false := by
          simpa using hnot
        have hlong := Modifier.isListable_eq_false_iff.mp hdefault
        exact Or.inl ⟨rfl, .listing hplaces hfound hm hlong⟩

theorem reply_code_of_refused (he : e = .inspect ∨ e = .suggest)
    (hbody : r.body = some (.object members)) (hnone : ∀ text, ¬ Submits members e text) :
    (s.reply r e).code = 400 := by
  have hmembers := members?_of_object hbody
  rcases he with rfl | rfl <;> simp only [reply, withMembers, hmembers]
  · exact inspect_code_of_refused hnone
  · exact suggest_code_of_refused hnone

/-- What comes of an object that is posted to inspect a text or to go on with it: the host sends an
    error of the server exactly when the object submits a text on which the endpoint fails, and a
    refusal exactly when it submits none. Every other request is answered. -/
theorem status_of_post (h : Host) (message : h.Message) (hcatalog : s.catalog = some c)
    (he : e = .inspect ∨ e = .suggest) (hbody : (h.decode message).body = some (.object members)) :
    let status := h.status (s.reply (h.decode message) e)
    (status = 500 ↔ ∃ text, Submits members e text ∧ FailsOn s c members e text) ∧
      (status = 400 ↔ ∀ text, ¬ Submits members e text) ∧
      (status = 200 ↔ ∃ text, Submits members e text ∧ ¬ FailsOn s c members e text) := by
  rw [h.status_eq]
  have hcode := fun text => @reply_code c text s members (h.decode message) e hcatalog hbody
  have hrefused := @reply_code_of_refused s members (h.decode message) e he hbody
  generalize (s.reply (h.decode message) e).code = code at hcode hrefused
  by_cases hsubmits : ∃ text, Submits members e text
  · obtain ⟨text, htext⟩ := hsubmits
    rcases hcode text htext with ⟨rfl, hfails⟩ | ⟨rfl, hreads⟩
    · refine ⟨iff_of_true rfl ⟨text, htext, hfails⟩, iff_of_false (by decide) fun h => h text htext,
        iff_of_false (by decide) ?_⟩
      rintro ⟨other, hother, hreads⟩
      simpa [hreads] using hcode other hother
    · refine ⟨iff_of_false (by decide) ?_, iff_of_false (by decide) fun h => h text htext,
        iff_of_true rfl ⟨text, htext, hreads⟩⟩
      rintro ⟨other, hother, hfails⟩
      simpa [hfails] using hcode other hother
  · have hnone : ∀ text, ¬ Submits members e text := fun text h => hsubmits ⟨text, h⟩
    obtain rfl := hrefused hnone
    exact ⟨iff_of_false (by decide) fun ⟨text, h, _⟩ => hnone text h, iff_of_true rfl hnone,
      iff_of_false (by decide) fun ⟨text, h, _⟩ => hnone text h⟩

/-- An integer with a digit too many, in an expression that is to go on and in a stored value that
    is inspected, and a value that is no text. -/
theorem status_of_post_overlong :
    let call := '.' :: "truncate".toList ++ '(' :: (digitText (List.replicate 4301 9) ++ [')'])
    let text := '@' :: "post".toList ++ '(' :: ("title".toList ++ ')' :: call)
    let value := openMarker ++ text ++ closeMarker
    let s : Service := { catalog := some Default.catalog }
    let post (value : Json) : Request := { body := some (.object [("value".toList, value)]) }
    Host.ofRequests.status (s.reply (post (.text text)) .suggest) = 500 ∧
      Host.ofRequests.status (s.reply (post (.text value)) .inspect) = 500 ∧
      Host.ofRequests.status (s.reply (post (.bool true)) .inspect) = 400 := by
  intro call text value s post
  have hread : Reading.ofExpression Default.catalog text = .error .overlongInteger :=
    Reading.ofExpression_nines (by decide +kernel)
  have hoverlong : HoldsOverlong Default.catalog text := Reading.ofExpression_eq_error_iff.mp hread
  have hliteral : unwrap text = text := unwrap_literal rfl
  have hsign : '@' ∉ digitText (List.replicate 4301 9) := by
    rw [digitText, List.map_replicate]
    exact fun hmem => absurd (List.eq_of_mem_replicate hmem) (by decide)
  have hfree : ¬ closeMarker <:+: text := by
    simp only [text, call]
    generalize digitText (List.replicate 4301 9) = digits at hsign
    intro hclose
    rcases List.infix_cons_iff.mp hclose with hfront | hinner
    · exact absurd (List.cons_prefix_cons.mp (List.cons_prefix_cons.mp hfront).2).1 (by decide)
    · have hmem := hinner.subset (List.mem_cons_self (a := '@'))
      simp [hsign] at hmem
  obtain ⟨hactive, hvalue⟩ := unwrap_marked hfree
  let message (value : Json) (hvalue : value.hasText = true) : Host.ofRequests.Message :=
    ⟨post value, fun found hfound => by cases hfound; simpa [Json.hasText, Json.membersHaveText]⟩
  have hcatalog : s.catalog = some Default.catalog := rfl
  refine ⟨?_, ?_, ?_⟩
  · refine (status_of_post Host.ofRequests (message (.text text) rfl) hcatalog
      (Or.inr rfl) rfl).1.mpr ⟨text, .suggest rfl (.atEnd rfl), .suggest ?_⟩
    rwa [hliteral]
  · refine (status_of_post Host.ofRequests (message (.text value) rfl) hcatalog
      (Or.inl rfl) rfl).1.mpr ⟨value, .inspect rfl, .inspect hactive ?_⟩
    rwa [hvalue]
  · refine (status_of_post Host.ofRequests (message (.bool true) rfl) hcatalog
      (Or.inl rfl) rfl).2.1.mpr ?_
    intro text hsubmits
    cases hsubmits with
    | inspectNothing hnull => cases hnull
    | inspect htext => cases htext

end Service

end TagText
