import RequestForms.Proofs.Collection.Fields
import RequestForms.Proofs.Collection.Revision
import RequestForms.Proofs.Json.Equality

/-!
# Disabled entries

A field of a query that is disabled does not count. A header or a field of a form counts all the
same, so that taking the disabled entries out of a request changes it unless they were set again or
stand where nothing is read.
-/

namespace RequestForms.Collection

def enabled : Json → Json :=
  Json.onElements fun entries => entries.filter fun entry => !isDisabled entry

/-- A request object without the disabled entries of its query, of its headers and of its form. -/
def withoutDisabled (source : Json) : Json :=
  ((source.modify "url" (Json.modify "query" enabled)).modify "header" enabled).modify "body"
    (Json.modify "urlencoded" enabled)

def enabledIn (name : String) : Json → Json :=
  if name = "body" then Json.modify "urlencoded" enabled
  else if name = "header" then enabled
  else if name = "url" then Json.modify "query" enabled
  else id

theorem member_withoutDisabled (source : Json) (name : String) :
    (withoutDisabled source).member name = enabledIn name (source.member name) := by
  rw [withoutDisabled, enabledIn, Json.member_modify rfl, Json.member_modify rfl,
    Json.member_modify rfl]
  grind

theorem objectsOf_enabled (list : Json) :
    objectsOf (enabled list) = (objectsOf list).filter fun entry => !isDisabled entry := by
  cases list with
  | array entries =>
      simp only [enabled, Json.onElements, objectsOf, objects]
      rw [List.filter_filter, List.filter_filter]
      exact List.filter_congr fun entry _ => Bool.and_comm _ _
  | _ => rfl

/-! ## What becomes of the parts -/

theorem queryFields_enabled (query : Json) : queryFields (enabled query) = queryFields query := by
  have hfields : fieldsInUse (enabled query) = fieldsInUse query := by
    rw [fieldsInUse, objectsOf_enabled, List.filter_filter, fieldsInUse]
    exact List.filter_congr fun entry _ => Bool.and_self _
  cases query with
  | array entries =>
      rw [queryFields_array, ← hfields]
      exact queryFields_array _
  | _ => rfl

/-- The disabled fields of a query never count. -/
theorem urlOf_modify_enabled (url : Json) : urlOf (url.modify "query" enabled) = urlOf url := by
  cases url with
  | object members =>
      refine urlOf_congr (fun name h => Json.member_modify_of_ne h enabled (.object members))
        fun _ => ?_
      have hquery := Json.member_modify_self (f := enabled) rfl "query" (.object members)
      exact (congrArg queryFields hquery).trans (queryFields_enabled _)
  | _ => rfl

/-- A form is the same without its disabled fields only if there are none. -/
theorem formBody_enabled_eq_iff {form : Json} :
    formBody ((objectsOf (enabled form)).map formField) =
        formBody ((objectsOf form).map formField) ↔
      ∀ entry ∈ objectsOf form, isDisabled entry = false := by
  rw [objectsOf_enabled]
  constructor
  · intro h
    have hsublist : ((objectsOf form).filter fun entry => !isDisabled entry).Sublist
        (objectsOf form) := List.filter_sublist
    have hfields := eq_of_sublist_of_room_eq (hsublist.map formField) (room_eq_of_formBody_eq h)
    have hlength := congrArg List.length hfields
    rw [List.length_map, List.length_map, List.length_filter_eq_length_iff] at hlength
    simpa using hlength
  · intro h
    rw [List.filter_eq_self.2 fun entry hmem => by rw [h entry hmem]; rfl]

theorem bodyOf_modify_enabled_eq_iff (body : Json) :
    bodyOf (body.modify "urlencoded" enabled) = bodyOf body ↔
      (body.member "mode" = .string "urlencoded" →
        ∀ entry ∈ objectsOf (body.member "urlencoded"), isDisabled entry = false) := by
  rw [bodyOf_eq_iff fun name h => Json.member_modify_of_ne h enabled body,
    Json.member_modify_self rfl, formBody_enabled_eq_iff]

/-! ## The whole request -/

/-- The disabled headers of a request are without effect, and its form has no disabled fields. -/
structure DisabledDoNotCount (source : Json) : Prop where
  headers : SetAlike (source.member "header") (enabled (source.member "header"))
  form : (source.member "body").member "mode" = .string "urlencoded" →
    ∀ entry ∈ objectsOf ((source.member "body").member "urlencoded"), isDisabled entry = false

theorem differInTexts_withoutDisabled (source : Json) :
    DifferInTexts source (withoutDisabled source) where
  method := member_withoutDisabled source "method"
  url := by
    rw [member_withoutDisabled]
    exact Or.inl (urlOf_modify_enabled _)
  body := by
    rw [member_withoutDisabled]
    exact bodyOf_eq_or_contents fun name h => Json.member_modify_of_ne h enabled _
  credentials := congrArg credentialsOf (member_withoutDisabled source "auth")

/-- A collection with the disabled entries of one request taken out fails for the same reason or not
at all. It is read as the same requests if and only if the disabled headers were without effect and
the form had no disabled fields. The fields of the query never matter. -/
theorem read_withoutDisabled_eq_iff {text text' : String} {collection : Json} {path : List Nat}
    {fields : List (String × Json)} (htext : Json.read text = .ok collection) (hpath : path ≠ [])
    (hleaf : LeafAt collection path (.fields fields))
    (htext' : Json.read text' = .ok (changeAt withoutDisabled path collection)) :
    (∀ error, InputFormat.read text' .postman = .error error ↔
      InputFormat.read text .postman = .error error) ∧
    ∀ requests, InputFormat.read text .postman = .ok requests →
      (InputFormat.read text' .postman = .ok requests ↔ DisabledDoNotCount (.object fields)) := by
  have h := read_changeAt_of_differInTexts ⟨_, rfl⟩ htext hpath hleaf htext'
    (differInTexts_withoutDisabled (.object fields))
  refine ⟨h.1, fun requests hrequests => ?_⟩
  have hurl := member_withoutDisabled (.object fields) "url"
  have hheader := member_withoutDisabled (.object fields) "header"
  have hbody := member_withoutDisabled (.object fields) "body"
  simp only [enabledIn, String.reduceEq, ↓reduceIte] at hurl hheader hbody
  rw [h.2 requests hrequests, hurl, hheader, hbody, urlOf_modify_enabled,
    bodyOf_modify_enabled_eq_iff, headersOf_eq_iff]
  exact ⟨fun h => ⟨h.2.1, h.2.2⟩, fun h => ⟨rfl, h.headers, h.form⟩⟩

/-- A disabled header that is set again behind. -/
theorem read_withoutDisabled_of_header_set_again :
    let text := "\x7b\"item\":[\x7b\"request\":\x7b\"header\":[" ++
      "\x7b\"key\":\"A\",\"disabled\":true\x7d,\x7b\"key\":\"A\"\x7d]\x7d\x7d]\x7d"
    let text' := "\x7b\"item\":[\x7b\"request\":\x7b\"header\":[\x7b\"key\":\"A\"\x7d]\x7d\x7d]\x7d"
    let fields := [("header", Json.array [
      .object [("key", .string "A"), ("disabled", .bool true)], .object [("key", .string "A")]])]
    Json.read text = .ok (single fields) ∧
      Json.read text' = .ok (changeAt withoutDisabled [0] (single fields)) ∧
      DisabledDoNotCount (.object fields) ∧
      ∃ requests, InputFormat.read text .postman = .ok requests ∧
        InputFormat.read text' .postman = .ok requests := by
  intro text text' fields
  have htext : Json.read text = .ok (single fields) := by decide +kernel
  have htext' : Json.read text' = .ok (changeAt withoutDisabled [0] (single fields)) := by
    rw [changeAt_single rfl]
    decide +kernel
  obtain ⟨request, hrequest⟩ : ∃ request, (Leaf.fields fields).request = .ok request := ⟨_, rfl⟩
  have hread : InputFormat.read text .postman = .ok [request] := by
    rw [read_single htext, hrequest]
    rfl
  have hcount : DisabledDoNotCount (.object fields) := by
    refine ⟨⟨rfl, fun name => ?_⟩, ?_⟩
    · change [("A", "")].lookup name = [("A", ""), ("A", "")].lookup name
      rw [List.lookup_cons, List.lookup_cons, List.lookup_cons]
      cases name == "A" <;> rfl
    · rintro ⟨⟩
  have h := read_withoutDisabled_eq_iff htext (by simp) (leafAt_single fields) htext'
  exact ⟨htext, htext', hcount, [request], hread, (h.2 _ hread).2 hcount⟩

/-- A disabled header is sent. -/
theorem read_withoutDisabled_ne_of_header :
    let text := "\x7b\"item\":[\x7b\"request\":\x7b\"header\":[" ++
      "\x7b\"key\":\"A\",\"disabled\":true\x7d]\x7d\x7d]\x7d"
    let text' := "\x7b\"item\":[\x7b\"request\":\x7b\"header\":[]\x7d\x7d]\x7d"
    let fields := [("header", Json.array [
      .object [("key", .string "A"), ("disabled", .bool true)]])]
    Json.read text = .ok (single fields) ∧ LeafAt (single fields) [0] (.fields fields) ∧
      Json.read text' = .ok (changeAt withoutDisabled [0] (single fields)) ∧
      InputFormat.read text' .postman ≠ InputFormat.read text .postman := by
  intro text text' fields
  have htext : Json.read text = .ok (single fields) := by decide +kernel
  have htext' : Json.read text' = .ok (changeAt withoutDisabled [0] (single fields)) := by
    rw [changeAt_single rfl]
    decide +kernel
  have hread : InputFormat.read text .postman =
      .ok [{ url := "", headers := Headers.ofPairs [("A", "")] }] := by
    rw [read_single htext]
    rfl
  have hread' : InputFormat.read text' .postman = .ok [{ url := "" }] := by
    rw [changeAt_single rfl] at htext'
    rw [read_single htext']
    rfl
  refine ⟨htext, leafAt_single fields, htext', fun h => ?_⟩
  rw [hread, hread'] at h
  have hrequest := List.head_eq_of_cons_eq (Except.ok.inj h)
  exact absurd (congrArg Request.headers hrequest) (by decide)

end RequestForms.Collection
