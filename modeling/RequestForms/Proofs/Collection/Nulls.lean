import RequestForms.Proofs.Collection.Fields
import RequestForms.Proofs.Collection.Revision
import RequestForms.Proofs.Json.Equality

/-!
# Null members

A member that is null counts as one that is absent, but for the names of fields and of headers: one
that is null is read as `None`, and one that is absent is empty or names no header.
-/

namespace RequestForms.Collection

def withoutNullsInside : Json → Json := Json.onElements fun entries => entries.map Json.withoutNulls

def prunedAt (name : String) (value : Json) : Json :=
  (value.modify name withoutNullsInside).withoutNulls

/-- Credentials without null members, and neither the list nor the object that has them. -/
def prunedAuth (auth : Json) : Json :=
  (auth.modify "basic" fun basic => (withoutNullsInside basic).withoutNulls).withoutNulls

/-- A request object without its null members, and without those of the objects in it. -/
def withoutNullMembers (source : Json) : Json :=
  ((((source.modify "url" (prunedAt "query")).modify "header" withoutNullsInside).modify "body"
    (prunedAt "urlencoded")).modify "auth" prunedAuth).withoutNulls

def IsNamedNull (entry : Json) : Prop := entry.member? "key" = some .null

/-! ## Members and entries -/

theorem member_prunedAt_self (name : String) (value : Json) :
    (prunedAt name value).member name = withoutNullsInside (value.member name) := by
  rw [prunedAt, Json.member_withoutNulls, Json.member_modify_self rfl]

theorem member_prunedAt_of_ne {name other : String} (h : other ≠ name) (value : Json) :
    (prunedAt name value).member other = value.member other := by
  rw [prunedAt, Json.member_withoutNulls, Json.member_modify_of_ne h]

def prunedIn (name : String) : Json → Json :=
  if name = "auth" then prunedAuth
  else if name = "body" then prunedAt "urlencoded"
  else if name = "header" then withoutNullsInside
  else if name = "url" then prunedAt "query"
  else id

theorem member_withoutNullMembers (source : Json) (name : String) :
    (withoutNullMembers source).member name = prunedIn name (source.member name) := by
  rw [withoutNullMembers, prunedIn, Json.member_withoutNulls, Json.member_modify rfl,
    Json.member_modify rfl, Json.member_modify rfl, Json.member_modify rfl]
  grind

theorem objects_map_withoutNulls (entries : List Json) :
    objects (entries.map Json.withoutNulls) = (objects entries).map Json.withoutNulls := by
  rw [objects, List.filter_map, objects]
  congr 1
  apply List.filter_congr
  intro entry _
  cases entry <;> rfl

theorem objectsOf_withoutNullsInside (list : Json) :
    objectsOf (withoutNullsInside list) = (objectsOf list).map Json.withoutNulls := by
  cases list with
  | array entries => exact objects_map_withoutNulls entries
  | _ => rfl

theorem fieldsInUse_withoutNullsInside (query : Json) :
    fieldsInUse (withoutNullsInside query) = (fieldsInUse query).map Json.withoutNulls := by
  rw [fieldsInUse, objectsOf_withoutNullsInside, List.filter_map, fieldsInUse]
  congr 1
  apply List.filter_congr
  intro entry _
  rw [Function.comp_apply, isDisabled, Json.member_withoutNulls, isDisabled]

theorem member?_withoutNulls_of_not_isNamedNull {entry : Json} (h : ¬IsNamedNull entry) :
    entry.withoutNulls.member? "key" = entry.member? "key" := by
  rw [Json.member?_withoutNulls]
  cases hkey : entry.member? "key" with
  | none => rfl
  | some name =>
      have hnull : name.isNull = false := by
        rw [← Bool.not_eq_true, Json.isNull_eq_true_iff]
        rintro rfl
        exact h hkey
      rw [Option.filter_some, hnull]
      rfl

/-! ## Fields -/

theorem formField_withoutNulls {entry : Json} (h : ¬IsNamedNull entry) :
    formField entry.withoutNulls = formField entry := by
  rw [formField, member?_withoutNulls_of_not_isNamedNull h, Json.member_withoutNulls, formField]

theorem formField_of_isNamedNull {entry : Json} (h : IsNamedNull entry) :
    formField entry = "None" ++ formField entry.withoutNulls := by
  rw [formField, formField, Json.member?_withoutNulls, h, Json.member_withoutNulls,
    String.append_assoc, String.append_assoc]
  rfl

theorem map_formField_withoutNulls {entries : List Json}
    (h : ∀ entry ∈ entries, ¬IsNamedNull entry) :
    (entries.map Json.withoutNulls).map formField = entries.map formField := by
  rw [List.map_map]
  exact List.map_congr_left fun entry hmem => formField_withoutNulls (h entry hmem)

/-- The name `None` takes room. -/
theorem not_isNamedNull_of_room_eq {entries : List Json}
    (h : room ((entries.map Json.withoutNulls).map formField) = room (entries.map formField)) :
    ∀ entry ∈ entries, ¬IsNamedNull entry := by
  have hnamed : ∀ {entry}, IsNamedNull entry →
      (formField entry).length = 4 + (formField entry.withoutNulls).length := by
    intro entry hentry
    rw [formField_of_isNamedNull hentry, String.length_append]
    rfl
  rw [List.map_map] at h
  have hlength := length_eq_of_room_eq ?_ h
  · intro entry hmem hentry
    have hsame : (formField entry.withoutNulls).length = (formField entry).length :=
      hlength entry hmem
    have hlonger := hnamed hentry
    omega
  · intro entry _
    rw [Function.comp_apply]
    by_cases hentry : IsNamedNull entry
    · have hlonger := hnamed hentry
      omega
    · rw [formField_withoutNulls hentry]

/-! ## What becomes of the parts -/

theorem queryFields_withoutNullsInside {query : Json}
    (h : ∀ entry ∈ fieldsInUse query, ¬IsNamedNull entry) :
    queryFields (withoutNullsInside query) = queryFields query := by
  cases query with
  | array entries =>
      rw [queryFields_array, ← map_formField_withoutNulls h, ← fieldsInUse_withoutNullsInside]
      exact queryFields_array _
  | _ => rfl

theorem urlOf_prunedAt {url : Json} (h : (url.member "raw").isTruthy = false →
    ∀ entry ∈ fieldsInUse (url.member "query"), ¬IsNamedNull entry) :
    urlOf (prunedAt "query" url) = urlOf url := by
  cases url with
  | object members =>
      refine urlOf_congr (fun name hname => member_prunedAt_of_ne hname (.object members))
        fun hraw => ?_
      have hquery := member_prunedAt_self "query" (.object members)
      exact (congrArg queryFields hquery).trans (queryFields_withoutNullsInside (h hraw))
  | _ => rfl

theorem urlOf_prunedAt_of_mem_fieldsInUse {url entry : Json}
    (hraw : (url.member "raw").isTruthy = false)
    (hentry : entry ∈ fieldsInUse (url.member "query")) :
    urlOf (prunedAt "query" url) = .ok (.string (assembledUrl url
      (((fieldsInUse (url.member "query")).map Json.withoutNulls).map formField))) := by
  have hraw' : ((prunedAt "query" url).member "raw").isTruthy = false := by
    rw [member_prunedAt_of_ne (by decide), hraw]
  have hentry' : entry.withoutNulls ∈ fieldsInUse ((prunedAt "query" url).member "query") := by
    rw [member_prunedAt_self, fieldsInUse_withoutNullsInside]
    exact List.mem_map_of_mem hentry
  rw [urlOf_of_mem_fieldsInUse hraw' hentry', member_prunedAt_self,
    fieldsInUse_withoutNullsInside,
    assembledUrl_congr fun name hname => member_prunedAt_of_ne hname url]

/-- A name that is null shows in an address that is put together, and nowhere else. -/
theorem urlOf_prunedAt_eq_iff {url : Json} :
    urlOf (prunedAt "query" url) = urlOf url ↔ ((url.member "raw").isTruthy = false →
      ∀ entry ∈ fieldsInUse (url.member "query"), ¬IsNamedNull entry) := by
  refine ⟨fun h hraw entry hentry => ?_, urlOf_prunedAt⟩
  rw [urlOf_of_mem_fieldsInUse hraw hentry, urlOf_prunedAt_of_mem_fieldsInUse hraw hentry] at h
  have htext := Json.string.inj (Except.ok.inj h)
  exact not_isNamedNull_of_room_eq (room_eq_of_assembledUrl_eq htext) entry hentry

theorem formBody_withoutNullsInside_eq_iff {form : Json} :
    formBody ((objectsOf (withoutNullsInside form)).map formField) =
        formBody ((objectsOf form).map formField) ↔
      ∀ entry ∈ objectsOf form, ¬IsNamedNull entry := by
  rw [objectsOf_withoutNullsInside]
  exact ⟨fun h => not_isNamedNull_of_room_eq (room_eq_of_formBody_eq h),
    fun h => by rw [map_formField_withoutNulls h]⟩

theorem bodyOf_prunedAt_eq_iff {body : Json} :
    bodyOf (prunedAt "urlencoded" body) = bodyOf body ↔
      (body.member "mode" = .string "urlencoded" →
        ∀ entry ∈ objectsOf (body.member "urlencoded"), ¬IsNamedNull entry) := by
  rw [bodyOf_eq_iff fun name h => member_prunedAt_of_ne h body, member_prunedAt_self,
    formBody_withoutNullsInside_eq_iff]

theorem headerPairs_withoutNullsInside {header : Json}
    (h : ∀ entry ∈ objectsOf header, ¬IsNamedNull entry) :
    headerPairs (withoutNullsInside header) = headerPairs header := by
  rw [headerPairs, objectsOf_withoutNullsInside, List.filterMap_map, headerPairs]
  apply List.filterMap_congr
  intro entry hmem
  rw [Function.comp_apply, headerPair?, member?_withoutNulls_of_not_isNamedNull (h entry hmem),
    Json.member_withoutNulls, headerPair?]

theorem namedValues_map_withoutNulls (entries : List Json) :
    namedValues (entries.map Json.withoutNulls) = namedValues entries := by
  induction entries with
  | nil => rfl
  | cons entry rest ih =>
      rw [List.map_cons, namedValues, namedValues, Json.member_withoutNulls,
        Json.member_withoutNulls, ih]

theorem credentialsIn_withoutNulls (values : Json) :
    credentialsIn values.withoutNulls = credentialsIn values := by
  rw [credentialsIn, Json.member_withoutNulls, Json.member_withoutNulls, credentialsIn]

theorem credentialsOf_prunedAuth (auth : Json) :
    credentialsOf (prunedAuth auth) = credentialsOf auth := by
  have htype : (prunedAuth auth).member "type" = auth.member "type" := by
    rw [prunedAuth, Json.member_withoutNulls, Json.member_modify_of_ne (by decide)]
  have hbasic : (prunedAuth auth).member "basic" =
      (withoutNullsInside (auth.member "basic")).withoutNulls := by
    rw [prunedAuth, Json.member_withoutNulls, Json.member_modify_self rfl]
  unfold credentialsOf
  rw [htype, hbasic]
  split
  · cases auth.member "basic" with
    | object members =>
        exact congrArg Except.ok (credentialsIn_withoutNulls (.object members))
    | array entries =>
        change (namedValues (objects (entries.map Json.withoutNulls))).map _ = _
        rw [objects_map_withoutNulls, namedValues_map_withoutNulls]
    | _ => rfl
  · rfl

/-! ## The whole request -/

/-- No field of a request that counts has null for its name, and the headers that have are without
effect. -/
structure NullsDoNotCount (source : Json) : Prop where
  query : ((source.member "url").member "raw").isTruthy = false →
    ∀ entry ∈ fieldsInUse ((source.member "url").member "query"), ¬IsNamedNull entry
  headers : SetAlike (source.member "header") (withoutNullsInside (source.member "header"))
  form : (source.member "body").member "mode" = .string "urlencoded" →
    ∀ entry ∈ objectsOf ((source.member "body").member "urlencoded"), ¬IsNamedNull entry

/-- Nulls other than names do not count. -/
theorem nullsDoNotCount_of_names {source : Json}
    (hquery : ∀ entry ∈ objectsOf ((source.member "url").member "query"), ¬IsNamedNull entry)
    (hheaders : ∀ entry ∈ objectsOf (source.member "header"), ¬IsNamedNull entry)
    (hform : ∀ entry ∈ objectsOf ((source.member "body").member "urlencoded"),
      ¬IsNamedNull entry) : NullsDoNotCount source where
  query := fun _ entry hentry => hquery entry (List.mem_of_mem_filter hentry)
  headers := by
    rw [← headersOf_eq_iff, headersOf_eq, headerPairs_withoutNullsInside hheaders, headersOf_eq]
  form := fun _ => hform

theorem differInTexts_withoutNullMembers (source : Json) :
    DifferInTexts source (withoutNullMembers source) where
  method := member_withoutNullMembers source "method"
  url := by
    rw [member_withoutNullMembers]
    by_cases h : ((source.member "url").member "raw").isTruthy = false →
        ∀ entry ∈ fieldsInUse ((source.member "url").member "query"), ¬IsNamedNull entry
    · exact Or.inl (urlOf_prunedAt h)
    · push Not at h
      obtain ⟨hraw, entry, hentry, -⟩ := h
      exact Or.inr ⟨_, _, urlOf_of_mem_fieldsInUse hraw hentry,
        urlOf_prunedAt_of_mem_fieldsInUse hraw hentry⟩
  body := by
    rw [member_withoutNullMembers]
    exact bodyOf_eq_or_contents fun name h => member_prunedAt_of_ne h _
  credentials := by
    rw [member_withoutNullMembers]
    exact credentialsOf_prunedAuth _

/-- A collection with the null members of one request deleted fails for the same reason or not at
all. It is read as the same requests if and only if no field of the address that is put together, or
of the form, had null for its name, and the headers that had were without effect. -/
theorem read_withoutNullMembers_eq_iff {text text' : String} {collection : Json} {path : List Nat}
    {fields : List (String × Json)} (htext : Json.read text = .ok collection) (hpath : path ≠ [])
    (hleaf : LeafAt collection path (.fields fields))
    (htext' : Json.read text' = .ok (changeAt withoutNullMembers path collection)) :
    (∀ error, InputFormat.read text' .postman = .error error ↔
      InputFormat.read text .postman = .error error) ∧
    ∀ requests, InputFormat.read text .postman = .ok requests →
      (InputFormat.read text' .postman = .ok requests ↔ NullsDoNotCount (.object fields)) := by
  have h := read_changeAt_of_differInTexts ⟨_, rfl⟩ htext hpath hleaf htext'
    (differInTexts_withoutNullMembers (.object fields))
  refine ⟨h.1, fun requests hrequests => ?_⟩
  have hurl := member_withoutNullMembers (.object fields) "url"
  have hheader := member_withoutNullMembers (.object fields) "header"
  have hbody := member_withoutNullMembers (.object fields) "body"
  simp only [prunedIn, String.reduceEq, ↓reduceIte] at hurl hheader hbody
  rw [h.2 requests hrequests, hurl, hheader, hbody, urlOf_prunedAt_eq_iff,
    bodyOf_prunedAt_eq_iff, headersOf_eq_iff]
  exact ⟨fun h => ⟨h.1, h.2.1, h.2.2⟩, fun h => ⟨h.query, h.headers, h.form⟩⟩

/-- A null method, and a header with a null value. -/
theorem read_withoutNullMembers_of_method_and_value :
    let text := "\x7b\"item\":[\x7b\"request\":\x7b\"method\":null,\"header\":[" ++
      "\x7b\"key\":\"A\",\"value\":null\x7d]\x7d\x7d]\x7d"
    let text' := "\x7b\"item\":[\x7b\"request\":\x7b\"header\":[\x7b\"key\":\"A\"\x7d]\x7d\x7d]\x7d"
    let fields := [("method", Json.null),
      ("header", .array [.object [("key", .string "A"), ("value", .null)]])]
    Json.read text = .ok (single fields) ∧
      Json.read text' = .ok (changeAt withoutNullMembers [0] (single fields)) ∧
      NullsDoNotCount (.object fields) ∧
      ∃ requests, InputFormat.read text .postman = .ok requests ∧
        InputFormat.read text' .postman = .ok requests := by
  intro text text' fields
  have htext : Json.read text = .ok (single fields) := by decide +kernel
  have htext' : Json.read text' = .ok (changeAt withoutNullMembers [0] (single fields)) := by
    rw [changeAt_single rfl]
    decide +kernel
  obtain ⟨request, hrequest⟩ : ∃ request, (Leaf.fields fields).request = .ok request := ⟨_, rfl⟩
  have hread : InputFormat.read text .postman = .ok [request] := by
    rw [read_single htext, hrequest]
    rfl
  have hcount : NullsDoNotCount (.object fields) := by
    apply nullsDoNotCount_of_names
    · rintro entry ⟨⟩
    · intro entry hentry
      obtain rfl : entry = .object [("key", .string "A"), ("value", .null)] :=
        List.mem_singleton.1 hentry
      rintro ⟨⟩
    · rintro entry ⟨⟩
  have h := read_withoutNullMembers_eq_iff htext (by simp) (leafAt_single fields) htext'
  exact ⟨htext, htext', hcount, [request], hread, (h.2 _ hread).2 hcount⟩

/-- A null name of a field in a query is sent as `None`. -/
theorem read_withoutNullMembers_ne_of_name :
    let text := "\x7b\"item\":[\x7b\"request\":\x7b\"url\":\x7b\"query\":[" ++
      "\x7b\"key\":null\x7d]\x7d\x7d\x7d]\x7d"
    let text' :=
      "\x7b\"item\":[\x7b\"request\":\x7b\"url\":\x7b\"query\":[\x7b\x7d]\x7d\x7d\x7d]\x7d"
    let fields := [("url", Json.object [("query", .array [.object [("key", .null)]])])]
    Json.read text = .ok (single fields) ∧ LeafAt (single fields) [0] (.fields fields) ∧
      Json.read text' = .ok (changeAt withoutNullMembers [0] (single fields)) ∧
      InputFormat.read text .postman = .ok [{ url := "https://localhost/?None=" }] ∧
      InputFormat.read text' .postman ≠ InputFormat.read text .postman := by
  intro text text' fields
  have htext : Json.read text = .ok (single fields) := by decide +kernel
  have htext' : Json.read text' = .ok (changeAt withoutNullMembers [0] (single fields)) := by
    rw [changeAt_single rfl]
    decide +kernel
  have hread : InputFormat.read text .postman = .ok [{ url := "https://localhost/?None=" }] := by
    rw [read_single htext]
    rfl
  have hread' : InputFormat.read text' .postman = .ok [{ url := "https://localhost/?=" }] := by
    rw [changeAt_single rfl] at htext'
    rw [read_single htext']
    rfl
  refine ⟨htext, leafAt_single fields, htext', hread, fun h => ?_⟩
  rw [hread, hread'] at h
  have hrequest := List.head_eq_of_cons_eq (Except.ok.inj h)
  exact absurd (congrArg Request.url hrequest) (by decide)

end RequestForms.Collection
