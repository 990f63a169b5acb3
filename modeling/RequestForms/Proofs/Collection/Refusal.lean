import RequestForms.Proofs.Collection.Folders
import RequestForms.Proofs.Collection.Request
import RequestForms.Proofs.Json.Equality

/-!
# When a collection is not read

A collection is read unless one of its leaves, wherever it stands, has a part of the wrong kind.
-/

namespace RequestForms.Collection

/-- A request object that no request comes of, with the part that is to blame. -/
inductive IsRefused (source : Json) : Prop
  /-- The method says something and is no text. -/
  | method (h : IsOddText (source.member "method"))
  /-- The address as a whole says something and is no text. -/
  | address {url : List (String × Json)} (hurl : source.member "url" = .object url)
      (h : IsOddText ((Json.object url).member "raw"))
  /-- The address is to be put together, and its query is a number or true. -/
  | query {url : List (String × Json)} (hurl : source.member "url" = .object url)
      (hraw : ((Json.object url).member "raw").isTruthy = false)
      (h : IsQuantity ((Json.object url).member "query"))
  /-- The raw body says something and is no text. -/
  | body {body : List (String × Json)} (hbody : source.member "body" = .object body)
      (hmode : (Json.object body).member "mode" = .string "raw")
      (h : IsOddText ((Json.object body).member "raw"))
  /-- Among the entries of the credentials is an object whose name holds other values. -/
  | credentials {auth entry : List (String × Json)} {entries : List Json}
      (hauth : source.member "auth" = .object auth)
      (htype : (Json.object auth).member "type" = .string "basic")
      (hbasic : (Json.object auth).member "basic" = .array entries)
      (hentry : Json.object entry ∈ entries) (h : IsContainer ((Json.object entry).member "key"))

theorem not_isOddText_null : ¬IsOddText .null := by
  rintro ⟨h, -⟩
  cases h

theorem not_isQuantity_null : ¬IsQuantity .null := by
  rintro ⟨⟩

theorem request_ne_ok_of_isRefused {members : List (String × Json)}
    (h : IsRefused (.object members)) (request : Request) :
    (Leaf.fields members).request ≠ .ok request := by
  intro hok
  have hgives := request_eq_ok_iff.1 hok
  cases h with
  | method h =>
      obtain ⟨name, hname, -⟩ := hgives.method
      exact exists_orElse_eq_string_iff.1 ⟨name, hname⟩ h
  | address hurl h => exact (exists_urlOf_eq_iff.1 ⟨_, hgives.url⟩).1 (hurl ▸ h)
  | query hurl hraw h =>
      exact (exists_urlOf_eq_iff.1 ⟨_, hgives.url⟩).2 (hurl ▸ hraw) (hurl ▸ h)
  | body hbody hmode h =>
      exact exists_bodyOf_eq_iff.1 ⟨_, hgives.body⟩ (hbody ▸ hmode) (hbody ▸ h)
  | credentials hauth htype hbasic hentry h =>
      exact exists_credentialsOf_iff.1 ⟨_, hgives.credentials⟩ (hauth ▸ htype) _ (hauth ▸ hbasic) _
        (mem_objects_iff.2 ⟨hentry, _, rfl⟩) h

theorem exists_request_of_not_isRefused {members : List (String × Json)}
    (h : ¬IsRefused (.object members)) :
    ∃ request, (Leaf.fields members).request = .ok request := by
  obtain ⟨name, hname⟩ := exists_orElse_eq_string_iff.2 fun hodd => h (.method hodd)
  obtain ⟨url, hurl⟩ : ∃ text, urlOf ((Json.object members).member "url") = .ok (.string text) := by
    rw [exists_urlOf_eq_iff]
    constructor
    · intro hodd
      obtain ⟨url, hobject⟩ := Json.exists_object_of_member_ne_null
        (fun hnull => not_isOddText_null (hnull ▸ hodd))
      exact h (.address hobject (hobject ▸ hodd))
    · intro hraw hquantity
      obtain ⟨url, hobject⟩ := Json.exists_object_of_member_ne_null
        (fun hnull => not_isQuantity_null (hnull ▸ hquantity))
      exact h (.query hobject (hobject ▸ hraw) (hobject ▸ hquantity))
  obtain ⟨body, hbody⟩ : ∃ content : Option String,
      bodyOf ((Json.object members).member "body") = content.elim .null .string := by
    rw [exists_bodyOf_eq_iff]
    intro hmode hodd
    obtain ⟨body, hobject⟩ := Json.exists_object_of_member_ne_null
      (fun hnull => not_isOddText_null (hnull ▸ hodd))
    exact h (.body hobject (hobject ▸ hmode) (hobject ▸ hodd))
  obtain ⟨credentials, hcredentials⟩ : ∃ credentials,
      credentialsOf ((Json.object members).member "auth") = .ok credentials := by
    rw [exists_credentialsOf_iff]
    intro htype entries hbasic entry hentry hcontainer
    obtain ⟨hmem, entry, rfl⟩ := mem_objects_iff.1 hentry
    obtain ⟨auth, hobject⟩ := Json.exists_object_of_member_ne_null (hbasic.trans_ne (by simp))
    exact h (.credentials hobject (hobject ▸ htype) (hobject ▸ hbasic) hmem hcontainer)
  let request : Request :=
    { method := Method.ofString name, url
      headers := headersOf ((Json.object members).member "header"), body, credentials }
  have hgives : Gives (.object members) request :=
    ⟨⟨name, hname, rfl⟩, hurl, rfl, hbody, hcredentials, rfl, rfl, rfl⟩
  exact ⟨request, request_eq_ok_iff.2 hgives⟩

theorem exists_request_eq_error_iff {members : List (String × Json)} :
    (∃ fault, (Leaf.fields members).request = .error fault) ↔ IsRefused (.object members) := by
  constructor
  · rintro ⟨fault, hfault⟩
    by_contra h
    obtain ⟨request, hrequest⟩ := exists_request_of_not_isRefused h
    rw [hfault] at hrequest
    cases hrequest
  · intro h
    cases hrequest : (Leaf.fields members).request with
    | error fault => exact ⟨fault, rfl⟩
    | ok request => exact absurd hrequest (request_ne_ok_of_isRefused h request)

/-! ## The whole collection -/

def HasRefusedLeaf (collection : Json) : Prop :=
  (∃ members, collection = .object members) ∧ ∃ path fields,
    path ≠ [] ∧ LeafAt collection path (.fields fields) ∧ IsRefused (.object fields)

/-- A collection fails exactly if a leaf does. -/
theorem exists_requests_eq_error_iff {collection : Json} :
    (∃ fault, requests collection = .error fault) ↔ HasRefusedLeaf collection := by
  obtain ⟨places, hplaces, hleaves⟩ := exists_lists_leaves collection
  rw [requests, exists_mapM_eq_error_iff]
  constructor
  · rintro ⟨leaf, hmem, fault, hfault⟩
    rw [← hleaves] at hmem
    obtain ⟨⟨path, leaf⟩, hplace, rfl⟩ := List.mem_map.1 hmem
    obtain ⟨hpath, hleaf⟩ := (hplaces.mem_iff path leaf).1 hplace
    have hobject : ∃ members, collection = .object members := by
      cases hleaf with
      | here => exact absurd rfl hpath
      | inside hfolder => exact Json.exists_object_of_member? hfolder
    cases leaf with
    | address url => cases hfault
    | fields fields =>
        exact ⟨hobject, path, fields, hpath, hleaf, exists_request_eq_error_iff.1 ⟨fault, hfault⟩⟩
  · rintro ⟨-, path, fields, hpath, hleaf, hrefused⟩
    exact ⟨_, mem_leaves_of_leafAt hpath hleaf, exists_request_eq_error_iff.2 hrefused⟩

/-- What a JSON text is read as, as a collection: it fails if and only if it is an object with a
leaf below it that has a part of the wrong kind. Otherwise it is read as one request for each leaf,
in the order of the document. -/
theorem read_eq_error_iff {text : String} {collection : Json}
    (h : Json.read text = .ok collection) :
    ((∃ error, InputFormat.read text .postman = .error error) ↔ HasRefusedLeaf collection) ∧
      (¬HasRefusedLeaf collection → ∃ places requests,
        Lists places (fun path leaf => path ≠ [] ∧ LeafAt collection path leaf) ∧
        InputFormat.read text .postman = .ok requests ∧
        List.Forall₂ (fun place request => place.2.request = .ok request) places requests) := by
  have hread : InputFormat.read text .postman = (requests collection).mapError .notRequest :=
    read_postman_eq h
  rw [hread, ← exists_requests_eq_error_iff]
  obtain ⟨places, hplaces, hleaves⟩ := exists_lists_leaves collection
  cases hrequests : requests collection with
  | error fault => exact ⟨by simp [Except.mapError], fun hnone => absurd ⟨fault, rfl⟩ hnone⟩
  | ok found =>
      refine ⟨by simp [Except.mapError], fun _ => ⟨places, found, hplaces, rfl, ?_⟩⟩
      rw [requests, ← hleaves] at hrequests
      exact List.forall₂_map_left_iff.1 (forall₂_of_mapM_eq_ok hrequests)

/-- The second of two leaves has `true` for its query. -/
theorem read_of_query_true :
    let text := "\x7b\"item\":[\x7b\"item\":[\x7b\"request\":\"a\"\x7d]\x7d," ++
      "\x7b\"request\":\x7b\"url\":\x7b\"query\":true\x7d\x7d\x7d]\x7d"
    ∃ collection, Json.read text = .ok collection ∧ HasRefusedLeaf collection ∧
      ∃ error, InputFormat.read text .postman = .error error := by
  intro text
  obtain ⟨fields, hfields⟩ : ∃ fields : List (String × Json), fields =
      [("url", .object [("query", .bool true)])] := ⟨_, rfl⟩
  have htext : Json.read text =
      .ok (folderOf [folderOf [requestAt "a"], .object [("request", .object fields)]]) := by
    rw [hfields]
    decide +kernel
  have hleaf : LeafAt (folderOf [folderOf [requestAt "a"], .object [("request", .object fields)]])
      [1] (.fields fields) := by
    refine .inside rfl rfl (.here ?_ (.fields rfl))
    rintro items ⟨⟩
  have hrefused : IsRefused (.object fields) := by
    rw [hfields]
    exact .query rfl rfl .true
  have h : HasRefusedLeaf
      (folderOf [folderOf [requestAt "a"], .object [("request", .object fields)]]) :=
    ⟨⟨_, rfl⟩, [1], fields, by simp, hleaf, hrefused⟩
  exact ⟨_, htext, h, (read_eq_error_iff htext).1.2 h⟩

end RequestForms.Collection
