import RequestForms.Collection.Entry
import RequestForms.Proofs.Json.Members
import RequestForms.Proofs.Request.Checked

/-!
# The request of a leaf, part by part

A leaf is a request exactly if each of its parts is of a kind that can be used: the method, a whole
address and a raw body have to be texts, a query has to be something that can be gone through, and
the names of credentials must hold no other values.
-/

namespace RequestForms.Collection

/-! ## Objects in a list -/

/-- The objects among the elements of a list. A value of another kind has none. -/
def objectsOf : Json → List Json
  | .array elements => objects elements
  | _ => []

def isDisabled (entry : Json) : Bool := (entry.member "disabled").isTruthy

def fieldsInUse (query : Json) : List Json :=
  (objectsOf query).filter fun entry => !isDisabled entry

def headerPair? (entry : Json) : Option (String × String) :=
  (entry.member? "key").map fun name => (name.display, textOr "" (entry.member "value"))

def headerPairs (header : Json) : List (String × String) :=
  (objectsOf header).filterMap headerPair?

def formBody (fields : List String) : Json :=
  if fields = [] then .null else .string ("&".intercalate fields)

theorem mem_objects_iff {entry : Json} {elements : List Json} :
    entry ∈ objects elements ↔ entry ∈ elements ∧ ∃ members, entry = .object members := by
  rw [objects, List.mem_filter]
  refine and_congr_right fun _ => ?_
  cases entry <;> simp

theorem headersOf_eq (header : Json) : headersOf header = Headers.ofPairs (headerPairs header) := by
  cases header <;> rfl

theorem bodyOf_raw {body : Json} (h : body.member "mode" = .string "raw") :
    bodyOf body = (body.member "raw").orElse .null := by
  simp [bodyOf, h]

theorem bodyOf_form {body : Json} (h : body.member "mode" = .string "urlencoded") :
    bodyOf body = formBody ((objectsOf (body.member "urlencoded")).map formField) := by
  simp only [bodyOf, h]
  cases body.member "urlencoded" with
  | array elements => cases hobjects : objects elements <;> simp [objectsOf, formBody, hobjects]
  | _ => rfl

theorem bodyOf_other {body : Json} (hraw : body.member "mode" ≠ .string "raw")
    (hform : body.member "mode" ≠ .string "urlencoded") : bodyOf body = .null := by
  unfold bodyOf
  split
  · next h => exact absurd h hraw
  · next h => exact absurd h hform
  · rfl

/-! ## Values of the wrong kind -/

/-- A value that says something and is no text. -/
def IsOddText (value : Json) : Prop := value.isTruthy = true ∧ ∀ text, value ≠ .string text

/-- A number other than zero, or true: a value that says something and has no parts. -/
inductive IsQuantity : Json → Prop
  | int {n : Int} (h : n ≠ 0) : IsQuantity (.int n)
  | double {x : Double} (h : x.isZero = false) : IsQuantity (.double x)
  | true : IsQuantity (.bool true)

inductive IsContainer : Json → Prop
  | array (elements : List Json) : IsContainer (.array elements)
  | object (members : List (String × Json)) : IsContainer (.object members)

theorem exists_orElse_eq_string_iff {value : Json} {default : String} :
    (∃ text, value.orElse (.string default) = .string text) ↔ ¬IsOddText value := by
  unfold Json.orElse IsOddText
  cases htruthy : value.isTruthy with
  | false => simp
  | true => simp

theorem queryFields_eq_ok {query : Json} (h : ¬IsQuantity query) :
    queryFields query = .ok ((fieldsInUse query).map formField) := by
  unfold queryFields
  split
  · next hfalsy =>
      cases query with
      | array elements =>
          obtain rfl : elements = [] := by simpa [Json.isTruthy] using hfalsy
          rfl
      | _ => rfl
  · next htruthy =>
      cases query with
      | int n => exact absurd (.int (by simpa [Json.isTruthy] using htruthy)) h
      | double x => exact absurd (.double (by simpa [Json.isTruthy] using htruthy)) h
      | bool value =>
          obtain rfl : value = true := by simpa [Json.isTruthy] using htruthy
          exact absurd .true h
      | null => simp [Json.isTruthy] at htruthy
      | _ => rfl

theorem queryFields_array (entries : List Json) :
    queryFields (.array entries) = .ok ((fieldsInUse (.array entries)).map formField) := by
  apply queryFields_eq_ok
  rintro ⟨⟩

theorem queryFields_eq_error {query : Json} (h : IsQuantity query) :
    queryFields query = .error (.notIterable query) := by
  cases h with
  | int h => simp [queryFields, Json.isTruthy, h]
  | double h => simp [queryFields, Json.isTruthy, h]
  | true => rfl

theorem urlOf_eq_ok {url : Json} {members : List (String × Json)} (hurl : url = .object members)
    (hraw : (url.member "raw").isTruthy = false) (hquery : ¬IsQuantity (url.member "query")) :
    urlOf url =
      .ok (.string (assembledUrl url ((fieldsInUse (url.member "query")).map formField))) := by
  subst hurl
  simp only [urlOf, hraw, queryFields_eq_ok hquery]
  rfl

theorem exists_urlOf_eq_iff {url : Json} :
    (∃ text, urlOf url = .ok (.string text)) ↔ ¬IsOddText (url.member "raw") ∧
      ((url.member "raw").isTruthy = false → ¬IsQuantity (url.member "query")) := by
  cases url with
  | string text =>
      refine ⟨fun _ => ⟨?_, fun _ => ?_⟩, fun _ => ⟨text, rfl⟩⟩
      · rintro ⟨h, -⟩
        cases h
      · rintro ⟨⟩
  | object members =>
      cases hraw : ((Json.object members).member "raw").isTruthy with
      | true => simp [urlOf, hraw, IsOddText]
      | false =>
          by_cases hquery : IsQuantity ((Json.object members).member "query")
          · simp [urlOf, hraw, queryFields_eq_error hquery, hquery, IsOddText, Except.map]
          · simp [urlOf_eq_ok rfl hraw hquery, hraw, hquery, IsOddText]
  | _ =>
      refine ⟨fun _ => ⟨?_, fun _ => ?_⟩, fun _ => ⟨"", rfl⟩⟩
      · rintro ⟨h, -⟩
        cases h
      · rintro ⟨⟩

theorem exists_bodyOf_eq_iff {body : Json} :
    (∃ content : Option String, bodyOf body = content.elim .null .string) ↔
      (body.member "mode" = .string "raw" → ¬IsOddText (body.member "raw")) := by
  by_cases hraw : body.member "mode" = .string "raw"
  · rw [bodyOf_raw hraw]
    unfold Json.orElse IsOddText
    cases htruthy : (body.member "raw").isTruthy with
    | false => exact ⟨fun _ _ h => absurd h.1 (by simp), fun _ => ⟨none, by simp⟩⟩
    | true =>
        simp only [hraw, if_true, true_and, not_forall, not_not, forall_const]
        constructor
        · rintro ⟨_ | text, h⟩
          · rw [h] at htruthy
            cases htruthy
          · exact ⟨text, h⟩
        · rintro ⟨text, h⟩
          exact ⟨some text, h⟩
  · refine ⟨fun _ h => absurd h hraw, fun _ => ?_⟩
    by_cases hform : body.member "mode" = .string "urlencoded"
    · rw [bodyOf_form hform, formBody]
      split
      · exact ⟨none, rfl⟩
      · exact ⟨some _, rfl⟩
    · exact ⟨none, bodyOf_other hraw hform⟩

/-! ## Credentials -/

theorem exists_namedValues_iff {entries : List Json} :
    (∃ values, namedValues entries = .ok values) ↔
      ∀ entry ∈ entries, ¬IsContainer (entry.member "key") := by
  induction entries with
  | nil => simp [namedValues]
  | cons entry rest ih =>
      rw [namedValues, List.forall_mem_cons, ← ih]
      cases hkey : entry.member "key" with
      | array elements => simp [IsContainer.array]
      | object members => simp [IsContainer.object]
      | string name =>
          have hcontainer : ¬IsContainer (.string name) := by rintro ⟨⟩
          cases namedValues rest <;> simp [hcontainer, Except.map]
      | _ =>
          refine (and_iff_right ?_).symm
          rintro ⟨⟩

theorem credentialsOf_object {auth : Json} {members : List (String × Json)}
    (htype : auth.member "type" = .string "basic")
    (hbasic : auth.member "basic" = .object members) :
    credentialsOf auth = .ok (credentialsIn (.object members)) := by
  simp [credentialsOf, htype, hbasic]

theorem credentialsOf_array {auth : Json} {entries : List Json}
    (htype : auth.member "type" = .string "basic")
    (hbasic : auth.member "basic" = .array entries) :
    credentialsOf auth = (namedValues (objects entries)).map fun values =>
      credentialsIn (.object (Assoc.ofPairs values)) := by
  simp [credentialsOf, htype, hbasic]

theorem exists_credentialsOf_iff {auth : Json} :
    (∃ credentials, credentialsOf auth = .ok credentials) ↔
      (auth.member "type" = .string "basic" → ∀ entries, auth.member "basic" = .array entries →
        ∀ entry ∈ objects entries, ¬IsContainer (entry.member "key")) := by
  by_cases htype : auth.member "type" = .string "basic"
  · cases hbasic : auth.member "basic" with
    | array entries =>
        have hnames : (∃ values, namedValues (objects entries) = .ok values) ↔ _ :=
          exists_namedValues_iff
        rw [credentialsOf_array htype hbasic]
        cases hvalues : namedValues (objects entries) <;> simp_all [Except.map]
    | object members => simp [credentialsOf_object htype hbasic]
    | _ => simp [credentialsOf, htype, hbasic]
  · refine ⟨fun _ h => absurd h htype, fun _ => ⟨none, ?_⟩⟩
    unfold credentialsOf
    split
    · next h => exact absurd h htype
    · rfl

/-! ## All parts together -/

/-- What the parts of a request object have to be for a request to come of it. -/
structure Gives (source : Json) (request : Request) : Prop where
  method : ∃ name, (source.member "method").orElse (.string "GET") = .string name ∧
    request.method = Method.ofString name
  url : urlOf (source.member "url") = .ok (.string request.url)
  headers : request.headers = headersOf (source.member "header")
  body : bodyOf (source.member "body") = request.body.elim .null .string
  credentials : credentialsOf (source.member "auth") = .ok request.credentials
  contentType : request.contentType = none
  followRedirects : request.followRedirects = true
  insecure : request.insecure = false

/-- What the checks of the method, the address and the body come to. -/
def checkedRequest (source url : Json) (credentials : Option Credentials) : Checked Request :=
  (fun method url body =>
      { method, url, headers := headersOf (source.member "header"), body, credentials : Request })
    <$> (Method.ofString <$>
      Checked.text ["method"] ((source.member "method").orElse (.string "GET")))
    <*> Checked.text ["url"] url
    <*> Checked.optionalText ["body"] (bodyOf (source.member "body"))

def verdict : Checked Request → Except Fault Request
  | .accepted request => .ok request
  | .refused complaints => .error (.invalid complaints)

/-- A bad address comes first, then bad credentials, then all that is wrong with the rest. -/
theorem request_fields (members : List (String × Json)) :
    (Leaf.fields members).request =
      (urlOf ((Json.object members).member "url")).bind fun url =>
        (credentialsOf ((Json.object members).member "auth")).bind fun credentials =>
          verdict (checkedRequest (.object members) url credentials) := by
  rw [Leaf.request]
  cases urlOf ((Json.object members).member "url") with
  | error fault => rfl
  | ok url => cases credentialsOf ((Json.object members).member "auth") <;> rfl

theorem verdict_eq_ok_iff {checked : Checked Request} {request : Request} :
    verdict checked = .ok request ↔ checked = .accepted request := by
  cases checked <;> simp [verdict]

theorem checkedRequest_eq_accepted_iff {source url : Json} {credentials : Option Credentials}
    {request : Request} :
    checkedRequest source url credentials = .accepted request ↔ ∃ name address body,
      (source.member "method").orElse (.string "GET") = .string name ∧ url = .string address ∧
      bodyOf (source.member "body") = body.elim .null .string ∧
      request = { method := Method.ofString name, url := address
                  headers := headersOf (source.member "header"), body, credentials } := by
  simp only [checkedRequest, Checked.seq_eq_accepted_iff, Checked.map_eq_accepted_iff,
    Checked.text_eq_accepted_iff, Checked.optionalText_eq_accepted_iff]
  constructor
  · rintro ⟨_, body, ⟨_, address, ⟨_, ⟨name, hname, rfl⟩, rfl⟩, hurl, rfl⟩, hbody, rfl⟩
    exact ⟨name, address, body, hname, hurl, hbody, rfl⟩
  · rintro ⟨name, address, body, hname, hurl, hbody, rfl⟩
    exact ⟨_, body, ⟨_, address, ⟨_, ⟨name, hname, rfl⟩, rfl⟩, hurl, rfl⟩, hbody, rfl⟩

/-- A request comes of an object exactly if each part gives its part. -/
theorem request_eq_ok_iff {members : List (String × Json)} {request : Request} :
    (Leaf.fields members).request = .ok request ↔ Gives (.object members) request := by
  rw [request_fields]
  constructor
  · intro h
    cases hurl : urlOf ((Json.object members).member "url") with
    | error fault => rw [hurl] at h; cases h
    | ok url =>
        cases hcredentials : credentialsOf ((Json.object members).member "auth") with
        | error fault => rw [hurl, hcredentials] at h; cases h
        | ok credentials =>
            rw [hurl, hcredentials] at h
            obtain ⟨name, address, body, hname, rfl, hbody, rfl⟩ :=
              checkedRequest_eq_accepted_iff.1 (verdict_eq_ok_iff.1 h)
            exact ⟨⟨name, hname, rfl⟩, hurl, rfl, hbody, hcredentials, rfl, rfl, rfl⟩
  · intro h
    obtain ⟨name, hname, hmethod⟩ := h.method
    rw [h.url, h.credentials]
    refine verdict_eq_ok_iff.2 (checkedRequest_eq_accepted_iff.2
      ⟨name, request.url, request.body, hname, rfl, h.body, ?_⟩)
    rw [← hmethod, ← h.headers, ← h.contentType, ← h.followRedirects, ← h.insecure]

/-! ## Requests that differ in texts only -/

theorem verdict_eq_error {checked checked' : Checked Request}
    (h : Checked.SameVerdict checked checked') {fault : Fault}
    (hfault : verdict checked = .error fault) : verdict checked' = .error fault := by
  cases h with
  | accepted request request' => cases hfault
  | refused complaints => exact hfault

/-- Two request objects with the same parts, but for texts that stand in the same places. -/
structure DifferInTexts (source source' : Json) : Prop where
  method : source'.member "method" = source.member "method"
  url : urlOf (source'.member "url") = urlOf (source.member "url") ∨
    ∃ text text', urlOf (source.member "url") = .ok (.string text) ∧
      urlOf (source'.member "url") = .ok (.string text')
  body : bodyOf (source'.member "body") = bodyOf (source.member "body") ∨
    ∃ content content' : Option String, bodyOf (source.member "body") = content.elim .null .string ∧
      bodyOf (source'.member "body") = content'.elim .null .string
  credentials : credentialsOf (source'.member "auth") = credentialsOf (source.member "auth")

namespace DifferInTexts

variable {members members' : List (String × Json)}

theorem symm {source source' : Json} (h : DifferInTexts source source') :
    DifferInTexts source' source where
  method := h.method.symm
  url := by
    rcases h.url with h | ⟨text, text', htext, htext'⟩
    · exact Or.inl h.symm
    · exact Or.inr ⟨text', text, htext', htext⟩
  body := by
    rcases h.body with h | ⟨content, content', hcontent, hcontent'⟩
    · exact Or.inl h.symm
    · exact Or.inr ⟨content', content, hcontent', hcontent⟩
  credentials := h.credentials.symm

theorem sameVerdict_body {source source' : Json} (h : DifferInTexts source source')
    (path : List String) :
    Checked.SameVerdict (Checked.optionalText path (bodyOf (source.member "body")))
      (Checked.optionalText path (bodyOf (source'.member "body"))) := by
  rcases h.body with h | ⟨content, content', hcontent, hcontent'⟩
  · rw [h]
    exact .refl _
  · rw [Checked.optionalText_eq_accepted_iff.2 hcontent,
      Checked.optionalText_eq_accepted_iff.2 hcontent']
    exact .accepted _ _

theorem sameVerdict_checkedRequest {source source' url url' : Json}
    (h : DifferInTexts source source')
    (hurl : ∀ path, Checked.SameVerdict (Checked.text path url) (Checked.text path url'))
    (credentials : Option Credentials) :
    Checked.SameVerdict (checkedRequest source url credentials)
      (checkedRequest source' url' credentials) := by
  rw [checkedRequest, checkedRequest, h.method]
  refine .seq (.seq ?_ (hurl _)) (h.sameVerdict_body _)
  cases Checked.text ["method"] ((source.member "method").orElse (.string "GET")) with
  | accepted name => exact .accepted _ _
  | refused complaints => exact .refused complaints

theorem request_eq_error (h : DifferInTexts (.object members) (.object members')) {fault : Fault}
    (hfault : (Leaf.fields members).request = .error fault) :
    (Leaf.fields members').request = .error fault := by
  rw [request_fields] at hfault ⊢
  rw [h.credentials]
  have hrest : ∀ url url',
      (∀ path, Checked.SameVerdict (Checked.text path url) (Checked.text path url')) →
      ((credentialsOf ((Json.object members).member "auth")).bind fun credentials =>
        verdict (checkedRequest (.object members) url credentials)) = .error fault →
      ((credentialsOf ((Json.object members).member "auth")).bind fun credentials =>
        verdict (checkedRequest (.object members') url' credentials)) = .error fault := by
    intro url url' hurl hfault
    cases hcredentials : credentialsOf ((Json.object members).member "auth") with
    | error found => rwa [hcredentials] at hfault
    | ok credentials =>
        rw [hcredentials] at hfault
        exact verdict_eq_error (h.sameVerdict_checkedRequest hurl credentials) hfault
  rcases h.url with hurl | ⟨text, text', htext, htext'⟩
  · rw [hurl]
    cases hsource : urlOf ((Json.object members).member "url") with
    | error found => rwa [hsource] at hfault
    | ok url =>
        rw [hsource] at hfault
        exact hrest url url (fun path => .refl _) hfault
  · rw [htext] at hfault
    rw [htext']
    exact hrest (.string text) (.string text') (fun path => .accepted text text') hfault

/-- They fail for the same reasons. -/
theorem request_eq_error_iff (h : DifferInTexts (.object members) (.object members'))
    (fault : Fault) :
    (Leaf.fields members').request = .error fault ↔ (Leaf.fields members).request = .error fault :=
  ⟨h.symm.request_eq_error, h.request_eq_error⟩

/-- They give the same request exactly if the texts are the same. -/
theorem request_eq_iff (h : DifferInTexts (.object members) (.object members')) {request : Request}
    (hok : (Leaf.fields members).request = .ok request) :
    (Leaf.fields members').request = .ok request ↔
      urlOf ((Json.object members').member "url") = urlOf ((Json.object members).member "url") ∧
      headersOf ((Json.object members').member "header") =
        headersOf ((Json.object members).member "header") ∧
      bodyOf ((Json.object members').member "body") =
        bodyOf ((Json.object members).member "body") := by
  have hgives := Collection.request_eq_ok_iff.1 hok
  rw [Collection.request_eq_ok_iff]
  constructor
  · intro hgives'
    exact ⟨hgives'.url.trans hgives.url.symm, hgives'.headers.symm.trans hgives.headers,
      hgives'.body.trans hgives.body.symm⟩
  · rintro ⟨hurl, hheaders, hbody⟩
    exact {
      method := h.method ▸ hgives.method
      url := hurl.trans hgives.url
      headers := hgives.headers.trans hheaders.symm
      body := hbody.trans hgives.body
      credentials := h.credentials.trans hgives.credentials
      contentType := hgives.contentType
      followRedirects := hgives.followRedirects
      insecure := hgives.insecure }

end DifferInTexts

end RequestForms.Collection
