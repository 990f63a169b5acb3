import Mathlib.Tactic.MkIffOfInductiveProp
import RequestForms.Proofs.Command.Session

/-!
# Reading back a written command

A command has room for the texts of a request, whatever characters they hold. It says nothing of
redirects, and the type of the body only through the headers.
-/

namespace RequestForms.Command

@[mk_iff] structure IsHeader (header : String × String) : Prop where
  name_ne_empty : header.1 ≠ ""
  colon_not_mem : ':' ∉ header.1.toList
  trim_name : Text.trim header.1 = header.1
  trim_value : Text.trim header.2 = header.2

instance (header : String × String) : Decidable (IsHeader header) :=
  decidable_of_iff _ (isHeader_iff header).symm

/-- A request whose parts survive being written as a command. -/
@[mk_iff] structure IsExpressible (request : Request) : Prop where
  unbroken : IsUnbroken request
  bareMethod : ∀ c ∈ request.method.name.toList, Shell.isActive c = false
  upperMethod : Text.toUpper request.method.name = request.method.name
  methodOrNoBody : request.method.name ≠ "GET" ∨ request.body = none
  url : request.url = "" ∨ Session.looksLikeUrl request.url = true
  headers : ∀ header ∈ request.headers.entries, IsHeader header
  user : ∀ credentials ∈ request.credentials, ':' ∉ credentials.user.toList
  body : request.body ≠ some ""

instance (request : Request) : Decidable (IsExpressible request) :=
  decidable_of_iff _ (isExpressible_iff request).symm

namespace IsExpressible

variable {request : Request}

theorem head?_url (h : IsExpressible request) : request.url.toList.head? ≠ some '-' := by
  rcases h.url with hempty | hurl
  · rw [hempty]
    decide
  · exact head?_ne_of_looksLikeUrl hurl

end IsExpressible

/-! ## Headers -/

namespace Session

theorem headerOfLine?_append {name value : String} (hempty : name ≠ "")
    (hcolon : ':' ∉ name.toList) (hname : Text.trim name = name)
    (hvalue : Text.trim value = value) :
    headerOfLine? (name ++ ": " ++ value) = some (name, value) := by
  have hline : (name ++ ": " ++ value).toList = name.toList ++ ':' :: ' ' :: value.toList := by
    rw [String.toList_append, String.toList_append, List.append_assoc]
    rfl
  have hstrip : Text.strip (' ' :: value.toList) = value.toList := by
    rw [Text.strip_cons_of_blank (by decide), Text.trim_eq_self_iff.1 hvalue]
  have hne : name.toList ≠ [] := by simpa using hempty
  rw [headerOfLine?, hline, Text.splitFirst?_append hcolon]
  split
  · next hsplit => cases hsplit
  · next hsplit => exact absurd (congrArg Prod.fst (Option.some.inj hsplit)) hne
  · next hsplit =>
      cases hsplit
      rw [hstrip, Text.trim_eq_self_iff.1 hname, String.ofList_toList, String.ofList_toList]

theorem foldl_setHeader (pairs : List (String × String)) (session : Session) :
    pairs.foldl (fun session pair => session.setHeader pair.1 pair.2) session =
      { session with
        headers := pairs.foldl (fun headers pair => headers.set pair.1 pair.2) session.headers
        contentType := (Headers.contentTypeOf? pairs).or session.contentType } := by
  induction pairs generalizing session with
  | nil => rfl
  | cons pair pairs ih =>
      have hnext : (session.setHeader pair.1 pair.2).contentType =
          (if Headers.isContentType pair.1 then some pair.2 else none).or session.contentType := by
        simp only [setHeader, Headers.isContentType, decide_eq_true_eq]
        split <;> rfl
      rw [List.foldl_cons, ih, List.foldl_cons, Headers.contentTypeOf?_cons, Option.or_assoc, hnext]
      rfl

theorem foldl_apply_setting_header {pairs : List (String × String)}
    (h : ∀ header ∈ pairs, IsHeader header) (session : Session) :
    (pairs.map fun header => Item.setting .header (header.1 ++ ": " ++ header.2)).foldl apply
        session =
      pairs.foldl (fun session pair => session.setHeader pair.1 pair.2) session := by
  induction pairs generalizing session with
  | nil => rfl
  | cons pair pairs ih =>
      have hpair := h pair (by simp)
      rw [List.map_cons, List.foldl_cons, List.foldl_cons, apply, applySetting,
        headerOfLine?_append hpair.name_ne_empty hpair.colon_not_mem hpair.trim_name
          hpair.trim_value]
      exact ih (fun header hmem => h header (List.mem_cons_of_mem pair hmem)) _

/-- The header lines of a request set its headers, and beside them only the type of the body. -/
theorem foldl_apply_headers {headers : Headers} (h : ∀ header ∈ headers.entries, IsHeader header)
    {session : Session} (hheaders : session.headers = Headers.empty)
    (hcontentType : session.contentType = none) :
    (headers.entries.map fun header =>
        Item.setting .header (header.1 ++ ": " ++ header.2)).foldl apply session =
      { session with headers, contentType := headers.contentType? } := by
  rw [foldl_apply_setting_header h, foldl_setHeader, hheaders, hcontentType,
    Headers.foldl_set_entries, Option.or_none]
  rfl

theorem credentialsOf_joined {credentials : Credentials} (h : ':' ∉ credentials.user.toList) :
    credentialsOf credentials.joined = credentials := by
  have hjoined : credentials.joined.toList =
      credentials.user.toList ++ ':' :: credentials.password.toList := by
    rw [Credentials.joined, String.toList_append, String.toList_append, List.append_assoc]
    rfl
  rw [credentialsOf, hjoined, Text.splitFirst?_append h]
  simp only [String.ofList_toList]

theorem foldl_apply_credentials {credentials : Option Credentials}
    (h : ∀ c ∈ credentials, ':' ∉ c.user.toList) {session : Session}
    (hnone : session.credentials = none) :
    (credentials.toList.map fun c => Item.setting .user c.joined).foldl apply session =
      { session with credentials } := by
  cases credentials with
  | none =>
      change session = _
      rw [← hnone]
  | some c => simp [apply, applySetting, credentialsOf_joined (h c rfl)]

theorem foldl_apply_body {body : Option String} {session : Session}
    (h : body.isSome → session.methodIsExplicit = true) (hnone : session.body = none) :
    (body.toList.map fun text => Item.setting .data text).foldl apply session =
      { session with body } := by
  cases body with
  | none =>
      change session = _
      rw [← hnone]
  | some text =>
      change session.setBody text = _
      rw [setBody, implyMethod, if_pos (h rfl)]

theorem foldl_apply_insecure {insecure : Bool} {session : Session}
    (hfalse : session.insecure = false) :
    (if insecure then [Item.switch .insecure] else []).foldl apply session =
      { session with insecure } := by
  cases insecure with
  | false =>
      change session = _
      rw [← hfalse]
  | true => rfl

end Session

/-! ## The whole command -/

def methodSession (request : Request) : Session :=
  { method := request.method.name, methodIsExplicit := request.method.name != "GET" }

def sessionOf (request : Request) : Session :=
  { methodSession request with
    url := request.url
    headers := request.headers
    body := request.body
    contentType := request.headers.contentType?
    credentials := request.credentials
    insecure := request.insecure }

theorem foldl_apply_itemsOf {request : Request} (h : IsExpressible request) :
    (itemsOf request).foldl Session.apply {} = sessionOf request := by
  have hmethod : (if request.method.name = "GET" then []
      else [Item.setting .request request.method.name]).foldl Session.apply {} =
        methodSession request := by
    rw [methodSession]
    split
    · next hget => simp [hget]
    · next hget =>
        simp only [List.foldl_cons, List.foldl_nil, Session.apply, Session.applySetting,
          h.upperMethod]
        simp [hget]
  have hurl : (if request.url = "" then [] else [Item.word request.url]).foldl Session.apply
      (methodSession request) = { methodSession request with url := request.url } := by
    split
    · next hempty => rw [hempty]; rfl
    · next hne => simp [Session.apply, h.url.resolve_left hne]
  have hexplicit : request.body.isSome → (request.method.name != "GET") = true := by
    intro hbody
    have hget := h.methodOrNoBody.resolve_right (Option.isSome_iff_ne_none.1 hbody)
    simpa using hget
  simp only [itemsOf, fieldItems, List.foldl_append]
  rw [hmethod, hurl, Session.foldl_apply_headers h.headers rfl rfl,
    Session.foldl_apply_credentials h.user rfl, Request.content_eq_body h.body,
    Session.foldl_apply_body hexplicit rfl, Session.foldl_apply_insecure rfl]
  rfl

/-- What is read back from a command, with the redirects that a command leaves at their default. -/
theorem read_render_eq_of_isExpressible {request : Request} (h : IsExpressible request) :
    read (render request) =
      { request with contentType := request.headers.contentType?, followRedirects := true } := by
  rw [read_render_eq h.unbroken h.bareMethod h.head?_url, foldl_apply_itemsOf h]
  simp only [Session.request, sessionOf, methodSession, request.method.ofString_name]

/-- A request that follows redirects and whose content type is that of its headers comes back from
its command as it was. -/
theorem read_render {request : Request} (h : IsExpressible request)
    (hredirects : request.followRedirects = true)
    (hcontentType : request.contentType = request.headers.contentType?) :
    read (render request) = request := by
  rw [read_render_eq_of_isExpressible h, ← hcontentType, ← hredirects]

/-- Quotes, backslashes and line breaks in the texts come back. -/
theorem read_render_of_quoted_texts :
    let request : Request := {
      method := .ofString "POST"
      url := "/it's \"here\" \\"
      headers := .ofPairs [("Content-Type", "a 'b'"), ("X", ""), ("content-type", "\\ c:d")]
      body := some "\x7b\n  \"a'\": 1 \\ \n\x7d"
      contentType := some "\\ c:d"
      credentials := some ⟨"-u '", ":\"-k"⟩
      insecure := true }
    IsExpressible request ∧ request.followRedirects = true ∧
      request.contentType = request.headers.contentType? ∧ read (render request) = request := by
  intro request
  have hexpressible : IsExpressible request := by decide +kernel
  have hcontentType : request.contentType = request.headers.contentType? := by decide +kernel
  exact ⟨hexpressible, rfl, hcontentType, read_render hexpressible rfl hcontentType⟩

end RequestForms.Command
