import RequestForms.Proofs.Command.RoundTrip
import RequestForms.Proofs.Snippet.Axios
import RequestForms.Proofs.Snippet.Fetch

/-!
# Requests that every form keeps

Plain texts, methods in plain letters, and bodies that are plain or a flat object.
-/

namespace RequestForms

open Snippet (IsPlain IsCommonBody)

namespace Snippet

theorem IsPlain.isUnbroken {text : String} (h : IsPlain text) :
    Text.isUnbroken text.toList = true :=
  Text.isUnbroken_of_not_mem fun hmem => absurd (h.not_markup '\\' hmem) (by decide)

theorem IsCommonBody.isUnbroken {body : String} (h : IsCommonBody body) :
    Text.isUnbroken body.toList = true := by
  rcases h with ⟨hplain, -⟩ | hobject
  · exact hplain.isUnbroken
  · obtain ⟨members, hread⟩ := hobject.object
    exact Json.isUnbroken_of_read hread

end Snippet

@[mk_iff] structure IsCommonHeader (header : String × String) : Prop extends Command.IsHeader header where
  name : IsPlain header.1
  value : IsPlain header.2

instance (header : String × String) : Decidable (IsCommonHeader header) :=
  decidable_of_iff _ (isCommonHeader_iff header).symm

/-- A request that no form loses anything of but what it has no place for. -/
@[mk_iff] structure IsCommon (request : Request) : Prop where
  method : request.method.IsPlainName
  url : IsPlain request.url
  looksLikeUrl : Command.Session.looksLikeUrl request.url = true
  headers : ∀ header ∈ request.headers.entries, IsCommonHeader header
  credentials : request.credentials = none
  body : ∀ body ∈ request.body, IsCommonBody body
  methodOrNoBody : request.method.name ≠ "GET" ∨ request.body = none

instance (request : Request) : Decidable (IsCommon request) :=
  decidable_of_iff _ (isCommon_iff request).symm

namespace IsCommon

variable {request : Request}

theorem hasPlainTexts (h : IsCommon request) : Snippet.HasPlainTexts request where
  method := h.method
  url := h.url
  headers := fun header hmem => ⟨(h.headers header hmem).name, (h.headers header hmem).value⟩

theorem body_ne_empty (h : IsCommon request) : request.body ≠ some "" := by
  intro hbody
  rcases h.body "" hbody with ⟨hplain, -⟩ | hobject
  · exact hplain.ne_empty rfl
  · exact hobject.ne_empty rfl

theorem content_eq (h : IsCommon request) : request.content = request.body :=
  Request.content_eq_body h.body_ne_empty

theorem of_saysTheSame (h : IsCommon request) {other : Request}
    (hsame : other.SaysTheSame request) : IsCommon other where
  method := hsame.method ▸ h.method
  url := hsame.url ▸ h.url
  looksLikeUrl := hsame.url ▸ h.looksLikeUrl
  headers := hsame.headers ▸ h.headers
  credentials := hsame.credentials ▸ h.credentials
  body := hsame.body ▸ h.body
  methodOrNoBody := hsame.method ▸ hsame.body ▸ h.methodOrNoBody

/-! ## As a command -/

theorem isExpressible (h : IsCommon request) : Command.IsExpressible request where
  unbroken := {
    url := h.url.isUnbroken
    headers := fun header hmem =>
      ⟨(h.headers header hmem).name.isUnbroken, (h.headers header hmem).value.isUnbroken⟩
    credentials := by
      rw [h.credentials]
      intro credentials hmem
      cases hmem
    body := fun body hmem => (h.body body hmem).isUnbroken }
  bareMethod := by
    have hactive : ∀ c ∈ Method.plainChars, Shell.isActive c = false := by decide
    exact fun c hc => hactive c (h.method c hc)
  upperMethod := request.method.toUpper_name
  methodOrNoBody := h.methodOrNoBody
  url := Or.inr h.looksLikeUrl
  headers := fun header hmem => (h.headers header hmem).toIsHeader
  user := by
    rw [h.credentials]
    intro credentials hmem
    cases hmem
  body := h.body_ne_empty

/-! ## As a call -/

theorem callBody_eq (h : IsCommon request) : Snippet.callBody request = request.body := by
  rw [Snippet.callBody, h.content_eq]
  cases hbody : request.body with
  | none => rfl
  | some body =>
      rcases h.body body hbody with ⟨-, hliteral⟩ | hobject
      · rw [Option.map_some, hliteral]
        rfl
      · rw [Option.map_some, hobject.jsonLiteral?_eq]
        rfl

theorem isExpressible_axios (h : IsCommon request) : Snippet.Axios.IsExpressible request where
  toHasPlainTexts := h.hasPlainTexts
  credentials := by
    rw [h.credentials]
    intro credentials hmem
    cases hmem
  body := fun body hmem => (h.body body (h.content_eq ▸ hmem)).imp_right fun hobject =>
    hobject.holdsFlatObject

end IsCommon

theorem Snippet.Axios.read_render_of_isCommon {request : Request} (h : IsCommon request) :
    read (render request) =
      { method := request.method, url := request.url, headers := request.headers
        body := request.body } := by
  rw [read, toList_render, readChars_code h.isExpressible_axios, h.callBody_eq, h.credentials]

theorem Snippet.Fetch.read_render_of_isCommon {request : Request} (h : IsCommon request) :
    read (render request) =
      { method := request.method, url := request.url, headers := request.headers
        body := request.body } := by
  have hheaders : member? "headers" braced? (bodyCode request) = none := by
    cases hcontent : request.content with
    | none => exact member?_headers_bodyCode_of_content_eq_none hcontent
    | some body =>
        rcases h.body body (h.content_eq ▸ hcontent) with ⟨hplain, hliteral⟩ | hobject
        · exact member?_headers_bodyCode_of_plain hcontent hplain hliteral
        · exact member?_headers_bodyCode_of_flat_object hcontent hobject.holdsFlatObject
  have hbody : body? (code request) = request.body := by
    rw [← h.callBody_eq]
    apply body?_code (isPlainOrEmpty_of_mem_quotedTexts h.hasPlainTexts)
    intro body hmem
    refine (h.body body (h.content_eq ▸ hmem)).imp_right fun hobject => ?_
    exact ⟨body, hobject.jsonLiteral?_eq, hobject.no_closing_paren⟩
  rw [read, toList_render h.credentials, readChars_code h.hasPlainTexts fun _ => hheaders, hbody]

end RequestForms
