import RequestForms.Proofs.Json.Accepted
import RequestForms.Proofs.Request
import RequestForms.Proofs.Snippet.Literal
import RequestForms.Snippet.Axios
import RequestForms.Snippet.Fetch

/-!
# Bodies that stand in a call as they are

A call has its body in one place, as a string literal or, if it is JSON, as it is. What is taken for
JSON is standard JSON but for `NaN` and `Infinity`, so with these a body can become code with
another value.
-/

namespace RequestForms.Snippet

/-! ## The place of the body -/

/-- Code that has the body of a request in one place, as some expression, and is the same around it
whatever the body is. -/
def WritesBody (render : Request → String) (expression : String → String) : Prop :=
  ∀ request : Request, ∃ front behind, ∀ body, body ≠ "" →
    render { request with body := some body } = front ++ expression body ++ behind

theorem exists_intercalate_eq (sep : String) (front behind : List String) :
    ∃ before after, ∀ part,
      sep.intercalate (front ++ part :: behind) = before ++ part ++ after := by
  refine ⟨String.ofList (front.flatMap fun other => other.toList ++ sep.toList),
    String.ofList (behind.flatMap fun other => sep.toList ++ other.toList), fun part => ?_⟩
  rw [← String.toList_inj, Text.toList_intercalate_append_cons]
  simp

/-- Code in lines has the body in one place if one of the lines has it. -/
theorem writesBody_of_lines (label : String) {lines : Request → List String}
    {expression : String → String}
    (h : ∀ request : Request, ∃ front behind, ∀ body, body ≠ "" →
      lines { request with body := some body } =
        front ++ (label ++ expression body ++ ",") :: behind) :
    WritesBody (fun request => "\n".intercalate (lines request)) expression := by
  intro request
  obtain ⟨front, behind, hlines⟩ := h request
  obtain ⟨before, after, hcode⟩ := exists_intercalate_eq "\n" front behind
  refine ⟨before ++ label, "," ++ after, fun body hbody => ?_⟩
  dsimp only
  rw [hlines body hbody, hcode]
  simp only [String.append_assoc]

theorem content_of_body (request : Request) {body : String} (h : body ≠ "") :
    { request with body := some body : Request }.content = some body :=
  Request.content_eq_some_iff.2 ⟨rfl, h⟩

theorem Fetch.writesBody_render : WritesBody Fetch.render Fetch.bodyExpression := by
  refine writesBody_of_lines "  body: " fun request =>
    ⟨(request.credentials.toList.flatMap fun credentials =>
        ["const credentials = btoa(" ++ quote credentials.joined ++ ");", ""]) ++
      ["const response = await fetch(" ++ quote request.url ++ ", \x7b",
        "  method: " ++ quote request.method.name ++ ","] ++ Fetch.headerLines request,
      ["\x7d);", "", "const data = await response.json();", "console.log(data);"],
      fun body hbody => ?_⟩
  have hcontent := content_of_body request hbody
  rw [Fetch.lines, hcontent, Request.hasOptions_of_content hcontent]
  simp only [reduceIte, Option.toList_some, List.map_cons, List.map_nil, List.append_assoc]
  rfl

theorem Axios.writesBody_render : WritesBody Axios.render bodyLiteral := by
  refine writesBody_of_lines "  data: " fun request =>
    ⟨["import axios from 'axios';", "", "const \x7b data \x7d = await axios(\x7b",
        "  method: " ++ quote (Text.toLower request.method.name) ++ ",",
        "  url: " ++ quote request.url ++ ","] ++ Axios.headerLines request.headers ++
        request.credentials.toList.flatMap Axios.credentialLines,
      ["\x7d);", "", "console.log(data);"], fun body hbody => ?_⟩
  have hcontent := content_of_body request hbody
  rw [Axios.lines, Axios.configLines, hcontent, Request.hasOptions_of_content hcontent]
  simp only [reduceIte, Option.toList_some, List.map_cons, List.map_nil, List.append_assoc]
  rfl

/-! ## What is inlined -/

/-- What is inlined is a value of the grammar, and the body has it with blanks around it. -/
theorem exists_spacing_of_jsonLiteral? {body literal : String}
    (h : jsonLiteral? body = some literal) :
    Json.Derives Json.acceptedWords .value literal.toList ∧
      ∃ before after, Json.IsSpacing before ∧ Json.IsSpacing after ∧
        body.toList = before ++ literal.toList ++ after := by
  obtain ⟨⟨found, hread⟩, rfl⟩ := jsonLiteral?_eq_some_iff.1 h
  rw [Text.toList_trim]
  exact Json.exists_value_of_read hread

/-- Only standard JSON stands in a call as it is. Any other body is a string literal there. -/
structure InlinesOnlyJson (body : String) : Prop where
  isText : ∀ literal, jsonLiteral? body = some literal →
    Json.IsText Json.standardWords literal.toList
  quoted : ¬Json.IsText Json.standardWords body.toList →
    Fetch.bodyExpression body = quote body ∧ bodyLiteral body = quote body

theorem inlinesOnlyJson_of_not_json {body : String} (h : jsonLiteral? body = none) :
    InlinesOnlyJson body where
  isText literal hliteral := by rw [h] at hliteral; cases hliteral
  quoted _ := by
    refine ⟨?_, ?_⟩
    · rw [Fetch.bodyExpression, h]
    · rw [bodyLiteral_eq_getD, h, Option.getD_none]

theorem inlinesOnlyJson_iff_of_jsonLiteral? {body literal : String}
    (h : jsonLiteral? body = some literal) :
    InlinesOnlyJson body ↔ ¬Json.HasNumberWord literal.toList := by
  obtain ⟨hvalue, before, after, hbefore, hafter, hbody⟩ := exists_spacing_of_jsonLiteral? h
  constructor
  · intro honly
    exact Json.not_hasNumberWord_of_isText (honly.isText literal h)
  · intro hword
    have hstandard := hvalue.standard hword
    constructor
    · intro other hother
      obtain rfl : literal = other := Option.some.inj (h.symm.trans hother)
      exact hstandard.isText
    · intro hnot
      rw [hbody] at hnot
      exact absurd (.mk hbefore hstandard hafter) hnot

/-- Both kinds of call have the body in one place, and of the words that are no standard JSON only
those for numbers are taken for values. So a body that is no standard JSON stands there as a string
literal, unless such a number is written in it. -/
theorem inlinesOnlyJson_iff (body : String) :
    WritesBody Fetch.render Fetch.bodyExpression ∧ WritesBody Axios.render bodyLiteral ∧
      (∀ literal, jsonLiteral? body = some literal →
        Json.IsText Json.acceptedWords literal.toList) ∧
      (InlinesOnlyJson body ↔
        ∀ literal, jsonLiteral? body = some literal → ¬Json.HasNumberWord literal.toList) := by
  refine ⟨Fetch.writesBody_render, Axios.writesBody_render, ?_⟩
  cases hliteral : jsonLiteral? body with
  | none => exact ⟨by simp, iff_of_true (inlinesOnlyJson_of_not_json hliteral) (by simp)⟩
  | some literal =>
      simp only [Option.some.injEq, forall_eq']
      exact ⟨(exists_spacing_of_jsonLiteral? hliteral).1.isText,
        inlinesOnlyJson_iff_of_jsonLiteral? hliteral⟩

/-- A word that is no JSON becomes a number, in both kinds of call. -/
theorem not_inlinesOnlyJson_of_nan :
    let request : Request := { method := .ofString "POST", url := "/x", body := some "NaN" }
    jsonLiteral? "NaN" = some "NaN" ∧ ¬Json.IsText Json.standardWords "NaN".toList ∧
      ¬InlinesOnlyJson "NaN" ∧
        "  body: JSON.stringify(NaN),".toList <:+: (Fetch.render request).toList ∧
          "  data: NaN,".toList <:+: (Axios.render request).toList := by
  intro request
  have hliteral : jsonLiteral? "NaN" = some "NaN" := by decide +kernel
  have hword : Json.HasNumberWord "NaN".toList := by decide
  have hnot : ¬Json.IsText Json.standardWords "NaN".toList := fun htext =>
    Json.not_hasNumberWord_of_isText htext hword
  refine ⟨hliteral, hnot, fun honly => hnot (honly.isText "NaN" hliteral), ?_, ?_⟩
  · decide +kernel
  · decide +kernel

end RequestForms.Snippet
