import RequestForms.Proofs.Format
import RequestForms.Proofs.Request

/-!
# Chains of conversions

A request is written in a form, read back, written in the next form, and so on. However long the
chain is, every request on the way says what the first one does.
-/

namespace RequestForms

/-- A text that was written on the way, and the request that was read back from it. -/
structure Conversion where
  text : String
  request : Request

/-- The conversions along a list of forms, unless a text cannot be read or has not one request. -/
def chain (request : Request) : List OutputFormat → Option (List Conversion)
  | [] => some []
  | format :: formats =>
      match InputFormat.read (format.render request) format.input with
      | .ok [next] =>
          (chain next formats).map ({ text := format.render request, request := next } :: ·)
      | _ => none

/-- What a form reads back from its own text says the same as before. -/
theorem exists_read_render {request : Request} (h : IsCommon request) (format : OutputFormat) :
    ∃ next, InputFormat.read (format.render request) format.input = .ok [next] ∧
      next.SaysTheSame request := by
  cases format with
  | fetch =>
      refine ⟨Snippet.Fetch.read (Snippet.Fetch.render request), rfl, ?_⟩
      rw [Snippet.Fetch.read_render_of_isCommon h]
      exact ⟨rfl, rfl, rfl, rfl, h.credentials.symm⟩
  | axios =>
      refine ⟨Snippet.Axios.read (Snippet.Axios.render request), rfl, ?_⟩
      rw [Snippet.Axios.read_render_of_isCommon h]
      exact ⟨rfl, rfl, rfl, rfl, h.credentials.symm⟩
  | curl =>
      refine ⟨Command.read (Command.render request), rfl, ?_⟩
      rw [Command.read_render_eq_of_isExpressible h.isExpressible]
      exact ⟨rfl, rfl, rfl, rfl, rfl⟩

/-- Along any list of forms no conversion fails, every text is recognised as the form it was
written in, and every request on the way says what the first one does. -/
theorem exists_chain_of_isCommon {request : Request} (h : IsCommon request)
    (formats : List OutputFormat) :
    ∃ conversions, chain request formats = some conversions ∧
      (conversions.map fun conversion => InputFormat.detect? conversion.text) =
        (formats.map fun format => some format.input) ∧
      ∀ conversion ∈ conversions, conversion.request.SaysTheSame request := by
  induction formats generalizing request with
  | nil => exact ⟨[], rfl, rfl, by simp⟩
  | cons format formats ih =>
      obtain ⟨next, hread, hsame⟩ := exists_read_render h format
      obtain ⟨conversions, hchain, hdetect, hrequests⟩ := ih (h.of_saysTheSame hsame)
      refine ⟨⟨format.render request, next⟩ :: conversions, ?_, ?_, ?_⟩
      · rw [chain, hread]
        change (chain next formats).map _ = _
        rw [hchain]
        rfl
      · rw [List.map_cons, List.map_cons, hdetect, format.detect?_render h]
      · intro conversion hmem
        rcases List.mem_cons.1 hmem with rfl | hmem
        · exact hsame
        · exact (hrequests conversion hmem).trans hsame

/-- A body that is an object, and headers that look like code, come through all of the forms. -/
theorem exists_chain_of_object_body :
    let request : Request := {
      method := .ofString "PUT"
      url := "https://example.com/fetch?url: method"
      headers := .ofPairs [("Content-Type", "application/json"), ("X-Data", "headers: axios, data")]
      body := some "\x7b\"url\": [\"method: x\", 1]\x7d"
      insecure := true }
    let formats : List OutputFormat := [.curl, .fetch, .axios, .curl, .axios]
    IsCommon request ∧ ∃ conversions, chain request formats = some conversions ∧
      (conversions.map fun conversion => InputFormat.detect? conversion.text) =
        (formats.map fun format => some format.input) ∧
      ∀ conversion ∈ conversions, conversion.request.SaysTheSame request := by
  intro request formats
  have hcommon : IsCommon request := by decide +kernel
  exact ⟨hcommon, exists_chain_of_isCommon hcommon formats⟩

end RequestForms
