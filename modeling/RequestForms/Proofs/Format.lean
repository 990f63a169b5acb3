import RequestForms.Format
import RequestForms.Proofs.Common

/-!
# Recognising a form

A command is known by how it starts, and a call by its name. Where the name of the other call may
stand, a text is recognised by what its patterns miss. So all that is written for a request is
recognised, but a call of `axios` in which another call may stand.
-/

namespace RequestForms

namespace InputFormat

/-- A text that starts with another letter than those of JSON is no collection. -/
theorem isCollection_eq_false {text : String} {c : Char} {rest : List Char}
    (htext : text.toList = c :: rest) (hc : c = 'c' ∨ c = 'i') : isCollection text = false := by
  have hread : ∀ found, Json.read text ≠ .ok found := by
    rcases hc with rfl | rfl
    · exact Json.read_ne_ok_of_head htext (by decide) (by decide) rfl rfl
    · exact Json.read_ne_ok_of_head htext (by decide) (by decide) rfl rfl
  unfold isCollection
  split
  · next hfound => exact absurd hfound (hread _)
  · rfl

theorem detect?_eq_curl {text : String} {rest : List Char}
    (h : text.toList = "curl \\".toList ++ rest) : detect? text = some curl := by
  have htrim : (Text.trim text).toList = "curl \\".toList ++ Text.stripEnd rest := by
    rw [Text.toList_trim, h, Text.strip_append (by decide) (by decide)]
  have hstarts : ("curl ".toList.isPrefixOf (Text.trim text).toList) = true := by
    rw [htrim]
    rfl
  unfold detect?
  simp only [hstarts, Bool.true_or, if_true]

section Snippet

variable {text : String} {rest : List Char} (hlast : text.toList.getLast? = some ';')

include hlast

theorem trim_eq_self {c : Char} (h : text.toList = c :: rest) (hc : Text.isBlank c = false) :
    Text.trim text = text := by
  rw [Text.trim_eq_self_iff, Text.strip_eq_self_iff, hlast, h]
  constructor
  · intro d hd
    rwa [← Option.some.inj hd]
  · intro d hd
    rw [← Option.some.inj hd]
    decide

/-- A snippet is no command and no collection, so the calls in it decide. -/
theorem detect?_of_snippet (h : text.toList = 'c' :: 'o' :: rest ∨ text.toList = 'i' :: rest) :
    detect? text =
      if Text.occurs "fetch(".toList text.toList || Text.occurs "fetch (".toList text.toList then
        some fetch
      else if Text.occurs "axios".toList text.toList then some axios
      else none := by
  have htrim : Text.trim text = text := by
    rcases h with h | h
    · exact trim_eq_self hlast h (by decide)
    · exact trim_eq_self hlast h (by decide)
  have hcollection : isCollection text = false := by
    rcases h with h | h
    · exact isCollection_eq_false h (Or.inl rfl)
    · exact isCollection_eq_false h (Or.inr rfl)
  have hspace : ("curl ".toList.isPrefixOf text.toList) = false := by
    rcases h with h | h <;> rw [h] <;> rfl
  have hline : ("curl\n".toList.isPrefixOf text.toList) = false := by
    rcases h with h | h <;> rw [h] <;> rfl
  unfold detect?
  simp only [htrim, hspace, hline, hcollection, Bool.or_self, Bool.false_eq_true, if_false]

theorem detect?_eq_fetch (h : text.toList = 'c' :: 'o' :: rest)
    (hcall : "fetch(".toList <:+: text.toList) : detect? text = some fetch := by
  rw [detect?_of_snippet hlast (Or.inl h), Text.occurs_iff_infix.2 hcall, Bool.true_or, if_pos rfl]

/-- A snippet that starts with the import of `axios` is one of `axios`, unless the name of the other
call stands directly before a parenthesis, or before a space and a parenthesis. -/
theorem detect?_eq_ite (h : text.toList = 'i' :: rest) (hname : "axios".toList <:+: text.toList) :
    detect? text =
      if Text.occurs "fetch(".toList text.toList || Text.occurs "fetch (".toList text.toList then
        some fetch
      else some axios := by
  rw [detect?_of_snippet hlast (Or.inr h), Text.occurs_iff_infix.2 hname, if_pos rfl]

theorem detect?_eq_axios (h : text.toList = 'i' :: rest)
    (hcall : Text.Misses (Snippet.call? "fetch") text.toList)
    (hname : "axios".toList <:+: text.toList) : detect? text = some axios := by
  have hfetch : Text.occurs "fetch(".toList text.toList = false :=
    hcall.occurs_eq_false (by decide) fun behind => Option.some_ne_none (Text.stripStart behind)
  have hfetchSpace : Text.occurs "fetch (".toList text.toList = false :=
    hcall.occurs_eq_false (by decide) fun behind => Option.some_ne_none (Text.stripStart behind)
  rw [detect?_eq_ite hlast h hname, hfetch, hfetchSpace, Bool.or_self, if_neg Bool.false_ne_true]

end Snippet

end InputFormat

/-! ## Recognition of what is written -/

namespace Command

theorem exists_render (request : Request) :
    ∃ rest, (render request).toList = "curl \\".toList ++ rest := by
  have hparts : ∃ part parts, methodParts request ++ fieldParts request = part :: parts := by
    unfold methodParts fieldParts
    split
    · exact ⟨_, _, rfl⟩
    · exact ⟨_, _, rfl⟩
  obtain ⟨part, parts, hparts⟩ := hparts
  refine ⟨'\n' :: ' ' :: ' ' :: (part ++ onLines parts), ?_⟩
  rw [toList_render, hparts]
  rfl

theorem detect?_render (request : Request) :
    InputFormat.detect? (render request) = some .curl := by
  obtain ⟨rest, hrender⟩ := exists_render request
  exact InputFormat.detect?_eq_curl hrender

end Command

namespace Snippet.Fetch

/-- The lines of a call end in the one that prints the answer. -/
theorem getLast?_render (request : Request) : (render request).toList.getLast? = some ';' := by
  have hprinting : printing.toList.getLast? = some ';' := by decide
  obtain ⟨front, hlines⟩ : ∃ front, lines request = front ++ [printing] := by
    unfold lines
    exact ⟨_, (List.append_assoc _ ["", "const data = await response.json();"] [printing]).symm⟩
  rw [render, hlines, Text.toList_intercalate_lines, List.getLast?_append, hprinting]
  rfl

/-- A call starts with a declaration: that of the credentials, or that of the answer. -/
theorem exists_render (request : Request) :
    ∃ rest, (render request).toList = 'c' :: 'o' :: rest := by
  have hfirst : ∃ first more, lines request = ("const " ++ first) :: more := by
    unfold lines
    cases request.credentials with
    | some credentials => exact ⟨"credentials = btoa(" ++ quote credentials.joined ++ ");", _, rfl⟩
    | none =>
        split
        · exact ⟨"response = await fetch(" ++ quote request.url ++ ", \x7b", _, rfl⟩
        · exact ⟨"response = await fetch(" ++ quote request.url ++ ");", _, rfl⟩
  obtain ⟨first, more, hlines⟩ := hfirst
  rw [render, hlines, String.toList_intercalate, List.map_cons, Text.intercalate_cons,
    String.toList_append]
  exact ⟨_, rfl⟩

theorem infix_render (request : Request) : "fetch(".toList <:+: (render request).toList := by
  have hline : ∃ behind,
      declaration ++ "fetch(" ++ quote request.url ++ behind ∈ lines request := by
    unfold lines
    split
    · exact ⟨", \x7b", by simp [declaration]⟩
    · exact ⟨");", by simp [declaration]⟩
  obtain ⟨behind, hline⟩ := hline
  refine List.IsInfix.trans ?_ (Text.isInfix_intercalate hline)
  simp only [String.toList_append, List.append_assoc]
  exact List.infix_append declaration.toList "fetch(".toList _

theorem detect?_render (request : Request) :
    InputFormat.detect? (render request) = some .fetch := by
  obtain ⟨rest, hrender⟩ := exists_render request
  exact InputFormat.detect?_eq_fetch (getLast?_render request) hrender (infix_render request)

end Snippet.Fetch

namespace Snippet.Axios

/-- A call starts with the import of its name. -/
theorem exists_render (request : Request) : ∃ rest, (render request).toList = 'i' :: rest := by
  obtain ⟨rest, hrest⟩ := prefix_code request
  exact ⟨_, (toList_render request).trans hrest.symm⟩

theorem getLast?_render (request : Request) : (render request).toList.getLast? = some ';' := by
  rw [toList_render]
  exact getLast?_code request

theorem infix_render (request : Request) : "axios".toList <:+: (render request).toList := by
  have hname : "axios".toList <:+: imports.toList := Text.occurs_iff_infix.1 (by decide)
  rw [toList_render]
  exact hname.trans (prefix_code request).isInfix

theorem detect?_render_eq_ite (request : Request) :
    InputFormat.detect? (render request) =
      if Text.occurs "fetch(".toList (render request).toList ||
          Text.occurs "fetch (".toList (render request).toList then some .fetch
      else some .axios := by
  obtain ⟨rest, hrender⟩ := exists_render request
  exact InputFormat.detect?_eq_ite (getLast?_render request) hrender (infix_render request)

theorem detect?_render {request : Request} (h : IsCommon request) :
    InputFormat.detect? (render request) = some .axios := by
  obtain ⟨rest, hrender⟩ := exists_render request
  have hcall : Text.Misses (call? "fetch") (render request).toList := by
    rw [toList_render]
    exact misses_call_code h.isExpressible_axios (by decide)
  exact InputFormat.detect?_eq_axios (getLast?_render request) hrender hcall (infix_render request)

end Snippet.Axios

def OutputFormat.input : OutputFormat → InputFormat
  | fetch => .fetch
  | axios => .axios
  | curl => .curl

theorem OutputFormat.detect?_render {request : Request} (h : IsCommon request)
    (format : OutputFormat) : InputFormat.detect? (format.render request) = some format.input := by
  cases format with
  | fetch => exact Snippet.Fetch.detect?_render request
  | axios => exact Snippet.Axios.detect?_render h
  | curl => exact Command.detect?_render request

/-- Every text that is written for a request is recognised as the form it was written in. Only a
call of `axios` is taken for one of `fetch`, and only if a text in it looks like such a call. -/
theorem detect?_renderings (request : Request) :
    InputFormat.detect? (Command.render request) = some .curl ∧
      InputFormat.detect? (Snippet.Fetch.render request) = some .fetch ∧
      (InputFormat.detect? (Snippet.Axios.render request) = some .axios ↔
        ¬"fetch(".toList <:+: (Snippet.Axios.render request).toList ∧
          ¬"fetch (".toList <:+: (Snippet.Axios.render request).toList) ∧
      (InputFormat.detect? (Snippet.Axios.render request) ≠ some .axios →
        InputFormat.detect? (Snippet.Axios.render request) = some .fetch) := by
  refine ⟨Command.detect?_render request, Snippet.Fetch.detect?_render request, ?_, ?_⟩
  · rw [Snippet.Axios.detect?_render_eq_ite, ← Text.occurs_iff_infix, ← Text.occurs_iff_infix,
      ← not_or, ← Bool.or_eq_true]
    split
    · next hcall => exact iff_of_false (by decide) (not_not_intro hcall)
    · next hcall => exact iff_of_true rfl hcall
  · rw [Snippet.Axios.detect?_render_eq_ite]
    split
    · exact fun _ => rfl
    · exact fun h => absurd rfl h

/-- An address may name the other call. -/
example :
    InputFormat.detect? (Snippet.Axios.render { url := "/?q=fetch (x)" }) = some .fetch := by
  rw [Snippet.Axios.detect?_render_eq_ite]
  decide +kernel

end RequestForms
