import RequestForms.Proofs.Json.Surroundings
import RequestForms.Proofs.Snippet.Literal
import RequestForms.Snippet.Fetch

/-!
# Bodies without the blanks around them

A body that is JSON stands in a call without the blanks around it. These are no part of its value,
so something is left, it has the same value, and nothing is stripped from it again. Whether a call
asks for JSON or for JSON that is not empty, it has the same bodies as they are.
-/

namespace RequestForms.Snippet

variable {body literal : String}

/-! ## What is left -/

section Left

variable (h : jsonLiteral? body = some literal)

include h

theorem exists_value_of_jsonLiteral? :
    ∃ value, Json.read body = .ok value ∧ Json.read literal = .ok value := by
  obtain ⟨⟨value, hread⟩, rfl⟩ := jsonLiteral?_eq_some_iff.1 h
  exact ⟨value, hread, Json.read_trim hread⟩

/-- What is left is JSON without blanks around it. -/
theorem jsonLiteral?_of_jsonLiteral? : jsonLiteral? literal = some literal := by
  obtain ⟨value, -, hread⟩ := exists_value_of_jsonLiteral? h
  exact jsonLiteral?_eq_some_iff.2 ⟨⟨value, hread⟩, (trim_of_jsonLiteral? h).symm⟩

/-- No value starts with the quote of a string literal. -/
theorem ne_quote_of_jsonLiteral? (text : String) : literal ≠ quote text := by
  obtain ⟨⟨value, hread⟩, rfl⟩ := jsonLiteral?_eq_some_iff.1 h
  intro hquote
  apply Json.head?_strip_ne hread (by decide : '\'' ∉ Json.valueStarts)
  rw [← Text.toList_trim, hquote, toList_quote]
  rfl

theorem bodyLiteral_of_jsonLiteral? : bodyLiteral body = literal := by
  rw [bodyLiteral_eq_getD, h, Option.getD_some]

theorem Fetch.bodyExpression_of_jsonLiteral? :
    Fetch.bodyExpression body = "JSON.stringify(" ++ literal ++ ")" := by
  rw [Fetch.bodyExpression, h]

end Left

/-! ## What is inlined -/

/-- Whether an expression has a body as it is, and not as a string literal. -/
def Inlines (expression : String → String) (body : String) : Prop := expression body ≠ quote body

theorem isSome_jsonLiteral?_iff :
    (jsonLiteral? body).isSome = true ↔ ∃ value, Json.read body = .ok value := by
  simp [Option.isSome_iff_exists, jsonLiteral?_eq_some_iff]

theorem inlines_bodyLiteral_iff :
    Inlines bodyLiteral body ↔ (jsonLiteral? body).isSome = true := by
  rw [Inlines]
  cases hliteral : jsonLiteral? body with
  | none => simp [bodyLiteral_eq_getD, hliteral]
  | some literal =>
      rw [bodyLiteral_of_jsonLiteral? hliteral]
      exact iff_of_true (ne_quote_of_jsonLiteral? hliteral body) rfl

theorem Fetch.inlines_bodyExpression_iff :
    Inlines Fetch.bodyExpression body ↔ (jsonLiteral? body).isSome = true := by
  rw [Inlines]
  cases hliteral : jsonLiteral? body with
  | none => simp [Fetch.bodyExpression, hliteral]
  | some literal =>
      refine iff_of_true (fun hquote => ?_) rfl
      rw [Fetch.bodyExpression_of_jsonLiteral? hliteral, ← String.toList_inj,
        toList_quote] at hquote
      -- the one starts with a letter and the other with a quote
      exact absurd (congrArg List.head? hquote) (by simp [quoteChars])

/-- The blanks around a body that is JSON do not matter: what is left without them is not empty, has
the value of the body, and is what is left of itself. So exactly the bodies that are JSON are
inlined, be it in a call that looks whether anything is left or in one that does not. -/
theorem inlines_iff (body : String) :
    (∀ literal, jsonLiteral? body = some literal →
      literal ≠ "" ∧ (∃ value, Json.read body = .ok value ∧ Json.read literal = .ok value) ∧
        jsonLiteral? literal = some literal ∧ bodyLiteral body = literal ∧
        Fetch.bodyExpression body = "JSON.stringify(" ++ literal ++ ")") ∧
      (Inlines bodyLiteral body ↔ Inlines Fetch.bodyExpression body) ∧
      (Inlines Fetch.bodyExpression body ↔ ∃ value, Json.read body = .ok value) := by
  refine ⟨fun literal h => ?_, ?_, ?_⟩
  · exact ⟨ne_empty_of_jsonLiteral? h, exists_value_of_jsonLiteral? h,
      jsonLiteral?_of_jsonLiteral? h, bodyLiteral_of_jsonLiteral? h,
      Fetch.bodyExpression_of_jsonLiteral? h⟩
  · exact inlines_bodyLiteral_iff.trans Fetch.inlines_bodyExpression_iff.symm
  · exact Fetch.inlines_bodyExpression_iff.trans isSome_jsonLiteral?_iff

/-- Line breaks around an object are stripped. A no-break space at the end of a string in it is
not. -/
theorem inlines_of_line_breaks :
    let body := "\r\n\t\x7b\"a\": [1e2, \"\u00a0\"]\x7d \n"
    let literal := "\x7b\"a\": [1e2, \"\u00a0\"]\x7d"
    jsonLiteral? body = some literal ∧ jsonLiteral? literal = some literal ∧
      (∃ value, Json.read body = .ok value ∧ Json.read literal = .ok value) ∧
      Inlines bodyLiteral body ∧ Inlines Fetch.bodyExpression body := by
  intro body literal
  have hliteral : jsonLiteral? body = some literal := by decide +kernel
  obtain ⟨hleft, hsame, hjson⟩ := inlines_iff body
  obtain ⟨-, hvalue, hfixed, -, -⟩ := hleft literal hliteral
  have hinlines : Inlines Fetch.bodyExpression body := hjson.2 ⟨_, hvalue.choose_spec.1⟩
  exact ⟨hliteral, hfixed, hvalue, hsame.2 hinlines, hinlines⟩

end RequestForms.Snippet
