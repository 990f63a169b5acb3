import RequestForms.Proofs.Snippet.Fetch

/-!
# JSON in a call of `fetch`

A body that is JSON stands in the call as the argument of `JSON.stringify`, and is taken to end at the
next closing parenthesis. So it comes back if it has no closing parenthesis, and only then.
-/

namespace RequestForms.Snippet.Fetch

open Text (Misses)

/-- A text in which no argument is found where it stands in quotes. -/
def HidesNoBody (text : String) : Prop := '(' ∉ text.toList ∨ ¬"body".toList <:+: text.toList

instance (text : String) : Decidable (HidesNoBody text) := inferInstanceAs (Decidable (_ ∨ _))

/-- The argument cannot be reached from a text in quotes without an opening parenthesis. -/
theorem misses_quoteChars_of_no_paren {s : List Char} (h : '(' ∉ s) :
    Misses (fun s => (key? "body" s).bind stringified?) (quoteChars s) := by
  have htext : '(' ∉ '\'' :: s.flatMap escaped := by
    intro hmem
    rcases List.mem_cons.1 hmem with hquote | hmem
    · exact absurd hquote (by decide)
    · obtain ⟨c, hc, hescaped⟩ := List.mem_flatMap.1 hmem
      unfold escaped at hescaped
      split at hescaped
      · next hmarked => rcases hmarked with rfl | rfl <;> exact absurd hescaped (by decide)
      · exact h (List.mem_singleton.1 hescaped ▸ hc)
  apply Text.misses_of_reaches
  intro t ht
  obtain ⟨key, rest, rfl, hrest, hkey, -⟩ := exists_of_key?_bind (by decide) ht
  obtain ⟨front, behind, rfl, hfront⟩ := exists_of_stringified? hrest
  refine ⟨key ++ front, '(', behind, by rw [List.append_assoc], ?_, htext, ?_⟩
  · intro hmem
    rcases List.mem_append.1 hmem with hmem | hmem
    · exact absurd (hkey _ hmem) (by decide)
    · exact absurd (hfront _ hmem) (by decide)
  · intro hquote
    exact absurd hquote (by decide)

theorem HidesNoBody.misses {text : String} (h : HidesNoBody text) :
    Misses (fun s => (key? "body" s).bind stringified?) (quoteChars text.toList) := by
  rcases h with hparen | hword
  · exact misses_quoteChars_of_no_paren hparen
  · exact misses_quoteChars_of_not_infix (needsWord_key "body" stringified?) (by decide) hword

theorem body_read_render {request : Request} (h : request.credentials = none) :
    (read (render request)).body = body? (code request) := by
  rw [body_read, toList_render h]

/-- Where nothing before it is taken for a body, JSON comes back, without the blanks around it, if
and only if it has no closing parenthesis. -/
theorem body_read_render_eq_trim_iff_not_mem {request : Request} {body : String}
    (hcredentials : request.credentials = none)
    (htexts : ∀ text ∈ quotedTexts request, HidesNoBody text)
    (hbody : request.body = some body) (hjson : (jsonLiteral? body).isSome = true) :
    (read (render request)).body = some (Text.trim body) ↔ ')' ∉ (Text.trim body).toList := by
  obtain ⟨literal, hliteral⟩ := Option.isSome_iff_exists.1 hjson
  obtain ⟨-, rfl⟩ := jsonLiteral?_eq_some_iff.1 hliteral
  have hcontent : request.content = some body := by
    refine Request.content_eq_some_iff.2 ⟨hbody, ?_⟩
    rintro rfl
    exact ne_empty_of_jsonLiteral? hliteral rfl
  have hfront := misses_bodyFront fun text hmem => (htexts text hmem).misses
  rw [body_read_render hcredentials, body?_code_of_json hfront hcontent hliteral,
    Option.some.injEq]
  exact ofList_strip_takeWhile_eq_iff (trim_of_jsonLiteral? hliteral) ')'

/-- Quotes and opening parentheses do not end the argument, and names in other texts are not taken
for that of the body. -/
theorem body_read_render_of_quotes_and_opening_parens :
    let body := " \x7b\"it's\": [\"(\", \"JSON.stringify('\"], \"body\": \x7b\x7d\x7d\n"
    let request : Request := {
      method := .ofString "POST"
      url := "/x(y)"
      headers := .ofPairs [("body", "it's: JSON.stringify \x7b"), ("A", "JSON.stringify(1)")]
      body := some body }
    (∀ text ∈ quotedTexts request, HidesNoBody text) ∧ ')' ∉ (Text.trim body).toList ∧
      (read (render request)).body = some (Text.trim body) := by
  intro body request
  have htexts : ∀ text ∈ quotedTexts request, HidesNoBody text := by decide +kernel
  have hjson : (jsonLiteral? body).isSome = true := by decide +kernel
  have hparen : ')' ∉ (Text.trim body).toList := by decide +kernel
  exact ⟨htexts, hparen, (body_read_render_eq_trim_iff_not_mem rfl htexts rfl hjson).2 hparen⟩

/-- A closing parenthesis inside of a string ends the argument. -/
theorem body_read_render_ne_of_closing_paren :
    let body := "\x7b\"a\":\"b)\"\x7d"
    let request : Request := {
      method := .ofString "POST"
      url := "/x"
      body := some body }
    request.credentials = none ∧ (∀ text ∈ quotedTexts request, IsPlain text) ∧
      (jsonLiteral? body).isSome = true ∧ Text.trim body = body ∧
      (read (render request)).body = some "\x7b\"a\":\"b" := by
  intro body request
  have hbody : body? (code request) = some "\x7b\"a\":\"b" := by decide +kernel
  refine ⟨rfl, by decide +kernel, by decide +kernel, by decide +kernel, ?_⟩
  rw [body_read_render rfl, hbody]

end RequestForms.Snippet.Fetch
