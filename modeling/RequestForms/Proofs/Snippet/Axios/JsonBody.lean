import Mathlib.Data.List.Infix
import RequestForms.Proofs.Snippet.Axios

/-!
# JSON in a call of `axios`

A body that is JSON stands in the call as it is, and is looked for as a string or as whatever goes
from an opening brace to the next closing one. So it comes back if it is an object that closes no
other brace, and only then.
-/

namespace RequestForms.Snippet

namespace Axios

open Text (Misses)

def bodyWords : List String := ["data", "axios"]

/-- A text that is not taken for a body where it stands in quotes: one without the words that bodies
are looked for by, if it is not plain. -/
def HidesNoBody (text : String) : Prop :=
  IsPlainOrEmpty text ∨ ∀ word ∈ bodyWords, ¬word.toList <:+: text.toList

instance (text : String) : Decidable (HidesNoBody text) := inferInstanceAs (Decidable (_ ∨ _))

theorem HidesNoBody.misses {α : Type} {pattern : List Char → Option α} {text word : String}
    {mark : Char} (h : HidesNoBody text) (hword : word ∈ bodyWords)
    (hneeds : Text.NeedsWord word.toList mark pattern) (hmarkup : ReachesMarkup pattern) :
    Misses pattern (quoteChars text.toList) := by
  have hchars : ∀ word ∈ bodyWords, ∀ c ∈ word.toList, isMarkup c = false := by decide
  rcases h with hplain | hlacks
  · exact hmarkup.misses_quoteChars hplain
  · exact misses_quoteChars_of_not_infix hneeds (hchars word hword) (hlacks word hword)

/-! ## What a body is looked for in -/

def givenTexts (request : Request) : List String :=
  request.url :: (headerFields request.headers.entries ++ credentialFields request.credentials)

theorem missesQuoted_of_hidesNoBody {α : Type} {pattern : List Char → Option α} {word : String}
    {mark : Char} {request : Request} (hmethod : request.method.IsPlainName)
    (htexts : ∀ text ∈ givenTexts request, HidesNoBody text) (hword : word ∈ bodyWords)
    (hneeds : Text.NeedsWord word.toList mark pattern) (hmarkup : ReachesMarkup pattern) :
    MissesQuoted pattern (quotedTexts request) := by
  intro text hmem
  rcases List.mem_cons.1 hmem with rfl | hmem
  · exact hmarkup.misses_quoteChars (Or.inr (isPlain_toLower_name hmethod))
  · exact (htexts text hmem).misses hword hneeds hmarkup

/-! ## What is found -/

/-- A body that is found is a literal behind what its patterns miss. -/
theorem exists_literal?_of_body? {front rest value : List Char}
    (hdata : Misses (fun s => (key? "data" s).bind literal?) front)
    (hcalls : ∀ method ∈ shorthandsWithBody, Misses (call? ("axios." ++ method)) front)
    (h : body? (front ++ rest) = some value) :
    ∃ s behind, s <:+ rest ∧ literal? s = some (value, behind) := by
  unfold body? at h
  split at h
  · next found hfound =>
      obtain rfl := Option.some.inj h
      rw [member?_append hdata] at hfound
      obtain ⟨s, hs, hvalue⟩ := Text.exists_suffix_of_search? hfound
      obtain ⟨⟨value, behind⟩, hliteral, rfl⟩ := Option.map_eq_some_iff.1 hvalue
      obtain ⟨t, hkey, hliteral⟩ := Option.bind_eq_some_iff.1 hliteral
      exact ⟨t, behind, (suffix_of_dropExact?_bind_behindMark? hkey).trans hs, hliteral⟩
  · unfold shorthandBody? at h
    rw [(misses_shorthand hcalls _).search?_append] at h
    obtain ⟨s, hs, hvalue⟩ := Text.exists_suffix_of_search? h
    obtain ⟨⟨method, t⟩, hcall, hvalue⟩ := Option.bind_eq_some_iff.1 hvalue
    obtain ⟨⟨url, t'⟩, hurl, hvalue⟩ := Option.bind_eq_some_iff.1 hvalue
    obtain ⟨t'', hcomma, hvalue⟩ := Option.bind_eq_some_iff.1 hvalue
    obtain ⟨⟨value, behind⟩, hliteral, rfl⟩ := Option.map_eq_some_iff.1 hvalue
    have hsuffix : t'' <:+ rest :=
      calc
        t'' <:+ t' := suffix_of_behindMark? hcomma
        _ <:+ t := suffix_of_enclosed? hurl
        _ <:+ s := suffix_of_dropExact?_bind_behindMark? (exists_of_shorthandCall? hcall).2
        _ <:+ rest := hs
    exact ⟨t'', behind, hsuffix, hliteral⟩

/-- A literal is the inside of a string, or goes from a brace to the first closing one. -/
theorem literal?_cases {s value behind : List Char} (h : literal? s = some (value, behind)) :
    ((∃ c ∈ s, isQuote c = true) ∧ ∀ c ∈ value, isQuote c = false) ∨
      ∃ inside, value = '\x7b' :: (inside ++ ['\x7d']) ∧ inside ≠ [] ∧ '\x7d' ∉ inside := by
  unfold literal? at h
  split at h
  · next found hquoted =>
      obtain rfl := Option.some.inj h
      obtain ⟨a, b, rfl, ha, -, hinside⟩ := exists_of_enclosed?_eq_some hquoted
      exact Or.inl ⟨⟨a, by simp, ha⟩, hinside⟩
  · obtain ⟨⟨inside, rest⟩, hbraced, heq⟩ := Option.map_eq_some_iff.1 h
    obtain ⟨rfl, -⟩ := Prod.mk.inj heq
    obtain ⟨a, b, -, -, hne, hinside⟩ := exists_of_enclosed?_eq_some hbraced
    refine Or.inr ⟨inside, rfl, hne, fun hmem => ?_⟩
    exact absurd (hinside _ hmem) (by decide)

/-- JSON that is found as it was written is an object that closes no other brace. -/
theorem closesOnce_of_literal? {body literal : String} {s behind : List Char}
    (hliteral : jsonLiteral? body = some literal)
    (hs : s <:+ bodyLine (some body) ++ ending.toList)
    (hfound : literal? s = some (literal.toList, behind)) : ClosesOnce body := by
  obtain ⟨⟨found, hread⟩, rfl⟩ := jsonLiteral?_eq_some_iff.1 hliteral
  rcases literal?_cases hfound with ⟨⟨c, hc, hquote⟩, hnone⟩ | ⟨inside, htext, hne, hclosing⟩
  · -- the quotes around the value would be quotes in the body
    have hcode : ∀ text ∈ ["  data: ", ",\n", ending], ∀ c ∈ text.toList, isQuote c = false := by
      decide
    have hmem := hs.subset hc
    rw [bodyLine, memberLine_some, bodyLiteral_eq_getD, hliteral, Option.getD_some] at hmem
    simp only [List.mem_append] at hmem
    have hnot : isQuote c = false := by
      rcases hmem with (hmem | hmem | hmem) | hmem
      · exact hcode "  data: " (by simp) c hmem
      · exact hnone c hmem
      · exact hcode ",\n" (by simp) c hmem
      · exact hcode ending (by simp) c hmem
    rw [hnot] at hquote
    cases hquote
  · exact ClosesOnce.of_inside hread htext hne hclosing

theorem body_read_render (request : Request) :
    (read (render request)).body = (body? (code request)).map String.ofList := by
  rw [body_read, toList_render]

section Json

variable {request : Request} {body : String} (hmethod : request.method.IsPlainName)
  (htexts : ∀ text ∈ givenTexts request, HidesNoBody text) (hcontent : request.content = some body)

include hmethod htexts

theorem misses_data_of_hidesNoBody :
    Misses (fun s => (key? "data" s).bind literal?) (bodyFront request) :=
  misses_data_bodyFront (missesQuoted_of_hidesNoBody hmethod htexts (by decide)
    (needsWord_key "data" literal?) (reachesMarkup_laterKey (by decide) showsMarkup_literal))

theorem misses_shorthand_of_hidesNoBody :
    ∀ method ∈ shorthandsWithBody, Misses (call? ("axios." ++ method)) (bodyFront request) := by
  have hcalls : ∀ method ∈ shorthandsWithBody, "axios." ++ method ∈ calls := by decide
  intro method hmem
  exact misses_call_bodyFront (hcalls method hmem) (missesQuoted_of_hidesNoBody hmethod htexts
    (by decide) (needsWord_shorthand method) (reachesMarkup_of_mem_calls (hcalls method hmem)))

include hcontent

theorem body?_code_of_closesOnce (hcloses : ClosesOnce body) :
    body? (code request) = some (Text.trim body).toList := by
  have hfront := misses_data_of_hidesNoBody hmethod htexts
  have hvalue := literal?_bodyLiteral_of_closesOnce hcloses
  rw [body?, data?_code_eq_some hcontent hfront hvalue]

theorem closesOnce_of_body?_code {literal : String} (hliteral : jsonLiteral? body = some literal)
    (h : body? (code request) = some literal.toList) : ClosesOnce body := by
  rw [code, if_pos (Request.hasOptions_of_content hcontent)] at h
  obtain ⟨s, behind, hs, hfound⟩ := exists_literal?_of_body?
    (misses_data_of_hidesNoBody hmethod htexts) (misses_shorthand_of_hidesNoBody hmethod htexts) h
  rw [bodyCode, hcontent] at hs
  exact closesOnce_of_literal? hliteral hs hfound

end Json

/-- Where nothing before it is taken for a body, JSON comes back, without the blanks around it, if
and only if it is an object that has something inside and closes no other brace. -/
theorem body_read_render_eq_trim_iff {request : Request} {body : String}
    (hmethod : request.method.IsPlainName)
    (htexts : ∀ text ∈ givenTexts request, HidesNoBody text)
    (hbody : request.body = some body) (hjson : (jsonLiteral? body).isSome = true) :
    (read (render request)).body = some (Text.trim body) ↔ ClosesOnce body := by
  obtain ⟨literal, hliteral⟩ := Option.isSome_iff_exists.1 hjson
  obtain ⟨-, rfl⟩ := jsonLiteral?_eq_some_iff.1 hliteral
  have hcontent : request.content = some body := by
    refine Request.content_eq_some_iff.2 ⟨hbody, ?_⟩
    rintro rfl
    exact ne_empty_of_jsonLiteral? hliteral rfl
  rw [body_read_render]
  constructor
  · intro hread
    obtain ⟨value, hvalue, heq⟩ := Option.map_eq_some_iff.1 hread
    apply closesOnce_of_body?_code hmethod htexts hcontent hliteral
    rw [hvalue, ← heq, String.toList_ofList]
  · intro hcloses
    rw [body?_code_of_closesOnce hmethod htexts hcontent hcloses, Option.map_some,
      String.ofList_toList]

/-- Opening braces and whole calls inside of an object do not end it. -/
theorem body_read_render_of_calls_in_object :
    let body := " \x7b\"\x7b\": \"axios.post('/y', 'z')\", \"data: 'x'\": [[1], \"\x7b(\"]\x7d\n"
    let request : Request := {
      method := .ofString "POST"
      url := "'/x': \x7b"
      headers := .ofPairs [("it's", "\x7b\"body\": 1\x7d"), ("X-Data: axios", "data")]
      body := some body
      credentials := some ⟨"it's", "\\"⟩ }
    (∀ text ∈ givenTexts request, HidesNoBody text) ∧ ClosesOnce body ∧
      (read (render request)).body = some (Text.trim body) := by
  intro body request
  have hmethod : request.method.IsPlainName := by decide +kernel
  have htexts : ∀ text ∈ givenTexts request, HidesNoBody text := by decide +kernel
  have hjson : (jsonLiteral? body).isSome = true := by decide +kernel
  have hcloses : ClosesOnce body := by decide +kernel
  exact ⟨htexts, hcloses, (body_read_render_eq_trim_iff hmethod htexts rfl hjson).2 hcloses⟩

/-- An object inside of an object cuts it short, and a password can be taken for the body. -/
theorem body_read_render_ne_of_nested_object :
    let body := "\x7b\"a\":\x7b\"b\":1\x7d\x7d"
    let nested : Request := {
      method := .ofString "POST"
      url := "/x"
      body := some body }
    let hidden : Request := {
      method := .ofString "POST"
      url := "/x"
      body := some "\x7b\"a\":1\x7d"
      credentials := some ⟨"u", "data: \"x\""⟩ }
    nested.method.IsPlainName ∧ (∀ text ∈ givenTexts nested, IsPlain text) ∧
      (jsonLiteral? body).isSome = true ∧ Text.trim body = body ∧
      (read (render nested)).body = some "\x7b\"a\":\x7b\"b\":1\x7d" ∧
      (read (render hidden)).body = some "x" := by
  intro body nested hidden
  have hnested : body? (code nested) = some "\x7b\"a\":\x7b\"b\":1\x7d".toList := by
    decide +kernel
  have hhidden : body? (code hidden) = some "x".toList := by decide +kernel
  refine ⟨by decide +kernel, by decide +kernel, by decide +kernel, by decide +kernel, ?_, ?_⟩
  · rw [body_read_render, hnested, Option.map_some, String.ofList_toList]
  · rw [body_read_render, hhidden, Option.map_some, String.ofList_toList]

end Axios

end RequestForms.Snippet
