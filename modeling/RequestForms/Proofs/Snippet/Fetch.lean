import Mathlib.Data.List.Infix
import RequestForms.Proofs.Request
import RequestForms.Proofs.Snippet.Headers
import RequestForms.Proofs.Text.Lines
import RequestForms.Snippet.Fetch

/-!
# Reading back a call of `fetch`

Each part of the call is the first one that its pattern finds, because the pattern misses all that
stands before it: the code of the call and the plain texts in it.
-/

namespace RequestForms.Snippet.Fetch

open Text (Misses)

/-! ## The code of a call -/

def declaration : String := "const response = await "

def reading : String := "\nconst data = await response.json();\n"

def printing : String := "console.log(data);"

def methodFront (request : Request) : List Char :=
  declaration.toList ++ ("fetch(".toList ++ (quoteChars request.url.toList ++ ", \x7b\n".toList))

def headersFront (request : Request) : List Char :=
  methodFront request ++ ("  method: ".toList ++ (quoteChars request.method.name.toList ++
    ",\n".toList))

def bodyFront (request : Request) : List Char :=
  headersFront request ++ headerBlock request.headers.entries

def bodyLine (content : Option String) : List Char :=
  memberLine "  body: " bodyExpression content

def ending : List Char := reading.toList ++ printing.toList

def bodyCode (request : Request) : List Char :=
  bodyLine request.content ++ ("\x7d);\n".toList ++ ending)

/-- The code of a call without credentials. -/
def code (request : Request) : List Char :=
  if request.hasOptions then bodyFront request ++ bodyCode request
  else declaration.toList ++ ("fetch(".toList ++ (quoteChars request.url.toList ++
    (");\n".toList ++ ending)))

theorem flatMap_headerLines {request : Request} (h : request.credentials = none) :
    (headerLines request).flatMap (fun line => line.toList ++ ['\n']) =
      headerBlock request.headers.entries := by
  have hentries : headerEntries request =
      request.headers.entries.map fun header => (header.1, some header.2) := by
    rw [headerEntries, h]
    rfl
  rw [headerLines, hentries]
  split
  · next hnil =>
      rw [headerBlock, if_pos (List.map_eq_nil_iff.1 hnil)]
      rfl
  · next hne =>
      have hentries : request.headers.entries ≠ [] := fun hnil => hne (by rw [hnil]; rfl)
      rw [List.map_map]
      exact Snippet.flatMap_headerLines hentries

theorem toList_render {request : Request} (h : request.credentials = none) :
    (render request).toList = code request := by
  have hbreak : ['\n'] = "\n".toList := by decide
  have hreading : reading = "" ++ "\n" ++ "const data = await response.json();" ++ "\n" := rfl
  have hlines : ∀ call : List String,
      call ++ ["", "const data = await response.json();", "console.log(data);"] =
        (call ++ ["", "const data = await response.json();"]) ++ [printing] := by
    intro call
    simp only [List.append_assoc, List.cons_append, List.nil_append, printing]
  unfold render lines code ending
  simp only [h, Option.toList_none, List.flatMap_nil, List.nil_append]
  rw [hlines, Text.toList_intercalate_lines, List.flatMap_append]
  split
  · have hcall : "const response = await fetch(" = declaration ++ "fetch(" := rfl
    have hopening : ", \x7b\n" = ", \x7b" ++ "\n" := rfl
    have hcomma : ",\n" = "," ++ "\n" := rfl
    have hclosing : "\x7d);\n" = "\x7d);" ++ "\n" := rfl
    unfold bodyFront bodyCode bodyLine headersFront methodFront ending
    simp only [List.flatMap_append, flatMap_headerLines h, flatMap_memberLine, List.flatMap_cons,
      List.flatMap_nil, List.append_assoc, List.append_nil]
    simp only [hcall, hopening, hcomma, hclosing, hreading, hbreak, String.toList_append,
      toList_quote, List.append_assoc]
  · have hcall : "const response = await fetch(" = declaration ++ "fetch(" := rfl
    have hclosing : ");\n" = ");" ++ "\n" := rfl
    simp only [List.flatMap_cons, List.flatMap_nil, String.toList_append, toList_quote,
      List.append_assoc, List.append_nil, hcall, hclosing, hreading, hbreak]

theorem exists_code (request : Request) :
    ∃ rest, code request =
      declaration.toList ++ ("fetch(".toList ++ (quoteChars request.url.toList ++ rest)) := by
  by_cases hoptions : request.hasOptions = true
  · refine ⟨", \x7b\n".toList ++ ("  method: ".toList ++ (quoteChars request.method.name.toList ++
      (",\n".toList ++ (headerBlock request.headers.entries ++ bodyCode request)))), ?_⟩
    unfold code bodyFront headersFront methodFront
    rw [if_pos hoptions]
    simp only [List.append_assoc]
  · refine ⟨");\n".toList ++ ending, ?_⟩
    rw [code, if_neg hoptions]

/-! ## The address -/

theorem url?_code {request : Request} (hurl : IsPlain request.url) :
    url? (code request) = some request.url.toList := by
  have hfront : Misses (fun s => (call? "fetch" s).bind quoted?) declaration.toList :=
    ((needsWord_call "fetch").bind quoted?).misses (by decide)
  have hfound : ∀ rest : List Char,
      ((call? "fetch" ("fetch".toList ++ '(' :: (quoteChars request.url.toList ++ rest))).bind
        quoted?).map Prod.fst = some request.url.toList := by
    intro rest
    rw [call?_append, stripStart_quoteChars, Option.bind_some,
      quoted?_quoteChars hurl.toList_ne_nil hurl.not_markup]
    rfl
  have hcall : "fetch(".toList = "fetch".toList ++ ['('] := by decide
  obtain ⟨rest, hcode⟩ := exists_code request
  rw [hcode, hcall, List.append_assoc, List.singleton_append]
  unfold url?
  exact (hfront.map Prod.fst).search?_eq_some (hfound rest)

/-! ## What the patterns of members miss -/

def addressTexts : List String :=
  [declaration, "fetch(", ", \x7b\n", "  ", ");\n", reading, printing]

def methodTexts : List String := ["  method: ", ",\n", "\x7d);\n"]

def bodyTexts : List String := addressTexts ++ methodTexts ++ headerTexts

/-- Names, each with the code that it is missed in. -/
def missed : List (String × List String) :=
  [("method", addressTexts), ("headers", addressTexts ++ methodTexts), ("body", bodyTexts)]

/-- A name is nowhere in the code that it is missed in. -/
theorem misses_of_mem_missed (name : String) (texts : List String)
    (hmem : (name, texts) ∈ missed) (shape : List Char → Option (List Char × List Char)) :
    ∀ text ∈ texts, Misses (fun s => (key? name s).bind shape) text.toList := by
  have hlacks : ∀ entry ∈ missed, ∀ text ∈ entry.2,
      Text.lacksWordEverywhere entry.1.toList ':' text.toList = true := by
    decide +kernel
  exact (needsWord_key name shape).misses_of_mem (hlacks _ hmem)

def quotedTexts (request : Request) : List String :=
  request.url :: request.method.name :: headerFields request.headers.entries

section Misses

variable {α : Type} {pattern : List Char → Option α} {request : Request}

theorem misses_methodFront (htexts : ∀ text ∈ addressTexts, Misses pattern text.toList)
    (hurl : Misses pattern (quoteChars request.url.toList)) :
    Misses pattern (methodFront request) :=
  (htexts declaration (by simp [addressTexts])).append
    ((htexts "fetch(" (by simp [addressTexts])).append
      (hurl.append (htexts ", \x7b\n" (by simp [addressTexts]))))

theorem misses_headersFront (haddress : ∀ text ∈ addressTexts, Misses pattern text.toList)
    (hmethod : ∀ text ∈ methodTexts, Misses pattern text.toList)
    (hurl : Misses pattern (quoteChars request.url.toList))
    (hname : Misses pattern (quoteChars request.method.name.toList)) :
    Misses pattern (headersFront request) :=
  (misses_methodFront haddress hurl).append
    ((hmethod "  method: " (by simp [methodTexts])).append
      (hname.append (hmethod ",\n" (by simp [methodTexts]))))

theorem misses_ending (htexts : ∀ text ∈ addressTexts, Misses pattern text.toList) :
    Misses pattern ending :=
  (htexts reading (by simp [addressTexts])).append (htexts printing (by simp [addressTexts]))

/-- A call without options has no members. -/
theorem misses_code (htexts : ∀ text ∈ addressTexts, Misses pattern text.toList)
    (hurl : Misses pattern (quoteChars request.url.toList))
    (hoptions : request.hasOptions = false) : Misses pattern (code request) := by
  rw [code, hoptions, if_neg (by decide)]
  exact (htexts declaration (by simp [addressTexts])).append
    ((htexts "fetch(" (by simp [addressTexts])).append
      (hurl.append ((htexts ");\n" (by simp [addressTexts])).append (misses_ending htexts))))

end Misses

/-! ## The body in the code -/

theorem body_read (text : String) : (read text).body = body? text.toList := rfl

section Body

variable {request : Request}

/-- A call of `JSON.stringify` has its name in front of an opening parenthesis. -/
theorem exists_of_stringified? {s : List Char} (hs : stringified? s ≠ none) :
    ∃ front behind, s = front ++ '(' :: behind ∧ ∀ d ∈ front, isMarkup d = false := by
  unfold stringified? at hs
  cases hdrop : Text.dropExact? "JSON.stringify".toList s with
  | none => exact absurd rfl (by rwa [hdrop] at hs)
  | some rest =>
      rw [hdrop, Option.bind_some] at hs
      obtain ⟨c, behind, hc, hopen⟩ := exists_of_enclosed? hs
      obtain ⟨b, hb, hrest⟩ := Text.exists_blank_append_stripStart rest
      obtain rfl := of_decide_eq_true hopen
      have hword : ∀ d ∈ "JSON.stringify".toList, isMarkup d = false := by decide
      refine ⟨"JSON.stringify".toList ++ b, behind, ?_, ?_⟩
      · rw [Text.dropExact?_eq_some_iff.1 hdrop, hrest, hc, List.append_assoc]
      · intro d hd
        rcases List.mem_append.1 hd with hd | hd
        · exact hword d hd
        · exact isMarkup_of_isBlank (hb d hd)

theorem showsMarkup_stringified : ShowsMarkup stringified? := by
  intro s hs
  obtain ⟨front, behind, heq, hfront⟩ := exists_of_stringified? hs
  refine ⟨front, '(', behind, heq, hfront, by decide, ?_⟩
  intro hquote
  exact absurd hquote (by decide)

theorem stringified?_append {literal : List Char} (hne : literal ≠ []) (h : ')' ∉ literal)
    (behind : List Char) :
    stringified? ("JSON.stringify".toList ++ '(' :: (literal ++ ')' :: behind)) =
      some (literal, behind) := by
  unfold stringified?
  rw [Text.dropExact?_eq_some_iff.2 rfl, Option.bind_some,
    Text.stripStart_cons_of_not_blank (by decide)]
  exact bracketed_append '(' hne h behind

theorem misses_bodyFront {shape : List Char → Option (List Char × List Char)}
    (hquoted : MissesQuoted (fun s => (key? "body" s).bind shape) (quotedTexts request)) :
    Misses (fun s => (key? "body" s).bind shape) (bodyFront request) := by
  have htexts := misses_of_mem_missed "body" bodyTexts (by simp [missed]) shape
  exact (misses_headersFront (fun text h => htexts text (by simp [bodyTexts, h]))
    (fun text h => htexts text (by simp [bodyTexts, h])) (hquoted _ (by simp [quotedTexts]))
    (hquoted _ (by simp [quotedTexts]))).append (misses_headerBlock
      (fun text h => htexts text (by simp [bodyTexts, h]))
      fun text hmem => hquoted text (by simp [quotedTexts, hmem]))

theorem member?_body_code_eq_some {shape : List Char → Option (List Char × List Char)}
    (hfront : Misses (fun s => (key? "body" s).bind shape) (bodyFront request)) {body : String}
    (hcontent : request.content = some body) {value : List Char}
    (hvalue : ∀ rest, ∃ behind,
      shape (Text.stripStart ((bodyExpression body).toList ++ rest)) = some (value, behind)) :
    member? "body" shape (code request) = some value := by
  have hkey : "  body: ".toList = "  ".toList ++ ("body".toList ++ [':', ' ']) := by decide
  have htexts := misses_of_mem_missed "body" bodyTexts (by simp [missed]) shape
  have hspaces := htexts "  " (by simp [bodyTexts, addressTexts])
  have hcode : code request = (bodyFront request ++ "  ".toList) ++ ("body".toList ++ ':' :: ' ' ::
      ((bodyExpression body).toList ++ (",\n".toList ++ ("\x7d);\n".toList ++ ending)))) := by
    rw [code, if_pos (Request.hasOptions_of_content hcontent), bodyCode, bodyLine, hcontent,
      memberLine_some, hkey]
    simp only [List.append_assoc, List.cons_append, List.nil_append]
  obtain ⟨behind, hfound⟩ := hvalue (",\n".toList ++ ("\x7d);\n".toList ++ ending))
  rw [hcode]
  apply member?_eq_some (hfront.append hspaces)
  rw [Text.stripStart_cons_of_blank (by decide)]
  exact hfound

theorem exists_takeWhile_append (s : List Char) (stop : Char) (rest : List Char) :
    ∃ behind, s ++ stop :: rest = s.takeWhile (· ≠ stop) ++ stop :: behind := by
  induction s with
  | nil => exact ⟨rest, rfl⟩
  | cons c s ih =>
      by_cases hc : c = stop
      · exact ⟨s ++ stop :: rest, by simp [hc]⟩
      · obtain ⟨behind, hbehind⟩ := ih
        exact ⟨behind, by simp [hc, hbehind]⟩

/-- A text without blanks around it is left as it is up to a character only if it does not have
the character. -/
theorem ofList_strip_takeWhile_eq_iff {text : String} (htrim : Text.trim text = text) (stop : Char) :
    String.ofList (Text.strip (text.toList.takeWhile (· ≠ stop))) = text ↔ stop ∉ text.toList := by
  constructor
  · intro heq hmem
    rw [← heq, String.toList_ofList] at hmem
    have hfront := (Text.strip_isInfix _).subset hmem
    simpa using List.mem_takeWhile_imp hfront
  · intro hnot
    have hall : text.toList.takeWhile (· ≠ stop) = text.toList := by
      apply List.takeWhile_eq_self_iff.2
      intro c hc
      exact decide_eq_true fun he : c = stop => hnot (he ▸ hc)
    rw [hall, Text.trim_eq_self_iff.1 htrim, String.ofList_toList]

/-- What is taken for the argument ends at the first closing parenthesis, which may stand inside of
the JSON. -/
theorem body?_code_of_json
    (hfront : Misses (fun s => (key? "body" s).bind stringified?) (bodyFront request))
    {body literal : String} (hcontent : request.content = some body)
    (hliteral : jsonLiteral? body = some literal) :
    body? (code request) =
      some (String.ofList (Text.strip (literal.toList.takeWhile (· ≠ ')')))) := by
  have hopen : "JSON.stringify(".toList = "JSON.stringify".toList ++ ['('] := by decide
  have hne : literal.toList.takeWhile (· ≠ ')') ≠ [] := by
    obtain ⟨⟨found, hread⟩, rfl⟩ := jsonLiteral?_eq_some_iff.1 hliteral
    have hhead := Json.head?_strip_ne hread (by decide : ')' ∉ Json.valueStarts)
    obtain ⟨c, rest, hstrip⟩ := List.exists_cons_of_ne_nil (Json.strip_ne_nil_of_read hread)
    rw [hstrip] at hhead
    have hc : c ≠ ')' := by simpa using hhead
    simp [hstrip, hc]
  have hparen : ')' ∉ literal.toList.takeWhile (· ≠ ')') := by
    intro hmem
    simpa using List.mem_takeWhile_imp hmem
  have hstringified : member? "body" stringified? (code request) =
      some (literal.toList.takeWhile (· ≠ ')')) := by
    apply member?_body_code_eq_some hfront hcontent
    intro rest
    obtain ⟨behind, hbehind⟩ := exists_takeWhile_append literal.toList ')' rest
    refine ⟨behind, ?_⟩
    have htext : (bodyExpression body).toList ++ rest =
        "JSON.stringify".toList ++ '(' :: (literal.toList ++ ')' :: rest) := by
      rw [bodyExpression, hliteral]
      simp only [String.toList_append, hopen, List.append_assoc, List.cons_append, List.nil_append]
      rfl
    rw [htext, hbehind]
    exact stringified?_append hne hparen behind
  rw [body?, hstringified]

end Body

section PlainTexts

variable {request : Request} (hplain : ∀ text ∈ quotedTexts request, IsPlainOrEmpty text)

include hplain

theorem misses_url {α : Type} {pattern : List Char → Option α} (hmarkup : ReachesMarkup pattern) :
    Misses pattern (quoteChars request.url.toList) :=
  hmarkup.misses_quoteChars (hplain request.url (by simp [quotedTexts]))

theorem misses_name {α : Type} {pattern : List Char → Option α} (hmarkup : ReachesMarkup pattern) :
    Misses pattern (quoteChars request.method.name.toList) :=
  hmarkup.misses_quoteChars (hplain request.method.name (by simp [quotedTexts]))

/-! ## The method -/

theorem method?_code (hword : ∀ c ∈ request.method.name.toList, Text.isWordChar c = true) :
    member? "method" quotedWord? (code request) =
      if request.hasOptions then some request.method.name.toList else none := by
  have hurl := misses_url hplain (reachesMarkup_key "method" (by decide) showsMarkup_quotedWord)
  have hname := IsPlain.of_isWordChar request.method.name_ne_empty hword
  have htexts := misses_of_mem_missed "method" addressTexts (by simp [missed]) quotedWord?
  cases hoptions : request.hasOptions with
  | false => exact member?_eq_none (by decide) (misses_code htexts hurl hoptions)
  | true =>
      have hkey : "  method: ".toList = "  ".toList ++ ("method".toList ++ [':', ' ']) := by decide
      obtain ⟨rest, hcode⟩ : ∃ rest, code request = (methodFront request ++ "  ".toList) ++
          ("method".toList ++ ':' :: ' ' :: (quoteChars request.method.name.toList ++ rest)) := by
        refine ⟨",\n".toList ++ (headerBlock request.headers.entries ++ bodyCode request), ?_⟩
        unfold code bodyFront headersFront
        rw [if_pos hoptions, hkey]
        simp only [List.append_assoc, List.cons_append, List.nil_append]
      have hshape : quotedWord? (quoteChars request.method.name.toList ++ rest) =
          some (request.method.name.toList, rest) := by
        rw [quoteChars_eq hname.not_markup, List.append_assoc]
        exact quotedWord?_append hname.toList_ne_nil hword rest
      have hfront := (misses_methodFront htexts hurl).append
        (htexts "  " (by simp [addressTexts]))
      rw [hcode, if_pos rfl]
      apply member?_eq_some hfront
      rw [Text.stripStart_cons_of_blank (by decide), stripStart_quoteChars]
      exact hshape

/-! ## The headers -/

theorem headersOf_code (hheaders : ArePlain request.headers.entries)
    (hbody : request.headers.entries = [] →
      member? "headers" braced? (bodyCode request) = none) :
    headersOf (code request) = request.headers := by
  have hmarkup := reachesMarkup_key "headers" (by decide) showsMarkup_braced
  have htexts := misses_of_mem_missed "headers" (addressTexts ++ methodTexts) (by simp [missed])
    braced?
  have haddress : ∀ text ∈ addressTexts, Misses headersPattern text.toList :=
    fun text hmem => htexts text (by simp [hmem])
  have hmethod : ∀ text ∈ methodTexts, Misses headersPattern text.toList :=
    fun text hmem => htexts text (by simp [hmem])
  cases hoptions : request.hasOptions with
  | false =>
      have hnone :=
        member?_eq_none (by decide) (misses_code haddress (misses_url hplain hmarkup) hoptions)
      rw [headersOf, hnone]
      exact Headers.eq_of_entries_eq (Request.entries_eq_nil_of_hasOptions hoptions).symm
  | true =>
      have hfront := misses_headersFront haddress hmethod (misses_url hplain hmarkup)
        (misses_name hplain hmarkup)
      rw [code, if_pos hoptions, bodyFront, List.append_assoc]
      exact headersOf_headerBlock hheaders hfront hbody

/-! ## The body -/

theorem misses_bodyFront_of_plain {shape : List Char → Option (List Char × List Char)}
    (hshape : ShowsMarkup shape) :
    Misses (fun s => (key? "body" s).bind shape) (bodyFront request) :=
  misses_bodyFront ((reachesMarkup_key "body" (by decide) hshape).missesQuoted hplain)

theorem member?_body_code_eq_none {shape : List Char → Option (List Char × List Char)}
    (hshape : ShowsMarkup shape)
    (hbody : Misses (fun s => (key? "body" s).bind shape) (bodyLine request.content)) :
    member? "body" shape (code request) = none := by
  have hurl := misses_url hplain (reachesMarkup_key "body" (by decide) hshape)
  have htexts := misses_of_mem_missed "body" bodyTexts (by simp [missed]) shape
  apply member?_eq_none (by decide)
  cases hoptions : request.hasOptions with
  | false =>
      exact misses_code (fun text h => htexts text (by simp [bodyTexts, h])) hurl hoptions
  | true =>
      rw [code, if_pos hoptions]
      exact (misses_bodyFront_of_plain hplain hshape).append (hbody.append
        ((htexts "\x7d);\n" (by simp [bodyTexts, methodTexts])).append
          (misses_ending fun text hmem => htexts text (by simp [bodyTexts, hmem]))))

theorem body?_code_of_content_eq_none (hcontent : request.content = none) :
    body? (code request) = none := by
  have hline : ∀ shape : List Char → Option (List Char × List Char),
      Misses (fun s => (key? "body" s).bind shape) (bodyLine request.content) := by
    intro shape
    rw [hcontent]
    exact Misses.nil
  rw [body?, member?_body_code_eq_none hplain showsMarkup_stringified (hline _),
    member?_body_code_eq_none hplain showsMarkup_quoted (hline _)]
  rfl

omit hplain in
/-- A quoted body is no argument of `JSON.stringify`. -/
theorem misses_stringified_bodyLine {body : String} (hbody : IsPlainOrEmpty body)
    (hliteral : jsonLiteral? body = none) :
    Misses (fun s => (key? "body" s).bind stringified?) (bodyLine (some body)) := by
  have hmarkup := reachesMarkup_key "body" (by decide) showsMarkup_stringified
  have hneeds := needsWord_key "body" stringified?
  have hline : bodyLine (some body) = "  ".toList ++ 'b' ::
      ("ody: ".toList ++ (quoteChars body.toList ++ ",\n".toList)) := by
    have hkey : "  body: ".toList = "  ".toList ++ ('b' :: "ody: ".toList) := by decide
    rw [bodyLine, memberLine_some, hkey, bodyExpression, hliteral, toList_quote]
    simp only [List.append_assoc, List.cons_append]
  rw [hline]
  refine (hneeds.misses (by decide)).append (Misses.cons ?_ ((hneeds.misses (by decide)).append
    ((hmarkup.misses_quoteChars hbody).append (hneeds.misses (by decide)))))
  intro behind
  change (key? "body" ("body".toList ++ ':' :: (' ' :: (quoteChars body.toList ++ ",\n".toList) ++
    behind))).bind stringified? = none
  rw [key?_append, Option.bind_some]
  rfl

/-- A plain text that is not JSON is read back from its quotes. -/
theorem body?_code_of_plain {body : String} (hcontent : request.content = some body)
    (hbody : IsPlain body) (hliteral : jsonLiteral? body = none) :
    body? (code request) = some body := by
  have hstringified : member? "body" stringified? (code request) = none := by
    apply member?_body_code_eq_none hplain showsMarkup_stringified
    rw [hcontent]
    exact misses_stringified_bodyLine (Or.inr hbody) hliteral
  have hquoted : member? "body" quoted? (code request) = some body.toList := by
    apply member?_body_code_eq_some (misses_bodyFront_of_plain hplain showsMarkup_quoted) hcontent
    intro rest
    refine ⟨rest, ?_⟩
    rw [bodyExpression, hliteral, toList_quote, stripStart_quoteChars,
      quoted?_quoteChars hbody.toList_ne_nil hbody.not_markup]
  rw [body?, hstringified, hquoted]
  exact congrArg some String.ofList_toList

/-- A body comes back if it is plain or if it is JSON without a closing parenthesis. -/
theorem body?_code (hbody : ∀ body ∈ request.content, (IsPlain body ∧ jsonLiteral? body = none) ∨
      ∃ literal ∈ jsonLiteral? body, ')' ∉ literal.toList) :
    body? (code request) = callBody request := by
  cases hcontent : request.content with
  | none =>
      rw [body?_code_of_content_eq_none hplain hcontent, callBody, hcontent]
      rfl
  | some body =>
      rcases hbody body hcontent with ⟨htext, hliteral⟩ | ⟨literal, hliteral, hparen⟩
      · rw [body?_code_of_plain hplain hcontent htext hliteral, callBody, hcontent,
          Option.map_some, hliteral]
        rfl
      · have hfront := misses_bodyFront_of_plain hplain showsMarkup_stringified
        have hvalue := (ofList_strip_takeWhile_eq_iff (trim_of_jsonLiteral? hliteral) _).2 hparen
        rw [body?_code_of_json hfront hcontent hliteral, hvalue, callBody, hcontent,
          Option.map_some, Option.mem_def.1 hliteral]
        rfl

end PlainTexts

/-! ## Behind the headers -/

section BodyCode

variable {request : Request} {body : String}

theorem member?_headers_bodyCode_of_content_eq_none (hcontent : request.content = none) :
    member? "headers" braced? (bodyCode request) = none := by
  have hend : '\x7b' ∉ "\x7d);\n".toList ++ ending := by decide
  rw [bodyCode, hcontent]
  exact member?_braced_eq_none hend

theorem member?_headers_bodyCode_of_plain (hcontent : request.content = some body)
    (hplain : IsPlain body) (hliteral : jsonLiteral? body = none) :
    member? "headers" braced? (bodyCode request) = none := by
  have hend : '\x7b' ∉ "\x7d);\n".toList ++ ending := by decide
  have hcode : ∀ text ∈ ["  body: ", ",\n"], '\x7b' ∉ text.toList := by decide
  apply member?_braced_eq_none
  rw [bodyCode, bodyLine, hcontent, memberLine_some, bodyExpression, hliteral, toList_quote]
  simp only [List.mem_append, not_or]
  simp only [List.mem_append, not_or] at hend
  exact ⟨⟨hcode _ (by simp), brace_not_mem_quoteChars (Or.inr hplain) (Or.inl rfl),
    hcode _ (by simp)⟩, hend⟩

theorem bodyCode_of_json {literal : String} (hcontent : request.content = some body)
    (hliteral : jsonLiteral? body = some literal) :
    bodyCode request = ("  body: ".toList ++ "JSON.stringify(".toList) ++
      (literal.toList ++ [')']) ++ (",\n".toList ++ ("\x7d);\n".toList ++ ending)) := by
  have hparen : ")".toList = [')'] := rfl
  rw [bodyCode, bodyLine, hcontent, memberLine_some, bodyExpression, hliteral]
  simp only [String.toList_append, List.append_assoc, hparen]

/-- JSON without the word has no headers. -/
theorem member?_headers_bodyCode_of_json {literal : String} (hcontent : request.content = some body)
    (hliteral : jsonLiteral? body = some literal) (hword : ¬"headers".toList <:+: literal.toList) :
    member? "headers" braced? (bodyCode request) = none := by
  have hneeds := needsWord_key "headers" braced?
  rw [bodyCode_of_json hcontent hliteral]
  apply member?_eq_none (by decide)
  exact (((hneeds.misses (by decide)).append (hneeds.misses (by decide))).append
    (hneeds.misses_concat (by decide) hword)).append ((hneeds.misses (by decide)).append
      ((hneeds.misses (by decide)).append (hneeds.misses (by decide))))

/-- A flat object has no other object that could hold headers. -/
theorem member?_headers_bodyCode_of_flat_object (hcontent : request.content = some body)
    (hobject : HoldsFlatObject body) : member? "headers" braced? (bodyCode request) = none := by
  obtain ⟨inside, hinside, -, hopening, -⟩ := hobject.exists_inside
  have hneeds := needsWord_key "headers" braced?
  have hfront : Misses headersPattern
      (("  body: ".toList ++ "JSON.stringify(".toList) ++ ['\x7b']) :=
    ((hneeds.misses (by decide)).append (hneeds.misses (by decide))).append
      (hneeds.misses (by decide))
  have hend : '\x7b' ∉ '\x7d' :: ')' :: (",\n".toList ++ ("\x7d);\n".toList ++ ending)) := by
    decide
  have htext : bodyCode request = (("  body: ".toList ++ "JSON.stringify(".toList) ++ ['\x7b']) ++
      (inside ++ ('\x7d' :: ')' :: (",\n".toList ++ ("\x7d);\n".toList ++ ending)))) := by
    rw [bodyCode_of_json hcontent hobject.jsonLiteral?_eq, hinside]
    simp only [List.append_assoc, List.cons_append, List.nil_append]
  rw [htext, member?_append hfront]
  apply member?_braced_eq_none
  simp only [List.mem_append, not_or]
  exact ⟨hopening, hend⟩

end BodyCode

/-! ## The whole call -/

section Call

variable {request : Request} (h : HasPlainTexts request)

include h

theorem isPlainOrEmpty_of_mem_quotedTexts : ∀ text ∈ quotedTexts request, IsPlainOrEmpty text := by
  intro text hmem
  rcases List.mem_cons.1 hmem with rfl | hmem
  · exact Or.inr h.url
  rcases List.mem_cons.1 hmem with rfl | hmem
  · exact Or.inr (IsPlain.of_isWordChar request.method.name_ne_empty h.method.isWordChar_name)
  · exact Or.inr (h.headers.isPlain_of_mem text hmem)

/-- All but the body comes back if no headers are found in the body. -/
theorem readChars_code (hbody : request.headers.entries = [] →
      member? "headers" braced? (bodyCode request) = none) :
    readChars (code request) =
      { method := request.method, url := request.url, headers := request.headers
        body := body? (code request) } := by
  have hplain := isPlainOrEmpty_of_mem_quotedTexts h
  have hmethod : ((member? "method" quotedWord? (code request)).map
      (Method.ofString <| String.ofList ·)).getD Method.get = request.method := by
    rw [method?_code hplain h.method.isWordChar_name]
    cases hoptions : request.hasOptions with
    | true =>
        change Method.ofString (String.ofList request.method.name.toList) = request.method
        rw [String.ofList_toList, request.method.ofString_name]
    | false =>
        rw [Method.eq_iff_name_eq, Request.name_eq_get_of_hasOptions hoptions]
        exact Method.name_get
  have hurl : ((url? (code request)).map String.ofList).getD "" = request.url := by
    rw [url?_code h.url]
    exact String.ofList_toList
  rw [readChars, hmethod, hurl, headersOf_code hplain h.headers hbody]

end Call

/-- A request whose parts survive being written as a call. -/
@[mk_iff] structure IsExpressible (request : Request) : Prop extends HasPlainTexts request where
  credentials : request.credentials = none
  body : ∀ body ∈ request.content, (IsPlain body ∧ jsonLiteral? body = none) ∨
    ((jsonLiteral? body).isSome ∧ ')' ∉ body.toList ∧ ¬"headers".toList <:+: body.toList)

instance (request : Request) : Decidable (IsExpressible request) :=
  decidable_of_iff _ (isExpressible_iff request).symm

namespace IsExpressible

variable {request : Request} (h : IsExpressible request)

include h

theorem member?_headers_bodyCode_eq_none :
    member? "headers" braced? (bodyCode request) = none := by
  cases hcontent : request.content with
  | none => exact member?_headers_bodyCode_of_content_eq_none hcontent
  | some body =>
      rcases h.body body hcontent with ⟨hplain, hliteral⟩ | ⟨hjson, -, hword⟩
      · exact member?_headers_bodyCode_of_plain hcontent hplain hliteral
      · obtain ⟨literal, hliteral⟩ := Option.isSome_iff_exists.1 hjson
        apply member?_headers_bodyCode_of_json hcontent hliteral
        exact fun hmem => hword (hmem.trans (isInfix_of_jsonLiteral? hliteral))

theorem body?_code_eq : body? (code request) = callBody request := by
  apply body?_code (isPlainOrEmpty_of_mem_quotedTexts h.toHasPlainTexts)
  intro body hcontent
  rcases h.body body hcontent with hplain | ⟨hjson, hparen, -⟩
  · exact Or.inl hplain
  · obtain ⟨literal, hliteral⟩ := Option.isSome_iff_exists.1 hjson
    refine Or.inr ⟨literal, hliteral, ?_⟩
    exact fun hmem => hparen ((isInfix_of_jsonLiteral? hliteral).subset hmem)

end IsExpressible

/-- A call is read back as the request that it was written from. -/
theorem read_render_eq_without_credentials {request : Request} (h : IsExpressible request) :
    read (render request) =
      { method := request.method, url := request.url, headers := request.headers
        body := callBody request } := by
  have hheaders := h.member?_headers_bodyCode_eq_none
  rw [read, toList_render h.credentials, readChars_code h.toHasPlainTexts fun _ => hheaders,
    h.body?_code_eq]

/-- Names, quotes and braces inside of a JSON body are not taken for those of the call. -/
theorem read_render_of_json_full_of_names :
    let request : Request := {
      method := .ofString "M_2"
      url := "fetch: url, method"
      headers := .ofPairs [("headers: body", "x:y"), ("A", "JSON.stringify")]
      body := some " \x7b\"body: 'x'\": [\x7b\"method: 'GET'\": 1\x7d, \"fetch('/y'\"]\x7d\n" }
    IsExpressible request ∧
      callBody request =
        some "\x7b\"body: 'x'\": [\x7b\"method: 'GET'\": 1\x7d, \"fetch('/y'\"]\x7d" ∧
      read (render request) =
        { method := request.method, url := request.url, headers := request.headers
          body := callBody request } := by
  intro request
  have hexpressible : IsExpressible request := by decide +kernel
  have hbody : callBody request =
      some "\x7b\"body: 'x'\": [\x7b\"method: 'GET'\": 1\x7d, \"fetch('/y'\"]\x7d" := by
    decide +kernel
  exact ⟨hexpressible, hbody, read_render_eq_without_credentials hexpressible⟩

end RequestForms.Snippet.Fetch
