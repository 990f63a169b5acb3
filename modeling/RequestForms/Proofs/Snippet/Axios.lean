import RequestForms.Proofs.Snippet.Axios.Code

/-!
# Reading back a call of `axios`

A shorthand has nothing but the address, and the other calls have one object with everything. What
looks like a name in front of a value stands nowhere else, neither in the code nor in plain texts.
-/

namespace RequestForms.Snippet.Axios

open Text (Misses)

/-- A request whose parts survive being written as a call. -/
@[mk_iff] structure IsExpressible (request : Request) : Prop extends HasPlainTexts request where
  credentials : ∀ credentials ∈ request.credentials,
    IsPlain credentials.user ∧ IsPlainOrEmpty credentials.password
  body : ∀ body ∈ request.content,
    (IsPlain body ∧ jsonLiteral? body = none) ∨ HoldsFlatObject body

instance (request : Request) : Decidable (IsExpressible request) :=
  decidable_of_iff _ (isExpressible_iff request).symm

/-! ## Bodies as literals -/

theorem body_read (text : String) : (read text).body = (body? text.toList).map String.ofList := rfl

theorem showsMarkup_literal : ShowsMarkup literal? := by
  intro s hs
  unfold literal? at hs
  cases hquoted : quoted? s with
  | some found => exact showsMarkup_quoted s (by simp [hquoted])
  | none =>
      apply showsMarkup_braced s
      intro hbraced
      rw [hquoted, hbraced] at hs
      exact hs rfl

theorem literal?_bodyLiteral_of_plain {text : String} (htext : IsPlain text)
    (hliteral : jsonLiteral? text = none) (rest : List Char) :
    literal? (Text.stripStart ((bodyLiteral text).toList ++ rest)) = some (text.toList, rest) := by
  rw [bodyLiteral_eq_getD, hliteral, Option.getD_none, toList_quote, stripStart_quoteChars,
    literal?, quoted?_quoteChars htext.toList_ne_nil htext.not_markup]

theorem literal?_bodyLiteral_of_closesOnce {text : String} (htext : ClosesOnce text)
    (rest : List Char) :
    literal? (Text.stripStart ((bodyLiteral text).toList ++ rest)) =
      some ((Text.trim text).toList, rest) := by
  obtain ⟨inside, hinside, hne, hclosing⟩ := htext.exists_inside
  have hquoted : quoted? ('\x7b' :: (inside ++ '\x7d' :: rest)) = none := by
    rw [quoted?, enclosed?, if_neg]
    rintro ⟨hquote, -⟩
    exact absurd hquote (by decide)
  calc
    literal? (Text.stripStart ((bodyLiteral text).toList ++ rest)) =
        literal? (Text.stripStart ('\x7b' :: (inside ++ '\x7d' :: rest))) := by
      rw [bodyLiteral_eq_getD, htext.jsonLiteral?_eq, Option.getD_some, hinside, List.cons_append,
        List.append_assoc, List.singleton_append]
    _ = literal? ('\x7b' :: (inside ++ '\x7d' :: rest)) := by
      rw [Text.stripStart_cons_of_not_blank (by decide)]
    _ = some ((Text.trim text).toList, rest) := by
      rw [literal?, hquoted, braced?, bracketed_append '\x7b' hne hclosing, hinside]
      rfl

theorem data?_code_eq_some {request : Request} {body : String} {value : List Char}
    (hcontent : request.content = some body)
    (hfront : Misses (fun s => (key? "data" s).bind literal?) (bodyFront request))
    (hvalue : ∀ rest, literal? (Text.stripStart ((bodyLiteral body).toList ++ rest)) =
      some (value, rest)) :
    member? "data" literal? (code request) = some value := by
  have hspaces := misses_of_mem_missed "data" (frontTexts ++ ["  ", ending]) (by simp [missed])
    (needsWord_key "data" literal?) "  " (by simp)
  have hname : "  data: ".toList = "  ".toList ++ ("data".toList ++ [':', ' ']) := by decide
  have hcode : code request = (bodyFront request ++ "  ".toList) ++ ("data".toList ++ ':' :: ' ' ::
      ((bodyLiteral body).toList ++ (",\n".toList ++ ending.toList))) := by
    unfold code bodyCode bodyLine
    rw [if_pos (Request.hasOptions_of_content hcontent), hcontent, memberLine_some, hname]
    simp only [List.append_assoc, List.cons_append, List.nil_append]
  rw [hcode]
  apply member?_eq_some (hfront.append hspaces)
  rw [Text.stripStart_cons_of_blank (by decide)]
  exact hvalue _

/-! ## The credentials -/

section Credentials

variable {credentials : Credentials}

theorem user?_credentialInside (huser : IsPlain credentials.user) :
    member? "username" quoted? (credentialInside credentials) =
      some credentials.user.toList := by
  have htexts := misses_of_mem_missed "username" ["\n    "] (by simp [missed])
    (needsWord_key "username" quoted?)
  have hname : "\n    username: ".toList = "\n    ".toList ++ ("username".toList ++ [':', ' ']) := by
    decide
  have hinside : credentialInside credentials = "\n    ".toList ++ ("username".toList ++ ':' ::
      ' ' :: (quoteChars credentials.user.toList ++ (",\n    password: ".toList ++
        (quoteChars credentials.password.toList ++ ",\n  ".toList)))) := by
    unfold credentialInside
    rw [hname]
    simp only [List.append_assoc, List.cons_append, List.nil_append]
  rw [hinside]
  apply member?_eq_some (htexts "\n    " (by simp))
  rw [Text.stripStart_cons_of_blank (by decide), stripStart_quoteChars,
    quoted?_quoteChars huser.toList_ne_nil huser.not_markup]

theorem password?_credentialInside (huser : IsPlain credentials.user)
    (hpassword : IsPlainOrEmpty credentials.password) :
    ((member? "password" quoted? (credentialInside credentials)).map String.ofList).getD "" =
      credentials.password := by
  have hmarkup := reachesMarkup_key "password" (by decide) showsMarkup_quoted
  have htexts := misses_of_mem_missed "password" ["\n    username: ", ",\n    "]
    (by simp [missed]) (needsWord_key "password" quoted?)
  have hfront : Misses (fun s => (key? "password" s).bind quoted?)
      ("\n    username: ".toList ++ (quoteChars credentials.user.toList ++ ",\n    ".toList)) :=
    (htexts "\n    username: " (by simp)).append
      ((hmarkup.misses_quoteChars (Or.inr huser)).append (htexts ",\n    " (by simp)))
  have hname : ",\n    password: ".toList =
      ",\n    ".toList ++ ("password".toList ++ [':', ' ']) := by
    decide
  have hinside : credentialInside credentials =
      ("\n    username: ".toList ++ (quoteChars credentials.user.toList ++ ",\n    ".toList)) ++
        ("password".toList ++ ':' :: ' ' ::
          (quoteChars credentials.password.toList ++ ",\n  ".toList)) := by
    unfold credentialInside
    rw [hname]
    simp only [List.append_assoc, List.cons_append, List.nil_append]
  rw [hinside]
  rcases hpassword with hempty | hplain
  · -- two quotes with nothing between them are no string to the reader
    have hnone : member? "password" quoted? ("password".toList ++ ':' :: ' ' ::
        (quoteChars "".toList ++ ",\n  ".toList)) = none := by
      decide
    rw [member?_append hfront, hempty, hnone]
    rfl
  · have hvalue : quoted? (Text.stripStart (' ' :: (quoteChars credentials.password.toList ++
        ",\n  ".toList))) = some (credentials.password.toList, ",\n  ".toList) := by
      rw [Text.stripStart_cons_of_blank (by decide), stripStart_quoteChars,
        quoted?_quoteChars hplain.toList_ne_nil hplain.not_markup]
    rw [member?_eq_some hfront hvalue]
    exact String.ofList_toList

theorem brace_not_mem_credentialInside (huser : IsPlain credentials.user)
    (hpassword : IsPlainOrEmpty credentials.password) :
    '\x7d' ∉ credentialInside credentials := by
  have htexts : ∀ text ∈ ["\n    username: ", ",\n    password: ", ",\n  "],
      '\x7d' ∉ text.toList := by
    decide
  unfold credentialInside
  simp only [List.mem_append, not_or]
  exact ⟨htexts _ (by simp), brace_not_mem_quoteChars (Or.inr huser) (Or.inr rfl),
    htexts _ (by simp), brace_not_mem_quoteChars hpassword (Or.inr rfl), htexts _ (by simp)⟩

/-- The first block of credentials is the one that was written. -/
theorem credentials?_credentialBlock (huser : IsPlain credentials.user)
    (hpassword : IsPlainOrEmpty credentials.password) {front : List Char}
    (hfront : Misses (fun s => (key? "auth" s).bind braced?) (front ++ "  ".toList))
    (rest : List Char) :
    credentials? (front ++ (credentialBlock (some credentials) ++ rest)) = some credentials := by
  have hname : "  auth: \x7b".toList = "  ".toList ++ ("auth".toList ++ [':', ' ', '\x7b']) := by
    decide
  have hclose : "\x7d,\n".toList = '\x7d' :: ",\n".toList := by decide
  have hcode : front ++ (credentialBlock (some credentials) ++ rest) = (front ++ "  ".toList) ++
      ("auth".toList ++ ':' :: ' ' :: '\x7b' :: (credentialInside credentials ++
        '\x7d' :: (",\n".toList ++ rest))) := by
    rw [credentialBlock, Option.toList_some, List.flatMap_singleton, hname, hclose]
    simp only [List.append_assoc, List.cons_append, List.nil_append]
  have hne : credentialInside credentials ≠ [] := by
    unfold credentialInside
    exact List.append_ne_nil_of_left_ne_nil (by decide) _
  have hblock : member? "auth" braced? (front ++ (credentialBlock (some credentials) ++ rest)) =
      some (credentialInside credentials) := by
    rw [hcode]
    apply member?_eq_some hfront
    rw [Text.stripStart_cons_of_blank (by decide), Text.stripStart_cons_of_not_blank (by decide)]
    exact bracketed_append '\x7b' hne (brace_not_mem_credentialInside huser hpassword) _
  rw [credentials?, hblock, Option.bind_some, user?_credentialInside huser, Option.map_some,
    password?_credentialInside huser hpassword, String.ofList_toList]

end Credentials

theorem isPlain_toLower_name {method : Method} (h : method.IsPlainName) :
    IsPlain (Text.toLower method.name) := by
  apply IsPlain.of_isWordChar
  · intro hempty
    have hname := h.toUpper_toLower_name
    rw [hempty] at hname
    exact method.name_ne_empty hname.symm
  · exact h.isWordChar_toLower_name

section Call

variable {request : Request} (h : IsExpressible request)

include h

theorem isPlainOrEmpty_of_mem_quotedTexts : ∀ text ∈ quotedTexts request, IsPlainOrEmpty text := by
  intro text hmem
  rcases List.mem_cons.1 hmem with rfl | hmem
  · exact Or.inr (isPlain_toLower_name h.method)
  rcases List.mem_cons.1 hmem with rfl | hmem
  · exact Or.inr h.url
  rcases List.mem_append.1 hmem with hmem | hmem
  · exact Or.inr (h.headers.isPlain_of_mem text hmem)
  · obtain ⟨credentials, hcredentials, hmem⟩ := List.mem_flatMap.1 hmem
    obtain ⟨huser, hpassword⟩ := h.credentials credentials (Option.mem_toList.1 hcredentials)
    simp only [List.mem_cons, List.not_mem_nil, or_false] at hmem
    rcases hmem with rfl | rfl
    · exact Or.inr huser
    · exact hpassword

theorem missesQuoted_quotedTexts {α : Type} {pattern : List Char → Option α}
    (hmarkup : ReachesMarkup pattern) : MissesQuoted pattern (quotedTexts request) :=
  hmarkup.missesQuoted (isPlainOrEmpty_of_mem_quotedTexts h)

theorem misses_url {α : Type} {pattern : List Char → Option α} (hmarkup : ReachesMarkup pattern) :
    Misses pattern (quoteChars request.url.toList) :=
  hmarkup.misses_quoteChars (Or.inr h.url)

/-! ## The method and the address -/

theorem method?_code (hoptions : request.hasOptions = true) :
    member? "method" quotedWord? (code request) =
      some (Text.toLower request.method.name).toList := by
  have hplain := isPlain_toLower_name h.method
  have htexts := misses_of_mem_missed "method" [imports, declaration, "axios(\x7b\n", "  "]
    (by simp [missed]) (needsWord_key "method" quotedWord?)
  have hfront : Misses (fun s => (key? "method" s).bind quotedWord?)
      (front ++ ("axios(\x7b\n".toList ++ "  ".toList)) :=
    ((htexts imports (by simp)).append (htexts declaration (by simp))).append
      ((htexts "axios(\x7b\n" (by simp)).append (htexts "  " (by simp)))
  have hname : "  method: ".toList = "  ".toList ++ ("method".toList ++ [':', ' ']) := by decide
  obtain ⟨rest, hcode⟩ : ∃ rest, code request = (front ++ ("axios(\x7b\n".toList ++
      "  ".toList)) ++ ("method".toList ++ ':' ::
        ' ' :: (quoteChars (Text.toLower request.method.name).toList ++ rest)) := by
    refine ⟨",\n".toList ++ ("  url: ".toList ++ (quoteChars request.url.toList ++ (",\n".toList ++
      (headerBlock request.headers.entries ++ (credentialBlock request.credentials ++
        bodyCode request))))), ?_⟩
    unfold code bodyFront credentialsFront headersFront urlFront
    rw [if_pos hoptions, hname]
    simp only [List.append_assoc, List.cons_append, List.nil_append]
  have hshape : quotedWord? (quoteChars (Text.toLower request.method.name).toList ++ rest) =
      some ((Text.toLower request.method.name).toList, rest) := by
    rw [quoteChars_eq hplain.not_markup, List.append_assoc]
    exact quotedWord?_append hplain.toList_ne_nil h.method.isWordChar_toLower_name rest
  rw [hcode]
  apply member?_eq_some hfront
  rw [Text.stripStart_cons_of_blank (by decide), stripStart_quoteChars]
  exact hshape

theorem url?_code (hoptions : request.hasOptions = true) :
    member? "url" quoted? (code request) = some request.url.toList := by
  have hmarkup := reachesMarkup_key "url" (by decide) showsMarkup_quoted
  have htexts := misses_of_mem_missed "url" (methodTexts ++ ["  "]) (by simp [missed])
    (needsWord_key "url" quoted?)
  have hfront : Misses (fun s => (key? "url" s).bind quoted?) (urlFront request) :=
    misses_urlFront (fun text hmem => htexts text (by simp [hmem]))
      (hmarkup.misses_quoteChars (Or.inr (isPlain_toLower_name h.method)))
  have hspaces := htexts "  " (by simp)
  have hname : "  url: ".toList = "  ".toList ++ ("url".toList ++ [':', ' ']) := by decide
  have hcode : code request = (urlFront request ++ "  ".toList) ++ ("url".toList ++ ':' :: ' ' ::
      (quoteChars request.url.toList ++ (",\n".toList ++ (headerBlock request.headers.entries ++
        (credentialBlock request.credentials ++ bodyCode request))))) := by
    unfold code bodyFront credentialsFront headersFront
    rw [if_pos hoptions, hname]
    simp only [List.append_assoc, List.cons_append, List.nil_append]
  rw [hcode]
  apply member?_eq_some (hfront.append hspaces)
  rw [Text.stripStart_cons_of_blank (by decide), stripStart_quoteChars,
    quoted?_quoteChars h.url.toList_ne_nil h.url.not_markup]

/-! ## Names behind the address -/

omit h in
/-- The code up to the headers has none of the names behind it. -/
theorem misses_key {name : String} (hname : name ∈ laterKeys)
    (shape : List Char → Option (List Char × List Char)) :
    ∀ text ∈ methodTexts ++ urlTexts ++ shorthandTexts,
      Misses (fun s => (key? name s).bind shape) text.toList := by
  apply misses_of_mem_missed name _ _ (needsWord_key name shape)
  exact List.mem_append_right _ (List.mem_map_of_mem hname)

omit h in
theorem reachesMarkup_laterKey {name : String} (hname : name ∈ laterKeys)
    {shape : List Char → Option (List Char × List Char)} (hshape : ShowsMarkup shape) :
    ReachesMarkup fun s => (key? name s).bind shape := by
  have hchars : ∀ name ∈ laterKeys, ∀ c ∈ name.toList, isMarkup c = false := by decide
  exact reachesMarkup_key name (hchars name hname) hshape

theorem misses_key_headersFront {name : String} (hname : name ∈ laterKeys)
    {shape : List Char → Option (List Char × List Char)} (hshape : ShowsMarkup shape) :
    Misses (fun s => (key? name s).bind shape) (headersFront request) := by
  have htexts := misses_key hname shape
  exact misses_headersFront (fun text hmem => htexts text (by
      rcases List.mem_append.1 hmem with hmem | hmem <;> simp [hmem]))
    (missesQuoted_quotedTexts h (reachesMarkup_laterKey hname hshape))

/-- A shorthand has nothing behind the address. -/
theorem member?_code_of_no_options {name : String} (hname : name ∈ laterKeys)
    {shape : List Char → Option (List Char × List Char)} (hshape : ShowsMarkup shape)
    (hoptions : request.hasOptions = false) : member? name shape (code request) = none := by
  have hne : ∀ name ∈ laterKeys, name ≠ "" := by decide
  have htexts := misses_key hname shape
  apply member?_eq_none (hne name hname)
  exact misses_shorthandCode (fun text hmem => htexts text (by simp [hmem]))
    (misses_url h (reachesMarkup_laterKey hname hshape)) hoptions

/-! ## Blocks in braces -/

/-- Behind the credentials no name has a block. -/
theorem member?_bodyCode_eq_none {name : String}
    (hname : Text.lacksWordEverywhere name.toList ':' "  data: \x7b".toList = true) :
    member? name braced? (bodyCode request) = none := by
  have hend : '\x7b' ∉ ending.toList := by decide
  have htexts : ∀ text ∈ ["  data: ", ",\n"], '\x7b' ∉ text.toList := by decide
  unfold bodyCode bodyLine
  cases hcontent : request.content with
  | none => exact member?_braced_eq_none hend
  | some body =>
      rw [memberLine_some]
      rcases h.body body hcontent with ⟨hplain, hliteral⟩ | hobject
      · apply member?_braced_eq_none
        rw [bodyLiteral_eq_getD, hliteral, Option.getD_none, toList_quote]
        simp only [List.mem_append, not_or]
        exact ⟨⟨htexts _ (by simp), brace_not_mem_quoteChars (Or.inr hplain) (Or.inl rfl),
          htexts _ (by simp)⟩, hend⟩
      · -- the only brace that opens stands behind `data`, which is not the name
        obtain ⟨inside, hinside, -, hopening, -⟩ := hobject.exists_inside
        have hbrace : "  data: \x7b".toList = "  data: ".toList ++ ['\x7b'] := by decide
        have htext : "  data: ".toList ++ ((bodyLiteral body).toList ++ ",\n".toList) ++
            ending.toList = "  data: \x7b".toList ++ (inside ++ ('\x7d' :: (",\n".toList ++
              ending.toList))) := by
          rw [bodyLiteral_eq_getD, hobject.jsonLiteral?_eq, Option.getD_some, hinside, hbrace]
          simp only [List.append_assoc, List.cons_append, List.nil_append]
        rw [htext, member?_append ((needsWord_key name braced?).misses hname)]
        apply member?_braced_eq_none
        simp only [List.mem_append, List.mem_cons, not_or]
        exact ⟨hopening, by decide, htexts _ (by simp), hend⟩

theorem headersOf_code : headersOf (code request) = request.headers := by
  have hname : "headers" ∈ laterKeys := by decide
  cases hoptions : request.hasOptions with
  | false =>
      rw [headersOf, member?_code_of_no_options h hname showsMarkup_braced hoptions]
      exact Headers.eq_of_entries_eq (Request.entries_eq_nil_of_hasOptions hoptions).symm
  | true =>
      have hmarkup := reachesMarkup_laterKey hname showsMarkup_braced
      have htexts := misses_of_mem_missed "headers" credentialTexts (by simp [missed])
        (needsWord_key "headers" braced?)
      have hblock : Misses headersPattern (credentialBlock request.credentials) :=
        misses_credentialBlock htexts fun text hmem =>
          missesQuoted_quotedTexts h hmarkup text (by simp [quotedTexts, hmem])
      rw [code, if_pos hoptions, bodyFront, credentialsFront, List.append_assoc, List.append_assoc]
      apply headersOf_headerBlock h.headers (misses_key_headersFront h hname showsMarkup_braced)
      intro _
      rw [member?_append hblock]
      exact member?_bodyCode_eq_none h (by decide)

theorem credentials?_code : credentials? (code request) = request.credentials := by
  have hname : "auth" ∈ laterKeys := by decide
  cases hoptions : request.hasOptions with
  | false =>
      rw [credentials?, member?_code_of_no_options h hname showsMarkup_braced hoptions]
      exact (Request.credentials_eq_none_of_hasOptions hoptions).symm
  | true =>
      have hmarkup := reachesMarkup_laterKey hname showsMarkup_braced
      have htexts := misses_of_mem_missed "auth" (headerTexts ++ ["  "]) (by simp [missed])
        (needsWord_key "auth" braced?)
      have hfront : Misses (fun s => (key? "auth" s).bind braced?) (credentialsFront request) :=
        (misses_key_headersFront h hname showsMarkup_braced).append
          (misses_headerBlock (fun text hmem => htexts text (by simp [hmem])) fun text hmem =>
            missesQuoted_quotedTexts h hmarkup text (by simp [quotedTexts, hmem]))
      rw [code, if_pos hoptions, bodyFront, List.append_assoc]
      cases hcredentials : request.credentials with
      | none =>
          have hnone : member? "auth" braced? (bodyCode request) = none :=
            member?_bodyCode_eq_none h (by decide)
          rw [credentials?, member?_append hfront]
          change (member? "auth" braced? (bodyCode request)).bind _ = none
          rw [hnone]
          rfl
      | some credentials =>
          obtain ⟨huser, hpassword⟩ := h.credentials credentials hcredentials
          exact credentials?_credentialBlock huser hpassword
            (hfront.append (htexts "  " (by simp))) (bodyCode request)

/-! ## The body -/

omit h in
theorem misses_data_bodyFront
    (hquoted : MissesQuoted (fun s => (key? "data" s).bind literal?) (quotedTexts request)) :
    Misses (fun s => (key? "data" s).bind literal?) (bodyFront request) := by
  have htexts := misses_of_mem_missed "data" (frontTexts ++ ["  ", ending]) (by simp [missed])
    (needsWord_key "data" literal?)
  exact misses_bodyFront (fun text hmem => htexts text (by simp [hmem])) hquoted

theorem data?_code :
    (member? "data" literal? (code request)).map String.ofList = callBody request := by
  have hname : "data" ∈ laterKeys := by decide
  have hfront := misses_data_bodyFront
    (missesQuoted_quotedTexts h (reachesMarkup_laterKey hname showsMarkup_literal))
  unfold callBody
  cases hcontent : request.content with
  | none =>
      have hnone : member? "data" literal? (code request) = none := by
        cases hoptions : request.hasOptions with
        | false => exact member?_code_of_no_options h hname showsMarkup_literal hoptions
        | true =>
            have hending := misses_of_mem_missed "data" (frontTexts ++ ["  ", ending])
              (by simp [missed]) (needsWord_key "data" literal?) ending (by simp)
            rw [code, if_pos hoptions, bodyCode, hcontent]
            exact member?_eq_none (by decide) (hfront.append hending)
      rw [hnone]
      rfl
  | some body =>
      rcases h.body body hcontent with ⟨hplain, hliteral⟩ | hobject
      · have hvalue := literal?_bodyLiteral_of_plain hplain hliteral
        rw [data?_code_eq_some hcontent hfront hvalue, Option.map_some, Option.map_some, hliteral,
          String.ofList_toList]
        rfl
      · have hvalue := literal?_bodyLiteral_of_closesOnce hobject.toClosesOnce
        rw [data?_code_eq_some hcontent hfront hvalue, Option.map_some, Option.map_some,
          hobject.jsonLiteral?_eq, String.ofList_toList]
        rfl

/-! ## Other calls -/

/-- The calls that are no call of `axios` itself. -/
def calls : List String := "fetch" :: shorthands.map ("axios." ++ ·)

/-- The calls that are no shorthand for `get` either. -/
def otherCalls : List String := "fetch" :: shorthandsWithBody.map ("axios." ++ ·)

omit h in
theorem reachesMarkup_of_mem_calls {name : String} (hname : name ∈ calls) :
    ReachesMarkup (call? name) := by
  have hchars : ∀ name ∈ calls, ∀ c ∈ name.toList, isMarkup c = false := by decide
  exact reachesMarkup_call (hchars name hname)

omit h in
/-- All of the code but the shorthand itself is passed over. -/
theorem misses_call {name : String} (hname : name ∈ calls) :
    ∀ text ∈ callTexts ++ [shorthandEnding], Misses (call? name) text.toList := by
  rcases List.mem_cons.1 hname with rfl | hshorthand
  · exact misses_of_mem_missed "fetch" _ (by simp [missed]) (needsWord_call "fetch")
  · obtain ⟨method, -, rfl⟩ := List.mem_map.1 hshorthand
    exact misses_of_mem_missed "axios" _ (by simp [missed]) (needsWord_shorthand method)

omit h in
theorem misses_call_bodyFront {name : String} (hname : name ∈ calls)
    (hquoted : MissesQuoted (call? name) (quotedTexts request)) :
    Misses (call? name) (bodyFront request) :=
  misses_bodyFront (fun text hmem => misses_call hname text (by simp [callTexts, hmem])) hquoted

theorem misses_call_bodyLine {name : String} (hname : name ∈ calls) :
    Misses (call? name) (bodyLine request.content) := by
  have hcommas : ∀ name ∈ calls, ',' ∉ name.toList := by decide
  have htexts := misses_call hname
  have hdata := htexts "  data: " (by simp [callTexts])
  unfold bodyLine
  cases hcontent : request.content with
  | none => exact Misses.nil
  | some body =>
      rw [memberLine_some, bodyLiteral_eq_getD]
      rcases h.body body hcontent with ⟨hplain, hliteral⟩ | hobject
      · have hquoted := (reachesMarkup_of_mem_calls hname).misses_quoteChars (Or.inr hplain)
        have hcomma := htexts ",\n" (by simp [callTexts, frontTexts, urlTexts])
        rw [hliteral, Option.getD_none, toList_quote]
        exact hdata.append (hquoted.append hcomma)
      · have hsplit : ",\n".toList = [','] ++ "\n".toList := by decide
        have hparen := misses_call_of_no_paren (hcommas name hname) hobject.no_opening_paren
        rw [hobject.jsonLiteral?_eq, Option.getD_some, hsplit,
          ← List.append_assoc (Text.trim body).toList]
        exact hdata.append (hparen.append (htexts "\n" (by simp [callTexts])))

theorem misses_call_of_options {name : String} (hname : name ∈ calls)
    (hoptions : request.hasOptions = true) : Misses (call? name) (code request) := by
  have hfront := misses_call_bodyFront hname
    (missesQuoted_quotedTexts h (reachesMarkup_of_mem_calls hname))
  have hending := misses_call hname ending (by simp [callTexts])
  rw [code, if_pos hoptions, bodyCode]
  exact hfront.append ((misses_call_bodyLine h hname).append hending)

/-- Neither kind of code makes another call. -/
theorem misses_call_code {name : String} (hname : name ∈ otherCalls) :
    Misses (call? name) (code request) := by
  have hcalls : ∀ name ∈ otherCalls, name ∈ calls := by decide
  cases hoptions : request.hasOptions with
  | true => exact misses_call_of_options h (hcalls name hname) hoptions
  | false =>
      have htexts := misses_call (hcalls name hname)
      have hlacks : ∀ name ∈ otherCalls,
          Text.lacksWordEverywhere name.toList '(' "axios.get(".toList = true := by
        decide
      apply misses_shorthandCode _ (misses_url h (reachesMarkup_of_mem_calls (hcalls name hname)))
        hoptions
      intro text hmem
      simp only [shorthandTexts, List.mem_cons, List.not_mem_nil, or_false] at hmem
      rcases hmem with rfl | rfl | rfl | rfl
      · exact htexts imports (by simp [callTexts, frontTexts, methodTexts])
      · exact htexts declaration (by simp [callTexts, frontTexts, methodTexts])
      · exact (needsWord_call name).misses (hlacks name hname)
      · exact htexts shorthandEnding (by simp)

/-! ## The shorthand -/

theorem shorthand?_code_of_options (hoptions : request.hasOptions = true) :
    shorthand? (code request) = none := by
  unfold shorthand?
  refine (misses_shorthand ?_ _).search?_eq_none rfl
  intro method hmem
  exact misses_call_of_options h (List.mem_cons_of_mem "fetch" (List.mem_map_of_mem hmem)) hoptions

/-- Without options the call is a shorthand for `get`. -/
theorem shorthand?_code_of_no_options (hoptions : request.hasOptions = false) :
    shorthand? (code request) = some ("get", request.url.toList) := by
  have hopening : "axios.get(".toList = ("axios." ++ "get").toList ++ ['('] := by decide
  have hfront : ∀ method ∈ shorthands, Misses (call? ("axios." ++ method)) front := by
    intro method hmem
    have htexts := misses_call (List.mem_cons_of_mem "fetch" (List.mem_map_of_mem hmem))
    exact (htexts imports (by simp [callTexts, frontTexts, methodTexts])).append
      (htexts declaration (by simp [callTexts, frontTexts, methodTexts]))
  have hcall : ∀ rest, shorthandCall? (("axios." ++ "get").toList ++ '(' ::
      (quoteChars request.url.toList ++ rest)) shorthands =
        some ("get", quoteChars request.url.toList ++ rest) := by
    intro rest
    unfold shorthands shorthandCall?
    rw [call?_append, stripStart_quoteChars]
  rw [code, hoptions, if_neg (by decide), hopening, List.append_assoc, List.singleton_append]
  unfold shorthand?
  apply (misses_shorthand hfront _).search?_eq_some
  rw [hcall, Option.bind_some, quoted?_quoteChars h.url.toList_ne_nil h.url.not_markup]
  rfl

theorem shorthandBody?_code : shorthandBody? (code request) = none := by
  unfold shorthandBody?
  refine (misses_shorthand ?_ _).search?_eq_none rfl
  intro method hmem
  exact misses_call_code h (List.mem_cons_of_mem "fetch" (List.mem_map_of_mem hmem))

/-! ## The whole call -/

theorem body?_code : (body? (code request)).map String.ofList = callBody request := by
  have hdata := data?_code h
  unfold body?
  split
  · next body hbody => rwa [hbody] at hdata
  · next hnone =>
      rw [hnone] at hdata
      rw [shorthandBody?_code h]
      exact hdata

theorem target_code : target (code request) = (request.method, request.url) := by
  cases hoptions : request.hasOptions with
  | true =>
      rw [target, shorthand?_code_of_options h hoptions, method?_code h hoptions,
        url?_code h hoptions]
      simp only [Option.map_some, Option.getD_some, String.ofList_toList,
        h.method.ofString_toLower_name]
  | false =>
      have hlower : Text.toLower "GET" = "get" := by decide
      have hmethod := h.method.ofString_toLower_name
      rw [Request.name_eq_get_of_hasOptions hoptions, hlower] at hmethod
      rw [target, shorthand?_code_of_no_options h hoptions]
      simp only [hmethod, String.ofList_toList]

theorem readChars_code :
    readChars (code request) =
      { method := request.method, url := request.url, headers := request.headers
        body := callBody request, credentials := request.credentials } := by
  rw [readChars, target_code h, headersOf_code h, body?_code h, credentials?_code h]

end Call

/-- A call is read back as the request that it was written from, be it a shorthand or not. -/
theorem read_render_eq_with_credentials {request : Request} (h : IsExpressible request) :
    read (render request) =
      { method := request.method, url := request.url, headers := request.headers
        body := callBody request, credentials := request.credentials } := by
  rw [read, toList_render, readChars_code h]

/-- Names in front of values are read back where plain texts and a body hold them, and so is an
empty password. -/
theorem read_render_of_object_full_of_names :
    let request : Request := {
      method := .ofString "PATCH"
      url := "data: axios.get url: x"
      headers := .ofPairs [("auth: x", "username: password: y"), ("X-Data", "headers: z")]
      body := some "  \x7b\"data\": \"x\", \"auth\": [\"username: y\"]\x7d\n"
      credentials := some ⟨"data: x", ""⟩ }
    IsExpressible request ∧ read (render request) =
      { method := request.method, url := request.url, headers := request.headers
        body := some "\x7b\"data\": \"x\", \"auth\": [\"username: y\"]\x7d"
        credentials := request.credentials } := by
  intro request
  have h : IsExpressible request := by decide +kernel
  have hbody : callBody request = some "\x7b\"data\": \"x\", \"auth\": [\"username: y\"]\x7d" := by
    decide +kernel
  refine ⟨h, ?_⟩
  rw [read_render_eq_with_credentials h, hbody]

end RequestForms.Snippet.Axios
