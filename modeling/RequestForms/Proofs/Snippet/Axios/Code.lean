import RequestForms.Proofs.Request
import RequestForms.Proofs.Snippet.Headers
import RequestForms.Proofs.Text.Lines
import RequestForms.Snippet.Axios

/-!
# The code of a call of `axios`

A call is code with texts in quotes between. A pattern misses the part before the body if it misses
each piece of the code and each text.
-/

namespace RequestForms.Snippet.Axios

open Text (Misses)

def imports : String := "import axios from 'axios';\n\n"

def declaration : String := "const \x7b data \x7d = await "

def shorthandEnding : String := ");\nconsole.log(data);"

def ending : String := "\x7d);\n\nconsole.log(data);"

def front : List Char := imports.toList ++ declaration.toList

def urlFront (request : Request) : List Char :=
  front ++ ("axios(\x7b\n".toList ++ ("  method: ".toList ++
    (quoteChars (Text.toLower request.method.name).toList ++ ",\n".toList)))

def headersFront (request : Request) : List Char :=
  urlFront request ++ ("  url: ".toList ++ (quoteChars request.url.toList ++ ",\n".toList))

def credentialInside (credentials : Credentials) : List Char :=
  "\n    username: ".toList ++ (quoteChars credentials.user.toList ++
    (",\n    password: ".toList ++ (quoteChars credentials.password.toList ++ ",\n  ".toList)))

def credentialBlock (credentials : Option Credentials) : List Char :=
  credentials.toList.flatMap fun credentials =>
    "  auth: \x7b".toList ++ (credentialInside credentials ++ "\x7d,\n".toList)

def credentialsFront (request : Request) : List Char :=
  headersFront request ++ headerBlock request.headers.entries

def bodyFront (request : Request) : List Char :=
  credentialsFront request ++ credentialBlock request.credentials

def bodyLine (content : Option String) : List Char :=
  memberLine "  data: " bodyLiteral content

def bodyCode (request : Request) : List Char := bodyLine request.content ++ ending.toList

def code (request : Request) : List Char :=
  if request.hasOptions then bodyFront request ++ bodyCode request
  else front ++ ("axios.get(".toList ++
    (quoteChars request.url.toList ++ shorthandEnding.toList))

theorem flatMap_headerLines (headers : Headers) :
    (headerLines headers).flatMap (fun line => line.toList ++ ['\n']) =
      headerBlock headers.entries := by
  unfold headerLines
  split
  · next hnil =>
      rw [headerBlock, if_pos hnil]
      rfl
  · next hne => exact Snippet.flatMap_headerLines hne

theorem flatMap_credentialLines (credentials : Option Credentials) :
    (credentials.toList.flatMap credentialLines).flatMap (fun line => line.toList ++ ['\n']) =
      credentialBlock credentials := by
  have hbreak : ['\n'] = "\n".toList := by decide
  have huser : "\n    username: " = "\n" ++ "    username: " := rfl
  have hpassword : ",\n    password: " = "," ++ "\n" ++ "    password: " := rfl
  have hend : ",\n  " = "," ++ "\n" ++ "  " := rfl
  have hclose : "\x7d,\n" = "\x7d," ++ "\n" := rfl
  have hlast : "  \x7d," = "  " ++ "\x7d," := rfl
  cases credentials with
  | none => rfl
  | some credentials =>
      unfold credentialBlock credentialInside
      simp only [Option.toList_some, credentialLines, List.flatMap_cons, List.flatMap_nil,
        List.append_nil, huser, hpassword, hend, hclose, hlast, hbreak, String.toList_append,
        toList_quote, List.append_assoc]

theorem toList_render (request : Request) : (render request).toList = code request := by
  have hbreak : ['\n'] = "\n".toList := by decide
  have himports : imports = "import axios from 'axios';" ++ "\n" ++ "" ++ "\n" := rfl
  unfold render lines configLines code front
  rw [Text.toList_intercalate_lines, List.flatMap_append, himports]
  split
  · have hcall : "const \x7b data \x7d = await axios(\x7b" = declaration ++ "axios(\x7b" := rfl
    have hopening : "axios(\x7b\n" = "axios(\x7b" ++ "\n" := rfl
    have hcomma : ",\n" = "," ++ "\n" := rfl
    have hending : ending = "\x7d);" ++ "\n" ++ "" ++ "\n" ++ "console.log(data);" := rfl
    unfold bodyFront bodyCode bodyLine credentialsFront headersFront urlFront front
    simp only [List.flatMap_append, flatMap_headerLines, flatMap_credentialLines,
      flatMap_memberLine, List.flatMap_cons, List.flatMap_nil, List.append_assoc, List.append_nil]
    simp only [himports, hcall, hopening, hcomma, hending, hbreak, String.toList_append,
      toList_quote, List.append_assoc]
  · have hcall : "const \x7b data \x7d = await axios.get(" = declaration ++ "axios.get(" := rfl
    have hending : shorthandEnding = ");" ++ "\n" ++ "console.log(data);" := rfl
    simp only [List.flatMap_cons, List.flatMap_nil, String.toList_append, toList_quote,
      List.append_assoc, List.append_nil, hcall, hending, hbreak]

theorem getLast?_code (request : Request) : (code request).getLast? = some ';' := by
  have hending : ending.toList.getLast? = some ';' := by decide
  have hshorthandEnding : shorthandEnding.toList.getLast? = some ';' := by decide
  unfold code bodyCode
  split
  · rw [← List.append_assoc, List.getLast?_append, hending]
    rfl
  · rw [← List.append_assoc, ← List.append_assoc, List.getLast?_append, hshorthandEnding]
    rfl

theorem prefix_code (request : Request) : imports.toList <+: code request := by
  unfold code bodyFront credentialsFront headersFront urlFront front
  split
  · simp only [List.append_assoc]
    exact List.prefix_append _ _
  · rw [List.append_assoc]
    exact List.prefix_append _ _

/-! ## Shorthands -/

section Shorthand

variable {α : Type} {methods : List String}

theorem exists_of_shorthandCall? {s rest : List Char} {method : String}
    (h : shorthandCall? s methods = some (method, rest)) :
    method ∈ methods ∧ call? ("axios." ++ method) s = some rest := by
  induction methods with
  | nil => cases h
  | cons m more ih =>
      unfold shorthandCall? at h
      split at h
      · next found hcall =>
          obtain ⟨rfl, rfl⟩ := Prod.mk.inj (Option.some.inj h)
          exact ⟨by simp, hcall⟩
      · obtain ⟨hmem, hcall⟩ := ih h
        exact ⟨List.mem_cons_of_mem m hmem, hcall⟩

theorem needsWord_shorthand (method : String) :
    Text.NeedsWord "axios".toList '.' (call? ("axios." ++ method)) := by
  have hname : "axios.".toList = "axios".toList ++ ['.'] := by decide
  intro s hs
  obtain ⟨t, rfl, -⟩ := needsWord_call ("axios." ++ method) s hs
  refine ⟨'.' :: (method.toList ++ t), ?_, ?_⟩
  · rw [String.toList_append, hname]
    simp only [List.append_assoc, List.cons_append, List.nil_append]
  · rw [Text.stripStart_cons_of_not_blank (by decide)]
    rfl

/-- Where none of the calls stands, there is no shorthand. -/
theorem misses_shorthand {text : List Char}
    (h : ∀ method ∈ methods, Misses (call? ("axios." ++ method)) text)
    (value : String × List Char → Option α) :
    Misses (fun s => (shorthandCall? s methods).bind value) text := by
  intro s behind hs hsuffix
  change (shorthandCall? (s ++ behind) methods).bind value = none
  cases hcall : shorthandCall? (s ++ behind) methods with
  | none => rfl
  | some found =>
      obtain ⟨hmem, hfound⟩ := exists_of_shorthandCall? hcall
      rw [h found.1 hmem s behind hs hsuffix] at hfound
      cases hfound

end Shorthand

/-! ## What patterns miss -/

def methodTexts : List String := [imports, declaration, "axios(\x7b\n", "  method: ", ",\n"]

def urlTexts : List String := ["  url: ", ",\n"]

def credentialTexts : List String :=
  ["  auth: \x7b", "\n    username: ", ",\n    password: ", ",\n  ", "\x7d,\n"]

def frontTexts : List String := methodTexts ++ urlTexts ++ headerTexts ++ credentialTexts

def shorthandTexts : List String := [imports, declaration, "axios.get(", shorthandEnding]

def callTexts : List String := frontTexts ++ ["  data: ", "\n", ending]

def laterKeys : List String := ["headers", "auth", "data"]

/-- Words with a mark, each with the code that it is missed in. -/
def missed : List ((String × Char) × List String) :=
  [(("method", ':'), [imports, declaration, "axios(\x7b\n", "  "]),
    (("url", ':'), methodTexts ++ ["  "]),
    (("headers", ':'), credentialTexts),
    (("auth", ':'), headerTexts ++ ["  "]),
    (("username", ':'), ["\n    "]),
    (("password", ':'), ["\n    username: ", ",\n    "]),
    (("data", ':'), frontTexts ++ ["  ", ending]),
    (("fetch", '('), callTexts ++ [shorthandEnding]),
    (("axios", '.'), callTexts ++ [shorthandEnding])] ++
  laterKeys.map fun name => ((name, ':'), methodTexts ++ urlTexts ++ shorthandTexts)

def credentialFields (credentials : Option Credentials) : List String :=
  credentials.toList.flatMap fun credentials => [credentials.user, credentials.password]

def quotedTexts (request : Request) : List String :=
  Text.toLower request.method.name :: request.url :: (headerFields request.headers.entries ++
    credentialFields request.credentials)

section Misses

variable {α : Type} {pattern : List Char → Option α} {request : Request}

/-- A pattern that needs a word misses the code that has it nowhere. -/
theorem misses_of_mem_missed (word : String) {mark : Char} (texts : List String)
    (hmem : ((word, mark), texts) ∈ missed) (hneeds : Text.NeedsWord word.toList mark pattern) :
    ∀ text ∈ texts, Misses pattern text.toList := by
  have hlacks : ∀ entry ∈ missed, ∀ text ∈ entry.2,
      Text.lacksWordEverywhere entry.1.1.toList entry.1.2 text.toList = true := by
    decide +kernel
  exact hneeds.misses_of_mem (hlacks _ hmem)

theorem misses_urlFront (htexts : ∀ text ∈ methodTexts, Misses pattern text.toList)
    (hmethod : Misses pattern (quoteChars (Text.toLower request.method.name).toList)) :
    Misses pattern (urlFront request) :=
  ((htexts imports (by simp [methodTexts])).append
    (htexts declaration (by simp [methodTexts]))).append
      ((htexts "axios(\x7b\n" (by simp [methodTexts])).append
        ((htexts "  method: " (by simp [methodTexts])).append
          (hmethod.append (htexts ",\n" (by simp [methodTexts])))))

theorem misses_headersFront (htexts : ∀ text ∈ methodTexts ++ urlTexts, Misses pattern text.toList)
    (hquoted : MissesQuoted pattern (quotedTexts request)) :
    Misses pattern (headersFront request) :=
  (misses_urlFront (fun text hmem => htexts text (by simp [hmem]))
    (hquoted _ (by simp [quotedTexts]))).append
      ((htexts "  url: " (by simp [urlTexts])).append
        ((hquoted request.url (by simp [quotedTexts])).append (htexts ",\n" (by simp [urlTexts]))))

theorem misses_credentialBlock (htexts : ∀ text ∈ credentialTexts, Misses pattern text.toList)
    {credentials : Option Credentials}
    (hfields : MissesQuoted pattern (credentialFields credentials)) :
    Misses pattern (credentialBlock credentials) := by
  apply Misses.flatMap
  intro c hmem
  have huser := hfields c.user (List.mem_flatMap.2 ⟨c, hmem, by simp⟩)
  have hpassword := hfields c.password (List.mem_flatMap.2 ⟨c, hmem, by simp⟩)
  exact (htexts "  auth: \x7b" (by simp [credentialTexts])).append
    (((htexts "\n    username: " (by simp [credentialTexts])).append (huser.append
      ((htexts ",\n    password: " (by simp [credentialTexts])).append (hpassword.append
        (htexts ",\n  " (by simp [credentialTexts])))))).append
          (htexts "\x7d,\n" (by simp [credentialTexts])))

theorem misses_bodyFront (htexts : ∀ text ∈ frontTexts, Misses pattern text.toList)
    (hquoted : MissesQuoted pattern (quotedTexts request)) : Misses pattern (bodyFront request) :=
  ((misses_headersFront (fun text hmem => htexts text (by
      rcases List.mem_append.1 hmem with hmem | hmem <;> simp [frontTexts, hmem])) hquoted).append
    (misses_headerBlock (fun text hmem => htexts text (by simp [frontTexts, hmem]))
      fun text hmem => hquoted text (by simp [quotedTexts, hmem]))).append
    (misses_credentialBlock (fun text hmem => htexts text (by simp [frontTexts, hmem]))
      fun text hmem => hquoted text (by simp [quotedTexts, hmem]))

theorem misses_shorthandCode (htexts : ∀ text ∈ shorthandTexts, Misses pattern text.toList)
    (hurl : Misses pattern (quoteChars request.url.toList))
    (hoptions : request.hasOptions = false) : Misses pattern (code request) := by
  have hfront : Misses pattern front := (htexts imports (by simp [shorthandTexts])).append
    (htexts declaration (by simp [shorthandTexts]))
  rw [code, hoptions, if_neg (by decide)]
  exact hfront.append ((htexts "axios.get(" (by simp [shorthandTexts])).append
    (hurl.append (htexts shorthandEnding (by simp [shorthandTexts]))))

end Misses

end RequestForms.Snippet.Axios
