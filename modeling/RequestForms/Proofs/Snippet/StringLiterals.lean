import RequestForms.Proofs.Snippet.Axios.Code
import RequestForms.Snippet.Fetch

/-!
# String literals in calls

Where the body is no JSON, all single quotes in a call are those around its texts. So a scan of the
call that takes what follows a backslash for a character of the text finds the texts as they were
given, whatever they hold.
-/

namespace RequestForms.Snippet

/-! ## The scan -/

/-- Where a scan stands: outside of all string literals, or behind some text of one, with a
backslash directly before it or not. -/
inductive Place where
  | code
  | literal (text : List Char)
  | escape (text : List Char)

/-- The texts of the string literals behind a place, unless the last one is left open. -/
def literalsFrom : Place → List Char → Option (List String)
  | .code, [] => some []
  | .literal _, [] => none
  | .escape _, [] => none
  | .code, c :: rest =>
      if c = '\'' then literalsFrom (.literal []) rest else literalsFrom .code rest
  | .literal text, c :: rest =>
      if c = '\\' then literalsFrom (.escape text) rest
      else if c = '\'' then (literalsFrom .code rest).map (String.ofList text :: ·)
      else literalsFrom (.literal (text ++ [c])) rest
  | .escape text, c :: rest => literalsFrom (.literal (text ++ [c])) rest

def literals (code : String) : Option (List String) := literalsFrom .code code.toList

theorem literalsFrom_code_append {code : List Char} (h : '\'' ∉ code) (rest : List Char) :
    literalsFrom .code (code ++ rest) = literalsFrom .code rest := by
  induction code with
  | nil => rfl
  | cons c code ih =>
      simp only [List.mem_cons, not_or] at h
      rw [List.cons_append, literalsFrom, if_neg (Ne.symm h.1), ih h.2]

/-- Inside of a literal the escaped characters are those that were to be written. -/
theorem literalsFrom_literal_append (text s rest : List Char) :
    literalsFrom (.literal text) (s.flatMap escaped ++ rest) =
      literalsFrom (.literal (text ++ s)) rest := by
  induction s generalizing text with
  | nil => simp
  | cons c s ih =>
      rw [List.flatMap_cons, escaped]
      split
      · calc
          literalsFrom (.literal text) (['\\', c] ++ s.flatMap escaped ++ rest) =
              literalsFrom (.escape text) (c :: (s.flatMap escaped ++ rest)) := by
            simp only [List.cons_append, List.nil_append, literalsFrom, if_pos]
          _ = literalsFrom (.literal (text ++ [c])) (s.flatMap escaped ++ rest) := by
            rw [literalsFrom]
          _ = literalsFrom (.literal (text ++ c :: s)) rest := by
            rw [ih, List.append_assoc, List.singleton_append]
      · next hc =>
          simp only [not_or] at hc
          calc
            literalsFrom (.literal text) ([c] ++ s.flatMap escaped ++ rest) =
                literalsFrom (.literal (text ++ [c])) (s.flatMap escaped ++ rest) := by
              rw [List.singleton_append, List.cons_append, literalsFrom, if_neg hc.1, if_neg hc.2]
            _ = literalsFrom (.literal (text ++ c :: s)) rest := by
              rw [ih, List.append_assoc, List.singleton_append]

theorem literalsFrom_quoteChars_append (s rest : List Char) :
    literalsFrom .code (quoteChars s ++ rest) =
      (literalsFrom .code rest).map (String.ofList s :: ·) := by
  have hquote : '\'' ≠ '\\' := by decide
  calc
    literalsFrom .code (quoteChars s ++ rest) =
        literalsFrom .code ('\'' :: (s.flatMap escaped ++ '\'' :: rest)) := by
      rw [quoteChars, List.append_assoc]
      rfl
    _ = literalsFrom (.literal []) (s.flatMap escaped ++ '\'' :: rest) := by
      rw [literalsFrom, if_pos rfl]
    _ = literalsFrom (.literal s) ('\'' :: rest) := by
      rw [literalsFrom_literal_append, List.nil_append]
    _ = (literalsFrom .code rest).map (String.ofList s :: ·) := by
      rw [literalsFrom, if_neg hquote, if_pos rfl]

/-! ## Pieces of code -/

/-- Code in which all string literals end, with the texts of those. -/
def Holds (code : List Char) (texts : List String) : Prop :=
  ∀ rest, literalsFrom .code (code ++ rest) = (literalsFrom .code rest).map (texts ++ ·)

theorem Holds.literals_eq {code : String} {texts : List String} (h : Holds code.toList texts) :
    literals code = some texts := by
  have hall := h []
  rw [List.append_nil] at hall
  rw [literals, hall, literalsFrom, Option.map_some, List.append_nil]

theorem Holds.append {a b : List Char} {ta tb : List String} (ha : Holds a ta) (hb : Holds b tb) :
    Holds (a ++ b) (ta ++ tb) := by
  intro rest
  rw [List.append_assoc, ha, hb, Option.map_map]
  simp only [Function.comp_def, List.append_assoc]

theorem holds_of_not_mem {code : List Char} (h : '\'' ∉ code) : Holds code [] := by
  intro rest
  rw [literalsFrom_code_append h]
  exact Option.map_id'.symm

theorem holds_quote (s : String) : Holds (quote s).toList [s] := by
  intro rest
  rw [toList_quote, literalsFrom_quoteChars_append, String.ofList_toList]
  rfl

/-- Code with one more text behind it. -/
theorem Holds.quote {code : String} {texts : List String} (h : Holds code.toList texts)
    (s : String) {behind : String} (hbehind : '\'' ∉ behind.toList) :
    Holds (code ++ quote s ++ behind).toList (texts ++ [s]) := by
  rw [String.toList_append, String.toList_append, ← List.append_nil (texts ++ [s])]
  exact (h.append (holds_quote s)).append (holds_of_not_mem hbehind)

/-! ## Lines of code -/

/-- Lines none of which leaves a string literal open, with the texts of all. -/
inductive LinesHold : List String → List String → Prop
  | nil : LinesHold [] []
  | cons {line : String} {lines texts more : List String} (hline : Holds line.toList texts)
      (hlines : LinesHold lines more) : LinesHold (line :: lines) (texts ++ more)

namespace LinesHold

theorem append {la lb ta tb : List String} (ha : LinesHold la ta) (hb : LinesHold lb tb) :
    LinesHold (la ++ lb) (ta ++ tb) := by
  induction ha with
  | nil => exact hb
  | cons hline _ ih =>
      rw [List.cons_append, List.append_assoc]
      exact .cons hline ih

theorem singleton {line : String} {texts : List String} (h : Holds line.toList texts) :
    LinesHold [line] texts := by
  rw [← List.append_nil texts]
  exact .cons h .nil

theorem of_not_mem {lines : List String} (h : ∀ line ∈ lines, '\'' ∉ line.toList) :
    LinesHold lines [] := by
  induction lines with
  | nil => exact .nil
  | cons line lines ih =>
      exact .cons (holds_of_not_mem (h line (by simp)))
        (ih fun other hmem => h other (List.mem_cons_of_mem line hmem))

theorem flatMap {α : Type} {lines texts : α → List String} {as : List α}
    (h : ∀ a ∈ as, LinesHold (lines a) (texts a)) :
    LinesHold (as.flatMap lines) (as.flatMap texts) := by
  induction as with
  | nil => exact .nil
  | cons a as ih =>
      rw [List.flatMap_cons, List.flatMap_cons]
      exact (h a (by simp)).append (ih fun b hmem => h b (List.mem_cons_of_mem a hmem))

theorem map {α : Type} {line : α → String} {texts : α → List String} {as : List α}
    (h : ∀ a ∈ as, Holds (line a).toList (texts a)) :
    LinesHold (as.map line) (as.flatMap texts) := by
  rw [← List.flatMap_singleton' (as.map line), List.flatMap_map]
  exact flatMap fun a hmem => singleton (h a hmem)

/-- Lines between two lines without texts. -/
theorem block {lines texts : List String} (h : LinesHold lines texts) {opening closing : String}
    (hopening : '\'' ∉ opening.toList) (hclosing : '\'' ∉ closing.toList) :
    LinesHold ([opening] ++ lines ++ [closing]) texts := by
  rw [← List.append_nil texts]
  exact append (.cons (holds_of_not_mem hopening) h) (singleton (holds_of_not_mem hclosing))

theorem holds_intercalate {lines texts : List String} (h : LinesHold lines texts) :
    Holds ("\n".intercalate lines).toList texts := by
  have hbehind : ∀ {lines texts}, LinesHold lines texts →
      Holds ((lines.map String.toList).flatMap ("\n".toList ++ ·)) texts := by
    intro lines texts h
    induction h with
    | nil => exact holds_of_not_mem (by simp)
    | cons hline _ ih =>
        rw [List.map_cons, List.flatMap_cons]
        exact ((holds_of_not_mem (by decide)).append hline).append ih
  rw [String.toList_intercalate]
  cases h with
  | nil => exact holds_of_not_mem (by simp)
  | cons hline hlines =>
      rw [List.map_cons, Text.intercalate_cons]
      exact hline.append (hbehind hlines)

end LinesHold

theorem holds_headerLine (name value : String) :
    Holds ("    " ++ quote name ++ ": " ++ quote value ++ ",").toList [name, value] :=
  (Holds.quote (holds_of_not_mem (by decide)) name (by decide)).quote value (by decide)

/-- A line with one text. -/
theorem holds_line {front behind : String} (hfront : '\'' ∉ front.toList)
    (hbehind : '\'' ∉ behind.toList) (s : String) :
    Holds (front ++ quote s ++ behind).toList [s] :=
  Holds.quote (holds_of_not_mem hfront) s hbehind

/-- Lines with one text each, which stands in quotes. -/
theorem linesHold_map_quote {front : String} (hfront : '\'' ∉ front.toList)
    {expression : String → String} {texts : List String}
    (h : ∀ text ∈ texts, expression text = quote text) :
    LinesHold (texts.map fun text => front ++ expression text ++ ",") texts := by
  have hline : ∀ text ∈ texts, Holds (front ++ expression text ++ ",").toList [text] := by
    intro text hmem
    rw [h text hmem]
    exact holds_line hfront (by decide) text
  have hlines := LinesHold.map hline
  rwa [List.flatMap_singleton'] at hlines

/-! ## Calls of `axios` -/

namespace Axios

def literalTexts (request : Request) : List String :=
  "axios" :: if request.hasOptions then
    Text.toLower request.method.name :: request.url :: (headerFields request.headers.entries ++
      credentialFields request.credentials ++ request.content.toList)
  else [request.url]

theorem linesHold_headerLines (headers : Headers) :
    LinesHold (headerLines headers) (headerFields headers.entries) := by
  unfold headerLines
  split
  · next hnil =>
      rw [hnil]
      exact .nil
  · have hentries := LinesHold.map fun header (_ : header ∈ headers.entries) =>
      holds_headerLine header.1 header.2
    exact hentries.block (by decide) (by decide)

theorem linesHold_credentialLines (credentials : Credentials) :
    LinesHold (credentialLines credentials) [credentials.user, credentials.password] := by
  have huser : Holds ("    username: " ++ quote credentials.user ++ ",").toList
      [credentials.user] := holds_line (by decide) (by decide) _
  have hpassword : Holds ("    password: " ++ quote credentials.password ++ ",").toList
      [credentials.password] := holds_line (by decide) (by decide) _
  exact .cons (holds_of_not_mem (by decide)) (.cons huser (.cons hpassword
    (.of_not_mem (by decide))))

theorem linesHold_configLines {request : Request}
    (hbody : ∀ body ∈ request.content, jsonLiteral? body = none) :
    LinesHold (configLines request)
      (Text.toLower request.method.name :: request.url :: (headerFields request.headers.entries ++
        credentialFields request.credentials ++ request.content.toList)) := by
  have hmethod : LinesHold ["  method: " ++ quote (Text.toLower request.method.name) ++ ","]
      [Text.toLower request.method.name] := .singleton (holds_line (by decide) (by decide) _)
  have hurl : LinesHold ["  url: " ++ quote request.url ++ ","] [request.url] :=
    .singleton (holds_line (by decide) (by decide) _)
  have hcredentials : LinesHold (request.credentials.toList.flatMap credentialLines)
      (credentialFields request.credentials) :=
    .flatMap fun credentials _ => linesHold_credentialLines credentials
  have hbodies : LinesHold (request.content.toList.map fun body =>
      "  data: " ++ bodyLiteral body ++ ",") request.content.toList := by
    apply linesHold_map_quote (by decide)
    intro body hmem
    rw [bodyLiteral_eq_getD, hbody body (Option.mem_toList.1 hmem), Option.getD_none]
  exact (((hmethod.append hurl).append (linesHold_headerLines request.headers)).append
    hcredentials).append hbodies

theorem linesHold_lines {request : Request}
    (hbody : ∀ body ∈ request.content, jsonLiteral? body = none) :
    LinesHold (lines request) (literalTexts request) := by
  have himports : LinesHold ["import axios from 'axios';", ""] ["axios"] := by
    have hquoted : "import axios from 'axios';" = "import axios from " ++ quote "axios" ++ ";" := by
      decide
    rw [hquoted]
    exact .cons (holds_line (by decide) (by decide) "axios") (.of_not_mem (by decide))
  have hprinting : LinesHold ["console.log(data);"] [] := .of_not_mem (by decide)
  unfold lines literalTexts
  split
  · have hopening : LinesHold ["const \x7b data \x7d = await axios(\x7b"] [] :=
      .of_not_mem (by decide)
    have hclosing : LinesHold ["\x7d);", ""] [] := .of_not_mem (by decide)
    have hcall := (hopening.append (linesHold_configLines hbody)).append hclosing
    have hall := (himports.append hcall).append hprinting
    rwa [List.nil_append, List.append_nil, List.append_nil] at hall
  · have hcall : LinesHold
        ["const \x7b data \x7d = await axios.get(" ++ quote request.url ++ ");"] [request.url] :=
      .singleton (holds_line (by decide) (by decide) _)
    exact (himports.append hcall).append hprinting

end Axios

/-! ## Calls of `fetch` -/

namespace Fetch

/-- The texts in quotes in the block of headers. With credentials the value of their header is no
text in quotes, and its name comes last if it is not given. -/
def headerLiterals (request : Request) : List String :=
  if request.credentials.isSome then
    (request.headers.entries.flatMap fun header =>
      if header.1 = "Authorization" then [header.1] else [header.1, header.2]) ++
    if "Authorization" ∈ request.headers.entries.map Prod.fst then [] else ["Authorization"]
  else headerFields request.headers.entries

def literalTexts (request : Request) : List String :=
  request.credentials.toList.map Credentials.joined ++ request.url ::
    if request.hasOptions then
      request.method.name :: (headerLiterals request ++ request.content.toList)
    else []

def entryTexts (entry : String × Option String) : List String := entry.1 :: entry.2.toList

theorem flatMap_entryTexts (request : Request) :
    (headerEntries request).flatMap entryTexts = headerLiterals request := by
  have hkeys : (request.headers.entries.map fun header => (header.1, some header.2)).map Prod.fst =
      request.headers.entries.map Prod.fst := by
    rw [List.map_map]
    rfl
  unfold headerEntries headerLiterals
  dsimp only
  split
  · by_cases hmem : "Authorization" ∈ request.headers.entries.map Prod.fst
    · have hnodup := request.headers.nodup_names
      rw [← hkeys] at hnodup hmem
      rw [Assoc.set_of_mem hnodup hmem, if_pos (hkeys ▸ hmem), List.map_map, List.flatMap_map,
        List.append_nil]
      apply List.flatMap_congr
      intro header _
      unfold entryTexts
      dsimp only [Function.comp]
      split <;> rfl
    · rw [Assoc.set_of_not_mem (hkeys.symm ▸ hmem), if_neg hmem, List.flatMap_append,
        List.flatMap_map, List.flatMap_singleton]
      apply congrArg (· ++ _)
      apply List.flatMap_congr
      intro header hheader
      have hname : header.1 ≠ "Authorization" := by
        intro he
        exact hmem (he ▸ List.mem_map_of_mem hheader)
      rw [if_neg hname]
      rfl
  · rw [List.flatMap_map]
    rfl

theorem holds_headerLine (entry : String × Option String) :
    Holds (headerLine entry).toList (entryTexts entry) := by
  obtain ⟨name, value⟩ := entry
  cases value with
  | none => exact holds_line (by decide) (by decide) name
  | some value => exact Snippet.holds_headerLine name value

theorem linesHold_headerLines (request : Request) :
    LinesHold (headerLines request) (headerLiterals request) := by
  rw [← flatMap_entryTexts]
  unfold headerLines
  split
  · next hnil =>
      rw [hnil]
      exact .nil
  · have hentries := LinesHold.map fun entry (_ : entry ∈ headerEntries request) =>
      holds_headerLine entry
    exact hentries.block (by decide) (by decide)

theorem linesHold_lines {request : Request}
    (hbody : ∀ body ∈ request.content, jsonLiteral? body = none) :
    LinesHold (lines request) (literalTexts request) := by
  have hcredentials : LinesHold (request.credentials.toList.flatMap fun credentials =>
      ["const credentials = btoa(" ++ quote credentials.joined ++ ");", ""])
      (request.credentials.toList.map Credentials.joined) := by
    have hlines : ∀ credentials : Credentials, LinesHold
        ["const credentials = btoa(" ++ quote credentials.joined ++ ");", ""]
        [credentials.joined] := fun credentials =>
      .cons (holds_line (by decide) (by decide) _) (.of_not_mem (by decide))
    have hall := LinesHold.flatMap fun credentials (_ : credentials ∈ request.credentials.toList) =>
      hlines credentials
    rwa [← List.map_eq_flatMap] at hall
  have hreading : LinesHold ["", "const data = await response.json();", "console.log(data);"] [] :=
    .of_not_mem (by decide)
  unfold lines literalTexts
  split
  · have hurl : LinesHold ["const response = await fetch(" ++ quote request.url ++ ", \x7b"]
        [request.url] := .singleton (holds_line (by decide) (by decide) _)
    have hmethod : LinesHold ["  method: " ++ quote request.method.name ++ ","]
        [request.method.name] := .singleton (holds_line (by decide) (by decide) _)
    have hclosing : LinesHold ["\x7d);"] [] := .of_not_mem (by decide)
    have hbodies : LinesHold (request.content.toList.map fun body =>
        "  body: " ++ bodyExpression body ++ ",") request.content.toList := by
      apply linesHold_map_quote (by decide)
      intro body hmem
      rw [bodyExpression, hbody body (Option.mem_toList.1 hmem)]
    have hcall := (((hurl.append hmethod).append (linesHold_headerLines request)).append
      hbodies).append hclosing
    have hall := (hcredentials.append hcall).append hreading
    rwa [List.append_nil, List.append_nil] at hall
  · have hcall : LinesHold ["const response = await fetch(" ++ quote request.url ++ ");"]
        [request.url] := .singleton (holds_line (by decide) (by decide) _)
    have hall := (hcredentials.append hcall).append hreading
    rwa [List.append_nil] at hall

end Fetch

/-! ## Whole calls -/

/-- Where the body is no JSON, the string literals of a call are its texts, and none is left open. -/
theorem literals_render {request : Request}
    (hbody : ∀ body ∈ request.content, jsonLiteral? body = none) :
    literals (Fetch.render request) = some (Fetch.literalTexts request) ∧
      literals (Axios.render request) = some (Axios.literalTexts request) :=
  ⟨(Fetch.linesHold_lines hbody).holds_intercalate.literals_eq,
    (Axios.linesHold_lines hbody).holds_intercalate.literals_eq⟩

/-- Quotes and backslashes in any mix stay inside of their literals. -/
theorem literals_render_of_quotes_and_backslashes :
    let request : Request := {
      method := .ofString "p'"
      url := "/\\'');"
      headers := .ofPairs [("Authorization", "a"), ("\\", "''\\\\'")]
      body := some "',\\\\"
      credentials := some ⟨"it's", "\\'"⟩ }
    jsonLiteral? "',\\\\" = none ∧
      literals (Fetch.render request) =
        some ["it's:\\'", "/\\'');", "P'", "Authorization", "\\", "''\\\\'", "',\\\\"] ∧
      literals (Axios.render request) =
        some ["axios", "p'", "/\\'');", "Authorization", "a", "\\", "''\\\\'", "it's", "\\'",
          "',\\\\"] := by
  intro request
  have hnone : jsonLiteral? "',\\\\" = none := by decide +kernel
  have hbody : ∀ body ∈ request.content, jsonLiteral? body = none := by decide +kernel
  obtain ⟨hfetch, haxios⟩ := literals_render hbody
  refine ⟨hnone, hfetch.trans ?_, haxios.trans ?_⟩
  · decide +kernel
  · decide +kernel

end RequestForms.Snippet
