import RequestForms.Request.Basic
import RequestForms.Snippet.Literal
import RequestForms.Snippet.Pattern

/-!
# Calls of `fetch`

The address is the first argument, and the second one is an object with the rest. A body that is
JSON is the argument of `JSON.stringify`.
-/

namespace RequestForms.Snippet.Fetch

def url? (code : List Char) : Option (List Char) :=
  Text.search? (fun s => ((call? "fetch" s).bind quoted?).map Prod.fst) code

/-- The argument of `JSON.stringify`, with the blanks around it. -/
def stringified? (s : List Char) : Option (List Char × List Char) :=
  (Text.dropExact? "JSON.stringify".toList s).bind fun rest =>
    parenthesized? (Text.stripStart rest)

def body? (code : List Char) : Option String :=
  match member? "body" stringified? code with
  | some argument => some (String.ofList (Text.strip argument))
  | none => (member? "body" quoted? code).map String.ofList

/-- The request that a call makes. What it does not give has its default. -/
def readChars (code : List Char) : Request where
  method := ((member? "method" quotedWord? code).map (Method.ofString <| String.ofList ·)).getD
    Method.get
  url := ((url? code).map String.ofList).getD ""
  headers := headersOf code
  body := body? code

def read (code : String) : Request := readChars code.toList

/-- The headers of a call: each name with its value, or none for the one that holds the
credentials. -/
def headerEntries (request : Request) : List (String × Option String) :=
  let given := request.headers.entries.map fun header => (header.1, some header.2)
  if request.credentials.isSome then Assoc.set "Authorization" none given else given

def headerLine : String × Option String → String
  | (name, some value) => "    " ++ quote name ++ ": " ++ quote value ++ ","
  | (name, none) => "    " ++ quote name ++ ": `Basic $\x7bcredentials\x7d`,"

def headerLines (request : Request) : List String :=
  match headerEntries request with
  | [] => []
  | entries => ["  headers: \x7b"] ++ entries.map headerLine ++ ["  \x7d,"]

def bodyExpression (body : String) : String :=
  match jsonLiteral? body with
  | some literal => "JSON.stringify(" ++ literal ++ ")"
  | none => quote body

def lines (request : Request) : List String :=
  (request.credentials.toList.flatMap fun credentials =>
    ["const credentials = btoa(" ++ quote credentials.joined ++ ");", ""]) ++
  (if request.hasOptions then
      ["const response = await fetch(" ++ quote request.url ++ ", \x7b",
        "  method: " ++ quote request.method.name ++ ","] ++
      headerLines request ++
      (request.content.toList.map fun body => "  body: " ++ bodyExpression body ++ ",") ++
      ["\x7d);"]
    else ["const response = await fetch(" ++ quote request.url ++ ");"]) ++
  ["", "const data = await response.json();", "console.log(data);"]

def render (request : Request) : String := "\n".intercalate (lines request)

end RequestForms.Snippet.Fetch
