import RequestForms.Request.Basic
import RequestForms.Snippet.Literal
import RequestForms.Snippet.Pattern

/-!
# Calls of `axios`

Either a shorthand such as `axios.get` with the address as its first argument, or a call with one
object that holds everything.
-/

namespace RequestForms.Snippet.Axios

def shorthands : List String := ["get", "post", "put", "patch", "delete", "head", "options"]

/-- The methods whose shorthand has a body as its second argument. -/
def shorthandsWithBody : List String := ["post", "put", "patch"]

def shorthandCall? (s : List Char) : List String → Option (String × List Char)
  | [] => none
  | method :: more =>
      match call? ("axios." ++ method) s with
      | some rest => some (method, rest)
      | none => shorthandCall? s more

def shorthand? (code : List Char) : Option (String × List Char) :=
  Text.search? (fun s =>
    (shorthandCall? s shorthands).bind fun found =>
      (quoted? found.2).map fun url => (found.1, url.1)) code

/-- A body: the inside of a string, or an object with its braces. -/
def literal? (s : List Char) : Option (List Char × List Char) :=
  match quoted? s with
  | some found => some found
  | none => (braced? s).map fun found => ('\x7b' :: found.1 ++ ['\x7d'], found.2)

def shorthandBody? (code : List Char) : Option (List Char) :=
  Text.search? (fun s =>
    (shorthandCall? s shorthandsWithBody).bind fun found =>
      (quoted? found.2).bind fun url =>
        (behindMark? ',' url.2).bind fun rest => (literal? rest).map Prod.fst) code

def body? (code : List Char) : Option (List Char) :=
  match member? "data" literal? code with
  | some body => some body
  | none => shorthandBody? code

/-- The credentials of a call. A password alone does not count. -/
def credentials? (code : List Char) : Option Credentials :=
  (member? "auth" braced? code).bind fun block =>
    (member? "username" quoted? block).map fun user =>
      ⟨String.ofList user, ((member? "password" quoted? block).map String.ofList).getD ""⟩

def target (code : List Char) : Method × String :=
  match shorthand? code with
  | some (method, url) => (Method.ofString method, String.ofList url)
  | none =>
      (((member? "method" quotedWord? code).map (Method.ofString <| String.ofList ·)).getD
          Method.get,
        ((member? "url" quoted? code).map String.ofList).getD "")

/-- The request that a call makes. What it does not give has its default. -/
def readChars (code : List Char) : Request where
  method := (target code).1
  url := (target code).2
  headers := headersOf code
  body := (body? code).map String.ofList
  credentials := credentials? code

def read (code : String) : Request := readChars code.toList

def headerLines (headers : Headers) : List String :=
  match headers.entries with
  | [] => []
  | entries =>
      ["  headers: \x7b"] ++
        entries.map (fun header =>
          "    " ++ quote header.1 ++ ": " ++ quote header.2 ++ ",") ++
        ["  \x7d,"]

def credentialLines (credentials : Credentials) : List String :=
  ["  auth: \x7b", "    username: " ++ quote credentials.user ++ ",",
    "    password: " ++ quote credentials.password ++ ",", "  \x7d,"]

def configLines (request : Request) : List String :=
  ["  method: " ++ quote (Text.toLower request.method.name) ++ ",",
    "  url: " ++ quote request.url ++ ","] ++
  headerLines request.headers ++
  request.credentials.toList.flatMap credentialLines ++
  (request.content.toList.map fun body => "  data: " ++ bodyLiteral body ++ ",")

def lines (request : Request) : List String :=
  ["import axios from 'axios';", ""] ++
  (if request.hasOptions then
      ["const \x7b data \x7d = await axios(\x7b"] ++ configLines request ++ ["\x7d);", ""]
    else ["const \x7b data \x7d = await axios.get(" ++ quote request.url ++ ");"]) ++
  ["console.log(data);"]

def render (request : Request) : String := "\n".intercalate (lines request)

end RequestForms.Snippet.Axios
