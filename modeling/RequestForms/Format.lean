import RequestForms.Collection.Entry
import RequestForms.Command.Arguments
import RequestForms.Command.Session
import RequestForms.Json.Reader
import RequestForms.Snippet.Axios
import RequestForms.Snippet.Fetch
import RequestForms.Text.Halves

/-!
# The written forms of a request

The forms that requests are read from and written in, by name, and how a form is recognised. Only
the strings of a collection can hold halves of pairs.
-/

namespace RequestForms

inductive InputFormat where
  | curl
  | fetch
  | axios
  | postman
deriving DecidableEq, Repr

inductive OutputFormat where
  | fetch
  | axios
  | curl
deriving DecidableEq, Repr

inductive ConversionError where
  | unknownInput (name : String)
  | unknownOutput (name : String)
  | notJson (failure : Json.Failure)
  | notRequest (fault : Collection.Fault)

namespace InputFormat

/-- All of them, in the order in which they are listed for users. -/
def all : List InputFormat := [curl, fetch, axios, postman]

def name : InputFormat → String
  | curl => "curl"
  | fetch => "fetch"
  | axios => "axios"
  | postman => "postman"

def ofName? (name : String) : Option InputFormat := all.find? fun format => format.name = name

/-- Whether a text is a collection: a JSON object that has information and items. -/
def isCollection (text : String) : Bool :=
  match Json.read text with
  | .ok (.object members) => (members.lookup "info").isSome && (members.lookup "item").isSome
  | _ => false

def detect? (text : String) : Option InputFormat :=
  let trimmed := Text.trim text
  let s := trimmed.toList
  if "curl ".toList.isPrefixOf s || "curl\n".toList.isPrefixOf s then some curl
  else if isCollection trimmed then some postman
  else if Text.occurs "fetch(".toList s || Text.occurs "fetch (".toList s then some fetch
  else if Text.occurs "axios".toList s then some axios
  else none

/-- The requests in a text of a form. Only a collection can fail, and only it can have none or
several. -/
def read (text : String) : InputFormat → Except ConversionError (List Request)
  | curl => .ok [Command.read text]
  | fetch => .ok [Snippet.Fetch.read text]
  | axios => .ok [Snippet.Axios.read text]
  | postman =>
      match Json.read text with
      | .error failure => .error (.notJson failure)
      | .ok collection => (Collection.requests collection).mapError .notRequest

/-- A text in which other characters are read in the places of halves. -/
def respelled (text : String) : InputFormat → String
  | postman => String.ofList (Json.respelled text.toList)
  | _ => text

/-- The requests in a text of a form, with the halves that their texts hold. -/
def readTwofold (text : String) (format : InputFormat) :
    Except (Twofold ConversionError) (List (Twofold Request)) :=
  (Twofold.ofResults (format.read text) (format.read (format.respelled text))).map fun requests =>
    Twofold.ofLists requests.first requests.second

end InputFormat

namespace OutputFormat

def all : List OutputFormat := [fetch, axios, curl]

def name : OutputFormat → String
  | fetch => "fetch"
  | axios => "axios"
  | curl => "curl"

def ofName? (name : String) : Option OutputFormat := all.find? fun format => format.name = name

def render (request : Request) : OutputFormat → String
  | fetch => Snippet.Fetch.render request
  | axios => Snippet.Axios.render request
  | curl => Command.render request

end OutputFormat

def ConversionError.message : ConversionError → String
  | unknownInput name => s!"Unknown format: {name}"
  | unknownOutput name =>
      s!"Unknown output format: {name}. Use " ++
        ", ".intercalate (OutputFormat.all.map OutputFormat.name) ++ "."
  | notJson failure => failure.message
  | notRequest fault => fault.message

end RequestForms
